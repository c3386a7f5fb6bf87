import Anviq.Json.Canonical
import Anviq.Json.NumberValue

/-! # What a canonical text determines

The canonical text is the compact text of a normal form of the value: its members
sorted, and its zeros without a sign. It reads back as that normal form, so two
values have one text exactly when they have one normal form, and exactly when
they are the same value up to the order of members and the sign of zeros.
-/

namespace Json

/-! ## Writing -/

/-- The reader undoes ECMAScript's escapes. -/
theorem ecmaEscape_unescapes : Unescapes ecmaEscape := by
  intro char rest
  unfold ecmaEscape
  split_ifs with quoteMark backslash backspace formFeed newline carriageReturn tab control
  · rw [quoteMark]
    exact scanString_escaped (by decide) rest
  · rw [backslash]
    exact scanString_escaped (by decide) rest
  · rw [backspace]
    exact scanString_escaped (by decide) rest
  · rw [formFeed]
    exact scanString_escaped (by decide) rest
  · rw [newline]
    exact scanString_escaped (by decide) rest
  · rw [carriageReturn]
    exact scanString_escaped (by decide) rest
  · rw [tab]
    exact scanString_escaped (by decide) rest
  · exact scanString_unicodeEscape (by omega) rest
  · exact scanString_plain (not_lt.mp control) quoteMark backslash rest

/-- A number is written as its layout, without the sign of zero. -/
theorem ecmaNumber_eq (number : Number) : ecmaNumber number = number.unsigned.layout := by
  cases number <;> rfl

section Normal

variable {ν : Type}

mutual

/-- A value with the members of every object in UTF-16 order. -/
def sortNames : Json ν → Json ν
  | .null => .null
  | .bool value => .bool value
  | .num value => .num value
  | .str value => .str value
  | .arr elements => .arr (sortNamesElements elements)
  | .obj members => .obj (sortUtf16 (sortNamesMembers members))

def sortNamesElements : List (Json ν) → List (Json ν)
  | [] => []
  | element :: elements => sortNames element :: sortNamesElements elements

def sortNamesMembers : Members ν → Members ν
  | [] => []
  | (name, value) :: members => (name, sortNames value) :: sortNamesMembers members

end

theorem sortNamesElements_eq (elements : List (Json ν)) :
    sortNamesElements elements = elements.map sortNames := by
  induction elements with
  | nil => rfl
  | cons element elements ih => simp only [sortNamesElements, List.map_cons, ih]

theorem sortNamesMembers_eq (members : Members ν) :
    sortNamesMembers members = members.map fun member => (member.1, sortNames member.2) := by
  induction members with
  | nil => rfl
  | cons member members ih => simp only [sortNamesMembers, List.map_cons, ih]

end Normal

/-- Sorting by name commutes with a change of the items. -/
theorem sortUtf16_map {α β : Type} (f : α → β) (items : List (String × α)) :
    sortUtf16 (items.map fun item => (item.1, f item.2)) =
      (sortUtf16 items).map fun item => (item.1, f item.2) := by
  induction items with
  | nil => rfl
  | cons item items ih =>
      have insert (sorted : List (String × α)) :
          (sorted.orderedInsert (fun left right => Utf16.le left.1 right.1 = true) item).map
              (fun item => (item.1, f item.2)) =
            (sorted.map fun item => (item.1, f item.2)).orderedInsert
              (fun left right => Utf16.le left.1 right.1 = true) (item.1, f item.2) := by
        induction sorted with
        | nil => rfl
        | cons first sorted ih =>
            simp only [List.orderedInsert, List.map_cons]
            split
            · rfl
            · rw [List.map_cons, ih]
      simp only [sortUtf16, List.map_cons, List.insertionSort_cons] at ih ⊢
      rw [ih, insert]

section Text

variable {ν : Type} (number : ν → List Char)

theorem commaSeparated_cons_cons (first second : List Char) (texts : List (List Char)) :
    commaSeparated (first :: second :: texts) = first ++ ',' :: commaSeparated (second :: texts) := by
  simp [commaSeparated, List.intercalate_cons_cons]

theorem printElements_eq (escape : Char → List Char) (elements : List (Json ν)) :
    printElements escape number elements =
      commaSeparated (elements.map (print escape number)) := by
  induction elements with
  | nil => rfl
  | cons element elements ih =>
      cases elements with
      | nil => simp [printElements, commaSeparated]
      | cons second elements =>
          rw [printElements_cons_cons, ih]
          simp only [List.map_cons, commaSeparated_cons_cons]

theorem printMembers_eq (escape : Char → List Char) (members : Members ν) :
    printMembers escape number members =
      commaSeparated (members.map fun member =>
        quote escape member.1 ++ ':' :: print escape number member.2) := by
  induction members with
  | nil => rfl
  | cons member members ih =>
      cases members with
      | nil => simp [printMembers, commaSeparated]
      | cons second members =>
          rw [printMembers]
          · rw [ih]
            simp only [List.map_cons, commaSeparated_cons_cons]
          · exact List.cons_ne_nil _ _

/-- Printing a tree whose numbers were mapped prints the numbers as mapped. -/
theorem print_map {μ : Type} (escape : Char → List Char) (f : μ → ν) (json : Json μ) :
    print escape number (json.map f) = print escape (number ∘ f) json := by
  induction json using Json.induction with
  | null => rfl
  | bool value => cases value <;> rfl
  | num value => rfl
  | str value => rfl
  | arr elements ih =>
      rw [map, print, print, printElements_eq, printElements_eq, mapElements_eq, List.map_map]
      refine congrArg (fun texts => '[' :: commaSeparated texts ++ [']']) ?_
      exact List.map_congr_left ih
  | obj members ih =>
      rw [map, print, print, printMembers_eq, printMembers_eq, mapMembers_eq, List.map_map]
      refine congrArg (fun texts => '\x7b' :: commaSeparated texts ++ ['\x7d']) ?_
      apply List.map_congr_left
      intro member present
      simp only [Function.comp_apply, ih member present]

end Text

/-- The canonical text is the compact text of the value with sorted names. -/
theorem canonical_eq_print (json : Json Number) :
    canonical json = print ecmaEscape ecmaNumber json.sortNames := by
  induction json using Json.induction with
  | null => rfl
  | bool value => cases value <;> rfl
  | num value => rfl
  | str value => rfl
  | arr elements ih =>
      rw [canonical, sortNames, print, printElements_eq, canonicalElements_eq, sortNamesElements_eq,
        List.map_map, List.map_congr_left ih]
      rfl
  | obj members ih =>
      have items : canonicalMembers members =
          (sortNamesMembers members).map fun member =>
            (member.1, print ecmaEscape ecmaNumber member.2) := by
        rw [canonicalMembers_eq, sortNamesMembers_eq, List.map_map]
        exact List.map_congr_left fun member present => Prod.ext rfl (ih member present)
      rw [canonical, sortNames, print, printMembers_eq, items, sortUtf16_map, List.map_map]
      rfl

/-! ## Reading -/

/-- The normal form of a value. -/
def normal (json : Json Number) : Json Number := (json.map Number.unsigned).sortNames

/-- Sorting does not look at numbers. -/
theorem sortNames_map {ν μ : Type} (f : ν → μ) (json : Json ν) :
    (json.map f).sortNames = json.sortNames.map f := by
  induction json using Json.induction with
  | null => rfl
  | bool value => rfl
  | num value => rfl
  | str value => rfl
  | arr elements ih =>
      simp only [map, sortNames, mapElements_eq, sortNamesElements_eq, List.map_map]
      congr 1
      exact List.map_congr_left ih
  | obj members ih =>
      have values : (mapMembers f members).map (fun member => (member.1, sortNames member.2)) =
          (members.map fun member => (member.1, sortNames member.2)).map
            fun member => (member.1, map f member.2) := by
        rw [mapMembers_eq, List.map_map, List.map_map]
        exact List.map_congr_left fun member present => Prod.ext rfl (ih member present)
      simp only [map, sortNames, mapMembers_eq, sortNamesMembers_eq] at values ⊢
      rw [values, sortUtf16_map]

/-- The canonical text is the compact text of the normal form. -/
theorem canonical_eq_normal (json : Json Number) :
    json.canonical = print ecmaEscape Number.layout json.normal := by
  have numbers : ecmaNumber = Number.layout ∘ Number.unsigned := funext ecmaNumber_eq
  rw [canonical_eq_print, normal, sortNames_map, print_map, numbers]

/-- A canonical text reads back as the normal form. -/
theorem parse_canonical (json : Json Number) :
    (parse (String.ofList json.canonical)).map (map fun token => Number.ofText token.toList) =
      some json.normal := by
  have numbers : (fun token : String => Number.ofText token.toList) ∘
      (fun number : Number => String.ofList number.layout) = id := by
    funext number
    simp [Number.ofText_layout]
  rw [canonical_eq_normal, parse_print ecmaEscape_unescapes Number.layout_recognised,
    Option.map_some, map_map, numbers, map_id]

/-- **Two values have one canonical text exactly when they have one normal form.** -/
theorem canonical_eq_iff {left right : Json Number} :
    left.canonical = right.canonical ↔ left.normal = right.normal := by
  constructor
  · intro same
    have read := parse_canonical left
    rw [same, parse_canonical right] at read
    exact (Option.some.inj read).symm
  · intro same
    rw [canonical_eq_normal, same, canonical_eq_normal]

/-! ## The same value -/

section Same

variable {ν μ : Type}

/-- The same JSON value: objects are compared as finite maps, and numbers by
`same`. -/
inductive Same (same : ν → ν → Prop) : Json ν → Json ν → Prop where
  | null : Same same .null .null
  | bool (value : Bool) : Same same (.bool value) (.bool value)
  | num {left right : ν} (numbers : same left right) : Same same (.num left) (.num right)
  | str (value : String) : Same same (.str value) (.str value)
  | arr {left right : List (Json ν)} (elements : List.Forall₂ (Same same) left right) :
      Same same (.arr left) (.arr right)
  | obj {left right : Members ν}
      (names : ∀ name, (left.get? name).isSome = (right.get? name).isSome)
      (values : ∀ name leftValue rightValue, left.get? name = some leftValue →
        right.get? name = some rightValue → Same same leftValue rightValue) :
      Same same (.obj left) (.obj right)

/-- A value is the same as itself, if its numbers are. -/
theorem Same.refl {same : ν → ν → Prop} (numbers : ∀ value, same value value) (json : Json ν) :
    Same same json json := by
  induction json using Json.induction with
  | null => exact .null
  | bool value => exact .bool value
  | num value => exact .num (numbers value)
  | str value => exact .str value
  | arr elements ih => exact .arr (List.forall₂_same.mpr ih)
  | obj members ih =>
      apply Same.obj (fun _ => rfl)
      intro name left right leftFound rightFound
      rw [leftFound] at rightFound
      rw [← Option.some.inj rightFound]
      exact ih _ (Members.mem_of_get? leftFound)

/-- Objects that are the same hold the same under a name, as far as `read` can tell. -/
theorem Same.get?_bind {same : ν → ν → Prop} {β : Type} {read : Json ν → Option β}
    (agree : ∀ left right, Same same left right → read left = read right)
    {left right : Members ν} (related : Same same (.obj left) (.obj right)) (name : String) :
    (left.get? name).bind read = (right.get? name).bind read := by
  cases related with
  | obj names values =>
      have both := names name
      cases leftFound : left.get? name with
      | none =>
          cases rightFound : right.get? name with
          | none => rfl
          | some value => simp [leftFound, rightFound] at both
      | some leftValue =>
          cases rightFound : right.get? name with
          | none => simp [leftFound, rightFound] at both
          | some rightValue => exact agree _ _ (values _ _ _ leftFound rightFound)

/-- Objects whose members are the same in order are the same. -/
theorem Same.obj_of_forall₂ {same : ν → ν → Prop} {left right : Members ν}
    (members : List.Forall₂ (fun first second => first.1 = second.1 ∧ Same same first.2 second.2)
      left right) : Same same (.obj left) (.obj right) := by
  refine .obj ?_ ?_
  · intro name
    induction members with
    | nil => rfl
    | cons head _ ih =>
        rw [Members.get?_cons, Members.get?_cons, head.1]
        split
        · rfl
        · exact ih
  · intro name leftValue rightValue leftFound rightFound
    induction members with
    | nil => cases leftFound
    | cons head _ ih =>
        rw [Members.get?_cons] at leftFound rightFound
        rw [head.1] at leftFound
        split at leftFound
        · next named =>
            rw [if_pos named] at rightFound
            rw [← Option.some.inj leftFound, ← Option.some.inj rightFound]
            exact head.2
        · next other =>
            rw [if_neg other] at rightFound
            exact ih leftFound rightFound

/-- A member of an object with different names is found under its name. -/
theorem Members.mem_iff_get? {members : Members ν} (distinct : (members.map Prod.fst).Nodup)
    {name : String} {value : Json ν} :
    (name, value) ∈ members ↔ members.get? name = some value := by
  constructor
  · intro present
    cases found : members.get? name with
    | none =>
        exact absurd (List.mem_map_of_mem present) (Members.get?_eq_none.mp found)
    | some other =>
        have both := List.inj_on_of_nodup_map distinct present (Members.mem_of_get? found) rfl
        rw [(Prod.mk.inj both).2]
  · exact Members.mem_of_get?

/-- Objects with different names are the same map when they have the same members. -/
theorem Members.perm_iff_get? {left right : Members ν} (leftDistinct : (left.map Prod.fst).Nodup)
    (rightDistinct : (right.map Prod.fst).Nodup) :
    left.Perm right ↔ ∀ name, left.get? name = right.get? name := by
  constructor
  · intro perm name
    exact Members.get?_perm perm leftDistinct name
  · intro same
    apply (List.perm_ext_iff_of_nodup leftDistinct.of_map rightDistinct.of_map).mpr
    rintro ⟨name, value⟩
    rw [mem_iff_get? leftDistinct, mem_iff_get? rightDistinct, same]

/-- Members with different names are sorted alike exactly if they say the same of every name. -/
theorem sortUtf16_eq_iff {left right : Members ν} (leftDistinct : (left.map Prod.fst).Nodup)
    (rightDistinct : (right.map Prod.fst).Nodup) :
    sortUtf16 left = sortUtf16 right ↔ ∀ name, left.get? name = right.get? name := by
  rw [← Members.perm_iff_get? leftDistinct rightDistinct]
  constructor
  · intro same
    exact (List.perm_insertionSort _ left).symm.trans
      ((List.Perm.of_eq same).trans (List.perm_insertionSort _ right))
  · intro perm
    exact sortUtf16_perm perm leftDistinct

/-- The normal form of an object, member by member. -/
theorem sortNames_obj (f : ν → μ) (members : Members ν) :
    ((Json.obj members).map f).sortNames =
      .obj (sortUtf16 (members.map fun member => (member.1, (map f member.2).sortNames))) := by
  rw [map, sortNames, mapMembers_eq, sortNamesMembers_eq, List.map_map]
  rfl

theorem sortNames_arr (f : ν → μ) (elements : List (Json ν)) :
    ((Json.arr elements).map f).sortNames =
      .arr (elements.map fun element => (map f element).sortNames) := by
  rw [map, sortNames, mapElements_eq, sortNamesElements_eq, List.map_map]
  rfl

/-- Lists have one image when their elements are related one by one. -/
theorem map_eq_iff_forall₂ {α β : Type} {f : α → β} {related : α → α → Prop} {left right : List α}
    (each : ∀ first ∈ left, ∀ second ∈ right, f first = f second ↔ related first second) :
    left.map f = right.map f ↔ List.Forall₂ related left right := by
  induction left generalizing right with
  | nil => cases right <;> simp
  | cons first left ih =>
      cases right with
      | nil => simp
      | cons second right =>
          have heads := each first List.mem_cons_self second List.mem_cons_self
          have tails := ih fun first leftPresent second rightPresent =>
            each first (List.mem_cons_of_mem _ leftPresent) second
              (List.mem_cons_of_mem _ rightPresent)
          rw [List.map_cons, List.map_cons, List.cons.injEq, List.forall₂_cons, heads, tails]

/-- **Values whose objects have different names have one normal form exactly when
they are the same value.** -/
theorem sortNames_eq_iff (f : ν → μ) {left right : Json ν} (leftDistinct : left.Distinct)
    (rightDistinct : right.Distinct) :
    (left.map f).sortNames = (right.map f).sortNames ↔
      Same (fun first second => f first = f second) left right := by
  induction left using Json.induction generalizing right with
  | null =>
      cases right with
      | null => exact ⟨fun _ => .null, fun _ => rfl⟩
      | _ => exact ⟨fun absurdity => by simp [map, sortNames] at absurdity, fun same => by cases same⟩
  | bool value =>
      cases right with
      | bool other =>
          constructor
          · intro equal
            obtain rfl : value = other := by simpa [map, sortNames] using equal
            exact .bool value
          · rintro ⟨⟩
            rfl
      | _ => exact ⟨fun absurdity => by simp [map, sortNames] at absurdity, fun same => by cases same⟩
  | num value =>
      cases right with
      | num other =>
          constructor
          · intro equal
            exact .num (by simpa [map, sortNames] using equal)
          · rintro ⟨⟩
            next numbers => simpa [map, sortNames] using numbers
      | _ => exact ⟨fun absurdity => by simp [map, sortNames] at absurdity, fun same => by cases same⟩
  | str value =>
      cases right with
      | str other =>
          constructor
          · intro equal
            obtain rfl : value = other := by simpa [map, sortNames] using equal
            exact .str value
          · rintro ⟨⟩
            rfl
      | _ => exact ⟨fun absurdity => by simp [map, sortNames] at absurdity, fun same => by cases same⟩
  | arr elements ih =>
      cases right with
      | arr others =>
          rw [Distinct, namesPairwise_arr] at leftDistinct rightDistinct
          have elementwise := map_eq_iff_forall₂ (f := fun element => (map f element).sortNames)
            fun first leftPresent second rightPresent =>
              ih first leftPresent (leftDistinct first leftPresent)
                (rightDistinct second rightPresent)
          rw [sortNames_arr, sortNames_arr, arr.injEq, elementwise]
          constructor
          · exact .arr
          · rintro ⟨⟩
            next related => exact related
      | _ => exact ⟨fun absurdity => by simp [map, sortNames] at absurdity, fun same => by cases same⟩
  | obj members ih =>
      cases right with
      | obj others =>
          rw [Distinct, namesPairwise_obj] at leftDistinct rightDistinct
          rw [sortNames_obj, sortNames_obj, obj.injEq, sortUtf16_eq_iff
            (by simpa [List.Nodup, Function.comp_def] using leftDistinct.1)
            (by simpa [List.Nodup, Function.comp_def] using rightDistinct.1)]
          have found (items : Members ν) (name : String) :
              Members.get? (items.map fun member => (member.1, (map f member.2).sortNames)) name =
                (items.get? name).map fun value => (map f value).sortNames :=
            Members.get?_mapValues (fun value => (map f value).sortNames) items name
          simp only [found]
          constructor
          · intro equal
            refine .obj (fun name => ?_) ?_
            · simpa using congrArg Option.isSome (equal name)
            · intro name leftValue rightValue leftFound rightFound
              have normals := equal name
              rw [leftFound, rightFound, Option.map_some, Option.map_some] at normals
              have leftPresent := Members.mem_of_get? leftFound
              have rightPresent := Members.mem_of_get? rightFound
              exact (ih _ leftPresent (leftDistinct.2 _ leftPresent)
                (rightDistinct.2 _ rightPresent)).mp (Option.some.inj normals)
          · rintro ⟨⟩ name
            next names values =>
              cases leftFound : members.get? name with
              | none =>
                  have absent := names name
                  rw [leftFound] at absent
                  have missing : Members.get? others name = none := by simpa using absent.symm
                  rw [missing]
              | some leftValue =>
                  obtain ⟨rightValue, rightFound⟩ := Option.isSome_iff_exists.mp
                    ((names name).symm.trans (leftFound ▸ rfl))
                  have leftPresent := Members.mem_of_get? leftFound
                  have rightPresent := Members.mem_of_get? rightFound
                  have normals := (ih _ leftPresent (leftDistinct.2 _ leftPresent)
                    (rightDistinct.2 _ rightPresent)).mpr
                      (values name leftValue rightValue leftFound rightFound)
                  rw [rightFound, Option.map_some, Option.map_some]
                  exact congrArg some normals
      | _ => exact ⟨fun absurdity => by simp [map, sortNames] at absurdity, fun same => by cases same⟩

/-- Only the numbers that occur are compared. -/
theorem Same.imp {P Q : ν → Prop} {same other : ν → ν → Prop}
    (weaker : ∀ first second, P first → Q second → same first second → other first second)
    {left right : Json ν} (leftNumbers : left.AllNumbers P) (rightNumbers : right.AllNumbers Q)
    (related : Same same left right) : Same other left right := by
  induction left using Json.induction generalizing right with
  | null =>
      cases related
      exact .null
  | bool value =>
      cases related
      exact .bool value
  | num value =>
      cases related with
      | num numbers => exact .num (weaker _ _ leftNumbers rightNumbers numbers)
  | str value =>
      cases related
      exact .str value
  | arr elements ih =>
      cases related with
      | @arr _ others each =>
          rw [allNumbers_arr] at leftNumbers rightNumbers
          apply Same.arr
          induction each with
          | nil => exact .nil
          | cons head _ tail =>
              rw [List.forall_mem_cons] at leftNumbers rightNumbers ih
              exact .cons (ih.1 leftNumbers.1 rightNumbers.1 head)
                (tail ih.2 leftNumbers.2 rightNumbers.2)
  | obj members ih =>
      cases related with
      | obj names values =>
          rw [allNumbers_obj] at leftNumbers rightNumbers
          apply Same.obj names
          intro name leftValue rightValue leftFound rightFound
          have leftPresent := Members.mem_of_get? leftFound
          exact ih _ leftPresent (leftNumbers _ leftPresent)
            (rightNumbers _ (Members.mem_of_get? rightFound))
            (values name leftValue rightValue leftFound rightFound)

end Same

end Json
