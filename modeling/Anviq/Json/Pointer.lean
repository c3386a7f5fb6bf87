import Anviq.Json.Value

/-! # JSON pointers

RFC 6901: the text of a pointer, the names it is read as, and what they lead to. A text is read
as some names exactly if it is the one written for them.
-/

namespace Json

variable {ν : Type}

/-! ## Reference tokens -/

/-- A character of a name, in a pointer. -/
def escapeChar (char : Char) : List Char :=
  if char = '~' then ['~', '0'] else if char = '/' then ['~', '1'] else [char]

/-- A name, in a pointer. -/
def escape (name : List Char) : List Char := name.flatMap escapeChar

/-- The name a reference token stands for, if it is one. -/
def unescape : List Char → Option (List Char)
  | [] => some []
  | '~' :: '0' :: rest => (unescape rest).map ('~' :: ·)
  | '~' :: '1' :: rest => (unescape rest).map ('/' :: ·)
  | char :: rest => if char = '~' ∨ char = '/' then none else (unescape rest).map (char :: ·)

@[simp] theorem escape_nil : escape [] = [] := rfl

theorem escape_cons (char : Char) (name : List Char) :
    escape (char :: name) = escapeChar char ++ escape name := rfl

/-- A token holds no `/`. -/
theorem slash_notMem_escape (name : List Char) : '/' ∉ escape name := by
  intro present
  obtain ⟨char, -, here⟩ := List.mem_flatMap.mp present
  unfold escapeChar at here
  split at here
  · simp at here
  · split at here
    · simp at here
    · next other => exact other (List.mem_singleton.mp here).symm

/-- What is escaped is read back. -/
theorem unescape_escape (name : List Char) : unescape (escape name) = some name := by
  induction name with
  | nil => rfl
  | cons char name ih =>
      rw [escape_cons, escapeChar]
      split
      · next tilde =>
          subst tilde
          simp only [List.cons_append, List.nil_append, unescape, ih, Option.map_some]
      · split
        · next slash =>
            subst slash
            simp only [List.cons_append, List.nil_append, unescape, ih, Option.map_some]
        · next notTilde notSlash =>
            rw [List.singleton_append, unescape]
            · simp only [notTilde, notSlash, or_self, ↓reduceIte, ih, Option.map_some]
            · exact fun _ same => absurd same notTilde
            · exact fun _ same => absurd same notTilde

/-- A token stands for a name exactly if it is what is written for it. -/
theorem unescape_eq_some {token name : List Char} : unescape token = some name ↔ token = escape name := by
  constructor
  · intro read
    induction token using unescape.induct generalizing name with
    | case1 =>
        obtain rfl := Option.some.inj read
        rfl
    | case2 rest ih =>
        obtain ⟨before, inner, rfl⟩ := Option.map_eq_some_iff.mp read
        rw [ih inner]
        rfl
    | case3 rest ih =>
        obtain ⟨before, inner, rfl⟩ := Option.map_eq_some_iff.mp read
        rw [ih inner]
        rfl
    | case4 char rest _ _ reserved =>
        rw [unescape, if_pos reserved] at read
        · cases read
        all_goals assumption
    | case5 char rest _ _ plain ih =>
        rw [unescape, if_neg plain] at read
        · obtain ⟨before, inner, rfl⟩ := Option.map_eq_some_iff.mp read
          rw [not_or] at plain
          rw [escape_cons, escapeChar, if_neg plain.1, if_neg plain.2, ← ih inner]
          rfl
        all_goals assumption
  · intro written
    rw [written, unescape_escape]

/-- A name that is written as it is. -/
def PlainName (name : String) : Prop := '/' ∉ name.toList ∧ '~' ∉ name.toList

/-- A name with a reserved character gets longer when it is written. -/
theorem length_escape (name : List Char) :
    (escape name).length = name.length + name.count '~' + name.count '/' := by
  induction name with
  | nil => rfl
  | cons char name ih =>
      rw [escape_cons, List.length_append, ih, escapeChar, List.count_cons, List.count_cons,
        List.length_cons]
      by_cases tilde : char = '~'
      · subst tilde
        simp
        omega
      · by_cases slash : char = '/'
        · subst slash
          simp
          omega
        · simp [tilde, slash]
          omega

/-- A plain name is escaped to itself. -/
theorem escape_plain {name : String} (plain : PlainName name) : escape name.toList = name.toList := by
  rw [escape]
  have each : ∀ char ∈ name.toList, escapeChar char = [char] := by
    intro char present
    rw [escapeChar, if_neg, if_neg]
    · rintro rfl
      exact plain.1 present
    · rintro rfl
      exact plain.2 present
  rw [List.flatMap_congr each, List.flatMap_singleton']

/-! ## Pointers -/

/-- The pointer to what names lead to. -/
def pointerText (names : List String) : List Char :=
  names.flatMap fun name => '/' :: escape name.toList

/-- The names of reference tokens. -/
def readNames : List (List Char) → Option (List String)
  | [] => some []
  | token :: tokens => do
      let name ← unescape token
      let names ← readNames tokens
      some (String.ofList name :: names)

/-- The names a text is read as, if it is a pointer. -/
def pointerNames : List Char → Option (List String)
  | [] => some []
  | '/' :: rest => readNames (rest.splitOn '/')
  | _ => none

/-- The names that are read are those whose escaped texts stand there. -/
theorem readNames_eq_some {tokens : List (List Char)} {names : List String} :
    readNames tokens = some names ↔ tokens = names.map fun name => escape name.toList := by
  induction tokens generalizing names with
  | nil =>
      rw [readNames, Option.some.injEq, eq_comm, List.nil_eq, List.map_eq_nil_iff]
  | cons token tokens ih =>
      simp only [readNames, Option.bind_eq_bind, Option.bind_eq_some_iff, Option.some.injEq,
        unescape_eq_some, ih]
      constructor
      · rintro ⟨name, rfl, others, rfl, rfl⟩
        rw [List.map_cons, String.toList_ofList]
      · intro same
        cases names with
        | nil => exact nomatch same
        | cons name names =>
            obtain ⟨rfl, rfl⟩ := List.cons.inj same
            exact ⟨name.toList, rfl, names, rfl, by rw [String.ofList_toList]⟩

theorem pointerText_cons (name : String) (names : List String) :
    pointerText (name :: names) = '/' ::
      ['/'].intercalate ((name :: names).map fun name => escape name.toList) := by
  induction names generalizing name with
  | nil => simp [pointerText]
  | cons other names ih =>
      have rest := ih other
      rw [pointerText, List.flatMap_cons, ← pointerText, rest]
      simp [List.intercalate_cons_cons]

/-- **A pointer is read as the names it is written for, and as no others.** -/
theorem pointerNames_eq_some {text : List Char} {names : List String} :
    pointerNames text = some names ↔ text = pointerText names := by
  constructor
  · intro read
    unfold pointerNames at read
    split at read
    · obtain rfl := Option.some.inj read
      rfl
    · next rest =>
        have tokens := readNames_eq_some.mp read
        cases names with
        | nil => exact absurd tokens (List.splitOn_ne_nil '/' rest)
        | cons name names => rw [pointerText_cons, ← tokens, List.intercalate_splitOn]
    · exact nomatch read
  · rintro rfl
    cases names with
    | nil => rfl
    | cons name names =>
        rw [pointerText_cons, pointerNames, readNames_eq_some, List.splitOn_intercalate]
        · intro token among
          obtain ⟨name, -, rfl⟩ := List.mem_map.mp among
          exact slash_notMem_escape name.toList
        · exact List.cons_ne_nil _ _

/-- Names joined as they are make the pointer that is written for them exactly if they are
plain. -/
theorem join_eq_pointerText_iff {names : List String} :
    (names.flatMap fun name => '/' :: name.toList) = pointerText names ↔
      ∀ name ∈ names, PlainName name := by
  constructor
  · intro same
    have lengths : ∀ names : List String, (pointerText names).length =
        (names.flatMap fun name => '/' :: name.toList).length +
          (names.map fun name => name.toList.count '~' + name.toList.count '/').sum := by
      intro names
      induction names with
      | nil => rfl
      | cons name names ih =>
          rw [pointerText, List.flatMap_cons, List.flatMap_cons, ← pointerText, List.length_append,
            List.length_append, ih, List.length_cons, List.length_cons, length_escape, List.map_cons,
            List.sum_cons]
          omega
    have none : (names.map fun name => name.toList.count '~' + name.toList.count '/').sum = 0 := by
      have length := lengths names
      rw [← same] at length
      omega
    intro name present
    have zero := List.sum_eq_zero_iff_forall_eq_nat.mp none _ (List.mem_map_of_mem present)
    exact ⟨List.count_eq_zero.mp (Nat.eq_zero_of_add_eq_zero_left zero),
      List.count_eq_zero.mp (Nat.eq_zero_of_add_eq_zero_right zero)⟩
  · intro plain
    apply List.flatMap_congr
    intro name present
    rw [escape_plain (plain name present)]

/-! ## What a pointer leads to -/

/-- What a name leads to: a member of an object, or an element of an array. -/
def child? : Json ν → String → Option (Json ν)
  | .obj members, name => Members.get? members name
  | .arr elements, name =>
      ((List.range elements.length).find? fun index => Nat.toDigits 10 index = name.toList).bind
        fun index => elements[index]?
  | _, _ => none

/-- A name that is no number leads to a member. -/
theorem child?_eq_members {json : Json ν} {name : String}
    (named : ∃ char ∈ name.toList, char.isDigit = false) :
    json.child? name = Members.get? json.members name := by
  cases json with
  | arr elements =>
      obtain ⟨char, among, noDigit⟩ := named
      have none : ((List.range elements.length).find? fun index =>
          Nat.toDigits 10 index = name.toList) = none := by
        rw [List.find?_eq_none]
        intro index _ same
        rw [decide_eq_true_eq] at same
        have digit := Nat.isDigit_of_mem_toDigits (b := 10) (n := index) (by omega) (by omega)
          (same ▸ among)
        rw [noDigit] at digit
        exact nomatch digit
      rw [child?, none]
      rfl
  | _ => rfl

/-- The member of a name there is once. -/
theorem Members.get?_of_mem {members : Members ν} {name : String} {value : Json ν}
    (distinct : (members.map Prod.fst).Pairwise (· ≠ ·)) (present : (name, value) ∈ members) :
    Members.get? members name = some value := by
  induction members with
  | nil => exact absurd present List.not_mem_nil
  | cons member members ih =>
      rw [List.map_cons, List.pairwise_cons] at distinct
      rw [get?_cons]
      rcases List.mem_cons.mp present with rfl | later
      · rw [if_pos rfl]
      · rw [if_neg (distinct.1 name (List.mem_map_of_mem later))]
        exact ih distinct.2 later

/-- What names lead to. -/
def at? (json : Json ν) : List String → Option (Json ν)
  | [] => some json
  | name :: names => (json.child? name).bind fun next => next.at? names

/-- A pointer is followed name by name. -/
theorem at?_append (json : Json ν) (front back : List String) :
    json.at? (front ++ back) = (json.at? front).bind fun next => next.at? back := by
  induction front generalizing json with
  | nil => rfl
  | cons name front ih => simp only [List.cons_append, at?, ih, Option.bind_assoc]

end Json
