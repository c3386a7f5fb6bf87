import Anviq.Diff.Report

/-! # Response shapes path by path

`infer_shape` spells a path of keys and array steps as one text. Two shapes differ exactly if
they show different types at some text; when keys hold a `/` or are `[]`, several paths have the
same text, and a difference at one of them may be hidden by what is shown at another.
-/

namespace Harness.Diff

/-! ## Structural paths -/

/-- A step into a value: to what is stored under a key, or to the elements of an array. -/
inductive Hop where
  | key (name : String)
  | element
deriving DecidableEq

/-- What a step adds to the text of a path. -/
def Hop.segment : Hop → String
  | .key name => name
  | .element => "[]"

/-- The text `_walk` has for a path. -/
def spelled (path : List Hop) : String := pathText (path.map Hop.segment)

/-- The types a value shows at a path. -/
inductive Shows : PyJson → List Hop → String → Prop
  | here (value : PyJson) : Shows value [] (jsonType value)
  | member {members : PyDict} {name : String} {value : PyJson} {path : List Hop} {type : String} :
      (name, value) ∈ members → Shows value path type →
        Shows (.obj members) (.key name :: path) type
  | element {elements : List PyJson} {value : PyJson} {path : List Hop} {type : String} :
      value ∈ elements → Shows value path type → Shows (.arr elements) (.element :: path) type

/-- The types the results of the calls that succeeded show at a path. -/
def Observed (calls : List CallRecord) (path : List Hop) (type : String) : Prop :=
  ∃ call ∈ calls, truthy call.ok = true ∧ Shows call.result path type

/-! ## Shapes -/

/-- The shape has the type at the text. -/
def Shape.Has (shape : Shape) (pointer type : String) : Prop :=
  type ∈ (Dict.get? shape pointer).getD []

theorem Shape.has_empty (pointer type : String) : ¬ Shape.Has Dict.empty pointer type := by
  rw [Shape.Has, Dict.get?_empty]
  exact List.not_mem_nil

theorem Shape.has_add {shape : Shape} {pointer type other seen : String} :
    (shape.add pointer type).Has other seen ↔
      shape.Has other seen ∨ (other = pointer ∧ seen = type) := by
  rw [Shape.Has, Shape.add, Dict.get?_assign]
  by_cases same : other = pointer
  · rw [if_pos same, Option.getD_some, List.mem_insert_iff, same]
    simp only [true_and]
    exact or_comm
  · rw [if_neg same]
    simp only [same, false_and, or_false]
    rfl

/-- A shape that has grown by what a value shows at texts. -/
def Shape.Grows (shape next : Shape) (shown : String → String → Prop) : Prop :=
  ∀ pointer type, next.Has pointer type ↔ shape.Has pointer type ∨ shown pointer type

/-- What a value shows at the texts after a pointer. -/
def ShownFrom (pointer : String) (value : PyJson) (text type : String) : Prop :=
  ∃ path, Shows value path type ∧ text = pointer ++ spelled path

theorem spelled_cons (hop : Hop) (path : List Hop) :
    spelled (hop :: path) = "/" ++ hop.segment ++ spelled path := rfl

theorem shownFrom_scalar {value : PyJson} (scalar : ∀ path type, Shows value path type → path = [])
    (pointer text type : String) :
    ShownFrom pointer value text type ↔ text = pointer ∧ type = jsonType value := by
  constructor
  · rintro ⟨path, shows, rfl⟩
    obtain rfl := scalar path type shows
    cases shows
    exact ⟨String.append_empty, rfl⟩
  · rintro ⟨rfl, rfl⟩
    exact ⟨[], .here value, String.append_empty.symm⟩

/-- An array shows its own type, and what its elements show. -/
theorem shownFrom_arr (pointer text type : String) (elements : List PyJson) :
    ShownFrom pointer (.arr elements) text type ↔ (text = pointer ∧ type = "array") ∨
      ∃ element ∈ elements, ShownFrom (pointer ++ "/[]") element text type := by
  constructor
  · rintro ⟨path, shows, rfl⟩
    cases shows with
    | here => exact .inl ⟨String.append_empty, rfl⟩
    | @element _ value path _ present shows =>
        refine .inr ⟨value, present, path, shows, ?_⟩
        rw [spelled_cons, ← String.append_assoc]
        rfl
  · rintro (⟨rfl, rfl⟩ | ⟨value, present, path, shows, rfl⟩)
    · exact ⟨[], .here _, String.append_empty.symm⟩
    · refine ⟨.element :: path, .element present shows, ?_⟩
      rw [spelled_cons, ← String.append_assoc]
      rfl

/-- An object shows its own type, and what is stored under its keys shows. -/
theorem shownFrom_obj (pointer text type : String) (members : PyDict) :
    ShownFrom pointer (.obj members) text type ↔ (text = pointer ∧ type = "object") ∨
      ∃ member ∈ members, ShownFrom (pointer ++ "/" ++ member.1) member.2 text type := by
  constructor
  · rintro ⟨path, shows, rfl⟩
    cases shows with
    | here => exact .inl ⟨String.append_empty, rfl⟩
    | @member _ name value path _ present shows =>
        refine .inr ⟨(name, value), present, path, shows, ?_⟩
        rw [spelled_cons, String.append_assoc, String.append_assoc, String.append_assoc]
        rfl
  · rintro (⟨rfl, rfl⟩ | ⟨⟨name, value⟩, present, path, shows, rfl⟩)
    · exact ⟨[], .here _, String.append_empty.symm⟩
    · refine ⟨.key name :: path, .member present shows, ?_⟩
      rw [spelled_cons, String.append_assoc, String.append_assoc, String.append_assoc]
      rfl

/-- `_walk` adds what the value shows. -/
theorem walk_grows (value : PyJson) : ∀ (pointer : String) (shape : Shape),
    shape.Grows (walk pointer shape value) (ShownFrom pointer value) := by
  induction value using Json.induction with
  | arr elements ih =>
      intro pointer shape text type
      rw [walk, shownFrom_arr]
      -- The elements add what they show to what is there, the type of the array included.
      have each : ∀ (elements : List PyJson), (∀ element ∈ elements, ∀ pointer shape,
          Shape.Grows shape (walk pointer shape element) (ShownFrom pointer element)) →
          ∀ shape : Shape, (walkElements pointer shape elements).Has text type ↔
            shape.Has text type ∨
              ∃ element ∈ elements, ShownFrom (pointer ++ "/[]") element text type := by
        intro elements ih
        induction elements with
        | nil => simp [walkElements]
        | cons element elements step =>
            intro shape
            rw [List.forall_mem_cons] at ih
            rw [walkElements, step ih.2, ih.1 (pointer ++ "/[]") shape text type, or_assoc]
            simp only [List.mem_cons, exists_eq_or_imp]
      rw [each elements ih, Shape.has_add, or_assoc]
  | obj members ih =>
      intro pointer shape text type
      rw [walk, shownFrom_obj]
      have each : ∀ (members : PyDict), (∀ member ∈ members, ∀ pointer shape,
          Shape.Grows shape (walk pointer shape member.2) (ShownFrom pointer member.2)) →
          ∀ shape : Shape, (walkMembers pointer shape members).Has text type ↔
            shape.Has text type ∨
              ∃ member ∈ members, ShownFrom (pointer ++ "/" ++ member.1) member.2 text type := by
        intro members ih
        induction members with
        | nil => simp [walkMembers]
        | cons member members step =>
            intro shape
            obtain ⟨name, value⟩ := member
            rw [List.forall_mem_cons] at ih
            have first := ih.1 (pointer ++ "/" ++ name) shape text type
            rw [walkMembers, step ih.2]
            simp only [List.mem_cons, exists_eq_or_imp, ← or_assoc]
            rw [← first]
            rfl
      rw [each members ih, Shape.has_add, or_assoc]
  | _ =>
      intro pointer shape text type
      refine Shape.has_add.trans (or_congr_right (Iff.symm (shownFrom_scalar ?_ pointer text type)))
      intro path type shows
      cases shows
      rfl

theorem observed_cons {call : CallRecord} {calls : List CallRecord} {path : List Hop}
    {type : String} : Observed (call :: calls) path type ↔
      (truthy call.ok = true ∧ Shows call.result path type) ∨ Observed calls path type := by
  simp only [Observed, List.exists_mem_cons_iff]

/-- `infer_shape` has the types that are observed at the paths of a text. -/
theorem inferShape_has (calls : List CallRecord) (text type : String) :
    (inferShape calls).Has text type ↔ ∃ path, Observed calls path type ∧ text = spelled path := by
  have step (calls : List CallRecord) : ∀ shape : Shape,
      (calls.foldl (fun shape call =>
        if truthy call.ok then walk "" shape call.result else shape) shape).Has text type ↔
        shape.Has text type ∨ ∃ path, Observed calls path type ∧ text = spelled path := by
    induction calls with
    | nil => simp [Observed]
    | cons call calls ih =>
        intro shape
        rw [List.foldl_cons, ih]
        simp only [observed_cons, or_and_right, exists_or]
        by_cases succeeded : truthy call.ok = true
        · rw [if_pos succeeded, walk_grows call.result "" shape text type, or_assoc]
          simp only [ShownFrom, String.empty_append, succeeded, true_and]
        · rw [if_neg succeeded]
          apply or_congr_right
          rw [or_iff_right]
          rintro ⟨path, ⟨shown, -⟩, -⟩
          exact succeeded shown
  rw [inferShape, step]
  exact or_iff_right (Shape.has_empty text type)

/-! ## Comparing shapes -/

theorem sortedStrings_sorted (names : List String) : (sortedStrings names).Pairwise (· ≤ ·) := by
  have sorted : (names.insertionSort fun left right => !decide (right < left)).Pairwise (· ≤ ·) := by
    have same : (names.insertionSort fun left right => !decide (right < left)) =
        names.insertionSort (· ≤ ·) := by
      congr! with first second
      rw [Bool.not_eq_true', decide_eq_false_iff_not, not_lt]
    rw [same]
    exact List.pairwise_insertionSort _ names
  exact sorted.sublist (List.dedup_sublist _)

/-- Strings sorted, each once, are the same if they are the same as a set. -/
theorem sortedStrings_eq_iff {left right : List String} :
    sortedStrings left = sortedStrings right ↔ ∀ name, name ∈ left ↔ name ∈ right := by
  constructor
  · intro same name
    rw [← mem_sortedStrings, same, mem_sortedStrings]
  · intro same
    have perm : (sortedStrings left).Perm (sortedStrings right) := by
      apply (List.perm_ext_iff_of_nodup (List.nodup_dedup _) (List.nodup_dedup _)).mpr
      intro name
      exact mem_sortedStrings.trans ((same name).trans mem_sortedStrings.symm)
    exact perm.eq_of_pairwise' (sortedStrings_sorted left) (sortedStrings_sorted right)

/-- `compare_shapes` is empty if both shapes have the same types at every text. -/
theorem compareShapes_eq_nil {lib : Stdlib} {tool : String} {before after : Shape} :
    compareShapes lib tool before after = [] ↔
      ∀ pointer type, before.Has pointer type ↔ after.Has pointer type := by
  have found (pointer : String) : (if typesAt before pointer = typesAt after pointer then none
      else some (shapeFinding lib tool pointer (typesAt before pointer) (typesAt after pointer))) =
        none ↔ ∀ type, before.Has pointer type ↔ after.Has pointer type := by
    rw [ite_eq_left_iff]
    simp only [reduceCtorEq, imp_false, not_not, typesAt, sortedStrings_eq_iff]
    rfl
  simp only [compareShapes, List.filterMap_eq_nil_iff, mem_sortedStrings, List.mem_append, found]
  constructor
  · intro same pointer
    by_cases present : pointer ∈ Dict.keys before ∨ pointer ∈ Dict.keys after
    · exact same pointer present
    · rw [not_or, ← Dict.get?_eq_none, ← Dict.get?_eq_none] at present
      intro type
      rw [Shape.Has, Shape.Has, present.1, present.2]
  · intro same pointer _
    exact same pointer

/-- There is no finding if both sides show the same types at every text. -/
theorem compareShapes_texts {lib : Stdlib} {tool : String} {before after : List CallRecord} :
    compareShapes lib tool (inferShape before) (inferShape after) = [] ↔ ∀ text type,
      (∃ path, Observed before path type ∧ text = spelled path) ↔
        ∃ path, Observed after path type ∧ text = spelled path := by
  simp only [compareShapes_eq_nil, inferShape_has]

/-! ## Differences hidden -/

/-- The type is shown at the path on the first side only. -/
def Differs (calls others : List CallRecord) (path : List Hop) (type : String) : Prop :=
  Observed calls path type ∧ ¬ Observed others path type

/-- The other side shows the type at another path, one that is spelled the same. -/
def HiddenIn (others : List CallRecord) (path : List Hop) (type : String) : Prop :=
  ∃ path', path' ≠ path ∧ spelled path' = spelled path ∧ Observed others path' type

/-- The calls differ at some path, and every difference is hidden by another path. -/
def Concealed (before after : List CallRecord) : Prop :=
  (∃ path type, Differs before after path type ∨ Differs after before path type) ∧
    (∀ path type, Differs before after path type → HiddenIn after path type) ∧
      ∀ path type, Differs after before path type → HiddenIn before path type

/-- What one side shows at a text the other shows too if its differences are hidden. -/
theorem shown_of_hidden {calls others : List CallRecord}
    (hidden : ∀ path type, Differs calls others path type → HiddenIn others path type)
    {text type : String} (shown : ∃ path, Observed calls path type ∧ text = spelled path) :
    ∃ path, Observed others path type ∧ text = spelled path := by
  obtain ⟨path, observed, rfl⟩ := shown
  by_cases both : Observed others path type
  · exact ⟨path, both, rfl⟩
  · obtain ⟨path', -, same, observed'⟩ := hidden path type ⟨observed, both⟩
    exact ⟨path', observed', same.symm⟩

/-- A difference at a text with the same types on both sides is hidden. -/
theorem hidden_of_shown {calls others : List CallRecord}
    (shown : ∀ text type, (∃ path, Observed calls path type ∧ text = spelled path) →
      ∃ path, Observed others path type ∧ text = spelled path)
    {path : List Hop} {type : String} (differs : Differs calls others path type) :
    HiddenIn others path type := by
  obtain ⟨path', observed, same⟩ := shown (spelled path) type ⟨path, differs.1, rfl⟩
  refine ⟨path', ?_, same.symm, observed⟩
  rintro rfl
  exact differs.2 observed

/-- **Response shapes are compared text by text.** That there is no finding says that both sides
show the same types at every path, unless they differ and every difference is hidden by another
path that is spelled the same. -/
theorem compareShapes_exact_iff (lib : Stdlib) (tool : String) (before after : List CallRecord) :
    (compareShapes lib tool (inferShape before) (inferShape after) = [] ↔
        ∀ path type, Observed before path type ↔ Observed after path type) ↔
      ¬ Concealed before after := by
  rw [compareShapes_texts]
  constructor
  · rintro exactly ⟨⟨path, type, differs⟩, hides, hides'⟩
    have same := exactly.mp fun text type =>
      ⟨shown_of_hidden hides, shown_of_hidden hides'⟩
    rcases differs with differs | differs
    · exact differs.2 ((same path type).mp differs.1)
    · exact differs.2 ((same path type).mpr differs.1)
  · intro open'
    constructor
    · intro same
      by_contra apart
      apply open'
      refine ⟨?_, ?_, ?_⟩
      · simp only [not_forall] at apart
        obtain ⟨path, type, apart⟩ := apart
        refine ⟨path, type, ?_⟩
        rw [Differs, Differs]
        tauto
      · intro path type
        exact hidden_of_shown fun text type => (same text type).mp
      · intro path type
        exact hidden_of_shown fun text type => (same text type).mpr
    · intro same text type
      simp only [same]

/-- A call that succeeded with a result. -/
def succeeded (result : PyJson) : CallRecord where
  callId := .str "c1"
  server := .str "s"
  toolName := .str "t"
  defHash := .str "h"
  args := .obj []
  callSeq := .num (.int 2)
  ok := .bool true
  result

/-- An integer under the key `a/b`. -/
def flatResult : PyJson := .obj [("a", .obj []), ("a/b", .num (.int 1))]

/-- An integer under the key `b` within `a`. -/
def nestedResult : PyJson := .obj [("a", .obj [("b", .num (.int 1))])]

/-- The text of both paths to the integer is `/a/b`. -/
theorem compareShapes_slash :
    ¬ ∀ (lib : Stdlib) (tool : String) (before after : List CallRecord),
      compareShapes lib tool (inferShape before) (inferShape after) = [] ↔
        ∀ path type, Observed before path type ↔ Observed after path type := by
  intro silentIff
  have shapes : inferShape [succeeded flatResult] = inferShape [succeeded nestedResult] := by
    apply Dict.ext
    decide +kernel
  have silent : compareShapes plainLib "t" (inferShape [succeeded flatResult])
      (inferShape [succeeded nestedResult]) = [] := by
    rw [shapes, compareShapes_eq_nil]
    exact fun _ _ => Iff.rfl
  have flat : Observed [succeeded flatResult] [.key "a/b"] "integer" :=
    ⟨_, List.mem_singleton_self _, rfl, @Shows.member _ _ (.num (.int 1)) _ _ (by simp) (.here _)⟩
  obtain ⟨call, among, -, shows⟩ := ((silentIff plainLib "t" _ _).mp silent _ _).mp flat
  rw [List.mem_singleton.mp among] at shows
  cases shows with
  | member present _ => simp at present

/-! ## Plain keys -/

/-- A key that is spelled like no other path: it holds no `/`, and is not `[]`. -/
def Hop.Plain : Hop → Prop
  | .key name => Unslashed name ∧ name ≠ "[]"
  | .element => True

theorem Hop.Plain.unslashed {hop : Hop} (plain : hop.Plain) : Unslashed hop.segment := by
  cases hop with
  | key name => exact plain.1
  | element => simp [Unslashed, segment]

theorem Hop.segment_injective {hop other : Hop} (plain : hop.Plain) (plain' : other.Plain)
    (same : hop.segment = other.segment) : hop = other := by
  cases hop with
  | key name =>
      cases other with
      | key name' => exact congrArg Hop.key same
      | element => exact absurd same plain.2
  | element =>
      cases other with
      | key name => exact absurd same.symm plain'.2
      | element => rfl

/-- Paths of plain keys are known from their text. -/
theorem spelled_injective {path other : List Hop} (plain : ∀ hop ∈ path, hop.Plain)
    (plain' : ∀ hop ∈ other, hop.Plain) (same : spelled path = spelled other) : path = other := by
  have segments : path.map Hop.segment = other.map Hop.segment := by
    apply pathText_injective _ _ (congrArg String.toList same)
    · intro name present
      obtain ⟨hop, among, rfl⟩ := List.mem_map.mp present
      exact (plain hop among).unslashed
    · intro name present
      obtain ⟨hop, among, rfl⟩ := List.mem_map.mp present
      exact (plain' hop among).unslashed
  clear same
  induction path generalizing other with
  | nil => exact (List.map_eq_nil_iff.mp segments.symm).symm
  | cons hop path ih =>
      cases other with
      | nil => cases segments
      | cons hop' other =>
          rw [List.forall_mem_cons] at plain plain'
          rw [List.map_cons, List.map_cons, List.cons.injEq] at segments
          rw [Hop.segment_injective plain.1 plain'.1 segments.1, ih plain.2 plain'.2 segments.2]

/-- Results whose keys are plain are compared path by path. -/
theorem compareShapes_plain {lib : Stdlib} {tool : String} {before after : List CallRecord}
    (plain : ∀ path type, Observed before path type → ∀ hop ∈ path, hop.Plain)
    (plain' : ∀ path type, Observed after path type → ∀ hop ∈ path, hop.Plain) :
    compareShapes lib tool (inferShape before) (inferShape after) = [] ↔
      ∀ path type, Observed before path type ↔ Observed after path type := by
  rw [compareShapes_texts]
  constructor
  · intro same path type
    constructor
    · intro observed
      obtain ⟨path', observed', spells⟩ := (same (spelled path) type).mp ⟨path, observed, rfl⟩
      rwa [spelled_injective (plain path type observed) (plain' path' type observed') spells]
    · intro observed
      obtain ⟨path', observed', spells⟩ := (same (spelled path) type).mpr ⟨path, observed, rfl⟩
      rwa [spelled_injective (plain' path type observed) (plain path' type observed') spells]
  · intro same text type
    simp only [same]

end Harness.Diff
