import Anviq.Harness.Canonical
import Anviq.Json.CanonicalForm
import Anviq.Proxy.Canonical

/-! # The two ports of the normalisation

`normalizeSchema` and `NormalizeTool` in Go beside `_normalize_schema` and
`normalize_tool` in Python, each with its own way of sorting by UTF-16. A value
stands for itself in both languages, so its numbers are of any type.
-/

/-- Assignment to a key of a map. -/
def Json.Members.set {ν : Type} (members : Json.Members ν) (name : String) (value : Json ν) :
    Json.Members ν :=
  if name ∈ members.map Prod.fst then
    members.map fun member => if member.1 = name then (name, value) else member
  else members ++ [(name, value)]

namespace Canonical

variable {ν : Type}

/-! ## The rewriting -/

section Rewriting

variable (sortDedupe : List String → List String)

/-- Replace a `required` array of strings by the array sorted and deduped. -/
def rewriteRequired (out : Json.Members ν) : Json.Members ν :=
  match out.get? "required" with
  | some (.arr elements) =>
      match allStrings elements with
      | some strings => out.set "required" (.arr ((sortDedupe strings).map .str))
      | none => out
  | _ => out

mutual

/-- The rewriting both ports do, given how they sort. -/
def rewriteSchema : Json ν → Json ν
  | .obj members => .obj (rewriteRequired sortDedupe (rewriteMembers members))
  | .arr elements => .arr (rewriteElements elements)
  | node => node

def rewriteElements : List (Json ν) → List (Json ν)
  | [] => []
  | element :: elements => rewriteSchema element :: rewriteElements elements

def rewriteMembers : Json.Members ν → Json.Members ν
  | [] => []
  | (name, value) :: members =>
      if name = "$comment" then rewriteMembers members
      else (name, rewriteSchema value) :: rewriteMembers members

end

/-- The rewritten value of an optional member of a definition. -/
def rewriteOptional (tool : Json.Members ν) (name : String) : Json.Members ν :=
  match tool.get? name with
  | some value => [(name, rewriteSchema sortDedupe value)]
  | none => []

end Rewriting

/-! ## Go -/

namespace Go

/-- `utf16Less`: the first units that differ decide, else the lengths. -/
def utf16Less (left right : String) : Bool :=
  match (left.utf16Units.zip right.utf16Units).find? fun units => units.1 ≠ units.2 with
  | some (leftUnit, rightUnit) => leftUnit < rightUnit
  | none => left.utf16Units.length < right.utf16Units.length

/-- The loop of `sortDedupeUTF16` that keeps the strings not seen. -/
def unique (seen : List String) : List String → List String
  | [] => []
  | string :: strings =>
      if string ∈ seen then unique seen strings
      else string :: unique (string :: seen) strings

/-- `sortDedupeUTF16`. -/
def sortDedupeUTF16 (strings : List String) : List String :=
  (unique [] strings).insertionSort fun left right => !utf16Less right left

/-- `normalizeSchema`. -/
def normalizeSchema : Json ν → Json ν := rewriteSchema sortDedupeUTF16

/-- `NormalizeTool`: a missing member of a map reads as nil. -/
def normalizeTool (tool : Json.Members ν) : Json.Members ν :=
  [("name", (tool.get? "name").getD .null),
    ("description", (tool.get? "description").getD (.str "")),
    ("inputSchema", normalizeSchema ((tool.get? "inputSchema").getD .null))] ++
    rewriteOptional sortDedupeUTF16 tool "outputSchema" ++
    rewriteOptional sortDedupeUTF16 tool "annotations"

end Go

/-! ## Python -/

namespace Python

open Harness

/-- `sorted(set(req), key=lambda s: s.encode("utf-16-be"))`. -/
def sortedSet (strings : List String) : List String :=
  strings.dedup.insertionSort fun left right => !decide (utf16be right < utf16be left)

/-- `_normalize_schema`. -/
def normalizeSchema : Json ν → Json ν := rewriteSchema sortedSet

/-- `normalize_tool`. -/
def normalizeTool (tool : Json.Members ν) : Except PyError (Json.Members ν) :=
  match tool.get? "name" with
  | none => .error (.keyError "name")
  | some name =>
      .ok
        ([("name", name), ("description", (tool.get? "description").getD (.str "")),
            ("inputSchema", normalizeSchema ((tool.get? "inputSchema").getD (.obj [])))] ++
          rewriteOptional sortedSet tool "outputSchema" ++
          rewriteOptional sortedSet tool "annotations")

end Python

/-! ## Sorting by UTF-16 -/

/-- The first difference of two lists, or their lengths, order them. -/
theorem find?_zip_lt (left right : List Nat) :
    (match (left.zip right).find? fun units => units.1 ≠ units.2 with
      | some (leftUnit, rightUnit) => decide (leftUnit < rightUnit)
      | none => decide (left.length < right.length)) = decide (left < right) := by
  induction left generalizing right with
  | nil => cases right <;> simp
  | cons first left ih =>
      cases right with
      | nil => simp
      | cons second right =>
          rw [List.zip_cons_cons, List.find?_cons]
          by_cases same : first = second
          · subst same
            simpa using ih right
          · simp [same, List.cons_lt_cons_iff]

theorem utf16Less_eq (left right : String) :
    Go.utf16Less left right = decide (left.utf16Units < right.utf16Units) :=
  find?_zip_lt left.utf16Units right.utf16Units

theorem mem_unique {seen strings : List String} {string : String} :
    string ∈ Go.unique seen strings ↔ string ∈ strings ∧ string ∉ seen := by
  induction strings generalizing seen with
  | nil => simp [Go.unique]
  | cons first strings ih =>
      rw [Go.unique]
      split
      · next known =>
          rw [ih, List.mem_cons]
          constructor
          · intro both
            exact ⟨Or.inr both.1, both.2⟩
          · intro both
            refine ⟨both.1.resolve_left ?_, both.2⟩
            intro same
            exact both.2 (same ▸ known)
      · next fresh =>
          rw [List.mem_cons, List.mem_cons, ih, List.mem_cons, not_or]
          constructor
          · intro either
            rcases either with rfl | ⟨present, -, unseen⟩
            · exact ⟨Or.inl rfl, fresh⟩
            · exact ⟨Or.inr present, unseen⟩
          · intro both
            by_cases same : string = first
            · exact Or.inl same
            · exact Or.inr ⟨both.1.resolve_left same, same, both.2⟩

theorem unique_nodup (seen strings : List String) : (Go.unique seen strings).Nodup := by
  induction strings generalizing seen with
  | nil => exact List.nodup_nil
  | cons first strings ih =>
      rw [Go.unique]
      split
      · exact ih seen
      · apply List.nodup_cons.mpr
        constructor
        · intro again
          exact (mem_unique.mp again).2 List.mem_cons_self
        · exact ih (first :: seen)

/-- Go keeps the strings of the set. -/
theorem unique_perm (strings : List String) : (Go.unique [] strings).Perm strings.dedup := by
  apply (List.perm_ext_iff_of_nodup (unique_nodup [] strings) (List.nodup_dedup strings)).mpr
  intro string
  rw [mem_unique, List.mem_dedup]
  simp

instance : Std.Total fun left right : String => Utf16.le left right = true where
  total left right := by
    simp only [Json.utf16_le_iff]
    exact le_total _ _

instance : IsTrans String fun left right => Utf16.le left right = true where
  trans left middle right := by
    simp only [Json.utf16_le_iff]
    exact le_trans

/-- Sorting by UTF-16 forgets the order strings are given in. -/
theorem insertionSort_utf16 {left right : List String} (same : left.Perm right) :
    (left.insertionSort fun first second => Utf16.le first second) =
      right.insertionSort fun first second => Utf16.le first second := by
  have perm : (left.insertionSort fun first second => Utf16.le first second = true).Perm
      (right.insertionSort fun first second => Utf16.le first second = true) :=
    ((List.perm_insertionSort _ _).trans same).trans (List.perm_insertionSort _ _).symm
  apply perm.eq_of_pairwise _ (List.pairwise_insertionSort _ _) (List.pairwise_insertionSort _ _)
  intro first second _ _ before after
  rw [Json.utf16_le_iff] at before after
  exact Json.utf16Units_injective (le_antisymm before after)

theorem sortDedupeUTF16_eq : Go.sortDedupeUTF16 = Utf16.sortDedupe := by
  funext strings
  have order (left right : String) : (!Go.utf16Less right left) = Utf16.le left right := by
    rw [utf16Less_eq, Utf16.le]
  simp only [Go.sortDedupeUTF16, order]
  exact insertionSort_utf16 (unique_perm strings)

theorem sortedSet_eq : Python.sortedSet = Utf16.sortDedupe := by
  funext strings
  simp only [Python.sortedSet, Harness.utf16be_lt]
  rfl

/-! ## The rewriting is the normalisation -/

theorem rewriteElements_eq (sortDedupe : List String → List String) (elements : List (Json ν)) :
    rewriteElements sortDedupe elements = elements.map (rewriteSchema sortDedupe) := by
  induction elements with
  | nil => rfl
  | cons element elements ih => rw [rewriteElements, ih, List.map_cons]

theorem rewriteMembers_eq (sortDedupe : List String → List String) (members : Json.Members ν) :
    rewriteMembers sortDedupe members =
      (members.filter fun member => member.1 ≠ "$comment").map fun member =>
        (member.1, rewriteSchema sortDedupe member.2) := by
  induction members with
  | nil => rfl
  | cons member members ih =>
      rw [rewriteMembers, ih, List.filter_cons]
      by_cases comment : member.1 = "$comment" <;> simp [comment]

/-- In a map with different keys, one member at most is `required`. -/
theorem rewriteRequired_eq {out : Json.Members ν} (distinct : (out.map Prod.fst).Nodup) :
    rewriteRequired Utf16.sortDedupe out = out.map fun member =>
      (member.1, if member.1 = "required" then normalizeRequired member.2 else member.2) := by
  have unchanged (kept : ∀ value, out.get? "required" = some value →
      normalizeRequired value = value) :
      out = out.map fun member =>
        (member.1, if member.1 = "required" then normalizeRequired member.2 else member.2) := by
    symm
    calc out.map _
      _ = out.map id := by
          apply List.map_congr_left
          intro member present
          by_cases required : member.1 = "required"
          · have found := (Json.Members.mem_iff_get? distinct).mp present
            rw [required] at found
            rw [if_pos required, kept _ found]
            rfl
          · rw [if_neg required]
            rfl
      _ = out := List.map_id out
  unfold rewriteRequired
  split
  · next elements found =>
      split
      · next strings texts =>
          have among : "required" ∈ out.map Prod.fst :=
            List.mem_map_of_mem (Json.Members.mem_of_get? found)
          rw [Json.Members.set, if_pos among]
          apply List.map_congr_left
          intro member present
          by_cases required : member.1 = "required"
          · have value := (Json.Members.mem_iff_get? distinct).mp present
            rw [required, found] at value
            rw [if_pos required, if_pos required, ← Option.some.inj value, normalizeRequired, texts,
              required]
          · rw [if_neg required, if_neg required]
      · next mixed =>
          apply unchanged
          intro value read
          rw [found] at read
          rw [← Option.some.inj read, normalizeRequired, mixed]
  · next otherwise =>
      apply unchanged
      intro value read
      cases value with
      | arr elements => exact absurd read (otherwise elements)
      | _ => rfl

/-- Rewriting by UTF-16 is the normalisation, on maps with different keys. -/
theorem rewriteSchema_eq {node : Json ν} (distinct : node.Distinct) :
    rewriteSchema Utf16.sortDedupe node = Canonical.normalizeSchema node := by
  induction node using Json.induction with
  | null => rfl
  | bool value => rfl
  | num value => rfl
  | str value => rfl
  | arr elements ih =>
      rw [Json.Distinct, Json.namesPairwise_arr] at distinct
      rw [rewriteSchema, Canonical.normalizeSchema, rewriteElements_eq, normalizeElements_eq,
        List.map_congr_left fun element present => ih element present (distinct element present)]
  | obj members ih =>
      rw [Json.Distinct, Json.namesPairwise_obj] at distinct
      have kept : (members.filter fun member => member.1 ≠ "$comment").map
            (fun member => (member.1, rewriteSchema Utf16.sortDedupe member.2)) =
          (members.filter fun member => member.1 ≠ "$comment").map
            fun member => (member.1, Canonical.normalizeSchema member.2) := by
        apply List.map_congr_left
        intro member present
        have among := List.mem_of_mem_filter present
        rw [ih member among (distinct.2 member among)]
      have names : (((members.filter fun member => member.1 ≠ "$comment").map
          fun member => (member.1, Canonical.normalizeSchema member.2)).map Prod.fst).Nodup := by
        rw [List.map_map]
        exact distinct.1.sublist (List.filter_sublist.map Prod.fst)
      rw [rewriteSchema, Canonical.normalizeSchema, rewriteMembers_eq, normalizeMembers_eq, kept,
        rewriteRequired_eq names, List.map_map]
      rfl

/-- Go's own code computes the normalisation. -/
theorem goNormalizeSchema_eq {node : Json ν} (distinct : node.Distinct) :
    Go.normalizeSchema node = Canonical.normalizeSchema node := by
  rw [Go.normalizeSchema, sortDedupeUTF16_eq, rewriteSchema_eq distinct]

/-- Python's own code computes the normalisation. -/
theorem pythonNormalizeSchema_eq {node : Json ν} (distinct : node.Distinct) :
    Python.normalizeSchema node = Canonical.normalizeSchema node := by
  rw [Python.normalizeSchema, sortedSet_eq, rewriteSchema_eq distinct]

theorem rewriteOptional_eq {tool : Json.Members ν} (distinct : (Json.obj tool).Distinct)
    (name : String) : rewriteOptional Utf16.sortDedupe tool name = normalizeOptional tool name := by
  rw [Json.Distinct, Json.namesPairwise_obj] at distinct
  unfold rewriteOptional normalizeOptional
  cases found : tool.get? name with
  | none => rfl
  | some value =>
      have value := distinct.2 _ (Json.Members.mem_of_get? found)
      simp only [rewriteSchema_eq value]

/-- Go's own code normalises a definition as the proxy model does. -/
theorem goNormalizeTool_eq {tool : Proxy.Tool} (distinct : (Json.obj tool).Distinct) :
    Go.normalizeTool tool = Proxy.normalizeTool tool := by
  have schema := Json.getD_distinct distinct "inputSchema" (show Json.Distinct .null from trivial)
  simp only [Go.normalizeTool, Proxy.normalizeTool, goNormalizeSchema_eq schema,
    sortDedupeUTF16_eq, rewriteOptional_eq distinct]

/-- Python's own code normalises a definition as the harness model does. -/
theorem pythonNormalizeTool_eq {tool : Harness.PyDict} (distinct : (Json.obj tool).Distinct) :
    Python.normalizeTool tool = Harness.normalizeTool tool := by
  have schema := Json.getD_distinct distinct "inputSchema" (show Json.Distinct (.obj []) by
    rw [Json.Distinct, Json.namesPairwise_obj]
    exact ⟨.nil, fun _ absurdity => absurd absurdity List.not_mem_nil⟩)
  simp only [Python.normalizeTool, Harness.normalizeTool, pythonNormalizeSchema_eq schema,
    sortedSet_eq, rewriteOptional_eq distinct]
  cases tool.get? "name" <;> rfl

/-! ## Agreement -/

/-- Both ports normalise the definition to one JSON value. -/
def PortsAgree (tool : Json.Members ν) : Prop :=
  ∃ normalized, Python.normalizeTool tool = .ok normalized ∧
    Json.Same (· = ·) (.obj (Go.normalizeTool tool)) (.obj normalized)

/-- **The ports agree on the definitions with an input schema**, and on no others. -/
theorem portsAgree_iff {tool : Json.Members ν} {name : String}
    (named : tool.get? "name" = some (.str name)) :
    PortsAgree tool ↔ (tool.get? "inputSchema").isSome = true := by
  unfold PortsAgree Python.normalizeTool Go.normalizeTool Go.normalizeSchema
    Python.normalizeSchema
  rw [named, sortDedupeUTF16_eq, sortedSet_eq]
  cases schema : tool.get? "inputSchema" with
  | some value =>
      constructor
      · intro _
        rfl
      · intro _
        exact ⟨_, rfl, Json.Same.refl (fun _ => rfl) _⟩
  | none =>
      constructor
      · intro agreement
        obtain ⟨normalized, written, same⟩ := agreement
        rw [← Except.ok.inj written] at same
        cases same with
        | obj names values =>
            have defaults := values "inputSchema" .null
              (.obj []) rfl rfl
            exact nomatch defaults
      · intro present
        exact absurd present (by simp)

/-- A definition without an input schema. -/
def schemaless : Json.Members Number := [("name", .str "ping")]

/-- The defaults of the ports differ: nil in Go, an empty `dict` in Python. -/
theorem portsAgree_schemaless : ¬ PortsAgree schemaless := by
  intro agreement
  obtain ⟨normalized, written, same⟩ := agreement
  rw [← Except.ok.inj written] at same
  cases same with
  | obj names values => exact nomatch values "inputSchema" .null (.obj []) rfl rfl

/-- Both ports sort the required names and drop the one that is repeated. -/
theorem portsAgree_required : PortsAgree (ν := Number)
    [("name", .str "ping"),
      ("inputSchema", .obj [("required", .arr [.str "b", .str "a", .str "b"])])] :=
  (portsAgree_iff rfl).mpr rfl

end Canonical
