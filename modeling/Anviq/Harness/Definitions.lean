import Anviq.Harness.Emission

/-! # Definitions of JSON values

A definition a server lists is what `json.loads` made of a JSON value. The recorder hashes it as
`verify` hashes what it reads.
-/

namespace Harness

/-! ## JSON values as Python values -/

namespace PyValue

mutual

/-- The Python value that `json.loads` makes of a JSON value. -/
def ofJson : PyJson → PyValue
  | .null => .none
  | .bool value => .bool value
  | .num value => .num value
  | .str text => pyText text
  | .arr elements => .list (ofElements elements)
  | .obj members => .dict (ofMembers members)

def ofElements : List PyJson → List PyValue
  | [] => []
  | element :: elements => ofJson element :: ofElements elements

def ofMembers : PyDict → List (PyKey × PyValue)
  | [] => []
  | (name, value) :: members => (.str (codePoints name), ofJson value) :: ofMembers members

end

theorem ofElements_eq (elements : List PyJson) : ofElements elements = elements.map ofJson := by
  induction elements with
  | nil => rfl
  | cons element elements ih => rw [ofElements, ih, List.map_cons]

theorem ofMembers_eq (members : PyDict) :
    ofMembers members = members.map fun member => (.str (codePoints member.1), ofJson member.2) := by
  induction members with
  | nil => rfl
  | cons member members ih => rw [ofMembers, ih, List.map_cons]

/-- A JSON value stands for itself. -/
theorem json?_ofJson (json : PyJson) : (ofJson json).json? = some json := by
  induction json using Json.induction with
  | null => rfl
  | bool value => rfl
  | num value => rfl
  | str text => exact json?_pyText text
  | arr elements ih =>
      refine json?_list.mpr ⟨elements, ?_, rfl⟩
      rw [jsons?_eq_some, ofElements_eq, List.forall₂_map_left_iff]
      exact List.forall₂_same.mpr ih
  | obj members ih =>
      refine json?_dict.mpr ⟨members, ?_, rfl⟩
      rw [members?_eq_some, ofMembers_eq, List.forall₂_map_left_iff]
      exact List.forall₂_same.mpr fun member present => ⟨rfl, ih member present⟩

end PyValue

theorem members?_ofMembers (members : PyDict) :
    PyValue.members? (PyValue.ofMembers members) = some members := by
  obtain ⟨other, read, same⟩ := json?_dict.mp (PyValue.json?_ofJson (.obj members))
  cases same
  exact read

/-! ## Normalising -/

open Canonical (allStrings normalizeRequired normalizeSchema)
open PyValue (ofElements ofJson ofMembers ofElements_eq ofMembers_eq)

theorem allTexts_ofElements (elements : List PyJson) :
    allTexts (ofElements elements) =
      (allStrings elements).map fun strings => strings.map codePoints := by
  induction elements with
  | nil => rfl
  | cons element elements ih =>
      cases element with
      | str text =>
          rw [ofElements, ofJson, pyText, allTexts, allStrings, ih]
          cases allStrings elements <;> rfl
      | _ => rfl

/-- Texts are sorted as the strings they are. -/
theorem sortedTexts_codePoints (strings : List String) :
    sortedTexts (strings.map codePoints) = .ok ((Utf16.sortDedupe strings).map codePoints) := by
  have keyed : (strings.map codePoints).dedup.mapM (fun text => do
      let bytes ← textBytes text
      .ok (bytes, text) : PyText → Except PyError (List Nat × PyText)) =
      .ok (strings.dedup.map fun string => (utf16be string, codePoints string)) := by
    rw [List.dedup_map_of_injective codePoints_injective, mapM_eq_ok, List.forall₂_map_left_iff,
      List.forall₂_map_right_iff, List.forall₂_same]
    intro string _
    rw [textBytes_eq_ok.mpr ⟨string, rfl, rfl⟩]
    rfl
  have sorted := List.map_insertionSort
    (fun left right : String => !decide (right.utf16Units < left.utf16Units))
    (fun left right : List Nat × PyText => !decide (right.1 < left.1))
    (fun string => (utf16be string, codePoints string)) strings.dedup ?_
  · rw [sortedTexts, keyed]
    change Except.ok _ = _
    rw [← sorted, List.map_map]
    rfl
  · intro left _ right _
    simp only [utf16be_lt]

theorem sortRequired_ofJson (name : String) (json : PyJson) :
    sortRequired (.str (codePoints name), ofJson json) =
      .ok (.str (codePoints name),
        ofJson (if name = "required" then normalizeRequired json else json)) := by
  unfold sortRequired
  by_cases required : name = "required"
  · rw [if_pos required, if_pos (by simp [isNamed, PyKey.text?, required])]
    cases json with
    | arr elements =>
        rw [ofJson, normalizeRequired]
        dsimp only
        rw [allTexts_ofElements]
        cases strings : allStrings elements with
        | none => rfl
        | some strings =>
            dsimp only [Option.map_some]
            rw [sortedTexts_codePoints]
            refine congrArg (fun value => Except.ok (PyKey.str (codePoints name), value)) ?_
            rw [ofJson, ofElements_eq, List.map_map, List.map_map]
            rfl
    | _ => rfl
  · rw [if_neg required, if_neg]
    simpa [isNamed, PyKey.text?, codePoints_injective.eq_iff] using required

/-- What `_normalize_schema` makes of a JSON value. -/
theorem normalizeValue_ofJson (json : PyJson) :
    normalizeValue (ofJson json) = .ok (ofJson (normalizeSchema json)) := by
  induction json using Json.induction with
  | arr elements ih =>
      have values : normalizeValues (ofElements elements) =
          .ok (ofElements (Canonical.normalizeElements elements)) := by
        induction elements with
        | nil => rfl
        | cons element elements step =>
            rw [List.forall_mem_cons] at ih
            rw [ofElements, normalizeValues, ih.1, step ih.2]
            rfl
      rw [ofJson, normalizeValue, values]
      rfl
  | obj members ih =>
      have items : normalizeItems (ofMembers members) =
          .ok (ofMembers ((members.filter fun member => member.1 ≠ "$comment").map
            fun member => (member.1, normalizeSchema member.2))) := by
        induction members with
        | nil => rfl
        | cons member members step =>
            obtain ⟨name, value⟩ := member
            rw [List.forall_mem_cons] at ih
            have rest := step ih.2
            rw [ofMembers, normalizeItems]
            by_cases comment : name = "$comment"
            · rw [if_pos (by rw [PyKey.text?, comment]), rest,
                List.filter_cons_of_neg (by simp [comment])]
            · have other : PyKey.text? (.str (codePoints name)) ≠ some (codePoints "$comment") := by
                simpa [PyKey.text?, codePoints_injective.eq_iff] using comment
              rw [if_neg other, rest, ih.1, List.filter_cons_of_pos (by simp [comment])]
              rfl
      have sorted : (ofMembers ((members.filter fun member => member.1 ≠ "$comment").map
          fun member => (member.1, normalizeSchema member.2))).mapM sortRequired =
          .ok (ofMembers (Canonical.normalizeMembers members)) := by
        rw [mapM_eq_ok, Canonical.normalizeMembers_eq, ofMembers_eq, ofMembers_eq,
          List.forall₂_map_left_iff, List.forall₂_map_right_iff, List.forall₂_map_left_iff,
          List.forall₂_map_right_iff, List.forall₂_same]
        intro member _
        exact sortRequired_ofJson _ _
      rw [ofJson, normalizeValue, items]
      change (List.mapM sortRequired _ >>= _) = _
      rw [sorted]
      rfl
  | _ => rfl

/-! ## Hashing -/

theorem get?_ofMembers (members : PyDict) (name : String) :
    PyItems.get? (ofMembers members) name = (members.get? name).map ofJson := by
  induction members with
  | nil => rfl
  | cons member members ih =>
      obtain ⟨other, value⟩ := member
      unfold PyItems.get? at ih ⊢
      rw [ofMembers, List.find?_cons, Json.Members.get?_cons]
      by_cases same : other = name
      · rw [if_pos same, show isNamed name (.str (codePoints other), ofJson value) = true by
          simp [isNamed, PyKey.text?, same]]
        rfl
      · rw [if_neg same, show isNamed name (.str (codePoints other), ofJson value) = false by
          simpa [isNamed, PyKey.text?, codePoints_injective.eq_iff] using same]
        exact ih

theorem normalizedOptional_ofMembers (members : PyDict) (name : String) :
    normalizedOptional (ofMembers members) name =
      .ok ((Canonical.normalizeOptional members name).map
        fun member => (member.1, ofJson member.2)) := by
  rw [normalizedOptional, Canonical.normalizeOptional, get?_ofMembers]
  cases members.get? name with
  | none => rfl
  | some value =>
      simp only [Option.map_some, normalizeValue_ofJson]
      rfl

/-- What `normalize_tool` makes of a definition. -/
theorem normalizeDefinition_ofMembers {members : PyDict} {normalized : List (String × PyValue)}
    (normalizes : normalizeDefinition (ofMembers members) = .ok normalized) :
    ∃ tool, normalizeTool members = .ok tool ∧
      normalized = tool.map fun member => (member.1, ofJson member.2) := by
  unfold normalizeDefinition at normalizes
  rw [get?_ofMembers] at normalizes
  unfold normalizeTool
  cases named : members.get? "name" with
  | none =>
      rw [named] at normalizes
      cases normalizes
  | some name =>
      refine ⟨_, rfl, ?_⟩
      have schema : (PyItems.get? (ofMembers members) "inputSchema").getD (.dict []) =
          ofJson ((members.get? "inputSchema").getD (.obj [])) := by
        rw [get?_ofMembers]
        cases members.get? "inputSchema" <;> rfl
      have description : (PyItems.get? (ofMembers members) "description").getD (pyText "") =
          ofJson ((members.get? "description").getD (.str "")) := by
        rw [get?_ofMembers]
        cases members.get? "description" <;> rfl
      rw [named, schema, description] at normalizes
      simp only [Option.map_some, normalizeValue_ofJson, normalizedOptional_ofMembers] at normalizes
      cases normalizes
      simp

/-- The recorder's hash of a definition is that of the JSON value it was made of. -/
theorem definitionHash_ofMembers {sha : String → String} {members : PyDict} {hash : String}
    (hashed : definitionHash sha (ofMembers members) = .ok hash) : toolHash sha members = .ok hash := by
  obtain ⟨normalized, normalizes, digest⟩ := bind_eq_ok.mp hashed
  obtain ⟨tool, normalizesTool, rfl⟩ := normalizeDefinition_ofMembers normalizes
  obtain ⟨text, written, named⟩ := bind_eq_ok.mp digest
  obtain ⟨read, items, wrote⟩ := canonicalValue_dict.mp written
  have whole : PyValue.members?
      ((tool.map fun member => (member.1, ofJson member.2)).map pyItem) = some tool := by
    rw [members?_pyItem, List.forall₂_map_left_iff, List.forall₂_same]
    exact fun member _ => ⟨rfl, PyValue.json?_ofJson member.2⟩
  cases items.symm.trans whole
  exact bind_eq_ok.mpr ⟨_, normalizesTool, bind_eq_ok.mpr ⟨text, wrote, named⟩⟩

end Harness
