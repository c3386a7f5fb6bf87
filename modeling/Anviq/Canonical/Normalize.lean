import Anviq.Json.Utf16
import Anviq.Json.Value

/-! # Normalising tool definitions

The normalisation both ports apply to a definition before they hash it: drop
`$comment` at every level, and sort and dedupe every `required` array of
strings. It does not ask what a position means, so a property, a default or an
enum value of these names is normalised too.
-/

namespace Canonical

variable {ν : Type}

/-- The strings of an array, if it holds nothing else. -/
def allStrings : List (Json ν) → Option (List String)
  | [] => some []
  | .str string :: rest => (allStrings rest).map (string :: ·)
  | _ :: _ => none

/-- The `required` member of a normalised object: sorted and deduped when it is an
array of strings. -/
def normalizeRequired (required : Json ν) : Json ν :=
  match required with
  | .arr elements =>
      match allStrings elements with
      | some strings => .arr ((Utf16.sortDedupe strings).map .str)
      | none => .arr elements
  | other => other

mutual

/-- `_normalize_schema`, `normalizeSchema`. -/
def normalizeSchema : Json ν → Json ν
  | .obj members => .obj (normalizeMembers members)
  | .arr elements => .arr (normalizeElements elements)
  | node => node

def normalizeElements : List (Json ν) → List (Json ν)
  | [] => []
  | element :: elements => normalizeSchema element :: normalizeElements elements

def normalizeMembers : Json.Members ν → Json.Members ν
  | [] => []
  | (name, value) :: members =>
      if name = "$comment" then normalizeMembers members
      else
        (name,
          if name = "required" then normalizeRequired (normalizeSchema value)
          else normalizeSchema value) ::
          normalizeMembers members

end

theorem normalizeElements_eq (elements : List (Json ν)) :
    normalizeElements elements = elements.map normalizeSchema := by
  induction elements with
  | nil => rfl
  | cons element elements ih => simp only [normalizeElements, List.map_cons, ih]

/-- A normalised member. -/
def normalizeMember (member : String × Json ν) : String × Json ν :=
  (member.1,
    if member.1 = "required" then normalizeRequired (normalizeSchema member.2)
    else normalizeSchema member.2)

theorem normalizeMembers_eq (members : Json.Members ν) :
    normalizeMembers members =
      (members.filter fun member => member.1 ≠ "$comment").map normalizeMember := by
  induction members with
  | nil => rfl
  | cons member members ih =>
      obtain ⟨name, value⟩ := member
      rw [normalizeMembers, ih, List.filter_cons]
      by_cases comment : name = "$comment" <;> simp [comment, normalizeMember]

/-- The normalised value of an optional member of a definition. -/
def normalizeOptional (tool : Json.Members ν) (name : String) : Json.Members ν :=
  match tool.get? name with
  | some value => [(name, normalizeSchema value)]
  | none => []

end Canonical
