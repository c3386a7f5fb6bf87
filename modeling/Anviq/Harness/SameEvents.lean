import Anviq.Canonical.Laws
import Anviq.Harness.CanonicalForm
import Anviq.Harness.Recording

/-! # Events that are the same

Two decoded values that are the same up to the order of members and the way their numbers are
held pass the same checks, and have the same hashes.
-/

namespace Harness

open Canonical (normalizeOptional normalizeSchema normalizeSchema_allNumbers
  normalizeSchema_namesPairwise normalized_allNumbers normalized_distinct)

/-- The same decoded value, whose numbers have a value. -/
def SameFinite : PyJson → PyJson → Prop :=
  Json.Same fun left right => ∃ value, left.value? = some value ∧ right.value? = some value

/-- What is read in a value does not depend on how it is held. -/
def Agrees {β : Type} (read : PyJson → β) : Prop :=
  ∀ left right, SameFinite left right → read left = read right

/-- Values that can be written are the same with the values of their numbers. -/
theorem SameJson.finite {left right : PyJson} (same : SameJson left right)
    (leftEncodable : left.AllNumbers PyNumber.Encodable)
    (rightEncodable : right.AllNumbers PyNumber.Encodable) : SameFinite left right := by
  refine Json.Same.imp ?_ leftEncodable rightEncodable same
  intro first second firstEncodable _ equal
  cases first with
  | int value => exact ⟨_, rfl, equal.symm⟩
  | float value => exact ⟨_, rfl, equal.symm⟩
  | _ => exact firstEncodable.elim

/-- Values alike but for the form of their numbers are written alike. -/
theorem SameFinite.sameJson {left right : PyJson} (same : SameFinite left right) :
    SameJson left right := by
  have always : ∀ json : PyJson, json.AllNumbers fun _ => True := by
    intro json
    induction json using Json.induction with
    | arr elements ih => exact Json.allNumbers_arr.mpr ih
    | obj members ih => exact Json.allNumbers_obj.mpr ih
    | _ => trivial
  refine Json.Same.imp (P := fun _ => True) (Q := fun _ => True) ?_ (always left) (always right) same
  intro first second _ _ equal
  obtain ⟨value, firstValue, secondValue⟩ := equal
  rw [firstValue, secondValue]

section Members

variable {left right : PyDict} (same : SameFinite (.obj left) (.obj right))

include same

/-- A member is read alike. -/
theorem get?_same {β : Type} {read : PyJson → β} (agrees : Agrees read) (name : String) :
    (left.get? name).map read = (right.get? name).map read := by
  have both := @Json.Same.get?_bind _ _ _ (fun value => some (read value))
    (fun left right related => congrArg some (agrees left right related)) left right same name
  rw [Option.map_eq_bind, Option.map_eq_bind]
  exact both

/-- A schema of a property holds of both or of neither. -/
theorem property_same {schema : PyJson → Bool} (agrees : Agrees schema) (name : String) :
    property left name schema = property right name schema := by
  have both := get?_same same agrees name
  unfold property
  cases leftFound : left.get? name <;> cases rightFound : right.get? name <;>
    simp_all

/-- A member is in both or in neither, -/
theorem isSome_same (name : String) : (left.get? name).isSome = (right.get? name).isSome := by
  cases same with
  | obj names values => exact names name

/-- and so are those that are required. -/
theorem required_same (names : List String) : required left names = required right names := by
  unfold required
  exact congrArg names.all (funext fun name => isSome_same same name)

end Members

/-! ## The schema -/

theorem agrees_isString : Agrees isString := fun _ _ same => by cases same <;> rfl

theorem agrees_isObject : Agrees isObject := fun _ _ same => by cases same <;> rfl

theorem agrees_isOneOf (allowed : List String) : Agrees (isOneOf allowed) :=
  fun _ _ same => by cases same <;> rfl

theorem agrees_isHash : Agrees isHash := fun _ _ same => by cases same <;> rfl

theorem agrees_isSequenceNumber : Agrees isSequenceNumber := by
  intro left right same
  cases same with
  | num numbers =>
      obtain ⟨value, leftValue, rightValue⟩ := numbers
      simp only [isSequenceNumber, leftValue, rightValue]
  | _ => rfl

theorem agrees_isOne : Agrees isOne := by
  intro left right same
  cases same with
  | num numbers =>
      obtain ⟨value, leftValue, rightValue⟩ := numbers
      simp only [isOne, leftValue, rightValue]
  | _ => rfl

theorem isLatency_num {number : PyNumber} {value : ℚ} (valued : number.value? = some value) :
    isLatency (.num number) = decide (0 ≤ value) := by
  cases number with
  | infinity negative => cases valued
  | nan => cases valued
  | _ => simp only [isLatency, valued, Option.all_some]

/-- A latency is compared by its value. -/
theorem agrees_isLatency : Agrees isLatency := by
  intro left right same
  cases same with
  | num numbers =>
      obtain ⟨value, leftValue, rightValue⟩ := numbers
      rw [isLatency_num leftValue, isLatency_num rightValue]
  | _ => rfl

theorem agrees_isTool : Agrees isTool := by
  intro left right same
  cases same with
  | obj names values =>
      have same := Json.Same.obj names values
      simp only [isTool, required_same same, property_same same agrees_isString,
        property_same same agrees_isObject]
  | _ => rfl

theorem agrees_isResponseError : Agrees isResponseError := by
  intro left right same
  cases same with
  | obj names values =>
      have same := Json.Same.obj names values
      simp only [isResponseError, required_same same, property_same same agrees_isString]
  | _ => rfl

theorem agrees_isFinding : Agrees isFinding := by
  intro left right same
  cases same with
  | obj names values =>
      have same := Json.Same.obj names values
      simp only [isFinding, required_same same, property_same same agrees_isString,
        property_same same (agrees_isOneOf _)]
  | _ => rfl

theorem agrees_areFindings : Agrees areFindings := by
  intro left right same
  cases same with
  | @arr left right elements =>
      have all : left.all isFinding = right.all isFinding := by
        induction elements with
        | nil => rfl
        | cons first _ ih => rw [List.all_cons, List.all_cons, agrees_isFinding _ _ first, ih]
      exact all
  | _ => rfl

theorem agrees_isBool : Agrees fun value => value == .bool true || value == .bool false := by
  intro left right same
  cases same <;> rfl

/-- An event satisfies the schema however its values are held. -/
theorem validEvent_same {left right : PyDict} (same : SameFinite (.obj left) (.obj right)) :
    validEvent left = validEvent right := by
  have typed (type : String) : hasType left type = hasType right type :=
    property_same same (agrees_isOneOf [type]) "type"
  have branches : matchesType left = matchesType right := by
    simp only [matchesType, typed, required_same same, property_same same agrees_isString,
      property_same same agrees_isObject, property_same same agrees_isTool,
      property_same same agrees_isHash, property_same same agrees_isBool,
      property_same same agrees_isResponseError, property_same same agrees_isLatency,
      property_same same (agrees_isOneOf _), property_same same agrees_areFindings]
  rw [validEvent, property_same same ?timestamp "ts", property_same same ?identifier "session_id",
    property_same same ?hash "prev_hash"]
  case timestamp => exact fun _ _ same => by cases same <;> rfl
  case identifier => exact fun _ _ same => by cases same <;> rfl
  case hash => exact fun _ _ same => by cases same <;> rfl
  simp only [validEvent, branches, required_same same, property_same same agrees_isOne,
    property_same same agrees_isSequenceNumber, property_same same (agrees_isOneOf _),
    property_same same agrees_isHash]

/-! ## Hashes -/

/-- `canonical_json` writes both alike. -/
theorem canonicalJson_same {left right : PyJson} {text : List Char} (same : SameFinite left right)
    (leftDistinct : left.Distinct) (rightDistinct : right.Distinct)
    (rightEncodable : right.AllNumbers PyNumber.Encodable)
    (written : canonicalJson left = .ok text) : canonicalJson right = .ok text := by
  have rewritten : canonicalJson right = .ok _ := canonicalJson_eq_ok.mpr ⟨rightEncodable, rfl⟩
  rw [(canonicalJson_eq_iff leftDistinct rightDistinct written rewritten).mpr same.sameJson]
  exact rewritten

/-- Both have one hash. -/
theorem sha256Hex_same {sha : String → String} {left right : PyJson} {hash : String}
    (same : SameFinite left right) (leftDistinct : left.Distinct) (rightDistinct : right.Distinct)
    (rightEncodable : right.AllNumbers PyNumber.Encodable)
    (hashed : sha256Hex sha left = .ok hash) : sha256Hex sha right = .ok hash := by
  obtain ⟨text, written, digest⟩ := bind_eq_ok.mp hashed
  exact bind_eq_ok.mpr
    ⟨text, canonicalJson_same same leftDistinct rightDistinct rightEncodable written, digest⟩

/-- Events that are the same have the same hash. -/
theorem eventHash_same {sha : String → String} {left right : PyDict} {hash : String}
    (same : SameFinite (.obj left) (.obj right)) (leftDistinct : (Json.obj left).Distinct)
    (rightDistinct : (Json.obj right).Distinct)
    (rightEncodable : (Json.obj right).AllNumbers PyNumber.Encodable)
    (hashed : eventHash sha left = .ok hash) : eventHash sha right = .ok hash := by
  have rest : ∀ event : PyDict, (Json.obj event).Distinct →
      (Json.obj (event.filter fun member => member.1 ≠ "event_hash")).Distinct := by
    intro event distinct
    rw [Json.Distinct, Json.namesPairwise_obj] at distinct ⊢
    exact ⟨distinct.1.sublist (List.filter_sublist.map Prod.fst),
      fun member among => distinct.2 member (List.mem_of_mem_filter among)⟩
  refine sha256Hex_same ?_ (rest left leftDistinct) (rest right rightDistinct) ?_ hashed
  · cases same with
    | obj names values =>
        refine .obj ?_ ?_
        · intro name
          rw [Json.Members.get?_filter_ne, Json.Members.get?_filter_ne]
          split
          · rfl
          · exact names name
        · intro name leftValue rightValue leftFound rightFound
          rw [Json.Members.get?_filter_ne] at leftFound rightFound
          split at leftFound
          · cases leftFound
          · next other =>
              rw [if_neg other] at rightFound
              exact values name _ _ leftFound rightFound
  · rw [Json.allNumbers_obj] at rightEncodable ⊢
    exact fun member among => rightEncodable member (List.mem_of_mem_filter among)

/-! ## Definitions -/

/-- The normalised definition repeats no name, -/
theorem normalizedTool_distinct {tool normalized : PyDict} (distinct : (Json.obj tool).Distinct)
    (normalizes : normalizeTool tool = .ok normalized) : (Json.obj normalized).Distinct := by
  have empty : Json.Distinct (.obj [] : PyJson) := by simp [Json.Distinct, Json.NamesPairwise]
  unfold normalizeTool at normalizes
  split at normalizes
  · cases normalizes
  · next name named =>
      cases normalizes
      have among := Json.Members.mem_of_get? named
      refine normalized_distinct distinct ?_ (Json.getD_distinct distinct "description" trivial)
        (normalizeSchema_namesPairwise (Json.getD_distinct distinct "inputSchema" empty))
      rw [Json.Distinct, Json.namesPairwise_obj] at distinct
      exact distinct.2 _ among

/-- and its numbers are those of the definition. -/
theorem normalizedTool_allNumbers {P : PyNumber → Prop} {tool normalized : PyDict}
    (holds : (Json.obj tool).AllNumbers P) (normalizes : normalizeTool tool = .ok normalized) :
    (Json.obj normalized).AllNumbers P := by
  unfold normalizeTool at normalizes
  split at normalizes
  · cases normalizes
  · next name named =>
      cases normalizes
      refine normalized_allNumbers holds ?_ (Json.getD_allNumbers holds "description" trivial)
        (normalizeSchema_allNumbers (Json.getD_allNumbers holds "inputSchema" trivial))
      exact (Json.allNumbers_obj.mp holds) _ (Json.Members.mem_of_get? named)

/-- A normalised definition is the same as that of a definition that is the same. -/
theorem normalizeTool_same {left right normalized : PyDict}
    (same : SameFinite (.obj left) (.obj right)) (normalizes : normalizeTool left = .ok normalized) :
    ∃ other, normalizeTool right = .ok other ∧ SameFinite (.obj normalized) (.obj other) := by
  have optional := Canonical.normalizeOptional_same same
  have defaulted (name : String) {default : PyJson} (self : SameFinite default default) :
      SameFinite ((left.get? name).getD default) ((right.get? name).getD default) := by
    cases same with
    | obj names values =>
        have both := names name
        cases leftFound : left.get? name <;> cases rightFound : right.get? name
        · exact self
        · simp [leftFound, rightFound] at both
        · simp [leftFound, rightFound] at both
        · exact values name _ _ leftFound rightFound
  unfold normalizeTool at normalizes ⊢
  split at normalizes
  · cases normalizes
  · next name named =>
      cases normalizes
      obtain ⟨otherName, otherNamed⟩ : ∃ otherName, right.get? "name" = some otherName := by
        rw [← Option.isSome_iff_exists, ← isSome_same same, named]
        rfl
      rw [otherNamed]
      refine ⟨_, rfl, Json.Same.obj_of_forall₂ ?_⟩
      apply List.rel_append (List.rel_append _ (optional "outputSchema")) (optional "annotations")
      have names := defaulted "name" .null
      rw [named, otherNamed] at names
      have empty : SameFinite (.obj []) (.obj []) := Json.Same.obj_of_forall₂ .nil
      exact .cons ⟨rfl, names⟩ (.cons ⟨rfl, defaulted "description" (.str "")⟩
        (.cons ⟨rfl, Canonical.normalizeSchema_same (defaulted "inputSchema" empty)⟩ .nil))

/-- Definitions that are the same have the same hash. -/
theorem toolHash_same {sha : String → String} {left right : PyDict} {hash : String}
    (same : SameFinite (.obj left) (.obj right)) (leftDistinct : (Json.obj left).Distinct)
    (rightDistinct : (Json.obj right).Distinct)
    (rightEncodable : (Json.obj right).AllNumbers PyNumber.Encodable)
    (hashed : toolHash sha left = .ok hash) : toolHash sha right = .ok hash := by
  obtain ⟨normalized, normalizes, digest⟩ := bind_eq_ok.mp hashed
  obtain ⟨other, otherNormalizes, alike⟩ := normalizeTool_same same normalizes
  refine bind_eq_ok.mpr ⟨other, otherNormalizes, ?_⟩
  exact sha256Hex_same alike (normalizedTool_distinct leftDistinct normalizes)
    (normalizedTool_distinct rightDistinct otherNormalizes)
    (normalizedTool_allNumbers rightEncodable otherNormalizes) digest

end Harness
