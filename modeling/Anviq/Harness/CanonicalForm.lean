import Anviq.Harness.Canonical
import Anviq.Json.CanonicalForm

/-! # The canonical form in Python

`canonical_json` on what `json.loads` returns. It writes the form of RFC 8785, and two
values it accepts have one text exactly when they are the same JSON value.
-/

namespace Harness

/-! ## Numbers -/

/-- A number `_encode_number` accepts. -/
def PyNumber.Encodable : PyNumber → Prop
  | .int value => value.natAbs ≤ 2 ^ 53
  | .float _ => True
  | .infinity _ => False
  | .nan => False

/-- The number a text of `_encode_number` stands for. -/
def PyNumber.encoded : PyNumber → Number
  | .int value => .ofInt value
  | .float value => value.unsigned
  | .infinity _ => .zero false
  | .nan => .zero false

/-- A small integer is read back as it was. -/
theorem PyNumber.ofNumber_ofInt {value : Int} (small : value.natAbs ≤ 2 ^ 53) :
    PyNumber.ofNumber (.ofInt value) = .int value := by
  cases form : Number.ofInt value with
  | zero negative =>
      have zero : (0 : ℚ) = value := by
        rw [← Number.value_ofInt value, form]
        rfl
      have same : value = 0 := by exact_mod_cast zero.symm
      rw [same]
      rfl
  | finite decimal =>
      have plain := Number.ofInt_plain form (lt_of_le_of_lt small (by decide))
      have same : ((signedInt decimal.negative decimal.wholeValue : Int) : ℚ) = value := by
        rw [← Number.value_ofInt value, form]
        change _ = decimal.value
        rw [Decimal.value_plain plain]
        cases decimal.negative <;> simp [signedInt, Number.sign]
      have whole : signedInt decimal.negative decimal.wholeValue = value := by exact_mod_cast same
      rw [PyNumber.ofNumber, if_pos plain, whole]

theorem intText_ofInt {value : Int} (small : value.natAbs ≤ 2 ^ 53) :
    intText value = Json.ecmaNumber (.ofInt value) := by
  have back := PyNumber.ofNumber_ofInt small
  cases form : Number.ofInt value with
  | zero negative =>
      rw [form] at back
      cases back
      rfl
  | finite decimal =>
      have plain := Number.ofInt_plain form (lt_of_le_of_lt small (by decide))
      rw [form, PyNumber.ofNumber, if_pos plain, PyNumber.int.injEq] at back
      rw [← back, intText_signedInt decimal plain]
      rfl

/-- `_encode_number` accepts the encodable numbers, and writes them as ECMAScript
does. -/
theorem encodeNumber_eq_ok {number : PyNumber} {text : List Char} :
    encodeNumber number = .ok text ↔
      number.Encodable ∧ text = Json.ecmaNumber number.encoded := by
  cases number with
  | int value =>
      simp only [encodeNumber, PyNumber.Encodable, PyNumber.encoded]
      split
      · next big =>
          constructor
          · intro absurdity
            exact absurd absurdity (by simp)
          · intro both
            exact absurd both.1 (not_le.mpr big)
      · next small =>
          have bound := not_lt.mp small
          rw [intText_ofInt bound, Except.ok.injEq]
          constructor
          · intro same
            exact ⟨bound, same.symm⟩
          · intro both
            exact both.2.symm
  | float value =>
      cases value with
      | zero negative =>
          simp only [encodeNumber, PyNumber.Encodable, PyNumber.encoded, Except.ok.injEq,
            true_and]
          exact eq_comm
      | finite decimal =>
          simp only [encodeNumber, PyNumber.Encodable, PyNumber.encoded, Except.ok.injEq,
            true_and, encodeDecimal_eq]
          exact eq_comm
  | infinity negative => simp [encodeNumber, PyNumber.Encodable]
  | nan => simp [encodeNumber, PyNumber.Encodable]

/-- Encodable numbers are encoded alike exactly when they have the same value. -/
theorem encoded_eq_iff {left right : PyNumber} (leftEncodable : left.Encodable)
    (rightEncodable : right.Encodable) :
    left.encoded.unsigned = right.encoded.unsigned ↔ left.value? = right.value? := by
  have read {number : PyNumber} (encodable : number.Encodable) :
      number.value? = some number.encoded.value := by
    cases number with
    | int value => rw [PyNumber.encoded, Number.value_ofInt]; rfl
    | float value => rw [PyNumber.encoded, Number.value_unsigned]; rfl
    | infinity negative => exact encodable.elim
    | nan => exact encodable.elim
  rw [Number.unsigned_eq_iff, read leftEncodable, read rightEncodable, Option.some.injEq]

/-! ## Decoded values -/

theorem canonicalElements_eq_ok {elements : List PyJson} {texts : List (List Char)}
    {accepted : PyJson → Prop} {written : PyJson → List Char}
    (each : ∀ element ∈ elements, ∀ text,
      canonicalJson element = .ok text ↔ accepted element ∧ text = written element) :
    canonicalElements elements = .ok texts ↔
      (∀ element ∈ elements, accepted element) ∧ texts = elements.map written := by
  induction elements generalizing texts with
  | nil => simp [canonicalElements, eq_comm]
  | cons element elements ih =>
      rw [List.forall_mem_cons] at each ⊢
      simp only [canonicalElements, bind_eq_ok, each.1, ih each.2, Except.ok.injEq, List.map_cons]
      constructor
      · rintro ⟨_, ⟨first, rfl⟩, _, ⟨rest, rfl⟩, rfl⟩
        exact ⟨⟨first, rest⟩, rfl⟩
      · rintro ⟨⟨first, rest⟩, rfl⟩
        exact ⟨_, ⟨first, rfl⟩, _, ⟨rest, rfl⟩, rfl⟩

theorem canonicalMembers_eq_ok {members : PyDict} {items : List (String × List Char)}
    {accepted : PyJson → Prop} {written : PyJson → List Char}
    (each : ∀ member ∈ members, ∀ text,
      canonicalJson member.2 = .ok text ↔ accepted member.2 ∧ text = written member.2) :
    canonicalMembers members = .ok items ↔
      (∀ member ∈ members, accepted member.2) ∧
        items = members.map fun member => (member.1, written member.2) := by
  induction members generalizing items with
  | nil => simp [canonicalMembers, eq_comm]
  | cons member members ih =>
      rw [List.forall_mem_cons] at each ⊢
      simp only [canonicalMembers, bind_eq_ok, each.1, ih each.2, Except.ok.injEq, List.map_cons]
      constructor
      · rintro ⟨_, ⟨first, rfl⟩, _, ⟨rest, rfl⟩, rfl⟩
        exact ⟨⟨first, rest⟩, rfl⟩
      · rintro ⟨⟨first, rest⟩, rfl⟩
        exact ⟨_, ⟨first, rfl⟩, _, ⟨rest, rfl⟩, rfl⟩

/-- `canonical_json` accepts the decoded values whose numbers are encodable, and
writes the canonical form of RFC 8785. -/
theorem canonicalJson_eq_ok {value : PyJson} {text : List Char} :
    canonicalJson value = .ok text ↔
      value.AllNumbers PyNumber.Encodable ∧ text = (value.map PyNumber.encoded).canonical := by
  induction value using Json.induction generalizing text with
  | null =>
      simp only [canonicalJson, Except.ok.injEq, Json.AllNumbers, Json.map, Json.canonical, true_and]
      exact eq_comm
  | bool value =>
      cases value <;>
        simp only [canonicalJson, Except.ok.injEq, Json.AllNumbers, Json.map, Json.canonical,
          true_and] <;> exact eq_comm
  | num value => exact encodeNumber_eq_ok
  | str value =>
      simp only [canonicalJson, Except.ok.injEq, Json.AllNumbers, Json.map, Json.canonical,
        true_and, encodeString, encodeChar_eq]
      exact eq_comm
  | arr elements ih =>
      rw [Json.allNumbers_arr]
      simp only [canonicalJson, bind_eq_ok, canonicalElements_eq_ok fun element present text =>
        ih element present, Except.ok.injEq, Json.map, Json.mapElements_eq, Json.canonical,
        Json.canonicalElements_eq, List.map_map]
      constructor
      · rintro ⟨_, ⟨accepted, rfl⟩, rfl⟩
        exact ⟨accepted, rfl⟩
      · rintro ⟨accepted, rfl⟩
        exact ⟨_, ⟨accepted, rfl⟩, rfl⟩
  | obj members ih =>
      have written {items : List (String × List Char)} :=
        @canonicalMembers_eq_ok members items (fun value => value.AllNumbers PyNumber.Encodable)
          (fun value => (value.map PyNumber.encoded).canonical) fun member present text =>
            ih member present
      rw [Json.allNumbers_obj]
      simp only [canonicalJson, bind_eq_ok, written, Except.ok.injEq, Json.map, Json.mapMembers_eq, Json.canonical,
        Json.canonicalMembers_eq, List.map_map, sortedByName_eq, encodeString, encodeChar_eq]
      constructor
      · rintro ⟨_, ⟨accepted, rfl⟩, rfl⟩
        exact ⟨accepted, rfl⟩
      · rintro ⟨accepted, rfl⟩
        exact ⟨_, ⟨accepted, rfl⟩, rfl⟩

/-- The same decoded value: numbers are compared by their value. -/
def SameJson : PyJson → PyJson → Prop :=
  Json.Same fun left right => left.value? = right.value?

theorem sameJson_iff {left right : PyJson} (leftEncodable : left.AllNumbers PyNumber.Encodable)
    (rightEncodable : right.AllNumbers PyNumber.Encodable) :
    Json.Same (fun first second => first.encoded.unsigned = second.encoded.unsigned) left right ↔
      SameJson left right := by
  constructor
  · apply Json.Same.imp _ leftEncodable rightEncodable
    intro first second firstEncodable secondEncodable
    exact (encoded_eq_iff firstEncodable secondEncodable).mp
  · apply Json.Same.imp _ leftEncodable rightEncodable
    intro first second firstEncodable secondEncodable
    exact (encoded_eq_iff firstEncodable secondEncodable).mpr

/-- Decoded values have one text exactly when they are the same. -/
theorem canonicalJson_eq_iff {left right : PyJson} {leftText rightText : List Char}
    (leftDistinct : left.Distinct) (rightDistinct : right.Distinct)
    (leftWritten : canonicalJson left = .ok leftText)
    (rightWritten : canonicalJson right = .ok rightText) :
    leftText = rightText ↔ SameJson left right := by
  obtain ⟨leftEncodable, rfl⟩ := canonicalJson_eq_ok.mp leftWritten
  obtain ⟨rightEncodable, rfl⟩ := canonicalJson_eq_ok.mp rightWritten
  rw [Json.canonical_eq_iff, Json.normal, Json.normal, Json.map_map, Json.map_map,
    Json.sortNames_eq_iff _ leftDistinct rightDistinct, ← sameJson_iff leftEncodable rightEncodable]
  rfl

end Harness
