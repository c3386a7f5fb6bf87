import Anviq.Harness.Restored

/-! # Reading canonical texts again

What `canonical_json` writes of a float may be the text of an int it refuses: the whole numbers
between 2^53 and 1e21. Exactly the values without such floats have a text that is written again
once it has been read.
-/

namespace Harness

/-- A float that is not a whole number above 2^53 of no more than 21 digits; or no float. -/
def PyNumber.Rereadable : PyNumber → Prop
  | .float value => value.Portable
  | _ => True

/-- All floats in the value are such. -/
def PyValue.Rereadable (value : PyValue) : Prop :=
  ∀ json, value.json? = some json → json.AllNumbers PyNumber.Rereadable

theorem portable_unsigned (number : Number) : number.unsigned.Portable ↔ number.Portable := by
  cases number <;> rfl

theorem encodable_ofNumber (number : Number) :
    (PyNumber.ofNumber number).Encodable ↔ number.Portable := by
  constructor
  · intro encodable
    exact (encodeNumber_ofNumber number).2 _ (encodeNumber_eq_ok.mpr ⟨encodable, rfl⟩)
  · intro portable
    exact (encodeNumber_eq_ok.mp ((encodeNumber_ofNumber number).1 portable)).1

/-- The numbers whose text is read as one that can be written. -/
theorem readable_iff {number : PyNumber} (encodable : number.Encodable) :
    number.Readable ↔ number.Rereadable := by
  cases number with
  | int value => exact iff_of_true (readable_int encodable) trivial
  | float value =>
      rw [PyNumber.Readable, PyNumber.encoded, encodable_ofNumber, portable_unsigned,
        portable_unsigned]
      rfl
  | infinity negative => exact encodable.elim
  | nan => exact encodable.elim

theorem allNumbers_readable_iff {json : PyJson} (encodable : json.AllNumbers PyNumber.Encodable) :
    json.AllNumbers PyNumber.Readable ↔ json.AllNumbers PyNumber.Rereadable := by
  induction json using Json.induction with
  | num value => exact readable_iff encodable
  | arr elements ih =>
      rw [Json.allNumbers_arr] at encodable
      rw [Json.allNumbers_arr, Json.allNumbers_arr]
      exact forall₂_congr fun element present => ih element present (encodable element present)
  | obj members ih =>
      rw [Json.allNumbers_obj] at encodable
      rw [Json.allNumbers_obj, Json.allNumbers_obj]
      exact forall₂_congr fun member present => ih member present (encodable member present)
  | _ => exact Iff.rfl

/-- **Reading canonical texts again.** The text of a value is read as a value with the same text
exactly when the value has no float that is a whole number above 2^53 of no more than 21
digits. -/
theorem canonicalValue_reread_iff {value : PyValue} {text : List Char} (distinct : value.Distinct)
    (written : canonicalValue value = .ok text) :
    (∃ again, loads (String.ofList text) = some again ∧ canonicalJson again = .ok text) ↔
      value.Rereadable := by
  obtain ⟨json, read, wrote⟩ := (canonicalValue_eq_ok value text).mp written
  have encodable := (canonicalJson_eq_ok.mp wrote).1
  have loaded := loads_canonical (PyValue.distinct_json? distinct read) wrote
  have condition : value.Rereadable ↔ json.AllNumbers PyNumber.Readable := by
    rw [allNumbers_readable_iff encodable]
    constructor
    · intro rereadable
      exact rereadable json read
    · intro rereadable other otherRead
      rw [Option.some.inj (otherRead.symm.trans read)]
      exact rereadable
  rw [condition, loaded]
  constructor
  · intro reread
    obtain ⟨again, same, written⟩ := reread
    rw [← Option.some.inj same] at written
    exact restored_encodable_iff.mp (canonicalJson_eq_ok.mp written).1
  · intro readable
    exact ⟨_, rfl, canonicalJson_restored readable wrote⟩

/-- `1e20`. -/
def hundredQuintillion : PyValue :=
  .num (.float (.finite
    { negative := false, digits := [1], exponent := 20, nonempty := by decide
      leading := by decide, trailing := by decide }))

/-- The text of `1e20` is that of an int that is refused. -/
theorem canonicalValue_reread_large :
    ¬ ∀ (value : PyValue) (text : List Char), value.Distinct → canonicalValue value = .ok text →
      ∃ again, loads (String.ofList text) = some again ∧ canonicalJson again = .ok text := by
  intro closed
  have written : canonicalValue hundredQuintillion =
      .ok ('1' :: List.replicate 20 '0') := by decide +kernel
  obtain ⟨again, loaded, accepted⟩ := closed hundredQuintillion _ (show hundredQuintillion.Distinct from trivial) written
  have read : loads (String.ofList ('1' :: List.replicate 20 '0')) =
      some (.num (.int 100000000000000000000)) := by decide +kernel
  rw [read] at loaded
  rw [← Option.some.inj loaded] at accepted
  cases accepted

/-- An int and a float of one value are written alike and read back. -/
theorem canonicalValue_reread_small :
    (∃ again, loads (String.ofList ['[', '1', ',', '1', ']']) = some again ∧
      canonicalJson again = .ok ['[', '1', ',', '1', ']']) ↔
      (PyValue.list [.num (.int 1), .num (.float (.finite
        { negative := false, digits := [1], exponent := 0, nonempty := by decide
          leading := by decide, trailing := by decide }))]).Rereadable :=
  canonicalValue_reread_iff (by simp [PyValue.Distinct, PyValue.AllDistinct]) (by decide +kernel)

end Harness
