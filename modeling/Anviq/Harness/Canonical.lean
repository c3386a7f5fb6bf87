import Anviq.Canonical.Normalize
import Anviq.Harness.Value
import Anviq.Json.Canonical

/-! # Canonical JSON in Python

The reference canonicaliser, `_canonical.py`. `sha` stands for the hexadecimal
SHA-256 digest of a text. A Lean string has no lone surrogates, which
`_encode_string` would refuse.
-/

namespace Harness

open Canonical

/-! ## Encoding -/

/-- `_ESCAPES`. -/
def escapes : List (Char × List Char) :=
  [('"', ['\\', '"']), ('\\', ['\\', '\\']), ('\x08', ['\\', 'b']), ('\x0c', ['\\', 'f']),
    ('\n', ['\\', 'n']), ('\r', ['\\', 'r']), ('\t', ['\\', 't'])]

/-- A character of `_encode_string`. -/
def encodeChar (char : Char) : List Char :=
  match escapes.lookup char with
  | some escape => escape
  | none => if char.toNat < 0x20 then Json.unicodeEscape char.toNat else [char]

/-- `_encode_string`. -/
def encodeString (text : String) : List Char := Json.quote encodeChar text

/-- `str` of an int. -/
def intText (value : Int) : List Char :=
  if value < 0 then '-' :: natText value.natAbs else natText value.natAbs

/-- `_encode_number` on a finite float: `digits` and `exponent` are those of
`Decimal(repr(n)).normalize()`. -/
def encodeDecimal (decimal : Decimal) : List Char :=
  let ds := decimal.digitText
  let k : Int := ds.length
  let e := decimal.exponent + k
  let body :=
    if k ≤ e ∧ e ≤ 21 then ds ++ List.replicate (e - k).toNat '0'
    else if 0 < e ∧ e ≤ 21 then ds.take e.toNat ++ '.' :: ds.drop e.toNat
    else if -6 < e ∧ e ≤ 0 then '0' :: '.' :: List.replicate (-e).toNat '0' ++ ds
    else
      let mant := ds.take 1 ++ if 1 < k then '.' :: ds.drop 1 else []
      let x := e - 1
      mant ++ 'e' :: (if 0 < x then '+' else '-') :: natText x.natAbs
  if decimal.negative then '-' :: body else body

/-- `_encode_number`. -/
def encodeNumber : PyNumber → Except PyError (List Char)
  | .int value =>
      if 2 ^ 53 < value.natAbs then
        .error (.valueError "integer outside IEEE-754 safe range; not portable across languages")
      else .ok (intText value)
  | .float (.zero _) => .ok ['0']
  | .float (.finite decimal) => .ok (encodeDecimal decimal)
  | .infinity _ => .error (.valueError "NaN/Infinity are not valid JSON")
  | .nan => .error (.valueError "NaN/Infinity are not valid JSON")

/-- The bytes of a string in `utf-16-be`. -/
def utf16be (text : String) : List Nat :=
  text.utf16Units.flatMap fun unit => [unit / 256, unit % 256]

/-- Named items sorted by the `utf-16-be` bytes of their names. -/
def sortedByName {α : Type} (items : List (String × α)) : List (String × α) :=
  items.insertionSort fun left right => !decide (utf16be right.1 < utf16be left.1)

mutual

/-- `canonical_json`. -/
def canonicalJson : PyJson → Except PyError (List Char)
  | .null => .ok ['n', 'u', 'l', 'l']
  | .bool true => .ok ['t', 'r', 'u', 'e']
  | .bool false => .ok ['f', 'a', 'l', 's', 'e']
  | .num value => encodeNumber value
  | .str value => .ok (encodeString value)
  | .arr elements => do
      let texts ← canonicalElements elements
      .ok ('[' :: Json.commaSeparated texts ++ [']'])
  | .obj members => do
      let items ← canonicalMembers members
      let texts := (sortedByName items).map fun item => encodeString item.1 ++ ':' :: item.2
      .ok ('\x7b' :: Json.commaSeparated texts ++ ['\x7d'])

def canonicalElements : List PyJson → Except PyError (List (List Char))
  | [] => .ok []
  | element :: elements => do
      let text ← canonicalJson element
      let texts ← canonicalElements elements
      .ok (text :: texts)

def canonicalMembers : PyDict → Except PyError (List (String × List Char))
  | [] => .ok []
  | (name, value) :: members => do
      let text ← canonicalJson value
      let items ← canonicalMembers members
      .ok ((name, text) :: items)

end

/-! ## Hashing -/

section Hashing

variable (sha : String → String)

/-- `sha256_hex`. -/
def sha256Hex (value : PyJson) : Except PyError String := do
  let text ← canonicalJson value
  .ok ("sha256:" ++ sha (String.ofList text))

/-- `normalize_tool`. -/
def normalizeTool (tool : PyDict) : Except PyError PyDict :=
  match tool.get? "name" with
  | none => .error (.keyError "name")
  | some name =>
      .ok
        ([("name", name), ("description", (tool.get? "description").getD (.str "")),
            ("inputSchema", normalizeSchema ((tool.get? "inputSchema").getD (.obj [])))] ++
          normalizeOptional tool "outputSchema" ++ normalizeOptional tool "annotations")

/-- `tool_hash`, `compute_hash`. -/
def toolHash (tool : PyDict) : Except PyError String := do
  let normalized ← normalizeTool tool
  sha256Hex sha (.obj normalized)

/-- `event_hash`. -/
def eventHash (event : PyDict) : Except PyError String :=
  sha256Hex sha (.obj (event.filter fun member => member.1 ≠ "event_hash"))

end Hashing

/-! ## The canonical form -/

/-- Python escapes a character as ECMAScript does. -/
theorem encodeChar_eq : encodeChar = Json.ecmaEscape := by
  funext char
  unfold encodeChar Json.ecmaEscape escapes
  simp only [List.lookup_cons, List.lookup_nil]
  by_cases quoteMark : char = '"'
  · simp [quoteMark]
  by_cases backslash : char = '\\'
  · simp [backslash]
  by_cases backspace : char = '\x08'
  · simp [backspace]
  by_cases formFeed : char = '\x0c'
  · simp [formFeed]
  by_cases newline : char = '\n'
  · simp [newline]
  by_cases carriageReturn : char = '\r'
  · simp [carriageReturn]
  by_cases tab : char = '\t'
  · simp [tab]
  · have miss (other : Char) (apart : ¬ char = other) : (char == other) = false := by
      simpa using apart
    simp [miss _ quoteMark, miss _ backslash, miss _ backspace, miss _ formFeed, miss _ newline,
      miss _ carriageReturn, miss _ tab, quoteMark, backslash, backspace, formFeed, newline,
      carriageReturn, tab]

/-- Python lays a float out as ECMAScript does. -/
theorem encodeDecimal_eq (decimal : Decimal) : encodeDecimal decimal = decimal.layout := by
  have count : decimal.digitText.length = decimal.digits.length := List.length_map ..
  unfold encodeDecimal Decimal.layout Decimal.magnitudeText Decimal.point
  simp only [count]

/-- Code units are sixteen bits wide. -/
theorem utf16Units_lt {char : Char} {unit : Nat} (present : unit ∈ char.utf16Units) :
    unit < 0x10000 := by
  have valid : char.toNat < 0xD800 ∨ 0xDFFF < char.toNat ∧ char.toNat < 0x110000 := char.valid
  unfold Char.utf16Units at present
  split at present
  · next basic =>
      rw [List.mem_singleton.mp present]
      exact basic
  · rcases List.mem_cons.mp present with high | low
    · omega
    · have low := List.mem_singleton.mp low
      omega

/-- The order of big-endian bytes is the order of the code units. -/
theorem bytes_lt {left right : List Nat} (leftSmall : ∀ unit ∈ left, unit < 0x10000)
    (rightSmall : ∀ unit ∈ right, unit < 0x10000) :
    (left.flatMap fun unit => [unit / 256, unit % 256]) <
        (right.flatMap fun unit => [unit / 256, unit % 256]) ↔ left < right := by
  induction left generalizing right with
  | nil => cases right <;> simp
  | cons first left ih =>
      cases right with
      | nil => simp
      | cons second right =>
          have firstSmall := leftSmall first List.mem_cons_self
          have secondSmall := rightSmall second List.mem_cons_self
          have rest := @ih right (fun unit present => leftSmall unit (List.mem_cons_of_mem _ present))
            fun unit present => rightSmall unit (List.mem_cons_of_mem _ present)
          simp only [List.flatMap_cons, List.cons_append, List.nil_append, List.cons_lt_cons_iff,
            rest]
          constructor
          · rintro (high | ⟨sameHigh, low | ⟨sameLow, less⟩⟩)
            · exact Or.inl (by omega)
            · exact Or.inl (by omega)
            · exact Or.inr ⟨by omega, less⟩
          · rintro (less | ⟨rfl, less⟩)
            · by_cases sameHigh : first / 256 = second / 256
              · exact Or.inr ⟨sameHigh, Or.inl (by omega)⟩
              · exact Or.inl (by omega)
            · exact Or.inr ⟨rfl, Or.inr ⟨rfl, less⟩⟩

/-- Sorting by `utf-16-be` bytes is sorting by code units. -/
theorem utf16be_lt (left right : String) :
    utf16be left < utf16be right ↔ left.utf16Units < right.utf16Units := by
  refine bytes_lt ?_ ?_ <;>
    · intro unit present
      obtain ⟨char, -, among⟩ := List.mem_flatMap.mp present
      exact utf16Units_lt among

theorem sortedByName_eq {α : Type} (items : List (String × α)) :
    sortedByName items = Json.sortUtf16 items := by
  unfold sortedByName Json.sortUtf16 Utf16.le
  simp only [utf16be_lt]

/-! ## Portable numbers -/

end Harness

/-- A number every port writes alike: a number laid out as a plain integer is in
the range of integers a double represents exactly. -/
def Number.Portable : Number → Prop
  | .zero _ => True
  | .finite decimal => decimal.IsPlainInteger → decimal.wholeValue ≤ 2 ^ 53

instance (number : Number) : Decidable number.Portable :=
  match number with
  | .zero _ => inferInstanceAs (Decidable True)
  | .finite _ => inferInstanceAs (Decidable (_ → _))

namespace Harness

/-- The text of a whole number is its layout. -/
theorem intText_signedInt (decimal : Decimal) (plain : decimal.IsPlainInteger) :
    intText (signedInt decimal.negative decimal.wholeValue) = decimal.layout := by
  have nonzero := decimal.wholeValue_ne_zero
  rw [Decimal.layout, Decimal.magnitudeText_plain plain, ← decimal.natText_wholeValue, intText]
  cases decimal.negative with
  | true =>
      have negative : -(decimal.wholeValue : Int) < 0 := by omega
      simp only [signedInt, ↓reduceIte, negative, Int.natAbs_neg, Int.natAbs_natCast]
  | false =>
      have positive : ¬ (decimal.wholeValue : Int) < 0 := by omega
      simp only [signedInt, Bool.false_eq_true, ↓reduceIte, positive, Int.natAbs_natCast]

/-- Python encodes the portable numbers, as ECMAScript does, and no others. -/
theorem encodeNumber_ofNumber (number : Number) :
    (number.Portable → encodeNumber (.ofNumber number) = .ok (Json.ecmaNumber number)) ∧
      ∀ text, encodeNumber (.ofNumber number) = .ok text → number.Portable := by
  cases number with
  | zero negative => exact ⟨fun _ => rfl, fun _ _ => trivial⟩
  | finite decimal =>
      have magnitude : (signedInt decimal.negative decimal.wholeValue).natAbs =
          decimal.wholeValue := by
        cases decimal.negative <;> simp [signedInt]
      unfold Number.Portable PyNumber.ofNumber Json.ecmaNumber
      by_cases plain : decimal.IsPlainInteger
      · simp only [plain, ↓reduceIte, encodeNumber, magnitude, forall_const]
        by_cases big : 2 ^ 53 < decimal.wholeValue
        · refine ⟨fun small => absurd big (not_lt.mpr small), fun text encoded => ?_⟩
          rw [if_pos big] at encoded
          exact absurd encoded (by simp)
        · rw [if_neg big, intText_signedInt decimal plain]
          exact ⟨fun _ => rfl, fun _ _ => not_lt.mp big⟩
      · simp only [plain, ↓reduceIte, encodeNumber, encodeDecimal_eq, false_implies, forall_const,
          implies_true, and_self]

end Harness
