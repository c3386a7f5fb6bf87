import Mathlib.Data.List.TakeDrop
import Anviq.Json.Number
import Anviq.Json.Print

/-! # Numerals

A JSON number is an integer part, a fraction and an exponent, each a run of
digits. Every decimal is laid out as a numeral, the text of a numeral is
recognised as a JSON number, its parts can be read back from it, and they denote
the decimal again (`Number.ofText_layout`).
-/

/-- The digits of a number in JSON notation, without its sign. No digits in the
fraction means that there is no fraction. -/
structure Numeral where
  integer : List (Fin 10)
  fraction : List (Fin 10) := []
  exponent : Option (Bool × List (Fin 10)) := none
deriving DecidableEq

/-- Digits as text. -/
def digitsText (digits : List (Fin 10)) : List Char := digits.map digitChar

/-- The number that digits denote, most significant first. -/
def digitsValue (digits : List (Fin 10)) : Nat := Nat.ofDigits 10 (digits.reverse.map Fin.val)

namespace Numeral

/-- The text of the exponent. -/
def exponentText : Option (Bool × List (Fin 10)) → List Char
  | none => []
  | some (negative, digits) => 'e' :: (if negative then '-' else '+') :: digitsText digits

/-- The text of the fraction. -/
def fractionText (fraction : List (Fin 10)) : List Char :=
  if fraction = [] then [] else '.' :: digitsText fraction

/-- The text of a numeral. -/
def text (numeral : Numeral) : List Char :=
  digitsText numeral.integer ++ fractionText numeral.fraction ++ exponentText numeral.exponent

/-- The power of ten an exponent denotes. -/
def power : Option (Bool × List (Fin 10)) → Int
  | none => 0
  | some (true, digits) => -digitsValue digits
  | some (false, digits) => digitsValue digits

/-- The number a numeral denotes. -/
def number (numeral : Numeral) (negative : Bool) : Number :=
  .ofDigits negative (numeral.integer ++ numeral.fraction)
    (power numeral.exponent - numeral.fraction.length)

/-- A numeral of the JSON grammar. -/
structure WellFormed (numeral : Numeral) : Prop where
  leading : numeral.integer = [0] ∨ numeral.integer ≠ [] ∧ numeral.integer.head? ≠ some 0
  power : ∀ negative digits, numeral.exponent = some (negative, digits) → digits ≠ []

end Numeral

/-! ## Digits -/

theorem digitChar_isDigit : ∀ digit : Fin 10, (digitChar digit).isDigit = true := by decide

/-- The digit of a character. -/
def digitOf (char : Char) : Fin 10 := Fin.ofNat 10 (char.toNat - 48)

@[simp] theorem digitOf_digitChar : ∀ digit : Fin 10, digitOf (digitChar digit) = digit := by decide

theorem map_digitOf_digitsText (digits : List (Fin 10)) :
    (digitsText digits).map digitOf = digits := by
  simp [digitsText, List.map_map, Function.comp_def]

/-- Text that does not go on with a digit. -/
def NoDigit (rest : List Char) : Prop := ∀ char ∈ rest.head?, char.isDigit = false

/-- Digits are taken up to what is none. -/
theorem takeWhile_digits {rest : List Char} (stops : NoDigit rest) (digits : List (Fin 10)) :
    (digitsText digits ++ rest).takeWhile Char.isDigit = digitsText digits ∧
      (digitsText digits ++ rest).dropWhile Char.isDigit = rest := by
  induction digits with
  | nil =>
      cases rest with
      | nil => exact ⟨rfl, rfl⟩
      | cons char rest =>
          have nondigit := stops char rfl
          simp [digitsText, nondigit]
  | cons digit digits ih =>
      simp only [digitsText, List.map_cons, List.cons_append, digitChar_isDigit,
        List.takeWhile_cons_of_pos, List.dropWhile_cons_of_pos]
      exact ⟨congrArg _ ih.1, ih.2⟩

/-- Digits are split from what is none. -/
theorem span_digits {rest : List Char} (stops : NoDigit rest) (digits : List (Fin 10)) :
    (digitsText digits ++ rest).span Char.isDigit = (digitsText digits, rest) := by
  rw [List.span_eq_takeWhile_dropWhile, (takeWhile_digits stops digits).1,
    (takeWhile_digits stops digits).2]

namespace Json

/-- A run of digits is scanned whole. -/
theorem scanDigits_digits {rest : List Char} (stops : NoDigit rest) {digits : List (Fin 10)}
    (nonempty : digits ≠ []) :
    scanDigits (digitsText digits ++ rest) = some (digitsText digits, rest) := by
  rw [scanDigits, span_digits stops]
  cases digits with
  | nil => exact absurd rfl nonempty
  | cons digit digits => rfl

/-- What follows a value is not part of a number. -/
theorem Follows.stops {rest : List Char} (follows : Follows rest) :
    NoDigit rest ∧ (∀ char ∈ rest.head?, char ≠ '.') ∧
      ∀ char ∈ rest.head?, char ≠ 'e' ∧ char ≠ 'E' := by
  refine ⟨fun char first => ?_, fun char first => ?_, fun char first => ?_⟩ <;>
    rcases follows char first with rfl | rfl | rfl <;> decide

/-! ## Recognising a numeral -/

/-- An exponent is scanned as it is written. -/
theorem scanExponent_text {exponent : Option (Bool × List (Fin 10))}
    (nonempty : ∀ negative digits, exponent = some (negative, digits) → digits ≠ [])
    {rest : List Char} (follows : Follows rest) :
    scanExponent (Numeral.exponentText exponent ++ rest) =
      some (Numeral.exponentText exponent, rest) := by
  obtain ⟨stops, -, unmarked⟩ := follows.stops
  cases exponent with
  | none =>
      cases rest with
      | nil => rfl
      | cons char rest =>
          obtain ⟨lower, upper⟩ := unmarked char rfl
          cases rest with
          | nil => simp [Numeral.exponentText, scanExponent, lower, upper]
          | cons second rest => simp [Numeral.exponentText, scanExponent, lower, upper]
  | some exponent =>
      obtain ⟨negative, digits⟩ := exponent
      have scanned := scanDigits_digits stops (nonempty negative digits rfl)
      cases negative <;> simp [Numeral.exponentText, scanExponent, scanned]

/-- An exponent, or what follows a number, is no digit and no point. -/
theorem exponentText_stops (exponent : Option (Bool × List (Fin 10))) {rest : List Char}
    (follows : Follows rest) :
    NoDigit (Numeral.exponentText exponent ++ rest) ∧
      ∀ char ∈ (Numeral.exponentText exponent ++ rest).head?, char ≠ '.' := by
  cases exponent with
  | none => exact ⟨follows.stops.1, follows.stops.2.1⟩
  | some exponent =>
      refine ⟨fun char first => ?_, fun char first => ?_⟩ <;>
        obtain rfl := Option.some.inj first <;> decide

/-- A fraction is scanned as it is written, in front of an exponent. -/
theorem scanFraction_text (fraction : List (Fin 10)) (exponent : Option (Bool × List (Fin 10)))
    {rest : List Char} (follows : Follows rest) :
    scanFraction (Numeral.fractionText fraction ++ (Numeral.exponentText exponent ++ rest)) =
      some (Numeral.fractionText fraction, Numeral.exponentText exponent ++ rest) := by
  obtain ⟨stops, pointless⟩ := exponentText_stops exponent follows
  unfold Numeral.fractionText
  by_cases absent : fraction = []
  · rw [if_pos absent]
    cases tail : Numeral.exponentText exponent ++ rest with
    | nil => rfl
    | cons char tail =>
        have noPoint := pointless char (by rw [tail]; rfl)
        rw [List.nil_append, scanFraction.eq_def]
        split
        · next found => exact absurd (List.cons.inj found).1 noPoint
        · rfl
  · rw [if_neg absent, List.cons_append, scanFraction, scanDigits_digits stops absent]
    rfl

/-- A fraction, or what follows it, is no digit. -/
theorem fractionText_stops (fraction : List (Fin 10)) (exponent : Option (Bool × List (Fin 10)))
    {rest : List Char} (follows : Follows rest) :
    NoDigit (Numeral.fractionText fraction ++ (Numeral.exponentText exponent ++ rest)) := by
  unfold Numeral.fractionText
  split
  · exact (exponentText_stops exponent follows).1
  · intro char first
    obtain rfl := Option.some.inj first
    decide

/-- An integer without a leading zero is scanned whole. -/
theorem scanInteger_digits {digits : List (Fin 10)} {rest : List Char} (stops : NoDigit rest)
    (leading : digits = [0] ∨ digits ≠ [] ∧ digits.head? ≠ some 0) :
    scanInteger (digitsText digits ++ rest) = some (digitsText digits, rest) := by
  rcases leading with rfl | ⟨nonempty, leading⟩
  · rfl
  · have scanned := scanDigits_digits stops nonempty
    cases digits with
    | nil => exact absurd rfl nonempty
    | cons digit digits =>
        have nonzero : digitChar digit ≠ '0' := by
          intro zero
          have same := congrArg digitOf zero
          rw [digitOf_digitChar] at same
          exact leading (congrArg some same)
        rw [scanInteger.eq_def]
        split
        · next found => exact absurd (List.cons.inj found).1 nonzero
        · exact scanned

/-- The text of a numeral is recognised. -/
theorem scanMagnitude_text {numeral : Numeral} (wellFormed : numeral.WellFormed)
    {rest : List Char} (follows : Follows rest) :
    scanMagnitude (numeral.text ++ rest) = some (numeral.text, rest) := by
  rw [scanMagnitude, Numeral.text, List.append_assoc, List.append_assoc,
    scanInteger_digits (fractionText_stops _ _ follows) wellFormed.leading]
  simp only [Option.bind_eq_bind, Option.bind_some, scanFraction_text _ _ follows,
    scanExponent_text wellFormed.power follows, List.append_assoc]

end Json

/-! ## Reading the parts of a numeral -/

/-- The exponent of a number's text from after its mantissa. -/
def readExponent : List Char → Option (Bool × List (Fin 10))
  | _ :: '-' :: digits => some (true, digits.map digitOf)
  | _ :: '+' :: digits => some (false, digits.map digitOf)
  | _ :: digits => some (false, digits.map digitOf)
  | [] => none

/-- The fraction of a number's text, and what follows it. -/
def readFraction : List Char → List Char × List Char
  | '.' :: rest => rest.span Char.isDigit
  | rest => ([], rest)

/-- The parts of a number's text without its sign. -/
def readMagnitude (text : List Char) : Numeral :=
  let (integer, rest) := text.span Char.isDigit
  let (fraction, rest) := readFraction rest
  { integer := integer.map digitOf, fraction := fraction.map digitOf, exponent := readExponent rest }

/-- The sign and the parts of a number's text. -/
def readNumeral : List Char → Bool × Numeral
  | '-' :: text => (true, readMagnitude text)
  | text => (false, readMagnitude text)

/-- What is read of the text of an exponent is the exponent. -/
theorem readExponent_text (exponent : Option (Bool × List (Fin 10))) :
    readExponent (Numeral.exponentText exponent) = exponent := by
  cases exponent with
  | none => rfl
  | some exponent =>
      obtain ⟨negative, digits⟩ := exponent
      cases negative <;> simp [Numeral.exponentText, readExponent, map_digitOf_digitsText]

/-- What is read of the text of a fraction is its digits. -/
theorem readFraction_text (fraction : List (Fin 10)) (exponent : Option (Bool × List (Fin 10))) :
    readFraction (Numeral.fractionText fraction ++ Numeral.exponentText exponent) =
      (digitsText fraction, Numeral.exponentText exponent) := by
  have follows : Json.Follows [] := by simp [Json.Follows]
  obtain ⟨stops, pointless⟩ := Json.exponentText_stops exponent follows
  rw [List.append_nil] at stops pointless
  unfold Numeral.fractionText
  by_cases absent : fraction = []
  · rw [if_pos absent, List.nil_append, absent]
    cases tail : Numeral.exponentText exponent with
    | nil => rfl
    | cons char tail =>
        have noPoint := pointless char (by rw [tail]; rfl)
        rw [readFraction.eq_def]
        split
        · next found => exact absurd (List.cons.inj found).1 noPoint
        · rfl
  · rw [if_neg absent, List.cons_append, readFraction, span_digits stops]

/-- The parts of a numeral read back from its text. -/
theorem readMagnitude_text (numeral : Numeral) : readMagnitude numeral.text = numeral := by
  have follows : Json.Follows [] := by simp [Json.Follows]
  have stops := Json.fractionText_stops numeral.fraction numeral.exponent follows
  rw [List.append_nil] at stops
  rw [readMagnitude, Numeral.text, List.append_assoc, span_digits stops]
  simp only [readFraction_text, map_digitOf_digitsText, readExponent_text]

/-- The first character of a numeral is a digit. -/
theorem Numeral.WellFormed.leads {numeral : Numeral} (wellFormed : numeral.WellFormed) :
    ∃ char tail, numeral.text = char :: tail ∧ char.isDigit = true := by
  have nonempty : numeral.integer ≠ [] := by
    rcases wellFormed.leading with zero | ⟨nonempty, -⟩
    · rw [zero]
      exact List.cons_ne_nil _ _
    · exact nonempty
  cases digits : numeral.integer with
  | nil => exact absurd digits nonempty
  | cons digit rest =>
      refine ⟨digitChar digit,
        digitsText rest ++ fractionText numeral.fraction ++ exponentText numeral.exponent, ?_,
        digitChar_isDigit digit⟩
      rw [text, digits]
      rfl

/-- What is read of the text of a numeral is the numeral. -/
theorem readNumeral_text {numeral : Numeral} (wellFormed : numeral.WellFormed) :
    readNumeral numeral.text = (false, numeral) := by
  obtain ⟨char, tail, text, digit⟩ := wellFormed.leads
  rw [readNumeral.eq_def]
  split
  · next found =>
      rw [text] at found
      obtain ⟨rfl, -⟩ := List.cons.inj found
      exact absurd digit (by decide)
  · rw [readMagnitude_text]

/-! ## Numerals of decimals -/

/-- The digits of a natural number; a single one for zero. -/
def natDigits (value : Nat) : List (Fin 10) :=
  if value = 0 then [0] else significantDigits value

/-- A whole number is written as its digits. -/
theorem natText_eq (value : Nat) : natText value = digitsText (natDigits value) := by
  unfold natText natDigits
  split <;> rfl

/-- Every whole number has a digit. -/
theorem natDigits_ne_nil (value : Nat) : natDigits value ≠ [] := by
  unfold natDigits
  split
  · exact List.cons_ne_nil _ _
  · next nonzero =>
      simp only [significantDigits, ne_eq, List.map_eq_nil_iff, List.reverse_eq_nil_iff,
        Nat.digits_eq_nil_iff_eq_zero, nonzero, not_false_eq_true]

/-- The digits of a number denote it. -/
theorem digitsValue_significantDigits (value : Nat) :
    digitsValue (significantDigits value) = value := by
  have small : (Nat.digits 10 value).map (fun digit => (Fin.ofNat 10 digit).val) =
      Nat.digits 10 value := by
    conv_rhs => rw [← List.map_id (Nat.digits 10 value)]
    refine List.map_congr_left fun digit present => ?_
    exact Nat.mod_eq_of_lt (Nat.digits_lt_base (by decide) present)
  rw [digitsValue, significantDigits, ← List.map_reverse, List.reverse_reverse, List.map_map,
    Function.comp_def, small, Nat.ofDigits_digits]

/-- The digits of a number have its value. -/
theorem digitsValue_natDigits (value : Nat) : digitsValue (natDigits value) = value := by
  unfold natDigits
  split
  · next zero => rw [zero]; rfl
  · exact digitsValue_significantDigits value

/-- Zeros at either end of its digits do not change a decimal. -/
theorem Number.ofDigits_padded (decimal : Decimal) (front back : Nat) (exponent : Int)
    (shifted : exponent = decimal.exponent - back) :
    Number.ofDigits decimal.negative
      (List.replicate front 0 ++ (decimal.digits ++ List.replicate back 0)) exponent =
        .finite decimal := by
  have leading : (List.replicate front (0 : Fin 10) ++
      (decimal.digits ++ List.replicate back 0)).dropWhile (· = 0) =
        decimal.digits ++ List.replicate back 0 := by
    rw [List.dropWhile_append_of_pos (by simp)]
    cases digits : decimal.digits with
    | nil => exact absurd digits decimal.nonempty
    | cons digit rest =>
        have nonzero : digit ≠ 0 := fun zero => decimal.leading (by rw [digits, zero]; rfl)
        rw [List.cons_append, List.dropWhile_cons_of_neg (by simpa using nonzero)]
  have trailing : (decimal.digits ++ List.replicate back (0 : Fin 10)).rdropWhile (· = 0) =
      decimal.digits := by
    rw [List.rdropWhile, List.reverse_append, List.reverse_replicate,
      List.dropWhile_append_of_pos (by simp)]
    change decimal.digits.rdropWhile (· = 0) = decimal.digits
    refine List.rdropWhile_eq_self_iff.mpr fun nonempty zero => decimal.trailing ?_
    rw [List.getLast?_eq_some_getLast nonempty]
    simpa using zero
  unfold Number.ofDigits
  simp only [leading, trailing, decimal.nonempty, ↓reduceDIte]
  congr 1
  obtain ⟨negative, digits, power, nonempty, first, last⟩ := decimal
  simp only [Decimal.mk.injEq, true_and, List.length_append, List.length_replicate]
  simp only at shifted
  omega

namespace Decimal

/-- The digits of the exponent of a decimal in exponential notation. -/
def powerDigits (decimal : Decimal) : List (Fin 10) := natDigits (decimal.point - 1).natAbs

/-- A decimal as a numeral. -/
def numeral (decimal : Decimal) : Numeral :=
  if decimal.digits.length ≤ decimal.point ∧ decimal.point ≤ 21 then
    { integer :=
        decimal.digits ++ List.replicate (decimal.point - decimal.digits.length).toNat 0 }
  else if 0 < decimal.point ∧ decimal.point ≤ 21 then
    { integer := decimal.digits.take decimal.point.toNat
      fraction := decimal.digits.drop decimal.point.toNat }
  else if -6 < decimal.point ∧ decimal.point ≤ 0 then
    { integer := [0]
      fraction := List.replicate (-decimal.point).toNat 0 ++ decimal.digits }
  else
    { integer := decimal.digits.take 1
      fraction := decimal.digits.drop 1
      exponent := some (decide (decimal.point - 1 ≤ 0), decimal.powerDigits) }

theorem digits_length_pos (decimal : Decimal) : 0 < decimal.digits.length :=
  List.length_pos_iff.mpr decimal.nonempty

/-- The first digits of a decimal are an integer part. -/
theorem take_leading (decimal : Decimal) {count : Nat} (positive : 0 < count) :
    decimal.digits.take count ≠ [] ∧ (decimal.digits.take count).head? ≠ some 0 := by
  cases digits : decimal.digits with
  | nil => exact absurd digits decimal.nonempty
  | cons digit rest =>
      have nonzero := decimal.leading
      rw [digits] at nonzero
      cases count with
      | zero => exact absurd positive (by decide)
      | succ count => exact ⟨List.cons_ne_nil _ _, nonzero⟩

/-- The numeral of a decimal has a digit in front of the point and in its exponent. -/
theorem numeral_wellFormed (decimal : Decimal) : decimal.numeral.WellFormed := by
  have whole := decimal.take_leading decimal.digits_length_pos
  rw [List.take_length] at whole
  unfold numeral
  split_ifs with plain positional small
  · refine ⟨Or.inr ⟨by simp [decimal.nonempty], ?_⟩, fun _ _ absent => absurd absent (by simp)⟩
    rw [List.head?_append_of_ne_nil _ decimal.nonempty]
    exact whole.2
  · exact ⟨Or.inr (decimal.take_leading (by omega)), fun _ _ absent => absurd absent (by simp)⟩
  · exact ⟨Or.inl rfl, fun _ _ absent => absurd absent (by simp)⟩
  · refine ⟨Or.inr (decimal.take_leading (by decide)), fun _ _ present => ?_⟩
    obtain ⟨rfl, rfl⟩ := Prod.mk.inj (Option.some.inj present)
    exact natDigits_ne_nil _

/-- The layout of a decimal is the text of its numeral. -/
theorem magnitudeText_eq (decimal : Decimal) : decimal.magnitudeText = decimal.numeral.text := by
  have count : decimal.digitText.length = decimal.digits.length := List.length_map ..
  unfold magnitudeText numeral
  simp only [count]
  split_ifs with plain positional small more power
  · simp [Numeral.text, Numeral.fractionText, Numeral.exponentText, digitsText, digitText,
      show digitChar 0 = '0' from rfl]
  · have more : decimal.digits.drop decimal.point.toNat ≠ [] := by
      rw [ne_eq, List.drop_eq_nil_iff]
      omega
    simp [Numeral.text, Numeral.fractionText, Numeral.exponentText, digitsText, digitText, more,
      List.map_take, List.map_drop]
  · have more : List.replicate (-decimal.point).toNat (0 : Fin 10) ++ decimal.digits ≠ [] := by
      simp [decimal.nonempty]
    simp only [Numeral.text, Numeral.fractionText, more, ↓reduceIte, Numeral.exponentText,
      digitsText, digitText, List.map_append, List.map_replicate, List.map_cons, List.map_nil,
      List.append_nil]
    rfl
  all_goals
    have alone : decimal.digits.drop 1 = [] ↔ ¬ (1 : Int) < decimal.digits.length := by
      rw [List.drop_eq_nil_iff]
      omega
    have negative : decimal.point - 1 ≤ 0 ↔ ¬ 0 < decimal.point - 1 := by omega
    simp_all [Numeral.text, Numeral.fractionText, Numeral.exponentText, natText_eq, powerDigits,
      digitText, digitsText, List.map_take]

/-- The numeral of a decimal denotes it. -/
theorem numeral_number (decimal : Decimal) :
    decimal.numeral.number decimal.negative = .finite decimal := by
  have positive := decimal.digits_length_pos
  have point : decimal.point = decimal.exponent + decimal.digits.length := rfl
  unfold numeral Numeral.number
  split_ifs with plain positional small
  · have padded := Number.ofDigits_padded decimal 0
      (decimal.point - decimal.digits.length).toNat 0 (by omega)
    simpa [Numeral.power] using padded
  · have padded := Number.ofDigits_padded decimal 0 0
      (0 - (decimal.digits.drop decimal.point.toNat).length : Int) (by
        rw [List.length_drop]
        omega)
    simpa [Numeral.power] using padded
  · have padded := Number.ofDigits_padded decimal ((-decimal.point).toNat + 1) 0
      (0 - (List.replicate (-decimal.point).toNat (0 : Fin 10) ++ decimal.digits).length : Int) (by
        rw [List.length_append, List.length_replicate]
        omega)
    simpa [Numeral.power, List.replicate_succ] using padded
  · have power : Numeral.power (some (decide (decimal.point - 1 ≤ 0), decimal.powerDigits)) =
        decimal.point - 1 := by
      by_cases negative : decimal.point - 1 ≤ 0
      · simp only [negative, decide_true, Numeral.power, powerDigits, digitsValue_natDigits]
        omega
      · simp only [negative, decide_false, Numeral.power, powerDigits, digitsValue_natDigits]
        omega
    have padded := Number.ofDigits_padded decimal 0 0
      (decimal.point - 1 - (decimal.digits.drop 1).length : Int) (by
        rw [List.length_drop]
        omega)
    rw [power, List.take_append_drop]
    simpa using padded

end Decimal

/-! ## Numbers and their text -/

namespace Number

/-- A number in JSON notation; a negative zero keeps its sign. -/
def layout : Number → List Char
  | .zero false => ['0']
  | .zero true => ['-', '0']
  | .finite decimal => decimal.layout

/-- The number a text denotes. -/
def ofText (text : List Char) : Number :=
  let (negative, numeral) := readNumeral text
  numeral.number negative

/-- Every number is laid out as a JSON number. -/
theorem layout_recognised : Json.Recognised layout where
  scans := fun number rest follows => by
    have zero : (⟨[0], [], none⟩ : Numeral).WellFormed :=
      ⟨Or.inl rfl, fun _ _ absent => absurd absent (by simp)⟩
    have unsigned {numeral : Numeral} (wellFormed : numeral.WellFormed) :
        Json.scanNumber (numeral.text ++ rest) = some (numeral.text, rest) := by
      have scanned := Json.scanMagnitude_text wellFormed follows
      obtain ⟨char, tail, text, digit⟩ := wellFormed.leads
      rw [Json.scanNumber.eq_def]
      split
      · next found =>
          rw [text] at found
          obtain ⟨rfl, -⟩ := List.cons.inj found
          exact absurd digit (by decide)
      · exact scanned
    have signed {numeral : Numeral} (wellFormed : numeral.WellFormed) :
        Json.scanNumber ('-' :: numeral.text ++ rest) = some ('-' :: numeral.text, rest) := by
      rw [List.cons_append, Json.scanNumber, Json.scanMagnitude_text wellFormed follows]
      rfl
    cases number with
    | zero negative => cases negative with
      | false => exact unsigned zero
      | true => exact signed zero
    | finite decimal =>
        rw [layout, Decimal.layout, decimal.magnitudeText_eq]
        split
        · exact signed decimal.numeral_wellFormed
        · exact unsigned decimal.numeral_wellFormed
  leads := fun number => by
    cases number with
    | zero negative => cases negative <;> exact ⟨_, _, rfl, by decide⟩
    | finite decimal =>
        rw [layout, Decimal.layout]
        split
        · exact ⟨_, _, rfl, Or.inl rfl⟩
        · obtain ⟨char, tail, text, digit⟩ := decimal.numeral_wellFormed.leads
          rw [decimal.magnitudeText_eq]
          exact ⟨char, tail, text, Or.inr digit⟩

/-- The parts of a decimal read back from its layout. -/
theorem readNumeral_layout (decimal : Decimal) :
    readNumeral decimal.layout = (decimal.negative, decimal.numeral) := by
  rw [Decimal.layout, decimal.magnitudeText_eq]
  cases sign : decimal.negative with
  | true =>
      simp only [↓reduceIte]
      rw [readNumeral, readMagnitude_text]
  | false =>
      simp only [Bool.false_eq_true, ↓reduceIte]
      exact readNumeral_text decimal.numeral_wellFormed

/-- **Round trip.** A number reads back from its layout. -/
theorem ofText_layout (number : Number) : ofText number.layout = number := by
  cases number with
  | zero negative => cases negative <;> rfl
  | finite decimal =>
      simp only [layout, ofText, readNumeral_layout, decimal.numeral_number]

end Number

/-! ## Whole numbers -/

namespace Decimal

/-- The digits of a decimal that is laid out as a plain integer. -/
def wholeDigits (decimal : Decimal) : List (Fin 10) :=
  decimal.digits ++ List.replicate (decimal.point - decimal.digits.length).toNat 0

/-- The magnitude of a decimal that is laid out as a plain integer. -/
def wholeValue (decimal : Decimal) : Nat := digitsValue decimal.wholeDigits

/-- The numeral of a plain integer. -/
theorem numeral_plain {decimal : Decimal} (plain : decimal.IsPlainInteger) :
    decimal.numeral = { integer := decimal.wholeDigits } := if_pos plain

/-- A plain integer is its digits. -/
theorem magnitudeText_plain {decimal : Decimal} (plain : decimal.IsPlainInteger) :
    decimal.magnitudeText = digitsText decimal.wholeDigits := by
  rw [decimal.magnitudeText_eq, numeral_plain plain]
  simp [Numeral.text, Numeral.fractionText, Numeral.exponentText]

/-- Only a plain integer is laid out without fraction and exponent. -/
theorem numeral_whole (decimal : Decimal) :
    decimal.numeral.fraction = [] ∧ decimal.numeral.exponent = none ↔ decimal.IsPlainInteger := by
  have positive := decimal.digits_length_pos
  unfold numeral IsPlainInteger
  split_ifs with plain positional small
  · simp [plain]
  · simp only [List.drop_eq_nil_iff, and_true, plain, iff_false]
    omega
  · simp [decimal.nonempty, plain]
  · simp [plain]

/-- The digits of a natural number are the only ones that denote it without a
leading zero. -/
theorem significantDigits_digitsValue {digits : List (Fin 10)} (leading : digits.head? ≠ some 0) :
    significantDigits (digitsValue digits) = digits := by
  have digitsBack : Nat.digits 10 (digitsValue digits) = digits.reverse.map Fin.val := by
    refine Nat.digits_ofDigits 10 (by decide) _ ?_ ?_
    · intro digit present
      obtain ⟨source, -, rfl⟩ := List.mem_map.mp present
      exact source.isLt
    · intro nonempty zero
      rw [List.getLast_map, List.getLast_reverse] at zero
      refine leading ?_
      rw [List.head?_eq_some_head (by simpa using nonempty)]
      exact congrArg some (Fin.ext zero)
  rw [significantDigits, digitsBack, ← List.map_reverse, List.reverse_reverse, List.map_map]
  refine (List.map_congr_left fun digit _ => ?_).trans (List.map_id _)
  exact Fin.ext (Nat.mod_eq_of_lt digit.isLt)

/-- The digits of a whole decimal do not begin with zero. -/
theorem wholeDigits_leading (decimal : Decimal) : decimal.wholeDigits.head? ≠ some 0 := by
  rw [wholeDigits, List.head?_append_of_ne_nil _ decimal.nonempty]
  exact decimal.leading

/-- A whole decimal is not zero. -/
theorem wholeValue_ne_zero (decimal : Decimal) : decimal.wholeValue ≠ 0 := by
  intro zero
  have digits := significantDigits_digitsValue decimal.wholeDigits_leading
  rw [wholeValue] at zero
  rw [zero] at digits
  have nonempty : decimal.wholeDigits ≠ [] := by simp [wholeDigits, decimal.nonempty]
  exact nonempty digits.symm

/-- The text of a whole number. -/
theorem natText_wholeValue (decimal : Decimal) :
    natText decimal.wholeValue = digitsText decimal.wholeDigits := by
  rw [natText_eq, natDigits, if_neg decimal.wholeValue_ne_zero, wholeValue,
    significantDigits_digitsValue decimal.wholeDigits_leading]

end Decimal
