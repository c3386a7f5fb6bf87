import Mathlib.Data.Nat.Digits.Lemmas
import Mathlib.Data.List.DropRight
import Mathlib.Algebra.Order.Field.Rat

/-! # Decimal numbers and their text

A non-zero decimal is a sign, significant digits without a leading or trailing
zero, and the exponent of the last digit; every decimal has exactly one such
form. `Decimal.layout` is the text ECMAScript's `Number::toString` prescribes
for it: positional between `1e-6` and `1e21`, with an exponent otherwise.

A floating-point number is represented by the shortest decimal that reads back
as it, which is what the printers of all the languages involved emit. The
representation admits every decimal, so what is proved for all of them holds
for the ones a floating-point format has.
-/

instance tenNeZero : NeZero 10 := ⟨by decide⟩

/-- A non-zero decimal number in normal form: `± digits × 10 ^ exponent`. -/
structure Decimal where
  negative : Bool
  digits : List (Fin 10)
  exponent : Int
  nonempty : digits ≠ []
  leading : digits.head? ≠ some 0
  trailing : digits.getLast? ≠ some 0
deriving DecidableEq

/-- The digits of a natural number, most significant first; none for zero. -/
def significantDigits (value : Nat) : List (Fin 10) :=
  (Nat.digits 10 value).reverse.map (Fin.ofNat 10)

/-- The character of a decimal digit. -/
def digitChar (digit : Fin 10) : Char := Char.ofNat (48 + digit.val)

/-- A natural number in decimal notation. -/
def natText (value : Nat) : List Char :=
  if value = 0 then ['0'] else (significantDigits value).map digitChar

namespace Decimal

/-- The significant digits as text. -/
def digitText (decimal : Decimal) : List Char := decimal.digits.map digitChar

/-- The position of the decimal point relative to the first digit: the number
is `0.digits × 10 ^ point`. -/
def point (decimal : Decimal) : Int := decimal.exponent + decimal.digits.length

/-- The number without its sign, laid out as ECMAScript prescribes. -/
def magnitudeText (decimal : Decimal) : List Char :=
  let digits := decimal.digitText
  let count : Int := digits.length
  let point := decimal.point
  if count ≤ point ∧ point ≤ 21 then
    digits ++ List.replicate (point - count).toNat '0'
  else if 0 < point ∧ point ≤ 21 then
    digits.take point.toNat ++ '.' :: digits.drop point.toNat
  else if -6 < point ∧ point ≤ 0 then
    '0' :: '.' :: List.replicate (-point).toNat '0' ++ digits
  else
    let mantissa := digits.take 1 ++ if 1 < count then '.' :: digits.drop 1 else []
    let power := point - 1
    mantissa ++ 'e' :: (if 0 < power then '+' else '-') :: natText power.natAbs

/-- The text of the number. -/
def layout (decimal : Decimal) : List Char :=
  if decimal.negative then '-' :: decimal.magnitudeText else decimal.magnitudeText

/-- The text of the number is a plain run of digits. -/
def IsPlainInteger (decimal : Decimal) : Prop :=
  (decimal.digits.length : Int) ≤ decimal.point ∧ decimal.point ≤ 21

instance (decimal : Decimal) : Decidable decimal.IsPlainInteger :=
  inferInstanceAs (Decidable (_ ∧ _))

/-- The significant digits as a natural number. -/
def coefficient (decimal : Decimal) : Nat :=
  Nat.ofDigits 10 (decimal.digits.reverse.map Fin.val)

/-- The value of a decimal. -/
def value (decimal : Decimal) : ℚ :=
  (if decimal.negative then -1 else 1) * decimal.coefficient * (10 : ℚ) ^ decimal.exponent

end Decimal

/-- A finite number: a signed zero or a non-zero decimal. -/
inductive Number where
  | zero (negative : Bool)
  | finite (decimal : Decimal)
deriving DecidableEq

namespace Number

/-- The value of a number. -/
def value : Number → ℚ
  | .zero _ => 0
  | .finite decimal => decimal.value

/-- The number `± digits × 10 ^ exponent`, its zeros at either end removed. -/
def ofDigits (negative : Bool) (digits : List (Fin 10)) (exponent : Int) : Number :=
  let significant := digits.dropWhile (· = 0)
  let kept := significant.rdropWhile (· = 0)
  if nonempty : kept = [] then .zero negative
  else .finite
    { negative
      digits := kept
      exponent := exponent + (significant.length - kept.length : Nat)
      nonempty
      leading := by
        intro zero
        have headZero : significant.head? = some 0 := by
          obtain ⟨tail, split⟩ := List.rdropWhile_prefix (· = (0 : Fin 10)) significant
          rw [← split, List.head?_append_of_ne_nil _ nonempty]
          exact zero
        have nonzero := List.head?_dropWhile_not (· = (0 : Fin 10)) digits
        rw [show digits.dropWhile (· = 0) = significant from rfl, headZero] at nonzero
        simp at nonzero
      trailing := by
        intro zero
        have nonzero := List.rdropWhile_last_not (· = (0 : Fin 10)) significant nonempty
        rw [List.getLast?_eq_some_getLast nonempty] at zero
        exact nonzero (by simpa using zero) }

/-- A whole number. -/
def ofInt (value : Int) : Number :=
  ofDigits (value < 0) (significantDigits value.natAbs) 0

end Number
