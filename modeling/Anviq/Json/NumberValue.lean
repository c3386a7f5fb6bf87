import Mathlib.Tactic.Ring
import Mathlib.Tactic.FieldSimp
import Anviq.Json.Numeral

/-! # The value of a number

Removing zeros at the ends of its digits does not change the value of a number,
and a decimal laid out as a plain run of digits is the integer they denote.
-/

/-- The value of two runs of digits in a row. -/
theorem digitsValue_append (front back : List (Fin 10)) :
    digitsValue (front ++ back) = digitsValue front * 10 ^ back.length + digitsValue back := by
  simp only [digitsValue, List.reverse_append, List.map_append, Nat.ofDigits_append,
    List.length_map, List.length_reverse]
  ring

/-- Zeros have no value. -/
theorem digitsValue_zeros {digits : List (Fin 10)} (zeros : ∀ digit ∈ digits, digit = 0) :
    digitsValue digits = 0 := by
  obtain ⟨count, rfl⟩ : ∃ count, digits = List.replicate count 0 :=
    ⟨digits.length, List.eq_replicate_iff.mpr ⟨rfl, zeros⟩⟩
  induction count with
  | zero => rfl
  | succ count ih =>
      rw [List.replicate_succ', digitsValue_append, ih fun digit => List.eq_of_mem_replicate]
      rfl

/-- Zeros in front of the digits do not count. -/
theorem digitsValue_dropWhile (digits : List (Fin 10)) :
    digitsValue (digits.dropWhile (· = 0)) = digitsValue digits := by
  conv_rhs => rw [← List.takeWhile_append_dropWhile (p := (· = 0)) (l := digits)]
  have zerosInFront : digitsValue (digits.takeWhile (· = 0)) = 0 :=
    digitsValue_zeros fun digit present => by simpa using List.mem_takeWhile_imp present
  rw [digitsValue_append, zerosInFront, Nat.zero_mul, Nat.zero_add]

/-- Zeros after the digits are a power of ten. -/
theorem digitsValue_rdropWhile (digits : List (Fin 10)) :
    digitsValue digits = digitsValue (digits.rdropWhile (· = 0)) *
      10 ^ (digits.length - (digits.rdropWhile (· = 0)).length) := by
  have split : digits.rdropWhile (· = 0) ++ digits.rtakeWhile (· = 0) = digits :=
    List.rdropWhile_append_rtakeWhile
  have count : (digits.rtakeWhile (· = 0)).length =
      digits.length - (digits.rdropWhile (· = 0)).length := by
    have total := congrArg List.length split
    rw [List.length_append] at total
    omega
  conv_lhs => rw [← split]
  have zerosBehind : digitsValue (digits.rtakeWhile (· = 0)) = 0 :=
    digitsValue_zeros fun digit present => by simpa using List.mem_rtakeWhile_imp present
  rw [digitsValue_append, zerosBehind, count, Nat.add_zero]

namespace Number

/-- The sign of a value. -/
def sign (negative : Bool) : ℚ := if negative then -1 else 1

/-- The digits and the exponent give the value. -/
theorem value_ofDigits (negative : Bool) (digits : List (Fin 10)) (exponent : Int) :
    (ofDigits negative digits exponent).value =
      sign negative * digitsValue digits * (10 : ℚ) ^ exponent := by
  have kept := digitsValue_rdropWhile (digits.dropWhile (· = 0))
  rw [digitsValue_dropWhile] at kept
  rw [kept, ofDigits]
  generalize (digits.dropWhile (· = 0)).length = count
  split
  · next empty => simp [empty, value, digitsValue]
  · change sign negative * (digitsValue _ : ℚ) * _ = _
    rw [zpow_add₀ (by norm_num), zpow_natCast]
    push_cast
    ring

/-- A whole number has its value. -/
@[simp] theorem value_ofInt (value : Int) : (ofInt value).value = value := by
  rw [ofInt, value_ofDigits, digitsValue_significantDigits, zpow_zero, mul_one, sign]
  by_cases negative : value < 0
  · have magnitude : (value.natAbs : ℚ) = -value := by
      rw [← Int.cast_natCast, Int.ofNat_natAbs_of_nonpos negative.le, Int.cast_neg]
    simp [negative, magnitude]
  · have magnitude : (value.natAbs : ℚ) = value := by
      rw [← Int.cast_natCast, Int.natAbs_of_nonneg (not_lt.mp negative)]
    simp [negative, magnitude]

end Number

/-- A decimal laid out as a plain run of digits is a whole number. -/
theorem Decimal.value_plain {decimal : Decimal} (plain : decimal.IsPlainInteger) :
    decimal.value = Number.sign decimal.negative * decimal.wholeValue := by
  have exponent : decimal.exponent = (decimal.point - decimal.digits.length).toNat := by
    have := plain.1
    unfold point at this ⊢
    omega
  have whole : (decimal.wholeValue : ℚ) = decimal.coefficient * (10 : ℚ) ^ decimal.exponent := by
    have zeros (count : Nat) : digitsValue (List.replicate count 0) = 0 :=
      digitsValue_zeros fun digit => List.eq_of_mem_replicate
    rw [exponent, zpow_natCast, wholeValue, wholeDigits, digitsValue_append, zeros,
      List.length_replicate, Nat.add_zero]
    push_cast
    rfl
  rw [whole, value, Number.sign, mul_assoc]

/-! ## Numbers with the same value -/

namespace Decimal

/-- A decimal begins with a digit that is not zero. -/
theorem coefficient_pos (decimal : Decimal) : 0 < decimal.coefficient := by
  rw [Nat.pos_iff_ne_zero]
  intro zero
  have digits := significantDigits_digitsValue decimal.leading
  change significantDigits decimal.coefficient = decimal.digits at digits
  rw [zero] at digits
  exact decimal.nonempty digits.symm

/-- The last digit of the coefficient is not zero. -/
theorem coefficient_mod (decimal : Decimal) : ¬ 10 ∣ decimal.coefficient := by
  intro divides
  have last : decimal.digits.getLast decimal.nonempty ≠ 0 := by
    intro zero
    apply decimal.trailing
    rw [List.getLast?_eq_some_getLast decimal.nonempty, zero]
  have split := List.dropLast_append_getLast decimal.nonempty
  have value : decimal.coefficient = digitsValue decimal.digits.dropLast * 10 +
      (decimal.digits.getLast decimal.nonempty).val := by
    change digitsValue decimal.digits = _
    conv_lhs => rw [← split]
    rw [digitsValue_append]
    simp [digitsValue]
  have small := (decimal.digits.getLast decimal.nonempty).isLt
  have nonzero : (decimal.digits.getLast decimal.nonempty).val ≠ 0 := by
    intro zero
    exact last (Fin.ext zero)
  omega

/-- A decimal is determined by its sign, its coefficient and its exponent. -/
theorem ext_coefficient {left right : Decimal} (negative : left.negative = right.negative)
    (coefficient : left.coefficient = right.coefficient) (exponent : left.exponent = right.exponent) :
    left = right := by
  have digits : left.digits = right.digits := by
    rw [← significantDigits_digitsValue left.leading, ← significantDigits_digitsValue right.leading]
    exact congrArg significantDigits coefficient
  cases left
  cases right
  cases negative
  cases digits
  cases exponent
  rfl

/-- Of two decimals of one value neither has the smaller exponent. -/
theorem exponent_le {left right : Decimal}
    (same : (left.coefficient : ℚ) * (10 : ℚ) ^ left.exponent =
      right.coefficient * (10 : ℚ) ^ right.exponent) : right.exponent ≤ left.exponent := by
  by_contra below
  obtain ⟨gap, shifted⟩ : ∃ gap : Nat, right.exponent = left.exponent + (gap + 1 : Nat) :=
    ⟨(right.exponent - left.exponent - 1).toNat, by omega⟩
  apply left.coefficient_mod
  have power : (10 : ℚ) ^ left.exponent ≠ 0 := zpow_ne_zero _ (by norm_num)
  have scaled : (left.coefficient : ℚ) = right.coefficient * 10 ^ (gap + 1) := by
    rw [shifted, zpow_add₀ (by norm_num), zpow_natCast] at same
    apply mul_right_cancel₀ power
    rw [same]
    ring
  have whole : left.coefficient = right.coefficient * 10 ^ (gap + 1) := by exact_mod_cast scaled
  rw [whole]
  exact Dvd.dvd.mul_left (dvd_pow_self 10 (Nat.succ_ne_zero gap)) _

theorem magnitude_pos (decimal : Decimal) :
    0 < (decimal.coefficient : ℚ) * (10 : ℚ) ^ decimal.exponent := by
  have coefficient : (0 : ℚ) < decimal.coefficient := by exact_mod_cast decimal.coefficient_pos
  exact mul_pos coefficient (zpow_pos (by norm_num) _)

/-- Different decimals have different values. -/
theorem value_injective : Function.Injective value := by
  intro left right same
  have leftPositive := left.magnitude_pos
  have rightPositive := right.magnitude_pos
  simp only [value, mul_assoc] at same
  have negative : left.negative = right.negative := by
    cases leftSign : left.negative <;> cases rightSign : right.negative <;>
      simp only [leftSign, rightSign, Bool.false_eq_true, ↓reduceIte, one_mul, neg_mul] at same ⊢
    all_goals linarith
  have magnitude : (left.coefficient : ℚ) * (10 : ℚ) ^ left.exponent =
      right.coefficient * (10 : ℚ) ^ right.exponent := by
    rw [negative] at same
    cases sign : right.negative <;>
      simpa only [sign, Bool.false_eq_true, ↓reduceIte, one_mul, neg_mul, neg_inj] using same
  have exponent := le_antisymm (exponent_le magnitude.symm) (exponent_le magnitude)
  have power : (10 : ℚ) ^ right.exponent ≠ 0 := zpow_ne_zero _ (by norm_num)
  rw [exponent] at magnitude
  have coefficient : (left.coefficient : ℚ) = right.coefficient := mul_right_cancel₀ power magnitude
  exact ext_coefficient negative (by exact_mod_cast coefficient) exponent

/-- A decimal is not zero. -/
theorem value_ne_zero (decimal : Decimal) : decimal.value ≠ 0 := by
  have positive := decimal.magnitude_pos
  rw [value, mul_assoc]
  split <;> linarith [positive]

end Decimal

namespace Number

/-- A number whose zero has no sign. -/
def unsigned : Number → Number
  | .zero _ => .zero false
  | .finite decimal => .finite decimal

/-- The sign of zero does not count. -/
@[simp] theorem value_unsigned (number : Number) : number.unsigned.value = number.value := by
  cases number <;> rfl

/-- Up to the sign of zero, a number is its value. -/
theorem unsigned_eq_iff {left right : Number} :
    left.unsigned = right.unsigned ↔ left.value = right.value := by
  constructor
  · intro same
    rw [← value_unsigned left, same, value_unsigned]
  · intro same
    cases left with
    | zero leftSign =>
        cases right with
        | zero rightSign => rfl
        | finite decimal => exact absurd same.symm decimal.value_ne_zero
    | finite leftDecimal =>
        cases right with
        | zero rightSign => exact absurd same leftDecimal.value_ne_zero
        | finite rightDecimal => rw [Decimal.value_injective same]

/-- A whole number of at most 21 digits is laid out as a plain run of digits. -/
theorem ofInt_plain {value : Int} {decimal : Decimal} (form : ofInt value = .finite decimal)
    (small : value.natAbs < 10 ^ 21) : decimal.IsPlainInteger := by
  unfold ofInt ofDigits at form
  dsimp only at form
  split at form
  · exact absurd form (by simp)
  · next nonempty =>
      obtain rfl := Number.finite.inj form
      have kept := (List.rdropWhile_prefix (· = (0 : Fin 10))
        (l := (significantDigits value.natAbs).dropWhile (· = 0))).length_le
      have dropped := (List.dropWhile_suffix (· = (0 : Fin 10))
        (l := significantDigits value.natAbs)).length_le
      have count : (significantDigits value.natAbs).length ≤ 21 := by
        rw [significantDigits, List.length_map, List.length_reverse]
        exact (Nat.digits_length_le_iff (by decide) value.natAbs).mpr small
      unfold Decimal.IsPlainInteger Decimal.point
      dsimp only
      omega

end Number
