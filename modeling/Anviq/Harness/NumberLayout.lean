import Anviq.Harness.Canonical
import Anviq.Json.NumberValue
import Mathlib.Algebra.Order.Field.Power

/-! # The layout of a number

`_encode_number` writes a float as `Number::toString` of ECMAScript lays it out: a JSON number
that denotes the same decimal, plain from 1e-6 up to 1e21 and in exponential notation elsewhere.
-/

/-! ## Texts that denote numbers -/

namespace Numeral

/-- The value of a numeral with a sign. -/
def value (numeral : Numeral) (negative : Bool) : ℚ :=
  Number.sign negative * digitsValue (numeral.integer ++ numeral.fraction) *
    (10 : ℚ) ^ (power numeral.exponent - numeral.fraction.length)

/-- A numeral with its sign. -/
def signed (numeral : Numeral) (negative : Bool) : List Char :=
  if negative then '-' :: numeral.text else numeral.text

theorem value_number (numeral : Numeral) (negative : Bool) :
    (numeral.number negative).value = numeral.value negative :=
  Number.value_ofDigits _ _ _

end Numeral

/-- The text is a number of the JSON grammar that denotes the value. -/
def Denotes (text : List Char) (value : ℚ) : Prop :=
  ∃ (negative : Bool) (numeral : Numeral), numeral.WellFormed ∧ text = numeral.signed negative ∧
    value = numeral.value negative

/-! ## `Number::toString` -/

namespace Decimal

/-- The steps of `Number::toString` for a positive number with the digits `s`, of which there are
`k`, whose value is that of `0.s` times `10 ^ n`. -/
inductive LaidOut (s : List Char) (n : Int) : List Char → Prop where
  | whole (long : (s.length : Int) ≤ n) (small : n ≤ 21) :
      LaidOut s n (s ++ List.replicate (n - s.length).toNat '0')
  | point (inside : 0 < n) (short : n < s.length) (small : n ≤ 21) :
      LaidOut s n (s.take n.toNat ++ '.' :: s.drop n.toNat)
  | zeros (near : -6 < n) (below : n ≤ 0) :
      LaidOut s n ('0' :: '.' :: List.replicate (-n).toNat '0' ++ s)
  | digit {first : Char} (far : n ≤ -6 ∨ 21 < n) (alone : s = [first]) :
      LaidOut s n (first :: 'e' :: (if n - 1 < 0 then '-' else '+') :: natText (n - 1).natAbs)
  | digits {first second : Char} {rest : List Char} (far : n ≤ -6 ∨ 21 < n)
      (more : s = first :: second :: rest) :
      LaidOut s n (first :: '.' :: second :: rest ++
        'e' :: (if n - 1 < 0 then '-' else '+') :: natText (n - 1).natAbs)

/-- `Number::toString`: a minus sign, if the number is negative, and the steps for its
magnitude. -/
def ToString (decimal : Decimal) (text : List Char) : Prop :=
  ∃ body, LaidOut decimal.digitText decimal.point body ∧
    text = if decimal.negative then '-' :: body else body

/-! ## The size of a decimal -/

/-- The coefficient has as many digits as are written. -/
theorem digits_coefficient (decimal : Decimal) :
    (Nat.digits 10 decimal.coefficient).length = decimal.digits.length := by
  have read := significantDigits_digitsValue decimal.leading
  have lengths := congrArg List.length read
  rw [significantDigits, List.length_map, List.length_reverse] at lengths
  exact lengths

theorem coefficient_lt (decimal : Decimal) :
    (decimal.coefficient : ℚ) < (10 : ℚ) ^ (decimal.digits.length : Int) := by
  have bound := Nat.lt_base_pow_length_digits (b := 10) (m := decimal.coefficient) (by norm_num)
  rw [digits_coefficient] at bound
  rw [zpow_natCast]
  exact_mod_cast bound

theorem le_coefficient (decimal : Decimal) :
    (10 : ℚ) ^ (decimal.digits.length - 1 : Int) ≤ decimal.coefficient := by
  have bound := Nat.base_pow_length_digits_le 10 decimal.coefficient (by norm_num)
    decimal.coefficient_pos.ne'
  rw [digits_coefficient] at bound
  have cast : (10 : ℚ) ^ (decimal.digits.length : Int) ≤ 10 * decimal.coefficient := by
    rw [zpow_natCast]
    exact_mod_cast bound
  rw [zpow_sub₀ (by norm_num), zpow_one, div_le_iff₀ (by norm_num)]
  linarith

theorem abs_value (decimal : Decimal) :
    |decimal.value| = decimal.coefficient * (10 : ℚ) ^ decimal.exponent := by
  have positive := decimal.magnitude_pos
  rw [value, mul_assoc, abs_mul, abs_of_pos positive]
  split <;> simp

/-- A decimal is less than ten to the power of its point. -/
theorem abs_value_lt (decimal : Decimal) : |decimal.value| < (10 : ℚ) ^ decimal.point := by
  rw [abs_value, point, add_comm, zpow_add₀ (by norm_num)]
  exact mul_lt_mul_of_pos_right decimal.coefficient_lt (zpow_pos (by norm_num) _)

theorem le_abs_value (decimal : Decimal) : (10 : ℚ) ^ (decimal.point - 1) ≤ |decimal.value| := by
  rw [abs_value, point, show decimal.exponent + decimal.digits.length - 1 =
    (decimal.digits.length - 1 : Int) + decimal.exponent by ring, zpow_add₀ (by norm_num)]
  exact mul_le_mul_of_nonneg_right decimal.le_coefficient (zpow_pos (by norm_num) _).le

/-- The point says between which powers of ten a decimal is. -/
theorem plain_iff (decimal : Decimal) :
    ((10 : ℚ) ^ (-6 : Int) ≤ |decimal.value| ∧ |decimal.value| < (10 : ℚ) ^ (21 : Int)) ↔
      -6 < decimal.point ∧ decimal.point ≤ 21 := by
  have above := decimal.abs_value_lt
  have below := decimal.le_abs_value
  constructor
  · intro range
    constructor
    · have powers := lt_of_le_of_lt range.1 above
      exact (zpow_lt_zpow_iff_right₀ (by norm_num)).mp powers
    · have powers := lt_of_le_of_lt below range.2
      have exponents := (zpow_lt_zpow_iff_right₀ (by norm_num)).mp powers
      omega
  · intro range
    constructor
    · refine le_trans (zpow_le_zpow_right₀ (by norm_num) ?_) below
      omega
    · exact lt_of_lt_of_le above (zpow_le_zpow_right₀ (by norm_num) range.2)

end Decimal

namespace Harness

variable (decimal : Decimal)

/-- The text denotes the decimal. -/
theorem encodeDecimal_denotes : Denotes (encodeDecimal decimal) decimal.value := by
  refine ⟨decimal.negative, decimal.numeral, decimal.numeral_wellFormed, ?_, ?_⟩
  · rw [encodeDecimal_eq, Decimal.layout, decimal.magnitudeText_eq, Numeral.signed]
  · rw [← Numeral.value_number, decimal.numeral_number]
    rfl

/-- The magnitude is laid out by the steps of `Number::toString`. -/
theorem magnitudeText_laidOut :
    Decimal.LaidOut decimal.digitText decimal.point decimal.magnitudeText := by
  have count : decimal.digitText.length = decimal.digits.length := List.length_map ..
  have positive := decimal.digits_length_pos
  unfold Decimal.magnitudeText
  dsimp only
  by_cases whole : (decimal.digitText.length : Int) ≤ decimal.point ∧ decimal.point ≤ 21
  · rw [if_pos whole]
    exact .whole whole.1 whole.2
  rw [if_neg whole]
  by_cases point : 0 < decimal.point ∧ decimal.point ≤ 21
  · rw [if_pos point]
    exact .point point.1 (by omega) point.2
  rw [if_neg point]
  by_cases zeros : -6 < decimal.point ∧ decimal.point ≤ 0
  · rw [if_pos zeros]
    exact .zeros zeros.1 zeros.2
  rw [if_neg zeros]
  have far : decimal.point ≤ -6 ∨ 21 < decimal.point := by omega
  have sign : (if 0 < decimal.point - 1 then '+' else '-') =
      if decimal.point - 1 < 0 then '-' else '+' := by
    split <;> split <;> first | rfl | omega
  rw [sign]
  cases digits : decimal.digitText with
  | nil =>
      rw [digits, List.length_nil] at count
      omega
  | cons first rest =>
      cases rest with
      | nil => exact .digit far rfl
      | cons second rest =>
          have more : (1 : Int) < (first :: second :: rest).length := by
            simp only [List.length_cons]
            omega
          rw [if_pos more]
          exact .digits far rfl

theorem encodeDecimal_toString : decimal.ToString (encodeDecimal decimal) := by
  refine ⟨decimal.magnitudeText, magnitudeText_laidOut decimal, ?_⟩
  rw [encodeDecimal_eq, Decimal.layout]

/-! ## Exponential notation -/

theorem digitsText_plain (digits : List (Fin 10)) : 'e' ∉ digits.map digitChar := by
  intro present
  obtain ⟨digit, -, same⟩ := List.mem_map.mp present
  have isDigit := digitChar_isDigit digit
  rw [same] at isDigit
  cases isDigit

/-- Exponential notation is for the numbers that are far from one. -/
theorem exponential_iff : 'e' ∈ encodeDecimal decimal ↔
    ¬ (-6 < decimal.point ∧ decimal.point ≤ 21) := by
  have plain : 'e' ∉ decimal.digitText := digitsText_plain decimal.digits
  have zeros (count : Nat) : 'e' ∉ List.replicate count '0' := by
    intro present
    cases List.eq_of_mem_replicate present
  obtain ⟨body, laidOut, text⟩ := encodeDecimal_toString decimal
  have signed : 'e' ∈ encodeDecimal decimal ↔ 'e' ∈ body := by
    rw [text]
    split
    · simp
    · rfl
  rw [signed]
  cases laidOut with
  | whole long small =>
      refine iff_of_false ?_ (not_not_intro ⟨by omega, small⟩)
      rw [List.mem_append, not_or]
      exact ⟨plain, zeros _⟩
  | point inside short small =>
      refine iff_of_false ?_ (not_not_intro ⟨by omega, small⟩)
      rw [List.mem_append, List.mem_cons, not_or, not_or]
      exact ⟨fun present => plain (List.mem_of_mem_take present), by simp,
        fun present => plain (List.mem_of_mem_drop present)⟩
  | zeros near below =>
      refine iff_of_false ?_ (not_not_intro ⟨near, by omega⟩)
      simp only [List.mem_append, List.mem_cons, not_or]
      exact ⟨⟨by simp, by simp, zeros _⟩, plain⟩
  | digit far alone => exact iff_of_true (by simp) (by omega)
  | digits far more => exact iff_of_true (by simp) (by omega)

/-! ## The layout -/

/-- The text is the layout of the decimal. -/
structure LayoutOf (decimal : Decimal) (text : List Char) : Prop where
  denotes : Denotes text decimal.value
  prescribed : decimal.ToString text
  exponential : 'e' ∈ text ↔ ¬ ((10 : ℚ) ^ (-6 : Int) ≤ |decimal.value| ∧
    |decimal.value| < (10 : ℚ) ^ (21 : Int))

/-- **The text of a number** denotes it, has the layout that ECMAScript prescribes, and is that
of no other number. -/
theorem encodeNumber_layout (decimal : Decimal) :
    ∃ text, encodeNumber (.float (.finite decimal)) = .ok text ∧ LayoutOf decimal text ∧
      ∀ other : Decimal, encodeNumber (.float (.finite other)) = .ok text → other = decimal := by
  refine ⟨encodeDecimal decimal, rfl, ⟨encodeDecimal_denotes decimal,
    encodeDecimal_toString decimal, ?_⟩, ?_⟩
  · rw [Decimal.plain_iff]
    exact exponential_iff decimal
  · intro other same
    have texts : encodeDecimal other = encodeDecimal decimal := Except.ok.inj same
    rw [encodeDecimal_eq, encodeDecimal_eq] at texts
    have read := Number.ofText_layout (.finite other)
    rw [Number.layout, texts] at read
    have own := Number.ofText_layout (.finite decimal)
    rw [Number.layout] at own
    exact Number.finite.inj (read.symm.trans own)

end Harness
