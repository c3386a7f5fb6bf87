import Anviq.Json.Numeral
import Anviq.Json.Order

/-! # Python values

JSON values as Python holds them: an integer is exact, a float is the shortest
decimal that reads back as it. `loads` is `json.loads` on text whose floats are
written with their shortest digits; a `dict` keeps the last of repeated names.
-/

namespace Harness

/-- A Python number. -/
inductive PyNumber where
  | int (value : Int)
  | float (value : Number)
  | infinity (negative : Bool)
  | nan
deriving DecidableEq

/-- The rational value of a number that has one. -/
def PyNumber.value? : PyNumber → Option ℚ
  | .int value => some value
  | .float value => some value.value
  | .infinity _ => none
  | .nan => none

/-- A value of `json.loads`. -/
abbrev PyJson := Json PyNumber

/-- A `dict` of `json.loads`. -/
abbrev PyDict := Json.Members PyNumber

/-- The exceptions the modelled code raises. -/
inductive PyError where
  | keyError (key : String)
  | typeError (message : String)
  | valueError (message : String)
  | attributeError (message : String)
  | indexError (message : String)
deriving DecidableEq

/-- A computation that goes on after another ends well when both do. -/
theorem bind_eq_ok {ε α β : Type} {first : Except ε α} {next : α → Except ε β} {result : β} :
    (first >>= next) = .ok result ↔ ∃ value, first = .ok value ∧ next value = .ok result := by
  cases first <;> simp [bind, Except.bind]

/-- A computation ends well with a value exactly if that is what is left of it. -/
theorem toOption_eq_some {ε α : Type} {outcome : Except ε α} {value : α} :
    outcome.toOption = some value ↔ outcome = .ok value := by
  cases outcome <;> simp [Except.toOption]

/-- An integer with its sign. -/
def signedInt (negative : Bool) (magnitude : Nat) : Int :=
  if negative then -magnitude else magnitude

/-- How `json.loads` reads a number: as a float if it has a fraction or an
exponent, as an int otherwise. -/
def PyNumber.ofText (text : List Char) : PyNumber :=
  let (negative, numeral) := readNumeral text
  if numeral.fraction = [] ∧ numeral.exponent = none then
    .int (signedInt negative (digitsValue numeral.integer))
  else .float (numeral.number negative)

/-- `json.loads`. -/
def loads (text : String) : Option PyJson :=
  (Json.parse text).map fun tree => (tree.map fun token => PyNumber.ofText token.toList).collapse

/-- The number Python reads from a number in JSON notation. -/
def PyNumber.ofNumber : Number → PyNumber
  | .zero _ => .int 0
  | .finite decimal =>
      if decimal.IsPlainInteger then .int (signedInt decimal.negative decimal.wholeValue)
      else .float (.finite decimal)

/-- Python reads every number back from its layout, a whole one as an int. -/
theorem PyNumber.ofText_layout (number : Number) : ofText number.layout = ofNumber number := by
  cases number with
  | zero negative => cases negative <;> rfl
  | finite decimal =>
      rw [Number.layout, ofText, Number.readNumeral_layout]
      simp only [decimal.numeral_whole, decimal.numeral_number, ofNumber]
      split
      · next plain =>
          rw [Decimal.numeral_plain plain]
          rfl
      · rfl

end Harness
