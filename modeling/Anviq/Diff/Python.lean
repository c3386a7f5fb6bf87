import Anviq.Harness.Canonical
import Anviq.Harness.Recording

/-! # Python under the differ

What the differ does with Python values besides reading them: truth, comparison,
iteration, sets, and the texts `str` and `repr` give them. The parts of the
standard library that stand on large tables or on floating-point arithmetic are
the fields of `Stdlib`. All the NaNs that `json.loads` reads are one object, and
containers compare by identity before they compare by `==`.
-/

namespace Harness.Diff

/-- What the differ takes from the standard library: the Unicode tables behind
`str` and `int`, `unquote`, `re.search` (the text matched), the `ratio` of a
`SequenceMatcher`, the nearest double of a number, and the order in which a set
built from a list of values is iterated. -/
structure Stdlib where
  lower : String → String
  isPrintable : Char → Bool
  isDigit : Char → Bool
  decimal : Char → Option Nat
  unquote : String → String
  search : String → Bool → String → Option String
  ratio : String → String → ℚ
  double : ℚ → ℚ
  iterate : List PyJson → List PyJson
  iterate_perm : ∀ items, (iterate items).Perm items

/-- A standard library for plain ASCII texts that no pattern matches. -/
def plainLib : Stdlib where
  lower text := String.ofList (text.toList.map Char.toLower)
  isPrintable char := 32 ≤ char.toNat && char.toNat < 127
  isDigit := Char.isDigit
  decimal char := if char.isDigit then some (char.toNat - 48) else none
  unquote := id
  search := fun _ _ _ => none
  ratio left right := if left = right then 1 else 0
  double := id
  iterate := id
  iterate_perm := fun _ => .refl _

/-! ## Values -/

/-- The name of a value's type. -/
def typeName : PyJson → String
  | .null => "NoneType"
  | .bool _ => "bool"
  | .num (.int _) => "int"
  | .num _ => "float"
  | .str _ => "str"
  | .arr _ => "list"
  | .obj _ => "dict"

/-- `bool(value)`. -/
def truthy : PyJson → Bool
  | .null => false
  | .bool value => value
  | .num value => decide (value.value? ≠ some 0)
  | .str text => decide (text ≠ "")
  | .arr elements => !elements.isEmpty
  | .obj members => !members.isEmpty

/-- `value or other`. -/
def orElse (value other : PyJson) : PyJson := if truthy value then value else other

/-- The string a value is. -/
def string? : PyJson → Option String
  | .str text => some text
  | _ => none

/-- The `dict` a value is. -/
def dict? : PyJson → Option PyDict
  | .obj members => some members
  | _ => none

/-- `{**base, **changes}`: a name of both keeps its place. -/
def merged (base changes : PyDict) : PyDict :=
  (base.map fun member => (member.1, (changes.get? member.1).getD member.2)) ++
    changes.filter fun member => (base.get? member.1).isNone

/-- Comparison by identity or `==`, of numbers. -/
def sameNumber (left right : PyNumber) : Bool :=
  left.eq right || decide (left = .nan ∧ right = .nan)

mutual

/-- Comparison by identity or `==`, as containers compare what they hold. -/
def sameItem : PyJson → PyJson → Bool
  | .null, .null => true
  | .str left, .str right => left == right
  | .arr left, .arr right => sameItems left right
  | .obj left, .obj right => left.length == right.length && sameDict left right
  | left, right =>
      match number? left, number? right with
      | some left, some right => sameNumber left right
      | _, _ => false

def sameItems : List PyJson → List PyJson → Bool
  | [], [] => true
  | left :: lefts, right :: rights => sameItem left right && sameItems lefts rights
  | _, _ => false

def sameDict : PyDict → PyDict → Bool
  | [], _ => true
  | (name, value) :: members, right =>
      (match right.get? name with
        | some other => sameItem value other
        | none => false) &&
        sameDict members right

end

/-- `left == right`. -/
def equals (left right : PyJson) : Bool :=
  match left, right with
  | .num .nan, .num .nan => false
  | left, right => sameItem left right

/-- `left < right`, of numbers. -/
def PyNumber.lt : PyNumber → PyNumber → Bool
  | .nan, _ => false
  | _, .nan => false
  | .infinity true, right => decide (right ≠ .infinity true)
  | _, .infinity true => false
  | .infinity false, _ => false
  | _, .infinity false => true
  | left, right =>
      match left.value?, right.value? with
      | some left, some right => decide (left < right)
      | _, _ => false

/-- A comparison of numbers, written with the operator `op`. -/
def compared (op : String) (test : PyNumber → PyNumber → Bool) (left right : PyJson) :
    Except PyError Bool :=
  match number? left, number? right with
  | some left, some right => .ok (test left right)
  | _, _ =>
      .error (.typeError (s!"'{op}' not supported between instances of '{typeName left}' and " ++
        s!"'{typeName right}'"))

/-- `left < right`. -/
def lessThan : PyJson → PyJson → Except PyError Bool := compared "<" PyNumber.lt

/-- `left > right`. -/
def greaterThan : PyJson → PyJson → Except PyError Bool :=
  compared ">" fun left right => PyNumber.lt right left

/-- The items a value gives when it is iterated. -/
def iterated : PyJson → Except PyError (List PyJson)
  | .arr elements => .ok elements
  | .obj members => .ok (members.map fun member => .str member.1)
  | .str text => .ok (text.toList.map fun char => .str (String.singleton char))
  | other => .error (.typeError s!"'{typeName other}' object is not iterable")

/-- A value that can be in a set. -/
def hashed : PyJson → Except PyError PyJson
  | .arr _ => .error (.typeError "unhashable type: 'list'")
  | .obj _ => .error (.typeError "unhashable type: 'dict'")
  | value => .ok value

/-- A set: of items that are the same, the first stays. -/
def distinctItems : List PyJson → List PyJson
  | [] => []
  | item :: items => item :: (distinctItems items).filter fun other => !sameItem item other

/-- `item in items`. -/
def contains (items : List PyJson) (item : PyJson) : Bool := items.any fun other => sameItem other item

/-- `left - right`, of sets. -/
def difference (left right : List PyJson) : List PyJson :=
  left.filter fun item => !contains right item

/-- Strings in ascending order, each once. -/
def sortedStrings (names : List String) : List String :=
  (names.insertionSort fun left right => !decide (right < left)).dedup

/-! ## Texts -/

/-- `value` in hexadecimal, with `width` digits. -/
def hexText : Nat → Nat → List Char
  | 0, _ => []
  | width + 1, value => hexText width (value / 16) ++ [Json.hexDigit (value % 16)]

section Texts

variable (lib : Stdlib)

/-- A character in the `repr` of a string between `quote`s. -/
def reprChar (quote char : Char) : List Char :=
  if char = quote ∨ char = '\\' then ['\\', char]
  else if char = '\t' then ['\\', 't']
  else if char = '\n' then ['\\', 'n']
  else if char = '\r' then ['\\', 'r']
  else if ' ' ≤ char ∧ char < '\x7f' then [char]
  else if 0x7f < char.toNat ∧ lib.isPrintable char then [char]
  else if char.toNat < 0x100 then '\\' :: 'x' :: hexText 2 char.toNat
  else if char.toNat < 0x10000 then '\\' :: 'u' :: hexText 4 char.toNat
  else '\\' :: 'U' :: hexText 8 char.toNat

/-- `repr` of a string. -/
def reprString (text : String) : String :=
  let quote := if text.toList.contains '\'' ∧ ¬ text.toList.contains '"' then '"' else '\''
  String.ofList (quote :: text.toList.flatMap (reprChar lib quote) ++ [quote])

/-- The exponent of a float: at least two digits. -/
def exponentText (power : Int) : List Char :=
  (if power < 0 then '-' else '+') ::
    (if power.natAbs < 10 then '0' :: natText power.natAbs else natText power.natAbs)

/-- `repr` of a float that is not zero. -/
def decimalRepr (decimal : Decimal) : List Char :=
  let digits := decimal.digitText
  let count : Int := digits.length
  let point := decimal.point
  let body :=
    if point ≤ -4 ∨ 16 < point then
      digits.take 1 ++ (if 1 < count then '.' :: digits.drop 1 else []) ++
        'e' :: exponentText (point - 1)
    else if point ≤ 0 then '0' :: '.' :: List.replicate (-point).toNat '0' ++ digits
    else if count ≤ point then digits ++ List.replicate (point - count).toNat '0' ++ ['.', '0']
    else digits.take point.toNat ++ '.' :: digits.drop point.toNat
  if decimal.negative then '-' :: body else body

/-- `repr` of a number. -/
def numberRepr : PyNumber → String
  | .int value => String.ofList (intText value)
  | .float (.zero false) => "0.0"
  | .float (.zero true) => "-0.0"
  | .float (.finite decimal) => String.ofList (decimalRepr decimal)
  | .infinity false => "inf"
  | .infinity true => "-inf"
  | .nan => "nan"

mutual

/-- `repr`. -/
def repr : PyJson → String
  | .null => "None"
  | .bool true => "True"
  | .bool false => "False"
  | .num value => numberRepr value
  | .str text => reprString lib text
  | .arr elements => "[" ++ ", ".intercalate (reprs elements) ++ "]"
  | .obj members => "\x7b" ++ ", ".intercalate (memberReprs members) ++ "\x7d"

def reprs : List PyJson → List String
  | [] => []
  | element :: elements => repr element :: reprs elements

def memberReprs : PyDict → List String
  | [] => []
  | (name, value) :: members =>
      (reprString lib name ++ ": " ++ repr value) :: memberReprs members

end

/-- `str`. -/
def str : PyJson → String
  | .str text => text
  | value => repr lib value

/-- `repr` of a list of strings. -/
def reprNames (names : List String) : String := repr lib (.arr (names.map .str))

/-- `sorted(items, key=str)` of a set. -/
def sortedByText (items : List PyJson) : List PyJson :=
  (lib.iterate items).insertionSort fun left right => !decide (str lib right < str lib left)

end Texts

/-- `f"{value:.2f}"` of a number that is not negative. -/
def fixed2 (value : ℚ) : String :=
  let scaled := value * 100
  let whole := scaled.floor.toNat
  let rest := scaled - whole
  let rounded :=
    if rest < 1 / 2 then whole
    else if 1 / 2 < rest then whole + 1
    else whole + whole % 2
  String.ofList (natText (rounded / 100) ++
    ['.', Json.hexDigit (rounded / 10 % 10), Json.hexDigit (rounded % 10)])

end Harness.Diff
