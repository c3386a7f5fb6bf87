import Anviq.Json.Value

/-! # Reading JSON text

A reader of JSON text that keeps everything the text says: members in order and
with repeated names, and every number as the characters it is written with.
Strings are decoded; an escaped surrogate without its partner reads as the
replacement character. What a program makes of a text is a function of this
tree.

The readers of values, elements and members recurse over a fuel that
`Json.parse` sets from the length of the text.
-/

namespace Json

/-! ## Characters -/

/-- The white space of the grammar. -/
def isWhitespace (char : Char) : Bool :=
  char = ' ' || char = '\t' || char = '\n' || char = '\r'

/-- The input after white space. -/
def skipWhitespace (input : List Char) : List Char := input.dropWhile isWhitespace

/-- The value of a hexadecimal digit. -/
def hexValue (char : Char) : Option Nat :=
  if '0' ≤ char ∧ char ≤ '9' then some (char.toNat - 48)
  else if 'a' ≤ char ∧ char ≤ 'f' then some (char.toNat - 87)
  else if 'A' ≤ char ∧ char ≤ 'F' then some (char.toNat - 55)
  else none

/-- The code unit of a `\u` escape. -/
def hexUnit (a b c d : Char) : Option Nat := do
  let a ← hexValue a
  let b ← hexValue b
  let c ← hexValue c
  let d ← hexValue d
  some (((a * 16 + b) * 16 + c) * 16 + d)

/-- The character a two-character escape stands for. -/
def escaped (char : Char) : Option Char :=
  match char with
  | '"' => some '"'
  | '\\' => some '\\'
  | '/' => some '/'
  | 'b' => some '\x08'
  | 'f' => some '\x0c'
  | 'n' => some '\n'
  | 'r' => some '\r'
  | 't' => some '\t'
  | _ => none

/-! ## Strings -/

/-- The code points and escaped code units of a string, from after its opening
quote to its closing one, and the input after it. -/
def scanString : List Char → Option (List Nat × List Char)
  | [] => none
  | '"' :: rest => some ([], rest)
  | '\\' :: 'u' :: a :: b :: c :: d :: rest => do
      let unit ← hexUnit a b c d
      let (units, rest) ← scanString rest
      some (unit :: units, rest)
  | '\\' :: char :: rest => do
      let char ← escaped char
      let (units, rest) ← scanString rest
      some (char.toNat :: units, rest)
  | char :: rest =>
      if char.toNat < 0x20 ∨ char = '\\' then none
      else do
        let (units, rest) ← scanString rest
        some (char.toNat :: units, rest)

/-- The first code unit of a surrogate pair. -/
def isHighSurrogate (unit : Nat) : Bool := 0xD800 ≤ unit && unit < 0xDC00

/-- The second code unit of a surrogate pair. -/
def isLowSurrogate (unit : Nat) : Bool := 0xDC00 ≤ unit && unit < 0xE000

/-- The character of a code point; the replacement character for a surrogate. -/
def unitChar (unit : Nat) : Char :=
  if isHighSurrogate unit || isLowSurrogate unit then '\uFFFD' else Char.ofNat unit

/-- Combine surrogate pairs. -/
def joinSurrogates : List Nat → List Char
  | [] => []
  | [unit] => [unitChar unit]
  | high :: low :: rest =>
      if isHighSurrogate high && isLowSurrogate low then
        Char.ofNat (0x10000 + (high - 0xD800) * 0x400 + (low - 0xDC00)) :: joinSurrogates rest
      else unitChar high :: joinSurrogates (low :: rest)

/-- A string after its opening quote. -/
def parseString (input : List Char) : Option (String × List Char) := do
  let (units, rest) ← scanString input
  some (String.ofList (joinSurrogates units), rest)

/-! ## Numbers -/

/-- A non-empty run of digits. -/
def scanDigits (input : List Char) : Option (List Char × List Char) :=
  match input.span Char.isDigit with
  | ([], _) => none
  | (digits, rest) => some (digits, rest)

/-- An integer part: a lone zero or digits that do not start with one. -/
def scanInteger : List Char → Option (List Char × List Char)
  | '0' :: rest => some (['0'], rest)
  | input => scanDigits input

/-- An optional fraction. -/
def scanFraction : List Char → Option (List Char × List Char)
  | '.' :: rest => do
      let (digits, rest) ← scanDigits rest
      some ('.' :: digits, rest)
  | input => some ([], input)

/-- An optional exponent. -/
def scanExponent : List Char → Option (List Char × List Char)
  | mark :: sign :: rest =>
      if mark = 'e' ∨ mark = 'E' then
        if sign = '+' ∨ sign = '-' then do
          let (digits, rest) ← scanDigits rest
          some (mark :: sign :: digits, rest)
        else do
          let (digits, rest) ← scanDigits (sign :: rest)
          some (mark :: digits, rest)
      else some ([], mark :: sign :: rest)
  | [mark] => if mark = 'e' ∨ mark = 'E' then none else some ([], [mark])
  | [] => some ([], [])

/-- A number without its sign. -/
def scanMagnitude (input : List Char) : Option (List Char × List Char) := do
  let (integer, rest) ← scanInteger input
  let (fraction, rest) ← scanFraction rest
  let (exponent, rest) ← scanExponent rest
  some (integer ++ fraction ++ exponent, rest)

/-- A number. -/
def scanNumber : List Char → Option (List Char × List Char)
  | '-' :: rest => do
      let (magnitude, rest) ← scanMagnitude rest
      some ('-' :: magnitude, rest)
  | input => scanMagnitude input

/-! ## Values -/

mutual

/-- A value, after white space. -/
def parseValue : Nat → List Char → Option (Json String × List Char)
  | 0, _ => none
  | fuel + 1, input =>
      match skipWhitespace input with
      | 'n' :: 'u' :: 'l' :: 'l' :: rest => some (.null, rest)
      | 't' :: 'r' :: 'u' :: 'e' :: rest => some (.bool true, rest)
      | 'f' :: 'a' :: 'l' :: 's' :: 'e' :: rest => some (.bool false, rest)
      | '"' :: rest => do
          let (value, rest) ← parseString rest
          some (.str value, rest)
      | '[' :: rest =>
          match skipWhitespace rest with
          | ']' :: rest => some (.arr [], rest)
          | rest => do
              let (elements, rest) ← parseElements fuel rest
              some (.arr elements, rest)
      | '\x7b' :: rest =>
          match skipWhitespace rest with
          | '\x7d' :: rest => some (.obj [], rest)
          | rest => do
              let (members, rest) ← parseMembers fuel rest
              some (.obj members, rest)
      | input => do
          let (token, rest) ← scanNumber input
          some (.num (String.ofList token), rest)

/-- The elements of a non-empty array, up to its closing bracket. -/
def parseElements : Nat → List Char → Option (List (Json String) × List Char)
  | 0, _ => none
  | fuel + 1, input => do
      let (element, rest) ← parseValue fuel input
      match skipWhitespace rest with
      | ',' :: rest => do
          let (elements, rest) ← parseElements fuel rest
          some (element :: elements, rest)
      | ']' :: rest => some ([element], rest)
      | _ => none

/-- The members of a non-empty object, up to its closing brace. -/
def parseMembers : Nat → List Char → Option (Members String × List Char)
  | 0, _ => none
  | fuel + 1, input =>
      match skipWhitespace input with
      | '"' :: rest => do
          let (name, rest) ← parseString rest
          match skipWhitespace rest with
          | ':' :: rest => do
              let (value, rest) ← parseValue fuel rest
              match skipWhitespace rest with
              | ',' :: rest => do
                  let (members, rest) ← parseMembers fuel rest
                  some ((name, value) :: members, rest)
              | '\x7d' :: rest => some ([(name, value)], rest)
              | _ => none
          | _ => none
      | _ => none

end

/-- The tree a text denotes, with nothing but white space after it. -/
def parse (text : String) : Option (Json String) :=
  match parseValue (2 * text.toList.length + 2) text.toList with
  | some (value, rest) => if skipWhitespace rest = [] then some value else none
  | none => none

example : parse "\x7b\"a\": [1, -2.5e+3, \"\\ud83d\\ude00\\n\"], \"a\": null\x7d" =
    some (.obj [("a", .arr [.num "1", .num "-2.5e+3", .str "😀\n"]), ("a", .null)]) := by
  decide +kernel

end Json
