import Mathlib.Data.List.Lex
import Mathlib.Data.List.Sort
import Mathlib.Order.Defs.LinearOrder

/-! # UTF-16 order

The order of strings by their UTF-16 code units, in which canonical JSON sorts
names. It differs from the order by code points: a character outside the basic
plane is a surrogate pair and sorts below `U+E000`.
-/

/-- The UTF-16 code units of a character. -/
def Char.utf16Units (char : Char) : List Nat :=
  if char.toNat < 0x10000 then [char.toNat]
  else [0xD800 + (char.toNat - 0x10000) / 0x400, 0xDC00 + (char.toNat - 0x10000) % 0x400]

/-- The UTF-16 code units of a string. -/
def String.utf16Units (text : String) : List Nat := text.toList.flatMap Char.utf16Units

namespace Utf16

/-- `left` comes before `right`, or is it. -/
def le (left right : String) : Bool := !decide (right.utf16Units < left.utf16Units)

/-- The strings of a list, each once, in UTF-16 order. -/
def sortDedupe (strings : List String) : List String :=
  strings.dedup.insertionSort fun left right => le left right

end Utf16
