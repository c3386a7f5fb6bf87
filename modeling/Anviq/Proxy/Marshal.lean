import Anviq.Json.Numeral
import Anviq.Json.Order
import Anviq.Proxy.Event

/-! # Encoding JSON in Go

`json.Marshal` of decoded values: maps are written in the order of their names,
and characters that are special in HTML or JavaScript are escaped.
-/

namespace Proxy

/-- How `encoding/json` writes a character of a string. -/
def goEscape (char : Char) : List Char :=
  if char = '"' then ['\\', '"']
  else if char = '\\' then ['\\', '\\']
  else if char = '\x08' then ['\\', 'b']
  else if char = '\x0c' then ['\\', 'f']
  else if char = '\n' then ['\\', 'n']
  else if char = '\r' then ['\\', 'r']
  else if char = '\t' then ['\\', 't']
  else if char.toNat < 0x20 ∨ char = '<' ∨ char = '>' ∨ char = '&' ∨ char = '\u2028' ∨
      char = '\u2029' then Json.unicodeEscape char.toNat
  else [char]

/-- `json.Marshal`. -/
def marshal (value : GoJson) : String :=
  String.ofList (Json.print goEscape Number.layout value.sortKeys)

/-- The reader undoes the escapes. -/
theorem goEscape_unescapes : Json.Unescapes goEscape := by
  intro char rest
  unfold goEscape
  split_ifs with quoteMark backslash backspace formFeed newline carriageReturn tab special
  · rw [quoteMark]
    exact Json.scanString_escaped (by decide) rest
  · rw [backslash]
    exact Json.scanString_escaped (by decide) rest
  · rw [backspace]
    exact Json.scanString_escaped (by decide) rest
  · rw [formFeed]
    exact Json.scanString_escaped (by decide) rest
  · rw [newline]
    exact Json.scanString_escaped (by decide) rest
  · rw [carriageReturn]
    exact Json.scanString_escaped (by decide) rest
  · rw [tab]
    exact Json.scanString_escaped (by decide) rest
  · refine Json.scanString_unicodeEscape ?_ rest
    rcases special with control | rfl | rfl | rfl | rfl | rfl
    · omega
    all_goals decide
  · rw [not_or] at special
    exact Json.scanString_plain (not_lt.mp special.1) quoteMark backslash rest

/-- An encoded value reads back as its tree, with the members of every object
sorted. -/
theorem parse_marshal (value : GoJson) :
    Json.parse (marshal value) =
      some (value.sortKeys.map fun number => String.ofList number.layout) :=
  Json.parse_print goEscape_unescapes Number.layout_recognised _

end Proxy
