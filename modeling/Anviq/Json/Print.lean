import Anviq.Json.Parse

/-! # Writing JSON text

Compact JSON text, over an arbitrary escaping of characters and an arbitrary
notation of numbers. A text written with escapes the reader undoes and with
numbers it recognises reads back as the tree it was written from
(`Json.parse_print`).
-/

namespace Json

variable {ν : Type}

section Printing

variable (escape : Char → List Char) (number : ν → List Char)

/-- A string in quotes. -/
def quote (text : String) : List Char := '"' :: text.toList.flatMap escape ++ ['"']

mutual

/-- A value without any white space. -/
def print : Json ν → List Char
  | .null => ['n', 'u', 'l', 'l']
  | .bool true => ['t', 'r', 'u', 'e']
  | .bool false => ['f', 'a', 'l', 's', 'e']
  | .num value => number value
  | .str value => quote escape value
  | .arr elements => '[' :: printElements elements ++ [']']
  | .obj members => '\x7b' :: printMembers members ++ ['\x7d']

def printElements : List (Json ν) → List Char
  | [] => []
  | [element] => print element
  | element :: elements => print element ++ ',' :: printElements elements

def printMembers : Members ν → List Char
  | [] => []
  | [(name, value)] => quote escape name ++ ':' :: print value
  | (name, value) :: members =>
      quote escape name ++ ':' :: print value ++ ',' :: printMembers members

end

theorem printElements_cons_cons (first second : Json ν) (elements : List (Json ν)) :
    printElements escape number (first :: second :: elements) =
      print escape number first ++ ',' :: printElements escape number (second :: elements) := by
  rw [printElements]
  exact fun absurdity => absurd absurdity (by simp)

end Printing

/-! ## Escapes -/

/-- The hexadecimal digit of a number below sixteen. -/
def hexDigit (value : Nat) : Char :=
  if value < 10 then Char.ofNat (48 + value) else Char.ofNat (87 + value)

/-- A `\u` escape of a code unit. -/
def unicodeEscape (unit : Nat) : List Char :=
  ['\\', 'u', hexDigit (unit / 4096 % 16), hexDigit (unit / 256 % 16), hexDigit (unit / 16 % 16),
    hexDigit (unit % 16)]

/-- The reader undoes an escaping of characters. -/
def Unescapes (escape : Char → List Char) : Prop :=
  ∀ (char : Char) (rest : List Char),
    scanString (escape char ++ rest) =
      (scanString rest).map fun scanned => (char.toNat :: scanned.1, scanned.2)

/-- A hexadecimal digit has the value it is written for. -/
theorem hexValue_hexDigit : ∀ value < 16, hexValue (hexDigit value) = some value := by decide

/-- A `\u` escape reads as its code unit. -/
theorem scanString_unicodeEscape {unit : Nat} (small : unit < 0x10000) (rest : List Char) :
    scanString (unicodeEscape unit ++ rest) =
      (scanString rest).map fun scanned => (unit :: scanned.1, scanned.2) := by
  have digit (value : Nat) : hexValue (hexDigit (value % 16)) = some (value % 16) :=
    hexValue_hexDigit _ (Nat.mod_lt _ (by decide))
  have value : ((unit / 4096 % 16 * 16 + unit / 256 % 16) * 16 + unit / 16 % 16) * 16 + unit % 16 =
      unit := by omega
  simp only [unicodeEscape, List.cons_append, List.nil_append, scanString, hexUnit, digit,
    Option.bind_eq_bind, Option.bind_some, value]
  cases scanString rest <;> rfl

/-- A character that needs no escape reads as itself. -/
theorem scanString_plain {char : Char} (printable : 0x20 ≤ char.toNat) (unquoted : char ≠ '"')
    (unescaped : char ≠ '\\') (rest : List Char) :
    scanString (char :: rest) =
      (scanString rest).map fun scanned => (char.toNat :: scanned.1, scanned.2) := by
  have plain : ¬ (char.toNat < 0x20 ∨ char = '\\') := by
    rintro (control | backslash)
    · omega
    · exact unescaped backslash
  rw [scanString.eq_def]
  split
  · simp_all
  · next h => simp_all
  · simp_all
  · simp_all
  · next found =>
      obtain ⟨rfl, rfl⟩ := List.cons.inj found
      rw [if_neg plain]
      cases scanString rest <;> rfl

/-- A two-character escape reads as the character it stands for. -/
theorem scanString_escaped {mark char : Char} (means : escaped mark = some char) (rest : List Char) :
    scanString ('\\' :: mark :: rest) =
      (scanString rest).map fun scanned => (char.toNat :: scanned.1, scanned.2) := by
  have notUnicode : mark ≠ 'u' := by
    rintro rfl
    exact absurd (means.symm.trans (show escaped 'u' = none by decide)) (by simp)
  rw [scanString.eq_def]
  split
  · simp_all
  · simp_all
  · next found =>
      simp only [List.cons.injEq, true_and] at found
      exact absurd found.1 notUnicode
  · next found =>
      simp only [List.cons.injEq, true_and] at found
      obtain ⟨rfl, rfl⟩ := found
      rw [means]
      simp only [Option.bind_eq_bind, Option.bind_some]
      cases scanString rest <;> rfl
  · next plain found =>
      simp only [List.cons.injEq] at found
      exact absurd found.2.symm (plain mark rest found.1.symm)

/-! ## Reading strings back -/

/-- The code point of a character is not a surrogate. -/
theorem not_surrogate (char : Char) :
    (isHighSurrogate char.toNat || isLowSurrogate char.toNat) = false := by
  have valid := char.valid
  simp only [isHighSurrogate, isLowSurrogate, Bool.or_eq_false_iff, Bool.and_eq_false_iff,
    decide_eq_false_iff_not]
  change char.toNat < 0xD800 ∨ 0xDFFF < char.toNat ∧ char.toNat < 0x110000 at valid
  omega

/-- A character is that of its number. -/
theorem unitChar_toNat (char : Char) : unitChar char.toNat = char := by
  rw [unitChar, not_surrogate, if_neg Bool.false_ne_true, Char.ofNat_toNat]

/-- Characters have nothing to join. -/
theorem joinSurrogates_toNat (chars : List Char) :
    joinSurrogates (chars.map Char.toNat) = chars := by
  induction chars with
  | nil => rfl
  | cons char chars ih =>
      have plain := (Bool.or_eq_false_iff.mp (not_surrogate char)).1
      cases chars with
      | nil => simp only [List.map_cons, List.map_nil, joinSurrogates, unitChar_toNat]
      | cons second chars =>
          simp only [List.map_cons] at ih ⊢
          rw [joinSurrogates, plain, Bool.false_and, if_neg Bool.false_ne_true, unitChar_toNat, ih]

section Reading

variable {escape : Char → List Char} {number : ν → List Char}

/-- A quoted string is scanned up to its end, its escapes undone. -/
theorem scanString_escapes (unescapes : Unescapes escape) (chars rest : List Char) :
    scanString (chars.flatMap escape ++ '"' :: rest) = some (chars.map Char.toNat, rest) := by
  induction chars with
  | nil => rfl
  | cons char chars ih =>
      rw [List.flatMap_cons, List.append_assoc, unescapes, ih]
      rfl

/-- A string reads back from its quoted text. -/
theorem parseString_quote (unescapes : Unescapes escape) (text : String) (rest : List Char) :
    parseString (text.toList.flatMap escape ++ '"' :: rest) = some (text, rest) := by
  simp only [parseString, scanString_escapes unescapes, Option.bind_eq_bind, Option.bind_some,
    joinSurrogates_toNat, String.ofList_toList]

/-! ## Reading values back -/

/-- What may follow a value: nothing, a comma, or a closing bracket. -/
def Follows (rest : List Char) : Prop :=
  ∀ char ∈ rest.head?, char = ',' ∨ char = ']' ∨ char = '\x7d'

/-- A number reads as its own token. -/
structure Recognised (number : ν → List Char) : Prop where
  scans : ∀ (value : ν) (rest : List Char), Follows rest →
    scanNumber (number value ++ rest) = some (number value, rest)
  leads : ∀ value : ν, ∃ char tail, number value = char :: tail ∧ (char = '-' ∨ char.isDigit = true)

mutual

/-- The fuel that reading a value takes. -/
def cost : Json ν → Nat
  | .null => 1
  | .bool _ => 1
  | .num _ => 1
  | .str _ => 1
  | .arr elements => costElements elements + 1
  | .obj members => costMembers members + 1

def costElements : List (Json ν) → Nat
  | [] => 0
  | element :: elements => max (cost element) (costElements elements) + 1

def costMembers : Members ν → Nat
  | [] => 0
  | (_, value) :: members => max (cost value) (costMembers members) + 1

end

/-- Nothing is skipped in front of what is visible. -/
theorem skipWhitespace_cons {char : Char} (visible : isWhitespace char = false) (rest : List Char) :
    skipWhitespace (char :: rest) = char :: rest := by
  simp only [skipWhitespace, List.dropWhile_cons, visible, Bool.false_eq_true, ↓reduceIte]

/-- The first character of a number starts nothing else. -/
theorem number_char {char : Char} (first : char = '-' ∨ char.isDigit = true) :
    isWhitespace char = false ∧ char ≠ 'n' ∧ char ≠ 't' ∧ char ≠ 'f' ∧ char ≠ '"' ∧ char ≠ '[' ∧
      char ≠ ']' ∧ char ≠ '\x7b' := by
  rcases first with rfl | digit
  · decide
  · have apart (other : Char) (nondigit : other.isDigit = false) : char ≠ other := by
      rintro rfl
      rw [nondigit] at digit
      exact absurd digit (by decide)
    refine ⟨?_, apart _ rfl, apart _ rfl, apart _ rfl, apart _ rfl, apart _ rfl, apart _ rfl,
      apart _ rfl⟩
    simp only [isWhitespace, apart ' ' rfl, apart '\t' rfl, apart '\n' rfl, apart '\r' rfl,
      decide_false, Bool.or_self]

/-- A number reads back as its token. -/
theorem parseValue_number (recognised : Recognised number) (value : ν) (fuel : Nat)
    {rest : List Char} (follows : Follows rest) :
    parseValue (fuel + 1) (number value ++ rest) =
      some (.num (String.ofList (number value)), rest) := by
  obtain ⟨char, tail, text, first⟩ := recognised.leads value
  obtain ⟨visible, n, t, f, quoteMark, bracket, -, brace⟩ := number_char first
  have scans := recognised.scans value rest follows
  rw [text, List.cons_append] at scans ⊢
  rw [parseValue, skipWhitespace_cons visible]
  split
  · next found => exact absurd (List.cons.inj found).1 n
  · next found => exact absurd (List.cons.inj found).1 t
  · next found => exact absurd (List.cons.inj found).1 f
  · next found => exact absurd (List.cons.inj found).1 quoteMark
  · next found => exact absurd (List.cons.inj found).1 bracket
  · next found => exact absurd (List.cons.inj found).1 brace
  · rw [scans]
    rfl

/-- No value starts with a closing bracket or white space. -/
theorem print_head (escape : Char → List Char) (recognised : Recognised number) (json : Json ν) :
    ∃ char tail, print escape number json = char :: tail ∧ isWhitespace char = false ∧
      char ≠ ']' := by
  cases json with
  | null => exact ⟨_, _, rfl, by decide, by decide⟩
  | bool value => cases value <;> exact ⟨_, _, rfl, by decide, by decide⟩
  | num value =>
      obtain ⟨char, tail, text, first⟩ := recognised.leads value
      obtain ⟨visible, -, -, -, -, -, bracket, -⟩ := number_char first
      exact ⟨char, tail, text, visible, bracket⟩
  | str value => exact ⟨_, _, rfl, by decide, by decide⟩
  | arr elements => exact ⟨_, _, rfl, by decide, by decide⟩
  | obj members => exact ⟨_, _, rfl, by decide, by decide⟩

/-- Elements begin with neither white space nor the bracket that would end them. -/
theorem printElements_head (escape : Char → List Char) (recognised : Recognised number)
    (element : Json ν) (elements : List (Json ν)) :
    ∃ char tail, printElements escape number (element :: elements) = char :: tail ∧
      isWhitespace char = false ∧ char ≠ ']' := by
  obtain ⟨char, tail, text, visible, bracket⟩ := print_head escape recognised element
  cases elements with
  | nil => exact ⟨char, tail, text, visible, bracket⟩
  | cons second elements =>
      refine ⟨char, tail ++ ',' :: printElements escape number (second :: elements), ?_, visible,
        bracket⟩
      rw [printElements_cons_cons, text, List.cons_append]

/-- Members begin with the quotation mark of a name. -/
theorem printMembers_head (escape : Char → List Char) (number : ν → List Char)
    (member : String × Json ν) (members : Members ν) :
    ∃ tail, printMembers escape number (member :: members) = '"' :: tail := by
  obtain ⟨name, value⟩ := member
  cases members with
  | nil => exact ⟨_, rfl⟩
  | cons second members => exact ⟨_, rfl⟩

/-- A comma ends a numeral. -/
theorem follows_comma (rest : List Char) : Follows (',' :: rest) := by simp [Follows]

/-- So does the bracket of an array, -/
theorem follows_bracket (rest : List Char) : Follows (']' :: rest) := by simp [Follows]

/-- and the brace of an object. -/
theorem follows_brace (rest : List Char) : Follows ('\x7d' :: rest) := by simp [Follows]

mutual

/-- A value reads back from its text. -/
theorem parseValue_print (unescapes : Unescapes escape) (recognised : Recognised number) :
    ∀ (json : Json ν) (fuel : Nat) (rest : List Char), json.cost ≤ fuel → Follows rest →
      parseValue fuel (print escape number json ++ rest) =
        some (json.map fun value => String.ofList (number value), rest)
  | .null, fuel + 1, rest, _, _ => rfl
  | .bool true, fuel + 1, rest, _, _ => rfl
  | .bool false, fuel + 1, rest, _, _ => rfl
  | .num value, fuel + 1, rest, _, follows => parseValue_number recognised value fuel follows
  | .str value, fuel + 1, rest, _, _ => by
      have text := parseString_quote unescapes value rest
      simp only [print, quote, List.cons_append, List.append_assoc, List.nil_append, parseValue,
        skipWhitespace_cons (show isWhitespace '"' = false by decide), text, map]
      rfl
  | .arr [], fuel + 1, rest, _, _ => rfl
  | .arr (element :: elements), fuel + 1, rest, enough, _ => by
      obtain ⟨char, tail, text, visible, bracket⟩ :=
        printElements_head escape recognised element elements
      have read := parseElements_print unescapes recognised element elements fuel rest
        (Nat.le_of_succ_le_succ enough)
      rw [text, List.cons_append] at read
      simp only [print, text, List.cons_append, List.append_assoc, List.nil_append, parseValue,
        skipWhitespace_cons (show isWhitespace '[' = false by decide), skipWhitespace_cons visible,
        map]
      split
      · next found => exact absurd (List.cons.inj found).1 bracket
      · rw [read]
        rfl
  | .obj [], fuel + 1, rest, _, _ => rfl
  | .obj (member :: members), fuel + 1, rest, enough, _ => by
      obtain ⟨tail, text⟩ := printMembers_head escape number member members
      have read := parseMembers_print unescapes recognised member members fuel rest
        (Nat.le_of_succ_le_succ enough)
      rw [text, List.cons_append] at read
      simp only [print, text, List.cons_append, List.append_assoc, List.nil_append, parseValue,
        skipWhitespace_cons (show isWhitespace '\x7b' = false by decide),
        skipWhitespace_cons (show isWhitespace '"' = false by decide), map]
      split
      · next found => exact absurd (List.cons.inj found).1 (by decide)
      · rw [read]
        rfl

theorem parseElements_print (unescapes : Unescapes escape) (recognised : Recognised number) :
    ∀ (element : Json ν) (elements : List (Json ν)) (fuel : Nat) (rest : List Char),
      costElements (element :: elements) ≤ fuel →
      parseElements fuel (printElements escape number (element :: elements) ++ ']' :: rest) =
        some (mapElements (fun value => String.ofList (number value)) (element :: elements), rest)
  | element, [], fuel + 1, rest, enough => by
      have first := parseValue_print unescapes recognised element fuel (']' :: rest)
        (Nat.le_trans (Nat.le_max_left _ _) (Nat.le_of_succ_le_succ enough)) (follows_bracket rest)
      rw [printElements, parseElements, first]
      rfl
  | element, second :: elements, fuel + 1, rest, enough => by
      have first := parseValue_print unescapes recognised element fuel
        (',' :: (printElements escape number (second :: elements) ++ ']' :: rest))
        (Nat.le_trans (Nat.le_max_left _ _) (Nat.le_of_succ_le_succ enough)) (follows_comma _)
      have others := parseElements_print unescapes recognised second elements fuel rest
        (Nat.le_trans (Nat.le_max_right _ _) (Nat.le_of_succ_le_succ enough))
      rw [printElements_cons_cons, List.append_assoc, List.cons_append, parseElements, first]
      simp only [Option.bind_eq_bind, Option.bind_some,
        skipWhitespace_cons (show isWhitespace ',' = false by decide), others, mapElements]

theorem parseMembers_print (unescapes : Unescapes escape) (recognised : Recognised number) :
    ∀ (member : String × Json ν) (members : Members ν) (fuel : Nat) (rest : List Char),
      costMembers (member :: members) ≤ fuel →
      parseMembers fuel (printMembers escape number (member :: members) ++ '\x7d' :: rest) =
        some (mapMembers (fun value => String.ofList (number value)) (member :: members), rest)
  | (name, value), [], fuel + 1, rest, enough => by
      have named := parseString_quote unescapes name
        (':' :: (print escape number value ++ '\x7d' :: rest))
      have read := parseValue_print unescapes recognised value fuel ('\x7d' :: rest)
        (Nat.le_trans (Nat.le_max_left _ _) (Nat.le_of_succ_le_succ enough)) (follows_brace rest)
      simp only [printMembers, quote, List.cons_append, List.append_assoc, List.nil_append,
        parseMembers, skipWhitespace_cons (show isWhitespace '"' = false by decide), named,
        Option.bind_eq_bind, Option.bind_some,
        skipWhitespace_cons (show isWhitespace ':' = false by decide), read,
        skipWhitespace_cons (show isWhitespace '\x7d' = false by decide), mapMembers]
  | (name, value), second :: members, fuel + 1, rest, enough => by
      have named := parseString_quote unescapes name
        (':' :: (print escape number value ++
          ',' :: (printMembers escape number (second :: members) ++ '\x7d' :: rest)))
      have read := parseValue_print unescapes recognised value fuel
        (',' :: (printMembers escape number (second :: members) ++ '\x7d' :: rest))
        (Nat.le_trans (Nat.le_max_left _ _) (Nat.le_of_succ_le_succ enough)) (follows_comma _)
      have others := parseMembers_print unescapes recognised second members fuel rest
        (Nat.le_trans (Nat.le_max_right _ _) (Nat.le_of_succ_le_succ enough))
      simp only [printMembers, quote, List.cons_append, List.append_assoc, List.nil_append,
        parseMembers, skipWhitespace_cons (show isWhitespace '"' = false by decide), named,
        Option.bind_eq_bind, Option.bind_some,
        skipWhitespace_cons (show isWhitespace ':' = false by decide), read,
        skipWhitespace_cons (show isWhitespace ',' = false by decide), others, mapMembers]

end

mutual

/-- The fuel that reading a value takes is bounded by the length of its text. -/
theorem cost_le (recognised : Recognised number) :
    ∀ json : Json ν, json.cost ≤ 2 * (print escape number json).length
  | .null => by simp [print, cost]
  | .bool true => by simp [print, cost]
  | .bool false => by simp [print, cost]
  | .num value => by
      obtain ⟨char, tail, text, -⟩ := recognised.leads value
      rw [print, text, List.length_cons, cost]
      omega
  | .str value => by
      simp only [print, quote, cost, List.length_cons, List.cons_append]
      omega
  | .arr elements => by
      have bound := costElements_le recognised elements
      simp only [print, cost, List.length_cons, List.cons_append, List.length_append]
      omega
  | .obj members => by
      have bound := costMembers_le recognised members
      simp only [print, cost, List.length_cons, List.cons_append, List.length_append]
      omega

theorem costElements_le (recognised : Recognised number) :
    ∀ elements : List (Json ν),
      costElements elements ≤ 2 * (printElements escape number elements).length + 1
  | [] => Nat.zero_le _
  | [element] => by
      have bound := cost_le recognised element
      simp only [costElements, printElements]
      omega
  | element :: second :: elements => by
      have first := cost_le recognised element
      have others := costElements_le recognised (second :: elements)
      rw [printElements_cons_cons, costElements, List.length_append, List.length_cons]
      omega

theorem costMembers_le (recognised : Recognised number) :
    ∀ members : Members ν,
      costMembers members ≤ 2 * (printMembers escape number members).length + 1
  | [] => Nat.zero_le _
  | [(name, value)] => by
      have bound := cost_le recognised value
      simp only [costMembers, printMembers, List.length_append, List.length_cons]
      omega
  | (name, value) :: second :: members => by
      have first := cost_le recognised value
      have others := costMembers_le recognised (second :: members)
      simp only [costMembers, printMembers, List.length_append, List.length_cons] at others ⊢
      omega

end

/-- **Round trip.** A text reads back as the tree it was written from, with every
number as its token. -/
theorem parse_print (unescapes : Unescapes escape) (recognised : Recognised number)
    (json : Json ν) :
    parse (String.ofList (print escape number json)) =
      some (json.map fun value => String.ofList (number value)) := by
  have enough : json.cost ≤ 2 * (print escape number json).length := cost_le recognised json
  have read := parseValue_print unescapes recognised json
    (2 * (print escape number json).length + 2) [] (by omega) (by simp [Follows])
  rw [List.append_nil] at read
  rw [parse, String.toList_ofList, read]
  rfl

end Reading

end Json
