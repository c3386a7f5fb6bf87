import Anviq.Json.Canonical

/-! # Writing indented JSON text

JSON text with a line for every element and member, and only ASCII characters in it, of values
without numbers. It reads back as the tree it was written from (`Json.parse_indented`).
-/

namespace Json

/-! ## Writing -/

/-- A character in a string that is to be ASCII: a pair of `\u` escapes for an astral one. -/
def asciiEscape (char : Char) : List Char :=
  match char with
  | '"' => ['\\', '"']
  | '\\' => ['\\', '\\']
  | '\n' => ['\\', 'n']
  | '\r' => ['\\', 'r']
  | '\t' => ['\\', 't']
  | '\x0c' => ['\\', 'f']
  | '\x08' => ['\\', 'b']
  | char =>
      if 0x20 ≤ char.toNat ∧ char.toNat < 0x7f then [char]
      else char.utf16Units.flatMap unicodeEscape

section Writing

variable (width : Nat)

/-- The start of a line at a level. -/
def lineStart (level : Nat) : List Char := '\n' :: List.replicate (width * level) ' '

mutual

/-- A value at a level, with `width` spaces for a level. -/
def indented (level : Nat) : Json Empty → List Char
  | .null => ['n', 'u', 'l', 'l']
  | .bool true => ['t', 'r', 'u', 'e']
  | .bool false => ['f', 'a', 'l', 's', 'e']
  | .num value => value.elim
  | .str value => quote asciiEscape value
  | .arr [] => ['[', ']']
  | .arr (element :: elements) =>
      '[' :: lineStart width (level + 1) ++ indentedElements (level + 1) (element :: elements) ++
        lineStart width level ++ [']']
  | .obj [] => ['\x7b', '\x7d']
  | .obj (member :: members) =>
      '\x7b' :: lineStart width (level + 1) ++ indentedMembers (level + 1) (member :: members) ++
        lineStart width level ++ ['\x7d']

def indentedElements (level : Nat) : List (Json Empty) → List Char
  | [] => []
  | [element] => indented level element
  | element :: second :: elements =>
      indented level element ++ ',' :: lineStart width level ++
        indentedElements level (second :: elements)

def indentedMembers (level : Nat) : Members Empty → List Char
  | [] => []
  | [(name, value)] => quote asciiEscape name ++ ':' :: ' ' :: indented level value
  | (name, value) :: second :: members =>
      quote asciiEscape name ++ ':' :: ' ' :: indented level value ++ ',' :: lineStart width level ++
        indentedMembers level (second :: members)

end

end Writing

example : indented 1 0 (.obj [("a", .arr [.null, .str "é😀"]), ("b", .arr [])]) =
    "\x7b\n \"a\": [\n  null,\n  \"\\u00e9\\ud83d\\ude00\"\n ],\n \"b\": []\n\x7d".toList := by
  decide +kernel

/-! ## Reading strings back -/

/-- Escapes of code units read as these. -/
theorem scanString_units {units : List Nat} (small : ∀ unit ∈ units, unit < 0x10000)
    (rest : List Char) :
    scanString (units.flatMap unicodeEscape ++ rest) =
      (scanString rest).map fun scanned => (units ++ scanned.1, scanned.2) := by
  induction units with
  | nil =>
      rw [List.flatMap_nil, List.nil_append]
      cases scanString rest <;> rfl
  | cons unit units ih =>
      rw [List.forall_mem_cons] at small
      rw [List.flatMap_cons, List.append_assoc, scanString_unicodeEscape small.1, ih small.2]
      cases scanString rest <;> rfl

/-- A character of ASCII is one code unit. -/
theorem utf16Units_ascii {char : Char} (ascii : char.toNat < 0x80) :
    char.utf16Units = [char.toNat] := by
  rw [Char.utf16Units, if_pos (by omega)]

/-- A code unit has sixteen bits. -/
theorem utf16Units_small {char : Char} : ∀ unit ∈ char.utf16Units, unit < 0x10000 := by
  have valid : char.toNat < 0xD800 ∨ 0xDFFF < char.toNat ∧ char.toNat < 0x110000 := char.valid
  intro unit present
  unfold Char.utf16Units at present
  split at present
  · simp only [List.mem_singleton] at present
    omega
  · simp only [List.mem_cons, List.not_mem_nil, or_false] at present
    obtain high | low := present
    · omega
    · omega

/-- A character reads as its code units. -/
theorem scanString_asciiEscape (char : Char) (rest : List Char) :
    scanString (asciiEscape char ++ rest) =
      (scanString rest).map fun scanned => (char.utf16Units ++ scanned.1, scanned.2) := by
  have short {mark char : Char} (means : escaped mark = some char) (ascii : char.toNat < 0x80) :
      scanString (['\\', mark] ++ rest) =
        (scanString rest).map fun scanned => (char.utf16Units ++ scanned.1, scanned.2) := by
    rw [utf16Units_ascii ascii]
    exact scanString_escaped means rest
  unfold asciiEscape
  split
  · exact short rfl (by decide)
  · exact short rfl (by decide)
  · exact short rfl (by decide)
  · exact short rfl (by decide)
  · exact short rfl (by decide)
  · exact short rfl (by decide)
  · exact short rfl (by decide)
  · next unquoted unescaped _ _ _ _ _ =>
      split
      · next plain =>
          rw [utf16Units_ascii (by omega)]
          exact scanString_plain plain.1 unquoted unescaped rest
      · exact scanString_units utf16Units_small rest

/-- A string reads back from its ASCII text. -/
theorem parseString_ascii (text : String) (rest : List Char) :
    parseString (text.toList.flatMap asciiEscape ++ '"' :: rest) = some (text, rest) := by
  have scanned (chars : List Char) : scanString (chars.flatMap asciiEscape ++ '"' :: rest) =
      some (chars.flatMap Char.utf16Units, rest) := by
    induction chars with
    | nil => rfl
    | cons char chars ih =>
        rw [List.flatMap_cons, List.append_assoc, scanString_asciiEscape, ih]
        rfl
  simp only [parseString, scanned, Option.bind_eq_bind, Option.bind_some, joinSurrogates_utf16,
    String.ofList_toList]

/-! ## Reading values back -/

/-- Nothing but white space. -/
def Blank (text : List Char) : Prop := ∀ char ∈ text, isWhitespace char = true

/-- A line starts with white space. -/
theorem blank_lineStart (width level : Nat) : Blank (lineStart width level) := by
  intro char present
  obtain first | space := List.mem_cons.mp present
  · rw [first]
    decide
  · rw [List.eq_of_mem_replicate space]
    decide

/-- White space in front is skipped. -/
theorem skipWhitespace_blank {blank : List Char} (white : Blank blank) (rest : List Char) :
    skipWhitespace (blank ++ rest) = skipWhitespace rest :=
  List.dropWhile_append_of_pos white

/-- A value is parsed behind white space. -/
theorem parseValue_blank {blank : List Char} (white : Blank blank) (fuel : Nat)
    (rest : List Char) : parseValue fuel (blank ++ rest) = parseValue fuel rest := by
  cases fuel with
  | zero => rw [parseValue, parseValue]
  | succ fuel => rw [parseValue, parseValue, skipWhitespace_blank white]

theorem parseElements_blank {blank : List Char} (white : Blank blank) (fuel : Nat)
    (rest : List Char) : parseElements fuel (blank ++ rest) = parseElements fuel rest := by
  cases fuel with
  | zero => rw [parseElements, parseElements]
  | succ fuel => rw [parseElements, parseElements, parseValue_blank white]

theorem parseMembers_blank {blank : List Char} (white : Blank blank) (fuel : Nat)
    (rest : List Char) : parseMembers fuel (blank ++ rest) = parseMembers fuel rest := by
  cases fuel with
  | zero => rw [parseMembers, parseMembers]
  | succ fuel => rw [parseMembers, parseMembers, skipWhitespace_blank white]

variable {width : Nat}

/-- No value starts with a closing bracket or white space. -/
theorem indented_head (level : Nat) (json : Json Empty) :
    ∃ char tail, indented width level json = char :: tail ∧ isWhitespace char = false ∧
      char ≠ ']' := by
  cases json with
  | null => exact ⟨_, _, by rw [indented], by decide, by decide⟩
  | bool value => cases value <;> exact ⟨_, _, by rw [indented], by decide, by decide⟩
  | num value => exact value.elim
  | str value => exact ⟨_, _, by rw [indented, quote]; rfl, by decide, by decide⟩
  | arr elements =>
      cases elements <;> exact ⟨_, _, by simp only [indented]; rfl, by decide, by decide⟩
  | obj members =>
      cases members <;> exact ⟨_, _, by simp only [indented]; rfl, by decide, by decide⟩

/-- Elements begin with neither white space nor the bracket that would end them. -/
theorem indentedElements_head (level : Nat) (element : Json Empty) (elements : List (Json Empty)) :
    ∃ char tail, indentedElements width level (element :: elements) = char :: tail ∧
      isWhitespace char = false ∧ char ≠ ']' := by
  obtain ⟨char, tail, text, visible, bracket⟩ := @indented_head width level element
  cases elements with
  | nil => exact ⟨char, tail, by rw [indentedElements, text], visible, bracket⟩
  | cons second elements =>
      exact ⟨char, _, by rw [indentedElements, text, List.cons_append, List.cons_append], visible,
        bracket⟩

/-- Members begin with the quotation mark of a name. -/
theorem indentedMembers_head (level : Nat) (member : String × Json Empty) (members : Members Empty) :
    ∃ tail, indentedMembers width level (member :: members) = '"' :: tail := by
  obtain ⟨name, value⟩ := member
  cases members with
  | nil => exact ⟨_, by rw [indentedMembers, quote]; rfl⟩
  | cons second members => exact ⟨_, by rw [indentedMembers, quote]; rfl⟩

mutual

/-- A value reads back from its text. -/
theorem parseValue_indented :
    ∀ (json : Json Empty) (level fuel : Nat) (rest : List Char), json.cost ≤ fuel →
      parseValue fuel (indented width level json ++ rest) = some (json.map Empty.elim, rest)
  | .null, level, fuel + 1, rest, _ => by rw [indented]; rfl
  | .bool true, level, fuel + 1, rest, _ => by rw [indented]; rfl
  | .bool false, level, fuel + 1, rest, _ => by rw [indented]; rfl
  | .num value, level, fuel + 1, rest, _ => value.elim
  | .str value, level, fuel + 1, rest, _ => by
      have text := parseString_ascii value rest
      simp only [indented, quote, List.cons_append, List.append_assoc, List.nil_append, parseValue,
        skipWhitespace_cons (show isWhitespace '"' = false by decide), text, map]
      rfl
  | .arr [], level, fuel + 1, rest, _ => by rw [indented]; rfl
  | .arr (element :: elements), level, fuel + 1, rest, enough => by
      obtain ⟨char, tail, text, visible, bracket⟩ :=
        @indentedElements_head width (level + 1) element elements
      have read := parseElements_indented element elements (level + 1) level fuel rest
        (Nat.le_of_succ_le_succ enough)
      rw [text, List.cons_append] at read
      simp only [indented, text, List.cons_append, List.append_assoc, List.nil_append, parseValue,
        skipWhitespace_cons (show isWhitespace '[' = false by decide),
        skipWhitespace_blank (blank_lineStart _ _), skipWhitespace_cons visible, map]
      split
      · next found => exact absurd (List.cons.inj found).1 bracket
      · rw [read]
        rfl
  | .obj [], level, fuel + 1, rest, _ => by rw [indented]; rfl
  | .obj (member :: members), level, fuel + 1, rest, enough => by
      obtain ⟨tail, text⟩ := @indentedMembers_head width (level + 1) member members
      have read := parseMembers_indented member members (level + 1) level fuel rest
        (Nat.le_of_succ_le_succ enough)
      rw [text, List.cons_append] at read
      simp only [indented, text, List.cons_append, List.append_assoc, List.nil_append, parseValue,
        skipWhitespace_cons (show isWhitespace '\x7b' = false by decide),
        skipWhitespace_blank (blank_lineStart _ _),
        skipWhitespace_cons (show isWhitespace '"' = false by decide), map]
      split
      · next found => exact absurd (List.cons.inj found).1 (by decide)
      · rw [read]
        rfl
termination_by structural _ _ fuel => fuel

theorem parseElements_indented :
    ∀ (element : Json Empty) (elements : List (Json Empty)) (level outer fuel : Nat)
      (rest : List Char), costElements (element :: elements) ≤ fuel →
      parseElements fuel (indentedElements width level (element :: elements) ++
          (lineStart width outer ++ ']' :: rest)) =
        some (mapElements Empty.elim (element :: elements), rest)
  | element, [], level, outer, fuel + 1, rest, enough => by
      have first := parseValue_indented element level fuel (lineStart width outer ++ ']' :: rest)
        (Nat.le_trans (Nat.le_max_left _ _) (Nat.le_of_succ_le_succ enough))
      rw [indentedElements, parseElements, first]
      simp only [Option.bind_eq_bind, Option.bind_some, skipWhitespace_blank (blank_lineStart _ _),
        skipWhitespace_cons (show isWhitespace ']' = false by decide), mapElements]
  | element, second :: elements, level, outer, fuel + 1, rest, enough => by
      have first := parseValue_indented element level fuel
        (',' :: (lineStart width level ++ (indentedElements width level (second :: elements) ++
          (lineStart width outer ++ ']' :: rest))))
        (Nat.le_trans (Nat.le_max_left _ _) (Nat.le_of_succ_le_succ enough))
      have others := parseElements_indented second elements level outer fuel rest
        (Nat.le_trans (Nat.le_max_right _ _) (Nat.le_of_succ_le_succ enough))
      rw [indentedElements, List.append_assoc, List.append_assoc, List.cons_append, parseElements,
        first]
      simp only [Option.bind_eq_bind, Option.bind_some,
        skipWhitespace_cons (show isWhitespace ',' = false by decide),
        parseElements_blank (blank_lineStart _ _), others, mapElements]
termination_by structural _ _ _ _ fuel => fuel

theorem parseMembers_indented :
    ∀ (member : String × Json Empty) (members : Members Empty) (level outer fuel : Nat)
      (rest : List Char), costMembers (member :: members) ≤ fuel →
      parseMembers fuel (indentedMembers width level (member :: members) ++
          (lineStart width outer ++ '\x7d' :: rest)) =
        some (mapMembers Empty.elim (member :: members), rest)
  | (name, value), [], level, outer, fuel + 1, rest, enough => by
      have named := parseString_ascii name
        (':' :: ' ' :: (indented width level value ++ (lineStart width outer ++ '\x7d' :: rest)))
      have read := parseValue_indented value level fuel (lineStart width outer ++ '\x7d' :: rest)
        (Nat.le_trans (Nat.le_max_left _ _) (Nat.le_of_succ_le_succ enough))
      have spaced := parseValue_blank (show Blank [' '] by simp [Blank, isWhitespace]) fuel
        (indented width level value ++ (lineStart width outer ++ '\x7d' :: rest))
      simp only [indentedMembers, quote, List.cons_append, List.append_assoc, List.nil_append,
        parseMembers, skipWhitespace_cons (show isWhitespace '"' = false by decide), named,
        Option.bind_eq_bind, Option.bind_some,
        skipWhitespace_cons (show isWhitespace ':' = false by decide)] at spaced ⊢
      simp only [spaced, read, Option.bind_some, skipWhitespace_blank (blank_lineStart _ _),
        skipWhitespace_cons (show isWhitespace '\x7d' = false by decide), mapMembers]
  | (name, value), second :: members, level, outer, fuel + 1, rest, enough => by
      have named := parseString_ascii name
        (':' :: ' ' :: (indented width level value ++ ',' :: (lineStart width level ++
          (indentedMembers width level (second :: members) ++
            (lineStart width outer ++ '\x7d' :: rest)))))
      have read := parseValue_indented value level fuel
        (',' :: (lineStart width level ++ (indentedMembers width level (second :: members) ++
          (lineStart width outer ++ '\x7d' :: rest))))
        (Nat.le_trans (Nat.le_max_left _ _) (Nat.le_of_succ_le_succ enough))
      have others := parseMembers_indented second members level outer fuel rest
        (Nat.le_trans (Nat.le_max_right _ _) (Nat.le_of_succ_le_succ enough))
      have spaced := parseValue_blank (show Blank [' '] by simp [Blank, isWhitespace]) fuel
        (indented width level value ++ ',' :: (lineStart width level ++
          (indentedMembers width level (second :: members) ++
            (lineStart width outer ++ '\x7d' :: rest))))
      simp only [indentedMembers, quote, List.cons_append, List.append_assoc, List.nil_append,
        parseMembers, skipWhitespace_cons (show isWhitespace '"' = false by decide), named,
        Option.bind_eq_bind, Option.bind_some,
        skipWhitespace_cons (show isWhitespace ':' = false by decide)] at spaced ⊢
      simp only [spaced, read, Option.bind_some,
        skipWhitespace_cons (show isWhitespace ',' = false by decide),
        parseMembers_blank (blank_lineStart _ _), others, mapMembers]
termination_by structural _ _ _ _ fuel => fuel

end

mutual

/-- The text of a value is long enough to be the fuel of its parser. -/
theorem cost_le_indented (level : Nat) :
    ∀ json : Json Empty, json.cost ≤ 2 * (indented width level json).length
  | .null => by simp [indented, cost]
  | .bool true => by simp [indented, cost]
  | .bool false => by simp [indented, cost]
  | .num value => value.elim
  | .str value => by
      simp only [indented, quote, cost, List.length_cons, List.cons_append]
      omega
  | .arr [] => by simp [indented, cost, costElements]
  | .arr (element :: elements) => by
      have bound := costElements_le_indented (level + 1) (element :: elements)
      simp only [indented, cost, List.length_cons, List.cons_append, List.length_append]
      omega
  | .obj [] => by simp [indented, cost, costMembers]
  | .obj (member :: members) => by
      have bound := costMembers_le_indented (level + 1) (member :: members)
      simp only [indented, cost, List.length_cons, List.cons_append, List.length_append]
      omega

theorem costElements_le_indented (level : Nat) :
    ∀ elements : List (Json Empty),
      costElements elements ≤ 2 * (indentedElements width level elements).length + 1
  | [] => Nat.zero_le _
  | [element] => by
      have bound := cost_le_indented level element
      simp only [costElements, indentedElements]
      omega
  | element :: second :: elements => by
      have first := cost_le_indented level element
      have others := costElements_le_indented level (second :: elements)
      simp only [indentedElements, costElements, List.length_append, List.length_cons] at others ⊢
      omega

theorem costMembers_le_indented (level : Nat) :
    ∀ members : Members Empty,
      costMembers members ≤ 2 * (indentedMembers width level members).length + 1
  | [] => Nat.zero_le _
  | [(name, value)] => by
      have bound := cost_le_indented level value
      simp only [costMembers, indentedMembers, List.length_append, List.length_cons]
      omega
  | (name, value) :: second :: members => by
      have first := cost_le_indented level value
      have others := costMembers_le_indented level (second :: members)
      simp only [costMembers, indentedMembers, List.length_append, List.length_cons] at others ⊢
      omega

end

/-- **Round trip.** A text reads back as the tree it was written from, with white space after
it. -/
theorem parse_indented (json : Json Empty) {after : List Char} (white : Blank after) :
    parse (String.ofList (indented width 0 json ++ after)) = some (json.map Empty.elim) := by
  have enough := @cost_le_indented width 0 json
  have read := @parseValue_indented width json 0 (2 * (indented width 0 json ++ after).length + 2)
    after (by rw [List.length_append]; omega)
  have nothing : skipWhitespace after = [] := by
    rw [← List.append_nil after, skipWhitespace_blank white]
    rfl
  rw [parse, String.toList_ofList, read]
  simp only [nothing, if_true]

end Json
