import Anviq.Diff.Python

/-! # Reading a `repr`

The `repr` of a string, with whatever follows it in a message, tells which string it is of.
-/

namespace Harness.Diff

variable {lib : Stdlib} {quote char : Char}

/-! ## Hexadecimal digits -/

/-- The number of a run of hexadecimal digits. -/
def hexNumber (digits : List Char) : Nat :=
  digits.foldl (fun number digit => number * 16 + (Json.hexValue digit).getD 0) 0

theorem length_hexText (width value : Nat) : (hexText width value).length = width := by
  induction width generalizing value with
  | zero => rfl
  | succ width ih => rw [hexText, List.length_append, ih, List.length_singleton]

theorem hexNumber_hexText (width value : Nat) :
    hexNumber (hexText width value) = value % 16 ^ width := by
  induction width generalizing value with
  | zero => simp [hexText, hexNumber, Nat.mod_one]
  | succ width ih =>
      have front := ih (value / 16)
      unfold hexNumber at front ⊢
      rw [hexText, List.foldl_append, front, List.foldl_cons, List.foldl_nil,
        Json.hexValue_hexDigit _ (Nat.mod_lt _ (by decide)), Option.getD_some, Nat.pow_succ',
        Nat.mod_mul]
      omega

/-! ## Characters -/

/-- The character whose code is written in so many digits, and what follows it. -/
def readCode (width : Nat) (text : List Char) : Char × List Char :=
  (Char.ofNat (hexNumber (text.take width)), text.drop width)

theorem readCode_hexText {width : Nat} (fits : char.toNat < 16 ^ width) (rest : List Char) :
    readCode width (hexText width char.toNat ++ rest) = (char, rest) := by
  have taken : (hexText width char.toNat ++ rest).take width = hexText width char.toNat :=
    List.take_left' (length_hexText width char.toNat)
  have dropped : (hexText width char.toNat ++ rest).drop width = rest :=
    List.drop_left' (length_hexText width char.toNat)
  rw [readCode, taken, dropped, hexNumber_hexText, Nat.mod_eq_of_lt fits, Char.ofNat_toNat]

/-- The first character a `repr` is of, and what follows it. -/
def readReprChar : List Char → Char × List Char
  | '\\' :: code :: rest =>
      if code = 't' then ('\t', rest)
      else if code = 'n' then ('\n', rest)
      else if code = 'r' then ('\r', rest)
      else if code = 'x' then readCode 2 rest
      else if code = 'u' then readCode 4 rest
      else if code = 'U' then readCode 8 rest
      else (code, rest)
  | char :: rest => (char, rest)
  | [] => ('\\', [])

/-- The quotes of a `repr`. -/
def IsQuote (quote : Char) : Prop := quote = '\'' ∨ quote = '"'

theorem readReprChar_plain (plain : char ≠ '\\') (rest : List Char) :
    readReprChar (char :: rest) = (char, rest) := by
  unfold readReprChar
  split
  · next same => exact absurd (List.cons.inj same).1 plain
  · next same =>
      cases same
      rfl
  · next same => cases same

/-- A character is read back. -/
theorem readReprChar_reprChar (quoted : IsQuote quote) (rest : List Char) :
    readReprChar (reprChar lib quote char ++ rest) = (char, rest) := by
  unfold reprChar
  split
  · next escaped =>
      have code : char = '\'' ∨ char = '"' ∨ char = '\\' := by
        rcases escaped with rfl | rfl
        · exact quoted.imp_right Or.inl
        · exact .inr (.inr rfl)
      rcases code with rfl | rfl | rfl <;> rfl
  · next plain =>
      rw [not_or] at plain
      split
      · next tab =>
          subst tab
          rfl
      · split
        · next newline =>
            subst newline
            rfl
        · split
          · next carriage =>
              subst carriage
              rfl
          · split
            · exact readReprChar_plain plain.2 rest
            · split
              · exact readReprChar_plain plain.2 rest
              · split
                · next small => exact readCode_hexText small rest
                · split
                  · next small => exact readCode_hexText small rest
                  · exact readCode_hexText (show char.toNat < 16 ^ 8 from char.val.toNat_lt) rest

/-- No character is written as a quote. -/
theorem reprChar_head (quoted : IsQuote quote) :
    ∃ head tail, reprChar lib quote char = head :: tail ∧ head ≠ quote := by
  have backslash : '\\' ≠ quote := by
    rcases quoted with rfl | rfl <;> decide
  unfold reprChar
  split
  · exact ⟨_, _, rfl, backslash⟩
  · next plain =>
      rw [not_or] at plain
      split_ifs
      · exact ⟨_, _, rfl, backslash⟩
      · exact ⟨_, _, rfl, backslash⟩
      · exact ⟨_, _, rfl, backslash⟩
      · exact ⟨_, _, rfl, plain.1⟩
      · exact ⟨_, _, rfl, plain.1⟩
      · exact ⟨_, _, rfl, backslash⟩
      · exact ⟨_, _, rfl, backslash⟩
      · exact ⟨_, _, rfl, backslash⟩

/-! ## Strings -/

/-- What stands up to the closing quote tells the characters. -/
theorem reprChars_eq (quoted : IsQuote quote) {left right rest rest' : List Char}
    (same : left.flatMap (reprChar lib quote) ++ quote :: rest =
      right.flatMap (reprChar lib quote) ++ quote :: rest') : left = right ∧ rest = rest' := by
  have early {char : Char} {text more : List Char} :
      quote :: more ≠ (reprChar lib quote char ++ text) := by
    rcases @reprChar_head lib quote char quoted with ⟨head, tail, written, apart⟩
    rw [written]
    intro same
    exact apart (List.cons.inj same).1.symm
  induction left generalizing right with
  | nil =>
      cases right with
      | nil => exact ⟨rfl, (List.cons.inj same).2⟩
      | cons char right =>
          rw [List.flatMap_cons, List.append_assoc] at same
          exact absurd same early
  | cons char left ih =>
      cases right with
      | nil =>
          rw [List.flatMap_cons, List.append_assoc] at same
          exact absurd same.symm early
      | cons char' right =>
          rw [List.flatMap_cons, List.append_assoc, List.flatMap_cons, List.append_assoc] at same
          have read := congrArg readReprChar same
          rw [readReprChar_reprChar quoted, readReprChar_reprChar quoted, Prod.mk.injEq] at read
          rcases ih read.2 with ⟨rfl, rest⟩
          exact ⟨by rw [read.1], rest⟩

/-- The quote of the `repr` of a string. -/
def quoteOf (text : String) : Char :=
  if text.toList.contains '\'' ∧ ¬ text.toList.contains '"' then '"' else '\''

theorem isQuote_quoteOf (text : String) : IsQuote (quoteOf text) := by
  unfold quoteOf
  split
  · exact .inr rfl
  · exact .inl rfl

theorem reprString_toList (text : String) (rest : List Char) :
    (reprString lib text).toList ++ rest = quoteOf text ::
      (text.toList.flatMap (reprChar lib (quoteOf text)) ++ quoteOf text :: rest) := by
  simp [reprString, quoteOf]

/-- The `repr` of a string tells it, and where the `repr` ends. -/
theorem reprString_eq {left right : String} {rest rest' : List Char}
    (same : (reprString lib left).toList ++ rest = (reprString lib right).toList ++ rest') :
    left = right ∧ rest = rest' := by
  rw [reprString_toList, reprString_toList] at same
  rcases List.cons.inj same with ⟨quote, inside⟩
  rw [← quote] at inside
  rcases reprChars_eq (isQuote_quoteOf left) inside with ⟨chars, rest⟩
  exact ⟨String.toList_inj.mp chars, rest⟩

end Harness.Diff
