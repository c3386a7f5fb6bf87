import Anviq.Harness.Recording
import Anviq.Json.Strings

/-! # Lines of a file

What both writers of JSON lines have in common: which characters they write are no boundary of
`str.splitlines`.
-/

namespace Harness

theorem hexDigit_whole : ∀ value < 16, isLineBoundary (Json.hexDigit value) = false := by decide

theorem unicodeEscape_whole (unit : Nat) :
    ∀ char ∈ Json.unicodeEscape unit, isLineBoundary char = false := by
  have digit (value : Nat) : isLineBoundary (Json.hexDigit (value % 16)) = false :=
    hexDigit_whole _ (Nat.mod_lt _ (by decide))
  simp only [Json.unicodeEscape, List.forall_mem_cons, digit, List.not_mem_nil, false_implies,
    implies_true, and_true]
  decide

theorem isNumberChar_whole {char : Char} (number : isNumberChar char = true) :
    isLineBoundary char = false := by
  have printable : 0x20 < char.toNat ∧ char.toNat < 0x7f := by
    simp only [isNumberChar, Bool.or_eq_true, decide_eq_true_eq, Char.isDigit, Bool.and_eq_true] at number
    rcases number with (((⟨low, high⟩ | rfl) | rfl) | rfl) | rfl
    · have low : ('0' : Char).toNat ≤ char.toNat := low
      have high : char.toNat ≤ ('9' : Char).toNat := high
      simp at low high
      omega
    all_goals decide
  have apart (boundary : Char) (outside : ¬ (0x20 < boundary.toNat ∧ boundary.toNat < 0x7f)) :
      ¬ char = boundary := by
    rintro rfl
    exact outside printable
  simp [isLineBoundary, apart '\n' (by decide), apart '\r' (by decide),
    apart '\x0b' (by decide), apart '\x0c' (by decide), apart '\x1c' (by decide),
    apart '\x1d' (by decide), apart '\x1e' (by decide), apart '\u0085' (by decide),
    apart '\u2028' (by decide), apart '\u2029' (by decide)]

theorem punctuation_whole : ∀ char ∈ Json.punctuation, isLineBoundary char = false := by
  have whole : Json.punctuation.all (fun char => !isLineBoundary char) = true := by decide
  intro char present
  simpa using List.all_eq_true.mp whole char present

/-- Lines of a file, each ended by a newline, that no other boundary breaks. -/
theorem splitlines_lines {lines : List (List Char)}
    (whole : ∀ line ∈ lines, ∀ char ∈ line, isLineBoundary char = false) :
    splitlines (lines.flatMap fun line => line ++ ['\n']) = lines := by
  induction lines with
  | nil => rfl
  | cons line lines ih =>
      rw [List.forall_mem_cons] at whole
      have rest := ih whole.2
      unfold splitlines at rest ⊢
      rw [List.flatMap_cons, List.append_assoc, List.singleton_append,
        splitAfter_line whole.1 rfl (by simp), rest, List.reverse_nil, List.nil_append]

end Harness
