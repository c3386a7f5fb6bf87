import Mathlib.Data.List.Forall2
import Mathlib.Data.List.Induction

/-! # Hash chains

A list of entries in which every entry names the hash stored in the one before it.
Where a stored hash determines an entry and the hash the entry names, the last
hash determines the whole list.
-/

namespace HashChain

variable {Entry Hash : Type} (previous stored : Entry → Hash)

/-- Every entry names the hash of the one before it, and the first one `start`. -/
def Linked (start : Hash) : List Entry → Prop
  | [] => True
  | entry :: entries => previous entry = start ∧ Linked (stored entry) entries

/-- The hash of the last entry; `start` if there is none. -/
def head (start : Hash) : List Entry → Hash
  | [] => start
  | entry :: entries => head (stored entry) entries

variable {previous stored} {start : Hash}

/-- A longer chain is linked if its last entry is linked to the head of the rest. -/
theorem linked_concat {entries : List Entry} {entry : Entry} :
    Linked previous stored start (entries ++ [entry]) ↔
      Linked previous stored start entries ∧ previous entry = head stored start entries := by
  induction entries generalizing start with
  | nil => simp [Linked, head]
  | cons first entries ih => rw [List.cons_append, Linked, Linked, ih, head, and_assoc]

@[simp] theorem head_concat {entries : List Entry} {entry : Entry} :
    head stored start (entries ++ [entry]) = stored entry := by
  induction entries generalizing start with
  | nil => rfl
  | cons first entries ih => exact ih

/-- The head is that of the last entry. -/
theorem head_eq_getLast {entries : List Entry} (nonempty : entries ≠ []) :
    head stored start entries = stored (entries.getLast nonempty) := by
  induction entries using List.reverseRecOn with
  | nil => exact absurd rfl nonempty
  | append_singleton entries entry => rw [head_concat, List.getLast_append_singleton]

/-- **The head commits to the list.** Linked lists with one head are the same entry
by entry, when equal hashes stand in the same entries and in entries that name
equal hashes, and no entry stores `start`. -/
theorem committed {same : Entry → Entry → Prop} {left right : List Entry}
    (leftFresh : ∀ entry ∈ left, stored entry ≠ start)
    (rightFresh : ∀ entry ∈ right, stored entry ≠ start)
    (determined : ∀ first ∈ left, ∀ second ∈ right, stored first = stored second →
      same first second ∧ previous first = previous second)
    (leftLinked : Linked previous stored start left)
    (rightLinked : Linked previous stored start right)
    (heads : head stored start left = head stored start right) :
    List.Forall₂ same left right := by
  induction left using List.reverseRecOn generalizing right with
  | nil =>
      cases right using List.reverseRecOn with
      | nil => exact .nil
      | append_singleton right second =>
          rw [head_concat] at heads
          exact absurd heads.symm (rightFresh second (by simp))
  | append_singleton left first ih =>
      cases right using List.reverseRecOn with
      | nil =>
          rw [head_concat] at heads
          exact absurd heads (leftFresh first (by simp))
      | append_singleton right second =>
          rw [head_concat, head_concat] at heads
          obtain ⟨leftLinked, leftNames⟩ := linked_concat.mp leftLinked
          obtain ⟨rightLinked, rightNames⟩ := linked_concat.mp rightLinked
          obtain ⟨alike, names⟩ := determined first (by simp) second (by simp) heads
          have earlier : List.Forall₂ same left right := by
            apply ih _ _ _ leftLinked rightLinked
            · rw [← leftNames, ← rightNames, names]
            · intro entry present
              exact leftFresh entry (List.mem_append_left _ present)
            · intro entry present
              exact rightFresh entry (List.mem_append_left _ present)
            · intro entry present other otherPresent
              exact determined entry (List.mem_append_left _ present) other
                (List.mem_append_left _ otherPresent)
          exact List.rel_append earlier (.cons alike .nil)

end HashChain
