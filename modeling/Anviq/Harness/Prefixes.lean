import Anviq.Harness.Verified

/-! # Prefixes of a recording

`verify` looks only backwards, so every prefix of a recording it has nothing against is one. It
numbers the events, so nothing else made of them is.
-/

namespace Harness

variable {sha : String → String} {sessionId : PyJson}

/-! ## Numbers -/

/-- The event has this number. -/
def Numbered (event : PyDict) (number : Int) : Prop :=
  pyEq (getOrNone event "seq") (.num (.int number)) = true

/-- A number a valid event has is its only one, and is followed by the next one. -/
theorem numbered_value {event : PyDict} {number : Int} (valid : validEvent event = true)
    (numbered : Numbered event number) :
    ∃ held : PyNumber, getOrNone event "seq" = .num held ∧ held.value? = some (number : ℚ) := by
  have checked : property event "seq" isSequenceNumber = true := by
    simp only [validEvent, Bool.and_eq_true] at valid
    exact valid.1.1.1.1.1.1.2
  unfold Numbered at numbered
  unfold property at checked
  unfold getOrNone at numbered ⊢
  cases found : event.get? "seq" with
  | none =>
      rw [found] at numbered
      cases numbered
  | some value =>
      rw [found, Option.getD_some] at numbered
      rw [found, Option.all_some] at checked
      rw [Option.getD_some]
      cases value with
      | num held =>
          refine ⟨held, rfl, ?_⟩
          cases held with
          | infinity negative => cases checked
          | nan => cases checked
          | int other => simpa [pyEq, number?, PyNumber.eq, PyNumber.value?] using numbered
          | float other => simpa [pyEq, number?, PyNumber.eq, PyNumber.value?] using numbered
      | _ => cases checked

theorem numbered_unique {event : PyDict} {first second : Int} (valid : validEvent event = true)
    (firstNumbered : Numbered event first) (secondNumbered : Numbered event second) :
    first = second := by
  obtain ⟨held, read, firstValue⟩ := numbered_value valid firstNumbered
  obtain ⟨other, again, secondValue⟩ := numbered_value valid secondNumbered
  obtain rfl : held = other := Json.num.inj (read.symm.trans again)
  have same : (first : ℚ) = second := Option.some.inj (firstValue.symm.trans secondValue)
  exact_mod_cast same

/-- Events `verify` has nothing against are numbered from the number expected. -/
theorem numbered_of_verified {events : List PyDict} {index : Nat} {progress : Progress}
    (verified : verifyEvents sha sessionId index events progress = []) :
    ∀ (position : Nat) (event : PyDict), events[position]? = some event →
      validEvent event = true ∧ Numbered event (progress.expectedSeq + position) := by
  induction events generalizing index progress with
  | nil => exact fun position event absent => absurd absent (by simp)
  | cons first events ih =>
      obtain ⟨accepted, rest⟩ := verifyEvents_cons_eq_nil.mp verified
      obtain ⟨held, read, valued⟩ := numbered_value accepted.valid accepted.seq
      have next : (verifyEvent sha sessionId index first progress).2.expectedSeq =
          progress.expectedSeq + 1 := by
        rw [verifyEvent_progress accepted.valid, (semanticProblems_keeps _ _ _).2.1, Progress.past,
          read, (number_expected valued).2]
      intro position event present
      cases position with
      | zero =>
          obtain rfl := Option.some.inj present
          refine ⟨accepted.valid, ?_⟩
          rw [Int.natCast_zero, add_zero]
          exact accepted.seq
      | succ position =>
          have later := ih rest position event present
          rw [next, add_assoc, add_comm 1] at later
          exact later

/-! ## Prefixes -/

/-- A part that is not empty begins as the recording does. -/
theorem verify_prefix {front back : List PyDict} (nonempty : front ≠ [])
    (verified : verify sha sessionId (front ++ back) = []) : verify sha sessionId front = [] := by
  cases front with
  | nil => exact absurd rfl nonempty
  | cons first front =>
      obtain ⟨begun, sound⟩ := List.append_eq_nil_iff.mp verified
      rw [verifyEvents_append] at sound
      exact List.append_eq_nil_iff.mpr ⟨begun, (List.append_eq_nil_iff.mp sound).1⟩

/-- **Exactly the prefixes are valid.** Of the lists of events of a recording `verify` has nothing
against, whatever is left out, reordered or repeated, it has nothing against the prefixes that are
not empty, and no others. -/
theorem verify_eq_nil_iff_prefix {events part : List PyDict}
    (verified : verify sha sessionId events = []) (among : ∀ event ∈ part, event ∈ events)
    (nonempty : part ≠ []) : verify sha sessionId part = [] ↔ part <+: events := by
  constructor
  · intro sound
    have whole := numbered_of_verified (verifyEvents_of_verify verified)
    have numbers := numbered_of_verified (verifyEvents_of_verify sound)
    rw [List.prefix_iff_getElem?]
    intro position inside
    have present := List.getElem?_eq_getElem inside
    obtain ⟨valid, numbered⟩ := numbers position _ present
    obtain ⟨place, placed⟩ := List.mem_iff_getElem?.mp (among _ (List.getElem_mem inside))
    have same := numbered_unique valid (whole place _ placed).2 numbered
    have same : place = position := by
      have same : (place : Int) = position := by simpa using same
      exact_mod_cast same
    rw [same] at placed
    exact placed
  · intro front
    obtain ⟨back, rfl⟩ := front
    exact verify_prefix nonempty verified

/-- The recording of a session that has begun and ended. -/
def begunAndEnded : List PyDict :=
  begun ++
    [[("v", .num (.int 1)), ("seq", .num (.int 1)), ("ts", .str "2024-01-01T00:00:01Z"),
      ("session_id", .str "s"), ("type", .str "session_end"), ("reason", .str "completed"),
      ("prev_hash", .str ("sha256:" ++ plainDigest)),
      ("event_hash", .str ("sha256:" ++ plainDigest))]]

/-- A recording that has only begun is a prefix of one that has ended, and verifies. -/
theorem verify_eq_nil_iff_prefix_begun :
    verify (fun _ => plainDigest) (.str "s") begun = [] ↔ begun <+: begunAndEnded :=
  verify_eq_nil_iff_prefix (show verify (fun _ => plainDigest) (.str "s") begunAndEnded = [] by
    decide +kernel) (fun _ present => List.mem_append_left _ present) (List.cons_ne_nil _ _)

end Harness
