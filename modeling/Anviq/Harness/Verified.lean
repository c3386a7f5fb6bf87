import Anviq.Harness.HashChain

/-! # Verified recordings

What it takes for `Recording.verify` to have nothing against the next event, and what follows
for the whole file: the index `load` builds has no problem either, and every call has its
definition before it.
-/

namespace Harness

section Verify

variable {sha : String → String} {sessionId : PyJson}

/-! ## One event -/

/-- What is carried past an event before the checks between events. -/
def Progress.past (progress : Progress) (event : PyDict) : Progress :=
  { progress with
    ended := progress.ended || getOrNone event "type" == .str "session_end"
    expectedSeq := nextSeq (getOrNone event "seq") progress.expectedSeq + 1
    prevHash := getOrNone event "event_hash" }

/-- An event no check has anything against. -/
structure Accepted (sha : String → String) (sessionId : PyJson) (index : Nat) (event : PyDict)
    (progress : Progress) : Prop where
  valid : validEvent event = true
  session : pyEq (getOrNone event "session_id") sessionId = true
  going : progress.ended = false
  once : (decide (index ≠ 0) && getOrNone event "type" == .str "session_start") = false
  seq : pyEq (getOrNone event "seq") (.num (.int progress.expectedSeq)) = true
  prevHash : pyEq (getOrNone event "prev_hash") progress.prevHash = true
  hash : hashProblems sha index event = []
  semantic : (semanticProblems sha index event (progress.past event)).1 = []

theorem verifyEvent_eq_nil {index : Nat} {event : PyDict} {progress : Progress} :
    (verifyEvent sha sessionId index event progress).1 = [] ↔
      Accepted sha sessionId index event progress := by
  have invalid (valid : ¬ validEvent event = true) :
      problemIf (!validEvent event) (.schemaViolation index) ≠ [] := by
    simpa [problemIf_eq_nil] using valid
  unfold verifyEvent
  dsimp only
  split
  · next valid =>
      simp only [List.append_eq_nil_iff, problemIf_eq_nil, Bool.not_eq_false']
      constructor
      · intro checks
        obtain ⟨⟨⟨⟨⟨⟨⟨-, session⟩, going⟩, once⟩, seq⟩, prevHash⟩, hash⟩, semantic⟩ := checks
        exact ⟨valid, session, going, once, seq, prevHash, hash, semantic⟩
      · intro accepted
        exact ⟨⟨⟨⟨⟨⟨⟨valid, accepted.session⟩, accepted.going⟩, accepted.once⟩, accepted.seq⟩,
          accepted.prevHash⟩, accepted.hash⟩, accepted.semantic⟩
  · next violated =>
      simp only [List.append_eq_nil_iff]
      constructor
      · intro checks
        exact absurd checks.1.1.1.1.1.1 (invalid violated)
      · intro accepted
        exact absurd accepted.valid violated

theorem verifyEvent_progress {index : Nat} {event : PyDict} {progress : Progress}
    (valid : validEvent event = true) :
    (verifyEvent sha sessionId index event progress).2 =
      (semanticProblems sha index event (progress.past event)).2 := by
  unfold verifyEvent
  dsimp only
  rw [if_pos valid]
  rfl

/-! ## Numbers -/

/-- A number with the value of an int equals it, and is followed by the next one. -/
theorem number_expected {number : PyNumber} {value : Int} (valued : number.value? = some (value : ℚ)) :
    pyEq (.num number) (.num (.int value)) = true ∧ nextSeq (.num number) value = value := by
  cases number with
  | int other =>
      have same : other = value := by exact_mod_cast Option.some.inj valued
      rw [same]
      exact ⟨by simp [pyEq, number?, PyNumber.eq, PyNumber.value?], rfl⟩
  | float other =>
      have same : other.value = value := Option.some.inj valued
      exact ⟨by simp [pyEq, number?, PyNumber.eq, PyNumber.value?, same], rfl⟩
  | infinity negative => cases valued
  | nan => cases valued

/-! ## Whole files -/

/-- What `verify` carries past events. -/
def progressAfter (sha : String → String) (sessionId : PyJson) :
    Nat → List PyDict → Progress → Progress
  | _, [], progress => progress
  | index, event :: events, progress =>
      progressAfter sha sessionId (index + 1) events
        (verifyEvent sha sessionId index event progress).2

theorem verifyEvents_append (front back : List PyDict) (index : Nat) (progress : Progress) :
    verifyEvents sha sessionId index (front ++ back) progress =
      verifyEvents sha sessionId index front progress ++
        verifyEvents sha sessionId (index + front.length) back
          (progressAfter sha sessionId index front progress) := by
  induction front generalizing index progress with
  | nil => rfl
  | cons event front ih =>
      simp only [List.cons_append, verifyEvents, ih, List.append_assoc, progressAfter,
        List.length_cons]
      rw [Nat.add_right_comm, Nat.add_assoc]

theorem progressAfter_append (front back : List PyDict) (index : Nat) (progress : Progress) :
    progressAfter sha sessionId index (front ++ back) progress =
      progressAfter sha sessionId (index + front.length) back
        (progressAfter sha sessionId index front progress) := by
  induction front generalizing index progress with
  | nil => rfl
  | cons event front ih =>
      simp only [List.cons_append, ih, progressAfter, List.length_cons]
      rw [Nat.add_right_comm, Nat.add_assoc]

/-- Events are accepted one after the other. -/
theorem verifyEvents_cons_eq_nil {event : PyDict} {events : List PyDict} {index : Nat}
    {progress : Progress} :
    verifyEvents sha sessionId index (event :: events) progress = [] ↔
      Accepted sha sessionId index event progress ∧
        verifyEvents sha sessionId (index + 1) events
          (verifyEvent sha sessionId index event progress).2 = [] := by
  rw [verifyEvents, List.append_eq_nil_iff, verifyEvent_eq_nil]

theorem valid_of_verified {events : List PyDict} {index : Nat} {progress : Progress}
    (verified : verifyEvents sha sessionId index events progress = []) :
    ∀ event ∈ events, validEvent event = true := by
  induction events generalizing index progress with
  | nil => exact fun event absent => absurd absent List.not_mem_nil
  | cons first events ih =>
      obtain ⟨accepted, rest⟩ := verifyEvents_cons_eq_nil.mp verified
      exact List.forall_mem_cons.mpr ⟨accepted.valid, ih rest⟩

theorem verifyEvents_of_verify {events : List PyDict} (verified : verify sha sessionId events = []) :
    verifyEvents sha sessionId 0 events {} = [] := by
  cases events with
  | nil => rfl
  | cons first events => exact (List.append_eq_nil_iff.mp verified).2

/-! ## Calls -/

section Semantic

variable {index : Nat} {event : PyDict} {progress : Progress}

theorem semanticProblems_definition (typed : getOrNone event "type" = .str "tool_definition") :
    (semanticProblems sha index event progress).2 =
      { progress with
        definitions :=
          (getOrNone event "server", getOrNone (getOrNone event "tool").members "name",
            getOrNone event "def_hash") :: progress.definitions } := by
  simp only [semanticProblems, typed]

/-- A definition is accepted with the hash of its tool. -/
theorem definition_eq_nil (typed : getOrNone event "type" = .str "tool_definition") :
    (semanticProblems sha index event progress).1 = [] ↔
      ∃ hash, toolHash sha (getOrNone event "tool").members = .ok hash ∧
        pyEq (.str hash) (getOrNone event "def_hash") = true := by
  simp only [semanticProblems, typed]
  cases toolHash sha (getOrNone event "tool").members with
  | error error => simp
  | ok hash => simp [problemIf_eq_nil]

theorem semanticProblems_call (typed : getOrNone event "type" = .str "tool_call") :
    semanticProblems sha index event progress =
      (problemIf
          (!progress.definitions.contains
            (getOrNone event "server", getOrNone event "tool_name", getOrNone event "def_hash"))
          (.unknownDefinition index) ++
          problemIf (progress.calls.contains (getOrNone event "call_id")) (.duplicateCallId index),
        { progress with calls := getOrNone event "call_id" :: progress.calls }) := by
  simp only [semanticProblems, typed]

theorem semanticProblems_response (typed : getOrNone event "type" = .str "tool_response") :
    semanticProblems sha index event progress =
      (problemIf (!progress.calls.contains (getOrNone event "call_id")) (.unknownCall index) ++
          problemIf (progress.responses.contains (getOrNone event "call_id"))
            (.duplicateResponse index),
        { progress with responses := getOrNone event "call_id" :: progress.responses }) := by
  simp only [semanticProblems, typed]

theorem semanticProblems_other (defines : getOrNone event "type" ≠ .str "tool_definition")
    (calls : getOrNone event "type" ≠ .str "tool_call")
    (responds : getOrNone event "type" ≠ .str "tool_response") :
    semanticProblems sha index event progress = ([], progress) := by
  unfold semanticProblems
  dsimp only
  split
  · next typed => exact absurd typed defines
  · next typed => exact absurd typed calls
  · next typed => exact absurd typed responds
  · rfl

/-- The checks between events leave what the chain is checked with. -/
theorem semanticProblems_keeps (index : Nat) (event : PyDict) (progress : Progress) :
    (semanticProblems sha index event progress).2.ended = progress.ended ∧
      (semanticProblems sha index event progress).2.expectedSeq = progress.expectedSeq ∧
      (semanticProblems sha index event progress).2.prevHash = progress.prevHash := by
  unfold semanticProblems
  dsimp only
  split <;> exact ⟨rfl, rfl, rfl⟩

end Semantic

/-- A valid event of a call has the identifier of one. -/
theorem callId_of_valid {event : PyDict} {type : String} (valid : validEvent event = true)
    (typed : getOrNone event "type" = .str type)
    (about : type = "tool_call" ∨ type = "tool_response") :
    (event.get? "call_id").getD (.str "") = getOrNone event "call_id" := by
  have branches : matchesType event = true := by
    unfold validEvent at valid
    exact (Bool.and_eq_true _ _ ▸ valid).2
  have has : hasType event type = true := by
    unfold hasType property
    unfold getOrNone at typed
    cases found : event.get? "type" with
    | none => rfl
    | some value =>
        rw [found, Option.getD_some] at typed
        rw [typed]
        simp [isOneOf]
  have present : (event.get? "call_id").isSome = true := by
    simp only [matchesType, Bool.and_eq_true] at branches
    obtain ⟨⟨⟨⟨-, call⟩, response⟩, -⟩, -⟩ := branches
    obtain rfl | rfl := about
    · rw [has, Bool.not_true, Bool.false_or] at call
      simp only [Bool.and_eq_true, required, List.all_cons] at call
      exact call.1.1.1.1.1.1
    · rw [has, Bool.not_true, Bool.false_or] at response
      simp only [Bool.and_eq_true, required, List.all_cons] at response
      exact response.1.1.1.1.1
  obtain ⟨value, found⟩ := Option.isSome_iff_exists.mp present
  rw [getOrNone, found]
  rfl

/-- The index `load` builds of accepted events has no problem. -/
theorem indexProblems_of_verified {events : List PyDict} {index : Nat} {progress : Progress}
    (verified : verifyEvents sha sessionId index events progress = []) :
    indexProblems progress.calls events = [] := by
  induction events generalizing index progress with
  | nil => rfl
  | cons event events ih =>
      obtain ⟨accepted, rest⟩ := verifyEvents_cons_eq_nil.mp verified
      have later := ih rest
      have semantic := accepted.semantic
      rw [verifyEvent_progress accepted.valid] at later
      rw [indexProblems, if_pos accepted.valid]
      dsimp only
      by_cases calls : getOrNone event "type" = .str "tool_call"
      · rw [semanticProblems_call calls] at later
        rw [calls, callId_of_valid accepted.valid calls (Or.inl rfl)]
        exact later
      by_cases responds : getOrNone event "type" = .str "tool_response"
      · rw [semanticProblems_response responds] at later semantic
        rw [responds, callId_of_valid accepted.valid responds (Or.inr rfl)]
        exact List.append_eq_nil_iff.mpr ⟨problemIf_eq_nil.mpr
          (problemIf_eq_nil.mp (List.append_eq_nil_iff.mp semantic).1), later⟩
      have kept : (semanticProblems sha index event (progress.past event)).2.calls =
          progress.calls := by
        by_cases defines : getOrNone event "type" = .str "tool_definition"
        · rw [semanticProblems_definition defines]
          rfl
        · rw [semanticProblems_other defines calls responds]
          rfl
      rw [kept] at later
      split
      · next typed => exact absurd typed calls
      · next typed => exact absurd typed responds
      · exact later

/-! ## Definitions -/

/-- The event records a definition of this server, name and hash. -/
def Defines (event : PyDict) (definition : PyJson × PyJson × PyJson) : Prop :=
  getOrNone event "type" = .str "tool_definition" ∧
    definition = (getOrNone event "server", getOrNone (getOrNone event "tool").members "name",
      getOrNone event "def_hash")

/-- Every call has its definition, of the same server and name, before it. -/
def CallsDefined (events : List PyDict) : Prop :=
  ∀ front call back, events = front ++ call :: back →
    getOrNone call "type" = .str "tool_call" →
      ∃ definition ∈ front, Defines definition
        (getOrNone call "server", getOrNone call "tool_name", getOrNone call "def_hash")

/-- The definitions carried are those of the events. -/
theorem mem_definitions {events : List PyDict} {index : Nat} {progress : Progress}
    (verified : verifyEvents sha sessionId index events progress = [])
    {definition : PyJson × PyJson × PyJson} :
    definition ∈ (progressAfter sha sessionId index events progress).definitions ↔
      definition ∈ progress.definitions ∨ ∃ event ∈ events, Defines event definition := by
  induction events generalizing index progress with
  | nil => simp [progressAfter]
  | cons event events ih =>
      obtain ⟨accepted, rest⟩ := verifyEvents_cons_eq_nil.mp verified
      have here : definition ∈
          (verifyEvent sha sessionId index event progress).2.definitions ↔
            definition ∈ progress.definitions ∨ Defines event definition := by
        rw [verifyEvent_progress accepted.valid]
        by_cases defines : getOrNone event "type" = .str "tool_definition"
        · rw [semanticProblems_definition defines, List.mem_cons, or_comm]
          simp only [Defines, defines, true_and]
          rfl
        · have apart : ¬ Defines event definition := fun both => defines both.1
          have kept : (semanticProblems sha index event (progress.past event)).2.definitions =
              progress.definitions := by
            by_cases calls : getOrNone event "type" = .str "tool_call"
            · rw [semanticProblems_call calls]
              rfl
            by_cases responds : getOrNone event "type" = .str "tool_response"
            · rw [semanticProblems_response responds]
              rfl
            · rw [semanticProblems_other defines calls responds]
              rfl
          rw [kept, or_iff_left apart]
      rw [progressAfter, ih rest, here, or_assoc]
      simp only [List.mem_cons, exists_eq_or_imp]

/-- Calls verification has nothing against have their definitions before them. -/
theorem callsDefined_of_verified {events : List PyDict}
    (verified : verify sha sessionId events = []) : CallsDefined events := by
  intro front call back same typed
  have sound := verifyEvents_of_verify verified
  rw [same, verifyEvents_append, List.append_eq_nil_iff] at sound
  obtain ⟨accepted, -⟩ := verifyEvents_cons_eq_nil.mp sound.2
  have semantic := accepted.semantic
  rw [semanticProblems_call typed, List.append_eq_nil_iff, problemIf_eq_nil, Bool.not_eq_false',
    List.contains_iff_mem] at semantic
  obtain absent | defined := (mem_definitions sound.1).mp semantic.1
  · exact absurd absent List.not_mem_nil
  · exact defined

end Verify

end Harness
