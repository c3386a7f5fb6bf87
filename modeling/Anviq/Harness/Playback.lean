import Anviq.Harness.Journal

/-! # Replaying a recorded session

A session that was recorded can be replayed: the fake server made from its file answers a call as
the function did when it was first called with the same arguments, and refuses, in strict mode,
every call that was not recorded.
-/

namespace Harness

/-! ## Answers -/

/-- The answer is how the call ended. -/
def ReplayResult.Replays (answer : ReplayResult) : Outcome → Prop
  | .result value latencyMs => answer.ok = true ∧ Reproduces answer.result value ∧
      answer.error = .null ∧ Reproduces answer.latencyMs (.num latencyMs)
  | .error code message latencyMs => answer.ok = false ∧ answer.result = .null ∧
      Reproduces answer.error
        (.dict ([("code", .str code), ("message", .str message)].map pyItem)) ∧
      Reproduces answer.latencyMs (.num latencyMs)

theorem replays_of_reproduced {record : CallRecord} {outcome : Outcome}
    (reproduced : Outcome.Reproduced record (some outcome)) :
    (ReplayResult.ofRecord record).Replays outcome := by
  cases outcome with
  | result value latencyMs =>
      rcases reproduced with ⟨ok, result, error, latency⟩
      refine ⟨?_, result, error, latency⟩
      rw [ReplayResult.ofRecord, ok]
      rfl
  | error code message latencyMs =>
      rcases reproduced with ⟨ok, result, error, latency⟩
      refine ⟨?_, result, error, latency⟩
      rw [ReplayResult.ofRecord, ok]
      rfl

/-- The call is to this server, of this name, with arguments written alike. -/
def JournalCall.IsTo (server name : String) (args : PyValue) (call : JournalCall) : Prop :=
  call.server = codePoints server ∧ call.toolName = codePoints name ∧
    canonicalValue call.args = canonicalValue args

/-- A record is found by what is asked of its call. -/
theorem JournalCall.Reproduced.isOf {call : JournalCall} {record : CallRecord}
    (reproduced : call.Reproduced record) {server name : String} {args : PyValue}
    {text : List Char} (written : canonicalValue args = .ok text) :
    record.isOf (.str server) (.str name) text = true ↔ call.IsTo server name args := by
  rcases reproduced.server with ⟨serverText, serverRead, serverFound⟩
  rcases reproduced.toolName with ⟨nameText, nameRead, nameFound⟩
  rcases reproduced.args with ⟨own, valueText, jsonText⟩
  rw [CallRecord.isOf, JournalCall.IsTo, decide_eq_true_iff, serverFound, nameFound, serverRead,
    nameRead, jsonText, valueText, written, Json.str.injEq, Json.str.injEq,
    codePoints_injective.eq_iff, codePoints_injective.eq_iff]

/-! ## Sessions -/

section Sessions

variable {sha : String → String} {recording : Recording} {journal : Journal}

/-- A recording without problems verifies. -/
theorem verify_of_load {text : String} (sound : (load sha text).integrityProblems = []) :
    (load sha text).verify sha = [] := by
  unfold load at sound ⊢
  exact (List.append_eq_nil_iff.mp sound).2

/-- The server replays the journal: the first call like the one that is asked for, if it ended,
and no other call. -/
structure ReplayServer.Plays (fake : ReplayServer) (journal : Journal) : Prop where
  ended : ∀ earlier call later outcome, journal.calls = earlier ++ call :: later →
    call.outcome = some outcome → ∀ server name args, call.IsTo server name args →
      (∀ other ∈ earlier, ¬ other.IsTo server name args) →
        ∃ answer, fake.call name args (some server) true = .ok answer ∧ answer.Replays outcome
  refused : ∀ server name args text, canonicalValue args = .ok text →
    (∀ call ∈ journal.calls, ¬ call.IsTo server name args) →
      fake.call name args (some server) true = .error (.noRecordedCall name args)

/-- The records of the calls before one. -/
theorem forall₂_split {α β : Type} {related : α → β → Prop} {earlier later : List α} {item : α}
    {right : List β} (both : List.Forall₂ related (earlier ++ item :: later) right) :
    ∃ front other back, right = front ++ other :: back ∧ List.Forall₂ related earlier front ∧
      related item other := by
  have before := List.forall₂_take_append _ _ _ both.flip
  have after := List.forall₂_drop_append _ _ _ both.flip
  rcases List.forall₂_cons_right_iff.mp after with ⟨other, back, here, -, same⟩
  refine ⟨_, other, back, ?_, before.flip, here⟩
  rw [← same, List.take_append_drop]

theorem Recording.Keeps.plays (keeps : recording.Keeps journal)
    (verified : recording.verify sha = []) :
    ∃ fake, ReplayServer.ofCalls recording.calls = .ok fake ∧ fake.Plays journal := by
  rcases ReplayServer.of_verified verified with ⟨fake, made, finds⟩
  refine ⟨fake, made, ?_, ?_⟩
  · intro earlier call later outcome split ended server name args asked first
    have calls := keeps.calls
    rw [split] at calls
    rcases forall₂_split calls with ⟨front, record, back, whole, before, reproduced⟩
    rcases reproduced.args with ⟨text, valueText, jsonText⟩
    have written : canonicalValue args = .ok text := asked.2.2.symm.trans valueText
    have unfound : front.find? (CallRecord.isOf (.str server) (.str name) text) = none := by
      rw [List.find?_eq_none]
      intro other present found
      rcases forall₂_exists_left before present with ⟨otherCall, among, otherReproduced⟩
      exact first otherCall among ((otherReproduced.isOf written).mp found)
    have found : fake.byArgs.get? (.str server, .str name, text) = some record := by
      rw [finds, whole, List.find?_append, unfound, Option.none_or,
        List.find?_cons_of_pos ((reproduced.isOf written).mpr asked)]
    refine ⟨_, ReplayServer.call_found written found true, replays_of_reproduced ?_⟩
    rw [← ended]
    exact reproduced.outcome
  · intro server name args text written unrecorded
    refine ReplayServer.call_unrecorded written ?_
    intro other candidate
    rw [List.mem_singleton.mp candidate, finds, List.find?_eq_none]
    intro record present found
    rcases forall₂_exists_left keeps.calls present with ⟨call, among, reproduced⟩
    exact unrecorded call among ((reproduced.isOf written).mp found)

/-- **A recorded session can be replayed**: the server made from its file answers as the functions
did, and refuses what was not recorded. -/
theorem replay_of_session (settings : RecorderSettings) (sound : settings.Sound)
    (operations : List Operation) (session : Session)
    (run : (returningMachine settings).Run operations session) :
    ∃ fake, ReplayServer.ofCalls (load settings.sha (String.ofList session.recorder.text)).calls =
      .ok fake ∧ fake.Plays (.ofOperations settings operations) := by
  have keeps := keeps_of_run sound run
  exact keeps.plays (verify_of_load keeps.sound)

end Sessions

/-- The answered call is replayed. -/
theorem replay_of_session_answeredCall :
    ∃ (session : Session) (fake : ReplayServer), ReplayServer.ofCalls
      (load quietSettings.sha (String.ofList session.recorder.text)).calls = .ok fake ∧
        fake.Plays (.ofOperations quietSettings answeredCall) := by
  rcases answeredCall_run with ⟨session, run⟩
  exact ⟨session, replay_of_session quietSettings quietSettings_sound answeredCall session run⟩

end Harness
