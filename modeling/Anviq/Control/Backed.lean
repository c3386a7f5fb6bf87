import Anviq.Control.Approval
import Anviq.Control.VerdictCache

/-! # What an answer rests on

An answer of the control service either comes from an approval of the very hash it recomputed, or
it is the verdict on an analysis of definitions with the hashes it recomputed.
-/

namespace Control

variable {Call : Type} [DecidableEq Call] {settings : Settings} {requests : Call → ChangeRequest}
  {service next : ControlService Call} {events : List (Event Call)} {event : Event Call}

/-- What is approved was approved. -/
theorem approval_of_run {key : ToolKey} {hash : String}
    (run : (controlMachine settings requests).Run events service)
    (approved : service.approvedHash? key = some hash) :
    ∃ event ∈ events, event.approval? = some (key, hash) := by
  induction run with
  | start begins =>
      cases begins
      cases approved
  | concat _ handled ih =>
      rcases approved_step key handled with ⟨other, approves, same⟩ | ⟨_, same⟩
      · rw [same] at approved
        cases approved
        exact ⟨_, List.mem_append_right _ List.mem_cons_self, approves⟩
      · rw [same] at approved
        rcases ih approved with ⟨event, present, approves⟩
        exact ⟨event, List.mem_append_left _ present, approves⟩

/-- What the answer to a request rests on. -/
inductive Backed (settings : Settings) (requests : Call → ChangeRequest)
    (events : List (Event Call)) (request : ChangeRequest) (hashes : HashPair) (verdict : Verdict) :
    Prop
  | approved (event : Event Call) (among : event ∈ events)
      (approves : event.approval? = some (request.key, hashes.2)) (resumes : verdict = .resume)
  | analysed (analysis : Analysis) (sourced : Sourced settings requests hashes analysis)
      (decided : verdict = verdictOn settings request analysis)

omit [DecidableEq Call] in
theorem Backed.concat {request : ChangeRequest} {hashes : HashPair} {verdict : Verdict}
    (backed : Backed settings requests events request hashes verdict) (event : Event Call) :
    Backed settings requests (events ++ [event]) request hashes verdict := by
  cases backed with
  | approved approval among approves resumes =>
      exact .approved approval (List.mem_append_left _ among) approves resumes
  | analysed analysis sourced decided => exact .analysed analysis sourced decided

/-- The answer to a call is backed, for the hashes of its definitions. -/
def Stage.Rests (settings : Settings) (requests : Call → ChangeRequest) (events : List (Event Call))
    (call : Call) (stage : Stage) : Prop :=
  ∀ body, stage = .returned body → ∃ hashes,
    computeHashes settings.lib settings.sha (requests call) = .ok hashes ∧
      Backed settings requests events (requests call) hashes body.verdict

omit [DecidableEq Call] in
theorem Stage.Rests.concat {call : Call} {stage : Stage}
    (rests : stage.Rests settings requests events call) (event : Event Call) :
    stage.Rests settings requests (events ++ [event]) call := by
  intro body returned
  rcases rests body returned with ⟨hashes, hashed, backed⟩
  exact ⟨hashes, hashed, backed.concat event⟩

/-- A call goes on, and the others stay where they are. -/
theorem rests_goto {call : Call} {stage : Stage} {moved : ControlService Call}
    (rests : ∀ call, (service.stage call).Rests settings requests events call)
    (stages : moved.stage = service.stage)
    (own : stage.Rests settings requests (events ++ [event]) call) (other : Call) :
    ((moved.goto call stage).stage other).Rests settings requests (events ++ [event]) other := by
  by_cases same : other = call
  · rw [same, ControlService.goto_stage]
    exact own
  · rw [ControlService.goto_stage_of_ne _ _ _ same, stages]
    exact (rests other).concat event

omit [DecidableEq Call] in
/-- A call that has not returned rests on nothing. -/
theorem rests_working {call : Call} {stage : Stage} (working : ∀ body, stage ≠ .returned body) :
    stage.Rests settings requests events call :=
  fun body returned => absurd returned (working body)

/-- An approved answer rests on the approval. -/
theorem rests_approved {call : Call} {hashes : HashPair}
    (run : (controlMachine settings requests).Run events service)
    (hashed : computeHashes settings.lib settings.sha (requests call) = .ok hashes)
    (approved : service.isApproved (requests call).key hashes.2 = true) :
    (Stage.returned (approvedBody (checkHashes (requests call) hashes))).Rests settings requests
      (events ++ [event]) call := by
  rintro _ ⟨⟩
  rcases approval_of_run run (isApproved_eq_true.mp approved) with ⟨approval, among, approves⟩
  exact ⟨hashes, hashed, .approved approval (List.mem_append_left _ among) approves rfl⟩

/-- In every run the answers are backed. -/
theorem rests_of_run (run : (controlMachine settings requests).Run events service) (call : Call) :
    (service.stage call).Rests settings requests events call := by
  induction run generalizing call with
  | start begins =>
      cases begins
      exact rests_working (by simp)
  | @concat events service next event run handled ih =>
      have honest := run_honest run
      cases handle_move handled with
      | approvedFirst _ at' hashed approved =>
          exact rests_goto ih rfl (rests_approved run hashed approved) call
      | @approvedSince mover hashes _ _ _ at' approved =>
          have hashed := honest mover hashes (by rw [at']; rfl)
          exact rests_goto ih rfl (rests_approved run hashed approved) call
      | @answers mover hashes analysis _ at' _ =>
          have hashed := honest mover hashes (by rw [at']; rfl)
          have sourced := (run_shared run).traced mover
          rw [at'] at sourced
          refine rests_goto ih rfl ?_ call
          rintro _ ⟨⟩
          exact ⟨hashes, hashed, .analysed analysis sourced rfl⟩
      | refused _ => exact (ih call).concat _
      | approves _ => exact (ih call).concat _
      | _ => exact rests_goto ih rfl (rests_working (by simp)) call

end Control
