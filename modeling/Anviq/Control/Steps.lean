import Anviq.Control.Service

/-! # What a step of the control service does

Every step of a call is one of a few moves, and the hashes a call carries are those of the
definitions of its request.
-/

namespace Control

open Harness (PyError PyJson)

variable {Call : Type} [DecidableEq Call] {settings : Settings} {requests : Call → ChangeRequest}

/-- The hashes a call carries. -/
def Stage.hashes? : Stage → Option HashPair
  | .entered => none
  | .unapproved hashes => some hashes
  | .analysing hashes _ => some hashes
  | .failing hashes _ _ => some hashes
  | .waiting hashes _ => some hashes
  | .analysed hashes _ _ => some hashes
  | .returned _ => none
  | .raised _ => none

namespace ControlService

variable (service : ControlService Call) (call : Call) (stage : Stage)

@[simp] theorem goto_stage : (service.goto call stage).stage call = stage :=
  Function.update_self ..

theorem goto_stage_of_ne {other : Call} (apart : other ≠ call) :
    (service.goto call stage).stage other = service.stage other :=
  Function.update_of_ne apart ..

@[simp] theorem goto_cache : (service.goto call stage).cache = service.cache := rfl

@[simp] theorem goto_futures : (service.goto call stage).futures = service.futures := rfl

@[simp] theorem goto_created : (service.goto call stage).created = service.created := rfl

@[simp] theorem goto_quarantine : (service.goto call stage).quarantine = service.quarantine := rfl

@[simp] theorem goto_approved : (service.goto call stage).approved = service.approved := rfl

omit [DecidableEq Call] in
@[simp] theorem setFuture_futures (future : Nat) (result : Except PyError Analysis) :
    (service.setFuture future result).futures future = some result :=
  Function.update_self ..

omit [DecidableEq Call] in
theorem setFuture_futures_of_ne {future other : Nat} (result : Except PyError Analysis)
    (apart : other ≠ future) :
    (service.setFuture future result).futures other = service.futures other :=
  Function.update_of_ne apart ..

end ControlService

/-- The answer of a second locked section that finds no approval. -/
def answer (settings : Settings) (request : ChangeRequest) (hashes : HashPair)
    (analysis : Analysis) (cacheHit : Bool) : Body :=
  let riskClass := settings.policy.riskClass request.server request.tool request.newDef
  body (verdictOn settings request analysis) (reason analysis riskClass) analysis.findings
    (some analysis.severity) (some riskClass) cacheHit (checkHashes request hashes)

/-- What an event can do. -/
inductive Move (settings : Settings) (requests : Call → ChangeRequest)
    (service : ControlService Call) : Event Call → ControlService Call → Prop where
  | unhashed {call : Call} {error : PyError} (at' : service.stage call = .entered)
      (hashed : computeHashes settings.lib settings.sha (requests call) = .error error) :
      Move settings requests service (.turn call) (service.goto call (.raised error))
  | approvedFirst {call : Call} {hashes : HashPair} (stats : Stats)
      (at' : service.stage call = .entered)
      (hashed : computeHashes settings.lib settings.sha (requests call) = .ok hashes)
      (approved : service.isApproved (requests call).key hashes.2 = true) :
      Move settings requests service (.turn call)
        ({ service with stats }.goto call
          (.returned (approvedBody (checkHashes (requests call) hashes))))
  | unapproved {call : Call} {hashes : HashPair} (stats : Stats)
      (at' : service.stage call = .entered)
      (hashed : computeHashes settings.lib settings.sha (requests call) = .ok hashes)
      (approved : service.isApproved (requests call).key hashes.2 = false) :
      Move settings requests service (.turn call)
        ({ service with stats }.goto call (.unapproved hashes))
  | owns {call : Call} {hashes : HashPair} (stats : Stats)
      (at' : service.stage call = .unapproved hashes)
      (missing : service.cache.get? hashes = none) (size : 0 ≤ settings.cacheSize) :
      Move settings requests service (.turn call)
        (({ service with
            cache := evict settings.cacheSize (service.cache.assign hashes service.created)
            stats
            created := service.created + 1 } : ControlService Call).goto call
          (.analysing hashes service.created))
  | breaks {call : Call} {hashes : HashPair} (stats : Stats)
      (at' : service.stage call = .unapproved hashes)
      (missing : service.cache.get? hashes = none) (size : settings.cacheSize < 0) :
      Move settings requests service (.turn call)
        (({ service with
            cache := evict settings.cacheSize (service.cache.assign hashes service.created)
            stats
            created := service.created + 1 } : ControlService Call).goto call
          (.raised (.keyError "dictionary is empty")))
  | joins {call : Call} {hashes : HashPair} {future : Nat} (stats : Stats)
      (at' : service.stage call = .unapproved hashes)
      (found : service.cache.get? hashes = some future) :
      Move settings requests service (.turn call)
        (({ service with
            cache := service.cache.moveToEnd hashes
            stats } : ControlService Call).goto call (.waiting hashes future))
  | succeeds {call : Call} {hashes : HashPair} {future : Nat} {analysis : Analysis}
      (at' : service.stage call = .analysing hashes future)
      (found : analyse settings.diffFn (requests call).tool (requests call).oldDef
        (requests call).newDef = .ok analysis) :
      Move settings requests service (.turn call)
        ((service.setFuture future (.ok analysis)).goto call (.analysed hashes analysis false))
  | fails {event : Event Call} {call : Call} {hashes : HashPair} {future : Nat} {error : PyError}
      (at' : service.stage call = .analysing hashes future)
      (about : event = .turn call ∨ event = .failure call error) :
      Move settings requests service event (service.failed call hashes future error)
  | reports {call : Call} {hashes : HashPair} {future : Nat} {error : PyError}
      (at' : service.stage call = .failing hashes future error) :
      Move settings requests service (.turn call)
        ((service.setFuture future (.error error)).goto call (.raised error))
  | shares {call : Call} {hashes : HashPair} {future : Nat} {analysis : Analysis}
      (at' : service.stage call = .waiting hashes future)
      (set : service.futures future = some (.ok analysis)) :
      Move settings requests service (.turn call)
        (service.goto call (.analysed hashes analysis true))
  | sharesError {call : Call} {hashes : HashPair} {future : Nat} {error : PyError}
      (at' : service.stage call = .waiting hashes future)
      (set : service.futures future = some (.error error)) :
      Move settings requests service (.turn call) (service.goto call (.raised error))
  | approvedSince {call : Call} {hashes : HashPair} {analysis : Analysis} {cacheHit : Bool}
      (stats : Stats) (at' : service.stage call = .analysed hashes analysis cacheHit)
      (approved : service.isApproved (requests call).key hashes.2 = true) :
      Move settings requests service (.turn call)
        ({ service with stats }.goto call
          (.returned (approvedBody (checkHashes (requests call) hashes))))
  | answers {call : Call} {hashes : HashPair} {analysis : Analysis} {cacheHit : Bool}
      (at' : service.stage call = .analysed hashes analysis cacheHit)
      (approved : service.isApproved (requests call).key hashes.2 = false) :
      Move settings requests service (.turn call)
        (({ service with
            quarantine :=
              if verdictOn settings (requests call) analysis = .quarantine then
                service.quarantine.insert (requests call).key
              else service.quarantine } : ControlService Call).goto call
          (.returned (answer settings (requests call) hashes analysis cacheHit)))
  | refused {payload : PyJson} {now : String} {error : PyError}
      (parsed : parseApproval payload = .error error) :
      Move settings requests service (.approve payload now) service
  | approves {payload : PyJson} {now : String} {approval : ApproveRequest}
      (parsed : parseApproval payload = .ok approval) :
      Move settings requests service (.approve payload now) (service.setBaseline approval now)

variable {service next : ControlService Call} {event : Event Call}

/-- A turn of a call is a move. -/
theorem turn_move {call : Call} (turned : service.turn settings requests call = some next) :
    Move settings requests service (.turn call) next := by
  unfold ControlService.turn at turned
  cases at' : service.stage call with
  | entered =>
      rw [at'] at turned
      dsimp only at turned
      cases hashed : computeHashes settings.lib settings.sha (requests call) with
      | error error =>
          rw [hashed] at turned
          cases turned
          exact .unhashed at' hashed
      | ok hashes =>
          rw [hashed] at turned
          cases turned
          unfold ControlService.firstSection
          dsimp only
          split
          · next approved => exact .approvedFirst _ at' hashed approved
          · next approved =>
              exact .unapproved _ at' hashed (Bool.eq_false_iff.mpr approved)
  | unapproved hashes =>
      rw [at'] at turned
      cases turned
      unfold ControlService.cachedAnalysis
      split
      · next missing =>
          dsimp only
          split
          · next size => exact .breaks _ at' missing size
          · next size => exact .owns _ at' missing (Int.not_lt.mp size)
      · next future found => exact .joins _ at' found
  | analysing hashes future =>
      rw [at'] at turned
      cases turned
      unfold ControlService.analysed
      dsimp only
      split
      · next analysis found => exact .succeeds at' found
      · next error _ => exact .fails at' (.inl rfl)
  | failing hashes future error =>
      rw [at'] at turned
      cases turned
      exact .reports at'
  | waiting hashes future =>
      rw [at'] at turned
      dsimp only at turned
      split at turned
      · cases turned
      · next analysis set =>
          cases turned
          exact .shares at' set
      · next error set =>
          cases turned
          exact .sharesError at' set
  | analysed hashes analysis cacheHit =>
      rw [at'] at turned
      cases turned
      unfold ControlService.secondSection
      dsimp only
      split
      · next approved => exact .approvedSince _ at' approved
      · next approved => exact .answers at' (Bool.eq_false_iff.mpr approved)
  | returned body =>
      rw [at'] at turned
      cases turned
  | raised error =>
      rw [at'] at turned
      cases turned

/-- Every step of the service is a move. -/
theorem handle_move (handled : service.handle settings requests event = some next) :
    Move settings requests service event next := by
  cases event with
  | turn call => exact turn_move handled
  | failure call error =>
      unfold ControlService.handle at handled
      dsimp only at handled
      split at handled
      · next hashes future at' =>
          cases handled
          exact .fails at' (.inr rfl)
      · cases handled
  | approve payload now =>
      cases handled
      unfold ControlService.approve
      split
      · next error parsed => exact .refused parsed
      · next approval parsed => exact .approves parsed

/-- The call an event is about. -/
def Event.call? : Event Call → Option Call
  | .turn call => some call
  | .failure call _ => some call
  | .approve _ _ => none

/-- An event leaves the calls it is not about where they are. -/
theorem handle_stage {call : Call} (handled : service.handle settings requests event = some next)
    (apart : event.call? ≠ some call) : next.stage call = service.stage call := by
  have elsewhere : ∀ {mover : Call} {other : ControlService Call} {stage : Stage},
      some mover ≠ some call → (other.goto mover stage).stage call = other.stage call := by
    intro mover other stage apart
    exact ControlService.goto_stage_of_ne _ _ _ fun same => apart (congrArg some same.symm)
  cases handle_move handled with
  | fails at' about =>
      obtain rfl | rfl := about
      · exact elsewhere apart
      · exact elsewhere apart
  | refused _ => rfl
  | approves _ => rfl
  | _ => exact elsewhere apart

/-- The calls carry the hashes of their definitions. -/
def Honest (settings : Settings) (requests : Call → ChangeRequest)
    (service : ControlService Call) : Prop :=
  ∀ call hashes, (service.stage call).hashes? = some hashes →
    computeHashes settings.lib settings.sha (requests call) = .ok hashes

/-- A call goes on with the hashes of its definitions, or without any. -/
theorem Honest.goto {call : Call} {stage : Stage}
    (honest : Honest settings requests service)
    (carried : ∀ hashes, stage.hashes? = some hashes →
      computeHashes settings.lib settings.sha (requests call) = .ok hashes)
    {other : ControlService Call} (same : other.stage = service.stage) :
    Honest settings requests (other.goto call stage) := by
  intro anyone hashes carries
  by_cases self : anyone = call
  · subst self
    rw [ControlService.goto_stage] at carries
    exact carried hashes carries
  · rw [ControlService.goto_stage_of_ne _ _ _ self, same] at carries
    exact honest anyone hashes carries

/-- A call goes on with the hashes it has. -/
theorem Honest.onward {call : Call} {before stage : Stage}
    (honest : Honest settings requests service) (at' : service.stage call = before)
    (carried : stage.hashes? = before.hashes?) {other : ControlService Call}
    (same : other.stage = service.stage) : Honest settings requests (other.goto call stage) := by
  refine honest.goto ?_ same
  intro hashes carries
  apply honest
  rw [at', ← carried]
  exact carries

theorem Honest.step (honest : Honest settings requests service)
    (handled : service.handle settings requests event = some next) :
    Honest settings requests next := by
  cases handle_move handled with
  | unhashed at' _ => exact honest.goto (by simp [Stage.hashes?]) rfl
  | approvedFirst _ at' _ _ => exact honest.goto (by simp [Stage.hashes?]) rfl
  | unapproved _ at' hashed _ =>
      refine honest.goto ?_ rfl
      intro hashes carried
      cases carried
      exact hashed
  | owns _ at' _ _ => exact honest.onward at' (by rfl) (by rfl)
  | breaks _ at' _ _ => exact honest.goto (by simp [Stage.hashes?]) rfl
  | joins _ at' _ => exact honest.onward at' (by rfl) (by rfl)
  | succeeds at' _ => exact honest.onward at' (by rfl) (by rfl)
  | fails at' _ => exact honest.onward at' (by rfl) (by rfl)
  | reports at' => exact honest.goto (by simp [Stage.hashes?]) rfl
  | shares at' _ => exact honest.onward at' (by rfl) (by rfl)
  | sharesError at' _ => exact honest.goto (by simp [Stage.hashes?]) rfl
  | approvedSince _ at' _ => exact honest.goto (by simp [Stage.hashes?]) rfl
  | answers at' _ => exact honest.goto (by simp [Stage.hashes?]) rfl
  | refused _ => exact honest
  | approves _ => exact honest

/-- The events of a run say where it leads. -/
theorem run_deterministic {events : List (Event Call)}
    (run : (controlMachine settings requests).Run events service)
    (other : (controlMachine settings requests).Run events next) : service = next := by
  refine run.deterministic ?_ ?_ other
  · intro left right begins begins'
    exact begins.trans begins'.symm
  · intro state label left right step step'
    exact Option.some_injective _ (step.symm.trans step')

/-- In every run the calls carry the hashes of their definitions. -/
theorem run_honest {events : List (Event Call)}
    (run : (controlMachine settings requests).Run events service) :
    Honest settings requests service := by
  refine run.invariant (P := fun _ service => Honest settings requests service) ?_ ?_
  · intro service begins
    rw [begins]
    intro call hashes carried
    cases carried
  · intro events service event next honest handled
    exact honest.step handled

end Control
