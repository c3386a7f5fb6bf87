import Anviq.Control.Approval
import Anviq.Control.VerdictCache
import Anviq.Harness.HashParity
import Anviq.Proxy.Quarantine
import Anviq.Proxy.Reports

/-! # The trust layer

The proxy and the control plane together. A goroutine of `reportAndApply` posts its change, the
control plane works on it in its own steps, and the goroutine reads the answer or gives up. A
poller fetches the quarantine of the control plane and swaps it in later. The messages may be
delayed and lost.
-/

namespace Trust

open Harness (PyJson reread)
open Proxy (Entry Gateway GoJson Goroutine QuarantineSet Report Surroundings System SystemLabel
  SystemStep Tool)
open Control (ChangeRequest ControlService ToolKey parseChangeRequest)

deriving instance DecidableEq for Report

/-! ## Messages -/

/-- A Go map; the one of a pin that never held a definition is nil. -/
def goMap (tool : Tool) : GoJson := if tool = [] then .null else .obj tool

/-- What the control plane reads in the body of `POST /changes`. -/
def changeBody (sessionId : String) (report : Report) : PyJson :=
  .obj [("server", .str report.server), ("tool", .str report.tool), ("session_id", .str sessionId),
    ("old_hash", .str report.oldHash), ("new_hash", .str report.newHash),
    ("old_def", reread (goMap report.oldDef)), ("new_def", reread (goMap report.newDef))]

/-- A verdict as the proxy reads it. -/
def verdictText : Control.Verdict → String
  | .resume => "resume"
  | .warn => "warn"
  | .suspend => "suspend"
  | .quarantine => "quarantine"

/-- The answer to `GET /quarantine` as the proxy reads it. -/
def entryOf (key : ToolKey) : Entry where
  server := key.1
  tool := key.2

/-- What the control plane makes of a post it accepts. -/
structure Carries (sessionId : String) (report : Report) (request : ChangeRequest) : Prop where
  server : request.server = report.server
  tool : request.tool = report.tool
  named : report.tool ≠ ""
  oldHash : request.oldHash = report.oldHash
  newHash : request.newHash = report.newHash
  oldDef : .obj request.oldDef = reread (goMap report.oldDef)
  newDef : .obj request.newDef = reread (goMap report.newDef)

/-- A text that is required is the one that was sent. -/
theorem requireStr_ok {payload : Harness.PyDict} {key text value : String} {allowEmpty : Bool}
    (found : Harness.getOrNone payload key = .str text)
    (required : Control.requireStr payload key allowEmpty = .ok value) :
    value = text ∧ (allowEmpty = false → text ≠ "") := by
  unfold Control.requireStr at required
  rw [found] at required
  dsimp only at required
  split at required
  · cases required
  · next given =>
      cases required
      refine ⟨rfl, ?_⟩
      rintro rfl rfl
      exact given rfl

/-- What the control plane parses is what the proxy has posted. -/
theorem carries_of_parsed {sessionId : String} {report : Report} {request : ChangeRequest}
    (parsed : parseChangeRequest (changeBody sessionId report) = .ok request) :
    Carries sessionId report request := by
  unfold parseChangeRequest changeBody at parsed
  dsimp only at parsed
  split at parsed
  · next oldDef newDef old new =>
      rcases Harness.bind_eq_ok.mp parsed with ⟨server, serverRead, rest⟩
      rcases Harness.bind_eq_ok.mp rest with ⟨tool, toolRead, rest⟩
      rcases Harness.bind_eq_ok.mp rest with ⟨_, _, rest⟩
      rcases Harness.bind_eq_ok.mp rest with ⟨oldHash, oldRead, rest⟩
      rcases Harness.bind_eq_ok.mp rest with ⟨newHash, newRead, rest⟩
      cases rest
      exact ⟨(requireStr_ok rfl serverRead).1, (requireStr_ok rfl toolRead).1,
        (requireStr_ok rfl toolRead).2 rfl, (requireStr_ok rfl oldRead).1,
        (requireStr_ok rfl newRead).1, old.symm, new.symm⟩
  · cases parsed

/-! ## The system -/

variable {Schema Call : Type} [DecidableEq Call]

/-- What is fixed: the process of the proxy, the settings of the control plane, and the posts that
reach `evaluate_change`, each with its session and its report. -/
structure Deployment (Schema Call : Type) where
  gateway : Gateway Schema
  capacity : Nat
  settings : Control.Settings
  posts : Call → String × Report
  requests : Call → ChangeRequest
  parsed : ∀ call, parseChangeRequest (changeBody (posts call).1 (posts call).2) =
    .ok (requests call)

/-- The proxy, the control plane, the snapshot of the quarantine, and the list the poller has
fetched and not yet swapped in. -/
structure Layer (Schema Call : Type) where
  proxy : System Schema
  control : ControlService Call := {}
  quarantine : QuarantineSet := {}
  fetched : Option (List ToolKey) := none

inductive Label (Schema Call : Type) where
  | proxy (label : SystemLabel Schema)
  | control (event : Control.Event Call)
  | fetch
  | lose
  | replace

/-- What the proxy reads at a turn: the snapshot, and the answer to the post of a report. A post
that was lost, refused or given up has no answer. -/
def Reads (deployment : Deployment Schema Call) (layer : Layer Schema Call) :
    SystemLabel Schema → Prop
  | .turn id goroutine around =>
      around.quarantined = layer.quarantine.contains ∧
        ∀ report verdict, goroutine = .reporting report → around.control = some verdict →
          ∃ call body, deployment.posts call = (id, report) ∧
            layer.control.stage call = .returned body ∧ verdict.action = verdictText body.verdict
  | _ => True

/-- A call begins when a goroutine has posted its report. -/
def Sent (deployment : Deployment Schema Call) (layer : Layer Schema Call) :
    Control.Event Call → Prop
  | .turn call => layer.control.stage call = .entered →
      ((deployment.posts call).1, .reporting (deployment.posts call).2) ∈ layer.proxy.goroutines
  | _ => True

/-- The steps of the two processes and of the poller. -/
inductive Step (deployment : Deployment Schema Call) :
    Layer Schema Call → Label Schema Call → Layer Schema Call → Prop
  | proxy {layer : Layer Schema Call} {label : SystemLabel Schema} {next : System Schema}
      (reads : Reads deployment layer label)
      (step : SystemStep deployment.gateway layer.proxy label next) :
      Step deployment layer (.proxy label) { layer with proxy := next }
  | control {layer : Layer Schema Call} {event : Control.Event Call} {next : ControlService Call}
      (sent : Sent deployment layer event)
      (handled : layer.control.handle deployment.settings deployment.requests event = some next) :
      Step deployment layer (.control event) { layer with control := next }
  | fetch {layer : Layer Schema Call} (idle : layer.fetched = none) :
      Step deployment layer .fetch { layer with fetched := some layer.control.quarantineList }
  | lose {layer : Layer Schema Call} : Step deployment layer .lose { layer with fetched := none }
  | replace {layer : Layer Schema Call} {keys : List ToolKey}
      (fetched : layer.fetched = some keys) :
      Step deployment layer .replace
        { layer with quarantine := .replace (keys.map entryOf), fetched := none }

/-- The trust layer, from when both processes start. -/
def machine (deployment : Deployment Schema Call) :
    Machine (Layer Schema Call) (Label Schema Call) where
  start layer := layer = { proxy := { audit := Proxy.Audit.initial deployment.capacity } }
  step := Step deployment

/-! ## Its parts -/

/-- The step of the proxy. -/
def Label.proxy? : Label Schema Call → Option (SystemLabel Schema)
  | .proxy label => some label
  | _ => none

/-- The step of the control plane. -/
def Label.control? : Label Schema Call → Option (Control.Event Call)
  | .control event => some event
  | _ => none

variable {deployment : Deployment Schema Call} {labels : List (Label Schema Call)}
  {layer next : Layer Schema Call}

/-- A run of the layer is a run of the proxy. -/
theorem run_proxy (run : (machine deployment).Run labels layer) :
    (Proxy.machine deployment.gateway deployment.capacity).Run (labels.filterMap Label.proxy?)
      layer.proxy := by
  induction run with
  | start begins =>
      cases begins
      exact .start rfl
  | concat _ step ih =>
      rw [List.filterMap_append]
      cases step with
      | proxy _ step => exact ih.concat step
      | _ =>
          rw [List.filterMap_cons_none rfl, List.filterMap_nil, List.append_nil]
          exact ih

/-- A run of the layer is a run of the control plane. -/
theorem run_control (run : (machine deployment).Run labels layer) :
    (Control.controlMachine deployment.settings deployment.requests).Run
      (labels.filterMap Label.control?) layer.control := by
  induction run with
  | start begins =>
      cases begins
      exact .start rfl
  | concat _ step ih =>
      rw [List.filterMap_append]
      cases step with
      | control _ handled => exact ih.concat handled
      | _ =>
          rw [List.filterMap_cons_none rfl, List.filterMap_nil, List.append_nil]
          exact ih

/-! ## Executing a schedule -/

/-- What a schedule makes happen next; a goroutine is chosen by its position, and the answer it
reads by its call. -/
inductive Move (Schema Call : Type) where
  | arrive (id server agent body : String)
  | turn (position : Nat) (around : Surroundings Schema) (call : Option Call)
  | emit (id : String)
  | control (event : Control.Event Call)
  | fetch
  | replace

/-- The step of the control plane a schedule makes happen. -/
def Move.control? : Move Schema Call → Option (Control.Event Call)
  | .control event => some event
  | _ => none

/-- The answer a goroutine reads, if the call is its post and has returned. -/
def Layer.answer (deployment : Deployment Schema Call) (layer : Layer Schema Call) (id : String)
    (goroutine : Goroutine Schema) (call : Option Call) : Option Proxy.Verdict :=
  match goroutine, call with
  | .reporting report, some call =>
      if deployment.posts call = (id, report) then
        match layer.control.stage call with
        | .returned body => some { action := verdictText body.verdict, reason := body.reason }
        | _ => none
      else none
  | _, _ => none

/-- A goroutine has posted the report of a call that begins. -/
def Layer.sent (deployment : Deployment Schema Call) (layer : Layer Schema Call) :
    Control.Event Call → Bool
  | .turn call => layer.proxy.goroutines.any fun running =>
      running.1 = (deployment.posts call).1 &&
        running.2.report? = some (deployment.posts call).2
  | _ => true

/-- Perform a move, if it is possible. -/
def Layer.perform (deployment : Deployment Schema Call) (layer : Layer Schema Call) :
    Move Schema Call → Option (Layer Schema Call)
  | .arrive id server agent body =>
      some { layer with
        proxy := { layer.proxy with
          goroutines := layer.proxy.goroutines ++ [(id, .arrived server agent body)] } }
  | .turn position around call =>
      match layer.proxy.goroutines.drop position with
      | (id, goroutine) :: back =>
          if (layer.proxy.audit.outbox id).isEmpty then
            let read := { around with
              quarantined := layer.quarantine.contains
              control := layer.answer deployment id goroutine call }
            some { layer with
              proxy := layer.proxy.turned deployment.gateway id read goroutine
                (layer.proxy.goroutines.take position) back }
          else none
      | [] => none
  | .emit id =>
      match layer.proxy.audit.outbox id with
      | event :: rest =>
          some { layer with
            proxy := { layer.proxy with audit := layer.proxy.audit.emitted id event rest } }
      | [] => none
  | .control event =>
      if layer.sent deployment event then
        (layer.control.handle deployment.settings deployment.requests event).map fun control =>
          { layer with control }
      else none
  | .fetch =>
      if layer.fetched.isNone then some { layer with fetched := some layer.control.quarantineList }
      else none
  | .replace =>
      layer.fetched.map fun keys =>
        { layer with quarantine := .replace (keys.map entryOf), fetched := none }

omit [DecidableEq Call] in
/-- A verdict that is read is one the control plane has returned for the report. -/
theorem Layer.answer_read {id : String} {goroutine : Goroutine Schema} {call : Option Call}
    {report : Report} {verdict : Proxy.Verdict} (reporting : goroutine = .reporting report)
    (read : layer.answer deployment id goroutine call = some verdict) :
    ∃ call body, deployment.posts call = (id, report) ∧
      layer.control.stage call = .returned body ∧ verdict.action = verdictText body.verdict := by
  subst reporting
  unfold answer at read
  cases call with
  | none => cases read
  | some call =>
      dsimp only at read
      split at read
      · next posted =>
          split at read
          · next body returned =>
              cases read
              exact ⟨call, body, posted, returned, rfl⟩
          · cases read
      · cases read

omit [DecidableEq Call] in
/-- What the check lets through has been sent. -/
theorem Layer.sent_sound {event : Control.Event Call} (sent : layer.sent deployment event = true) :
    Sent deployment layer event := by
  cases event with
  | turn call =>
      intro _
      rcases List.any_eq_true.mp sent with ⟨⟨id, goroutine⟩, present, both⟩
      rw [Bool.and_eq_true, decide_eq_true_iff, decide_eq_true_iff] at both
      rcases both with ⟨rfl, reporting⟩
      cases goroutine with
      | reporting report =>
          cases reporting
          exact present
      | _ => cases reporting
  | _ => trivial

/-- A move is a step, of the control plane if it is one of its moves. -/
theorem Layer.perform_step {move : Move Schema Call}
    (performed : layer.perform deployment move = some next) :
    ∃ label, label.control? = move.control? ∧ Step deployment layer label next := by
  cases move with
  | arrive id server agent body =>
      cases performed
      exact ⟨.proxy (.arrive id server agent body), rfl,
        .proxy trivial (.arrive id server agent body)⟩
  | turn position around call =>
      dsimp only [perform] at performed
      split at performed
      · next id goroutine back rest =>
          split at performed
          · next unlocked =>
              cases performed
              have running : layer.proxy.goroutines =
                  layer.proxy.goroutines.take position ++ (id, goroutine) :: back := by
                rw [← rest, List.take_append_drop]
              refine ⟨.proxy (.turn id goroutine _), rfl, .proxy ⟨rfl, ?_⟩
                (.turn _ running (List.isEmpty_iff.mp unlocked))⟩
              exact fun report verdict reporting read => answer_read reporting read
          · cases performed
      · cases performed
  | emit id =>
      dsimp only [perform] at performed
      split at performed
      · next event rest held =>
          cases performed
          exact ⟨.proxy (.emit id), rfl, .proxy trivial (.emit held)⟩
      · cases performed
  | control event =>
      dsimp only [perform] at performed
      split at performed
      · next sent =>
          rcases Option.map_eq_some_iff.mp performed with ⟨control, handled, rfl⟩
          exact ⟨_, rfl, .control (sent_sound sent) handled⟩
      · cases performed
  | fetch =>
      dsimp only [perform] at performed
      split at performed
      · next idle =>
          cases performed
          exact ⟨_, rfl, .fetch (Option.isNone_iff_eq_none.mp idle)⟩
      · cases performed
  | replace =>
      rcases Option.map_eq_some_iff.mp performed with ⟨keys, fetched, rfl⟩
      exact ⟨_, rfl, .replace fetched⟩

/-- A schedule leads along a run, whose steps of the control plane are those of the schedule. -/
theorem Layer.play_run {first last : Layer Schema Call} {moves : List (Move Schema Call)}
    (run : ((machine deployment).onwards first).Run labels layer)
    (played : moves.foldlM (Layer.perform deployment) layer = some last) :
    ∃ later, ((machine deployment).onwards first).Run later last ∧
      later.filterMap Label.control? =
        labels.filterMap Label.control? ++ moves.filterMap Move.control? := by
  induction moves generalizing labels layer with
  | nil =>
      cases played
      exact ⟨labels, run, (List.append_nil _).symm⟩
  | cons move moves ih =>
      rw [List.foldlM_cons] at played
      rcases Option.bind_eq_some_iff.mp played with ⟨next, performed, rest⟩
      rcases perform_step performed with ⟨label, same, step⟩
      rcases ih (run.concat step) rest with ⟨later, whole, events⟩
      refine ⟨later, whole, ?_⟩
      rw [events, List.filterMap_append, List.append_assoc]
      congr 1
      rw [List.filterMap_cons, List.filterMap_cons, List.filterMap_nil, same]
      cases move.control? <;> rfl

end Trust
