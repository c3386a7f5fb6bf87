import Mathlib.Logic.Relation
import Anviq.Control.Backed
import Anviq.Proxy.Contents
import Anviq.Trust.Enforced

/-! # No contract changes unseen

Between two calls of a tool that a session lets through without a warning, the hash it holds the
tool to has only moved along changes that the session reported and the control plane cleared, and
what the control plane answered rests on an approval or on an analysis of the reported definitions.
-/

namespace Trust

open Proxy (Goroutine Report Surroundings)
open Control (Backed computeHashes)

variable {Schema Call : Type} [DecidableEq Call] {deployment : Deployment Schema Call}
  {labels earlier later : List (Label Schema Call)} {label : Label Schema Call}
  {layer next first last : Layer Schema Call} {id key old new hash : String} {report : Report}

/-- A report that is about to be applied: its change leads from `old` to `new`, its definitions have
these hashes, and the control plane answered its post with a verdict that lets the change pass and
that is backed by what has happened. -/
structure Clears (deployment : Deployment Schema Call) (labels : List (Label Schema Call))
    (layer : Layer Schema Call) (id key : String) (report : Report) (old new : String) : Prop where
  about : Proxy.key report.server report.tool = key
  oldHash : report.oldHash = old
  newHash : report.newHash = new
  hashed : report.Hashed deployment.gateway.env
  answered : ∃ call body hashes, deployment.posts call = (id, report) ∧
    Carries id report (deployment.requests call) ∧ layer.control.stage call = .returned body ∧
    (body.verdict = .resume ∨ body.verdict = .warn) ∧
    computeHashes deployment.settings.lib deployment.settings.sha (deployment.requests call) =
      .ok hashes ∧
    Backed deployment.settings deployment.requests (labels.filterMap Label.control?)
      (deployment.requests call) hashes body.verdict

/-- How the contract of a key came from one hash to another: each change was cleared at its turn,
after the changes before it. -/
inductive Lineage (deployment : Deployment Schema Call) (id key : String)
    (earlier : List (Label Schema Call)) : List (Label Schema Call) → String → String → Prop
  | same (later : List (Label Schema Call)) (hash : String) :
      Lineage deployment id key earlier later hash hash
  | cleared {between rest : List (Label Schema Call)} {moment : Layer Schema Call}
      {report : Report} {around : Surroundings Schema} {old middle new : String}
      (before : Lineage deployment id key earlier between old middle)
      (run : (machine deployment).Run (earlier ++ between) moment)
      (clears : Clears deployment (earlier ++ between) moment id key report middle new) :
      Lineage deployment id key earlier
        (between ++ .proxy (.turn id (.reporting report) around) :: rest) old new

/-- A later step keeps the changes of a contract. -/
theorem Lineage.concat (lineage : Lineage deployment id key earlier labels old new)
    (label : Label Schema Call) :
    Lineage deployment id key earlier (labels ++ [label]) old new := by
  cases lineage with
  | same later hash => exact .same _ _
  | cleared before run clears =>
      rw [List.append_assoc, List.cons_append]
      exact .cleared before run clears

/-- The verdicts that let a change pass. -/
theorem passes_of_text {verdict : Control.Verdict}
    (passes : verdictText verdict = "resume" ∨ verdictText verdict = "warn") :
    verdict = .resume ∨ verdict = .warn := by
  cases verdict with
  | resume => exact .inl rfl
  | warn => exact .inr rfl
  | suspend => exact absurd passes (by decide)
  | quarantine => exact absurd passes (by decide)

/-- A step leaves a contract alone, or applies a report that clears its change. -/
theorem step_contract (run : (machine deployment).Run labels layer)
    (held : (layer.proxy.audit.sessions id).contract? key = some hash)
    (step : Step deployment layer label next) :
    (next.proxy.audit.sessions id).contract? key = some hash ∨
      ∃ report around new, label = .proxy (.turn id (.reporting report) around) ∧
        (next.proxy.audit.sessions id).contract? key = some new ∧
        Clears deployment labels layer id key report hash new := by
  cases step with
  | proxy reads moves =>
      cases moves with
      | arrive _ _ _ _ => exact .inl held
      | write _ => exact .inl held
      | close => exact .inl held
      | emit _ =>
          exact .inl ((Proxy.Session.contract?_samePins
            (Proxy.System.emitted_samePins _ _ _ _ id) key).trans held)
      | @turn mover goroutine front back around running _ =>
          by_cases mine : id = mover
          · subst mine
            have sessions : (layer.proxy.turned deployment.gateway id around goroutine front
                back).audit.sessions id = (goroutine.turn deployment.gateway around
                  (layer.proxy.audit.sessions id)).session := Function.update_self ..
            dsimp only
            rw [sessions]
            rcases Proxy.turn_contract deployment.gateway around goroutine held with
              kept | ⟨report, new, becomes, rfl, about, ⟨verdict, answer, passes⟩, pin, change,
                found, outstanding, revision, rfl⟩
            · exact .inl kept
            · rcases reads.2 report verdict rfl answer with ⟨call, body, posted, returned, action⟩
              rw [action] at passes
              have flying : report ∈ layer.proxy.inFlight id := by
                rw [Proxy.System.inFlight_running running]
                exact List.mem_append_right _ (List.mem_append_left _ List.mem_cons_self)
              have described := Proxy.System.reachable_describes ⟨_, run_proxy run⟩ id
              rcases described.about report flying pin (about ▸ found) change outstanding
                revision with ⟨oldHash, newHash⟩
              rcases Proxy.Session.contract?_eq_some.mp held with ⟨_, again, _, defHash⟩
              cases found.symm.trans again
              rcases Control.rests_of_run (run_control run) call body returned with
                ⟨hashes, hashed, backed⟩
              have carries := carries_of_parsed (deployment.parsed call)
              rw [posted] at carries
              refine .inr ⟨report, around, change.newHash, rfl, becomes, about,
                oldHash.trans defHash, newHash, described.reports report flying, ?_⟩
              exact ⟨call, body, hashes, posted, carries, returned, passes_of_text passes, hashed,
                backed⟩
          · have sessions : (layer.proxy.turned deployment.gateway mover around goroutine front
                back).audit.sessions id = layer.proxy.audit.sessions id :=
              Function.update_of_ne mine _ _
            dsimp only
            rw [sessions]
            exact .inl held
  | control _ _ => exact .inl held
  | fetch _ => exact .inl held
  | lose => exact .inl held
  | replace _ => exact .inl held

/-- Along a run a contract is passed on from change to change. -/
theorem lineage_of_run (run : (machine deployment).Run earlier first)
    (held : (first.proxy.audit.sessions id).contract? key = some old)
    (rest : ((machine deployment).onwards first).Run later last) :
    ∃ new, (last.proxy.audit.sessions id).contract? key = some new ∧
      Lineage deployment id key earlier later old new := by
  induction rest with
  | start begins =>
      cases begins
      exact ⟨old, held, .same _ _⟩
  | @concat between moment last label before step ih =>
      rcases ih with ⟨middle, now, lineage⟩
      have run := run.append before
      rcases step_contract run now step with kept | ⟨report, around, new, rfl, becomes, clears⟩
      · exact ⟨middle, kept, lineage.concat label⟩
      · exact ⟨new, becomes, .cleared lineage run clears⟩

/-- **No contract changes unseen.** If a session lets calls of a tool through without a warning at
two moments of a run, the hash of the later contract comes from that of the earlier one by changes
that were each reported and cleared in between. -/
theorem contract_changes_cleared {server tool : String}
    (run : (machine deployment).Run earlier first)
    (rest : ((machine deployment).onwards first).Run later last)
    (allowed : ((first.proxy.audit.sessions id).prepareCall server tool).allow = true)
    (trusted : ((first.proxy.audit.sessions id).prepareCall server tool).code = "")
    (allowedLater : ((last.proxy.audit.sessions id).prepareCall server tool).allow = true)
    (trustedLater : ((last.proxy.audit.sessions id).prepareCall server tool).code = "") :
    Lineage deployment id (Proxy.key server tool) earlier later
      ((first.proxy.audit.sessions id).prepareCall server tool).defHash
      ((last.proxy.audit.sessions id).prepareCall server tool).defHash := by
  have held := Proxy.Session.contract?_of_allowed allowed trusted
  have heldLater := Proxy.Session.contract?_of_allowed allowedLater trustedLater
  rcases lineage_of_run run held rest with ⟨new, becomes, lineage⟩
  cases becomes.symm.trans heldLater
  exact lineage

/-- A control plane whose differ finds nothing in the change. -/
def release : Deployment Unit Unit :=
  { rollout with settings := { Control.drill with diffFn := fun _ _ _ => .ok [] } }

/-- A tool is listed. -/
def pinning : List (Move Unit Unit) :=
  let list := "\x7b\"method\":\"tools/list\"\x7d"
  [.arrive "session" "files" "agent" list, .turn 0 (listing "") none, .emit "session",
    .turn 0 (listing "old") none, .turn 0 (listing "") none, .emit "session",
    .turn 0 (listing "") none]

/-- It is listed with another description, and the answer to the change is applied. -/
def releasing : List (Move Unit Unit) :=
  let list := "\x7b\"method\":\"tools/list\"\x7d"
  [.arrive "session" "files" "agent" list, .turn 0 (listing "") none,
    .turn 0 (listing "new") none, .turn 0 (listing "") none, .emit "session", .emit "session",
    .control (.turn ()), .control (.turn ()), .control (.turn ()), .control (.turn ()),
    .turn 1 (listing "") (some ())]

/-- The session lets calls of the tool through under this hash. -/
def Layer.trusts (layer : Layer Unit Unit) (hash : String) : Bool :=
  let decision := (layer.proxy.audit.sessions "session").prepareCall "files" "read"
  decision.allow && decision.code = "" && decision.defHash = hash

/-- A hash is trusted if a call is let through under it without a warning. -/
theorem Layer.trusts_iff {layer : Layer Unit Unit} {hash : String} :
    layer.trusts hash = true ↔
      ((layer.proxy.audit.sessions "session").prepareCall "files" "read").allow = true ∧
        ((layer.proxy.audit.sessions "session").prepareCall "files" "read").code = "" ∧
        ((layer.proxy.audit.sessions "session").prepareCall "files" "read").defHash = hash := by
  simp only [trusts, Bool.and_eq_true, decide_eq_true_eq, and_assoc]

/-- A change that is reported and cleared makes the contract follow it. -/
theorem contract_changes_cleared_release :
    ∃ earlier later, Lineage release "session" (Proxy.key "files" "read") earlier later "old"
      "new" := by
  have played : (pinning.foldlM (Layer.perform release)
      { proxy := { audit := Proxy.Audit.initial 8 } }).bind (fun first =>
        (releasing.foldlM (Layer.perform release) first).map fun last =>
          first.trusts "old" && last.trusts "new") = some true := by decide +kernel
  rcases Option.bind_eq_some_iff.mp played with ⟨first, pinned, rest⟩
  rcases Option.map_eq_some_iff.mp rest with ⟨last, released, both⟩
  rw [Bool.and_eq_true, Layer.trusts_iff, Layer.trusts_iff] at both
  rcases both with ⟨⟨allowed, trusted, old⟩, allowedLater, trustedLater, new⟩
  rcases Layer.play_run (.start rfl) pinned with ⟨earlier, front, -⟩
  rcases Layer.play_run (.start rfl) released with ⟨later, back, -⟩
  have run : (machine release).Run ([] ++ earlier) first := (Machine.Run.start rfl).append front
  have lineage := contract_changes_cleared run back allowed trusted allowedLater trustedLater
  rw [old, new] at lineage
  exact ⟨_, later, lineage⟩

end Trust
