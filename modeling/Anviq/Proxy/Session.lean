import Mathlib.Logic.Function.Basic
import Anviq.Proxy.Event

/-! # Sessions

The per-session state of the proxy: the pinned tool definitions, their
suspension, and the hash-chained event sequence. Every operation runs under the
session's mutex, so each is a function from the session before it to the
session after it; an operation that appends to the chain also returns the
events it built, in order.

A compiled schema is an opaque value of type `Schema`, and `none` is Go's nil
pointer. `Env` is what an operation takes from outside the session:
`canonical.Sha256Hex` and the clock, indexed by the sequence number of the
event that reads it.
-/

namespace Proxy

/-- `Key` identifies a (server, tool) pair within a session's pinned-tool map. -/
def key (server tool : String) : String := server ++ "\x00" ++ tool

/-- The coarse risk class of a tool; `unset` is the empty string of a pin that
never held a definition. -/
inductive RiskClass where
  | unset
  | readOnly
  | destructive
  | sideEffecting
deriving DecidableEq

/-- `riskClass` derives the class from the tool's annotations; anything without
a true hint is side-effecting. -/
def riskClass (tool : Tool) : RiskClass :=
  match tool.get? "annotations" with
  | some (.obj annotations) =>
      if Json.Members.get? annotations "readOnlyHint" = some (.bool true) then .readOnly
      else if Json.Members.get? annotations "destructiveHint" = some (.bool true) then .destructive
      else .sideEffecting
  | _ => .sideEffecting

/-- A definition that did not match the pin, while its classification is
outstanding. The source counts revisions in a `uint64`. -/
structure PendingChange (Schema : Type) where
  revision : Nat
  newHash : String
  newTool : Tool
  newSchema : Option Schema
  schemaError : String
  riskClass : RiskClass
  unreachable : Bool := false
  verdictApplied : Bool := false

/-- The contract a session holds for one tool. -/
structure PinnedTool (Schema : Type) where
  defHash : String := ""
  tool : Tool := []
  schema : Option Schema := none
  schemaError : String := ""
  invalidDefinition : String := ""
  riskClass : RiskClass := .unset
  suspended : Bool := false
  pending : Option (PendingChange Schema) := none

/-- A single agent session. -/
structure Session (Schema : Type) where
  id : String
  agent : String := ""
  started : Bool := false
  pinned : String → Option (PinnedTool Schema) := fun _ => none
  seq : Nat := 0
  nextChange : Nat := 0
  prevHash : Option String := none
  auditIncomplete : Bool := false

/-- What an operation takes from outside the session. -/
structure Env where
  sha256Hex : GoJson → Except String String
  clock : Nat → String

/-- `canonical.EventHash`: the hash of an event's members other than its own
hash. -/
def Env.eventHash (env : Env) (event : Json.Members Number) : Except String String :=
  env.sha256Hex (.obj (event.filter fun member => member.1 ≠ "event_hash"))

variable {Schema : Type}

namespace Session

/-- Replace the pin of one key. -/
def setPin (session : Session Schema) (key : String) (pin : PinnedTool Schema) :
    Session Schema :=
  { session with pinned := Function.update session.pinned key (some pin) }

/-! ## The event chain -/

/-- `buildEventLocked` constructs the next event of the chain, or marks the
session incomplete when the event cannot be hashed. -/
def buildEventLocked (env : Env) (session : Session Schema) (fields : EventFields) :
    Session Schema × Option Event :=
  let ts := env.clock session.seq
  let prevHash := if session.seq = 0 then none else session.prevHash
  match env.eventHash (eventBody session.seq ts session.id fields prevHash) with
  | .error _ => ({ session with auditIncomplete := true }, none)
  | .ok eventHash =>
      ({ session with prevHash := some eventHash, seq := session.seq + 1 },
        some { seq := session.seq, ts, sessionId := session.id, fields, prevHash, eventHash })

/-- Build events one after the other, as an operation does under the lock. -/
def buildEvents (env : Env) (session : Session Schema) :
    List EventFields → Session Schema × List Event
  | [] => (session, [])
  | fields :: rest =>
      let (next, event) := session.buildEventLocked env fields
      let (last, events) := next.buildEvents env rest
      (last, event.toList ++ events)

/-- `EnsureStarted` emits `session_start` once. -/
def ensureStarted (env : Env) (session : Session Schema) (agent : String) :
    Session Schema × List Event :=
  if session.started then (session, [])
  else { session with started := true, agent }.buildEvents env [.sessionStart agent]

/-- `EmitEvent` appends one event to the chain. -/
def emitEvent (env : Env) (session : Session Schema) (fields : EventFields) :
    Session Schema × List Event :=
  session.buildEvents env [fields]

end Session

/-! ## Observing a definition -/

/-- What happened to a definition seen on `tools/list`. -/
inductive Action where
  | pinned
  | unchanged
  | mismatch
  | pending
  | retry
  | invalid
deriving DecidableEq

/-- The outcome of checking an observed definition against the pin. -/
structure ListOutcome where
  revision : Nat := 0
  action : Action
  key : String
  oldHash : String := ""
  newHash : String := ""
  riskClass : RiskClass := .unset
  schemaError : String := ""
  oldTool : Tool := []
  newTool : Tool := []

/-- What `ObserveDefinition` decides about one definition: the pin after it, the
revision counter after it, its outcome, and the events to append. -/
structure Observation (Schema : Type) where
  pin : PinnedTool Schema
  nextChange : Nat
  outcome : ListOutcome
  events : List EventFields

section Observe

variable (server : String) (tool : Tool) (defHash : String) (schema : Option Schema)
  (schemaError : String) (nextChange : Nat)

/-- First sight of a tool. -/
def observeFirst : Observation Schema where
  pin := { defHash, tool, schema, schemaError, riskClass := riskClass tool,
           suspended := schemaError ≠ "" }
  nextChange := nextChange
  outcome :=
    { action := if schemaError ≠ "" then .invalid else .pinned
      key := key server (toolName tool)
      newHash := defHash
      riskClass := riskClass tool
      schemaError }
  events :=
    .toolDefinition server tool defHash ::
      if schemaError ≠ "" then
        [.policyDecision server (toolName tool) "block" ("TOOL_SCHEMA_INVALID: " ++ schemaError)]
      else []

/-- The pinned definition again. The upstream restored a definition this
session had already trusted, so the block a change had caused is lifted; a
definition that never changed is left as it is. -/
def observeUnchanged (hadInvalidDefinition : Bool) (pin : PinnedTool Schema) :
    Observation Schema :=
  let restored : Bool := schemaError = "" ∧ (hadInvalidDefinition ∨ pin.pending.isSome)
  let after := if restored then { pin with suspended := false, pending := none } else pin
  { pin := after
    nextChange := nextChange
    outcome :=
      { action :=
          if after.schemaError ≠ "" then .invalid
          else if after.suspended then .pending else .unchanged
        key := key server (toolName tool)
        oldHash := defHash
        newHash := defHash
        schemaError := after.schemaError }
    events :=
      if restored then
        [.policyDecision server (toolName tool) "resume"
          "previously pinned definition restored after blocked change"]
      else [] }

/-- The first compilable definition after an invalid first one becomes the pin. -/
def observeCorrected (pin : PinnedTool Schema) : Observation Schema where
  pin := { defHash, tool, schema, riskClass := riskClass tool }
  nextChange := nextChange
  outcome :=
    { action := .pinned
      key := key server (toolName tool)
      oldHash := pin.defHash
      newHash := defHash
      riskClass := riskClass tool }
  events := [.toolDefinition server tool defHash]

/-- The pending change again. Its report is retried when the last one never
reached the control plane; otherwise nothing is new. -/
def observePending (pin : PinnedTool Schema) (change : PendingChange Schema) :
    Observation Schema :=
  let outcome : ListOutcome :=
    { revision := change.revision
      action := .pending
      key := key server (toolName tool)
      oldHash := pin.defHash
      newHash := defHash }
  if change.schemaError ≠ "" then
    { pin, nextChange, events := []
      outcome := { outcome with action := .invalid, schemaError := change.schemaError } }
  else if change.unreachable ∧ ¬ change.verdictApplied then
    { pin := { pin with pending := some { change with unreachable := false } }
      nextChange, events := []
      outcome :=
        { outcome with
          action := .retry, riskClass := change.riskClass, oldTool := pin.tool, newTool := tool } }
  else { pin, nextChange, events := [], outcome }

/-- A definition that differs from the pin and from the pending change suspends
the tool under a new revision. -/
def observeMismatch (pin : PinnedTool Schema) : Observation Schema where
  pin :=
    { pin with
      suspended := true
      pending := some
        { revision := nextChange + 1, newHash := defHash, newTool := tool, newSchema := schema
          schemaError, riskClass := riskClass tool } }
  nextChange := nextChange + 1
  outcome :=
    { revision := nextChange + 1
      action := if schemaError ≠ "" then .invalid else .mismatch
      key := key server (toolName tool)
      oldHash := pin.defHash
      newHash := defHash
      riskClass := riskClass tool
      schemaError
      oldTool := pin.tool
      newTool := tool }
  events :=
    [.toolDefinition server tool defHash,
      .policyDecision server (toolName tool) "block"
        (if schemaError ≠ "" then "TOOL_SCHEMA_INVALID: " ++ schemaError
        else "TOOL_CONTRACT_CHANGED: def_hash " ++ pin.defHash ++ " -> " ++ defHash ++
          "; suspended pending control-plane classification")]

/-- The switch of `ObserveDefinition` on the pin found for the tool. A found pin
first loses the mark of an unverifiable definition. -/
def observe (found : Option (PinnedTool Schema)) : Observation Schema :=
  match found with
  | none => observeFirst server tool defHash schema schemaError nextChange
  | some found =>
      let hadInvalidDefinition : Bool := found.invalidDefinition ≠ ""
      let pin := { found with invalidDefinition := "" }
      if pin.defHash = defHash then
        observeUnchanged server tool defHash schemaError nextChange hadInvalidDefinition pin
      else if pin.schemaError ≠ "" ∧ schemaError = "" then
        observeCorrected server tool defHash schema nextChange pin
      else
        match pin.pending with
        | some change =>
            if change.newHash = defHash then
              observePending server tool defHash nextChange pin change
            else observeMismatch server tool defHash schema schemaError nextChange pin
        | none => observeMismatch server tool defHash schema schemaError nextChange pin

/-! The arms of the switch, each under the condition that selects it. -/

section Arms

variable {server tool defHash schema schemaError nextChange} {pin : PinnedTool Schema}

theorem observe_unchanged (same : pin.defHash = defHash) :
    observe server tool defHash schema schemaError nextChange (some pin) =
      observeUnchanged server tool defHash schemaError nextChange
        (decide (pin.invalidDefinition ≠ "")) { pin with invalidDefinition := "" } := by
  simp only [observe, same, ↓reduceIte]

theorem observe_corrected (changed : pin.defHash ≠ defHash) (invalid : pin.schemaError ≠ "")
    (compilable : schemaError = "") :
    observe server tool defHash schema schemaError nextChange (some pin) =
      observeCorrected server tool defHash schema nextChange
        { pin with invalidDefinition := "" } := by
  simp only [observe, changed, ↓reduceIte, invalid, compilable, ne_eq, not_false_eq_true, and_self]

theorem observe_pending {change : PendingChange Schema} (changed : pin.defHash ≠ defHash)
    (uncorrected : ¬ (pin.schemaError ≠ "" ∧ schemaError = "")) (outstanding : pin.pending = some change)
    (again : change.newHash = defHash) :
    observe server tool defHash schema schemaError nextChange (some pin) =
      observePending server tool defHash nextChange { pin with invalidDefinition := "" } change := by
  simp only [observe, changed, ↓reduceIte, uncorrected, outstanding, again]

theorem observe_mismatch (changed : pin.defHash ≠ defHash)
    (uncorrected : ¬ (pin.schemaError ≠ "" ∧ schemaError = ""))
    (fresh : ∀ change, pin.pending = some change → change.newHash ≠ defHash) :
    observe server tool defHash schema schemaError nextChange (some pin) =
      observeMismatch server tool defHash schema schemaError nextChange
        { pin with invalidDefinition := "" } := by
  cases outstanding : pin.pending with
  | none => simp only [observe, changed, ↓reduceIte, uncorrected, outstanding]
  | some change =>
      simp only [observe, changed, ↓reduceIte, uncorrected, outstanding,
        fresh change outstanding]

/-- What holds of every arm holds of the observation. -/
theorem observe_cases {P : Option (PinnedTool Schema) → Observation Schema → Prop}
    (first : P none (observeFirst server tool defHash schema schemaError nextChange))
    (unchanged : ∀ pin : PinnedTool Schema, pin.defHash = defHash →
      P (some pin) (observeUnchanged server tool defHash schemaError nextChange
        (decide (pin.invalidDefinition ≠ "")) { pin with invalidDefinition := "" }))
    (corrected : ∀ pin : PinnedTool Schema, pin.defHash ≠ defHash → pin.schemaError ≠ "" →
      schemaError = "" →
      P (some pin) (observeCorrected server tool defHash schema nextChange
        { pin with invalidDefinition := "" }))
    (pending : ∀ (pin : PinnedTool Schema) (change : PendingChange Schema), pin.defHash ≠ defHash →
      ¬ (pin.schemaError ≠ "" ∧ schemaError = "") → pin.pending = some change →
      change.newHash = defHash →
      P (some pin) (observePending server tool defHash nextChange
        { pin with invalidDefinition := "" } change))
    (mismatch : ∀ pin : PinnedTool Schema, pin.defHash ≠ defHash →
      ¬ (pin.schemaError ≠ "" ∧ schemaError = "") →
      (∀ change, pin.pending = some change → change.newHash ≠ defHash) →
      P (some pin) (observeMismatch server tool defHash schema schemaError nextChange
        { pin with invalidDefinition := "" }))
    (found : Option (PinnedTool Schema)) :
    P found (observe server tool defHash schema schemaError nextChange found) := by
  cases found with
  | none => exact first
  | some pin =>
      by_cases same : pin.defHash = defHash
      · rw [observe_unchanged same]
        exact unchanged pin same
      by_cases correct : pin.schemaError ≠ "" ∧ schemaError = ""
      · rw [observe_corrected same correct.1 correct.2]
        exact corrected pin same correct.1 correct.2
      by_cases again : ∃ change, pin.pending = some change ∧ change.newHash = defHash
      · obtain ⟨change, outstanding, again⟩ := again
        rw [observe_pending same correct outstanding again]
        exact pending pin change same correct outstanding again
      · have fresh : ∀ change, pin.pending = some change → change.newHash ≠ defHash :=
          fun change outstanding again' => again ⟨change, outstanding, again'⟩
        rw [observe_mismatch same correct fresh]
        exact mismatch pin same correct fresh

end Arms

end Observe

namespace Session

/-- `ObserveDefinition` pins a tool on first sight, does nothing when the hash
matches, and suspends the tool on a mismatch. -/
def observeDefinition (env : Env) (session : Session Schema) (server : String) (tool : Tool)
    (defHash : String) (schema : Option Schema) (schemaError : String) :
    Session Schema × List Event × ListOutcome :=
  let key := key server (toolName tool)
  let observation := observe server tool defHash schema schemaError session.nextChange
    (session.pinned key)
  let (next, events) := { session.setPin key observation.pin with
    nextChange := observation.nextChange }.buildEvents env observation.events
  (next, events, observation.outcome)

end Session

/-! ## Verdicts and rejections -/

/-- The control plane's classification of a mismatch. -/
structure Verdict where
  action : String := ""
  reason : String := ""

/-- `actionFor` is the audit action of a verdict. -/
def actionFor (verdict : String) : String :=
  if verdict = "resume" then "allow" else if verdict = "warn" then "warn" else "block"

/-- The pin that a resume or warn verdict makes of a pending change. -/
def PendingChange.promoted (change : PendingChange Schema) : PinnedTool Schema where
  defHash := change.newHash
  tool := change.newTool
  schema := change.newSchema
  riskClass := change.riskClass

/-- What a report does to the pin whose pending change it is about: the pin after
it and the events to append. -/
def PinnedTool.settle (pin : PinnedTool Schema) (server toolName : String)
    (change : PendingChange Schema) (unreachable : Bool) (verdict : Verdict) :
    PinnedTool Schema × List EventFields :=
  if unreachable then ({ pin with pending := some { change with unreachable := true } }, [])
  else
    let applied := { pin with pending := some { change with verdictApplied := true } }
    if change.schemaError ≠ "" then
      (applied, [.policyDecision server toolName "block"
        "TOOL_SCHEMA_INVALID: an invalid schema cannot be resumed"])
    else if verdict.action = "resume" ∨ verdict.action = "warn" then
      (change.promoted,
        [.policyDecision server toolName (actionFor verdict.action) verdict.reason])
    else if verdict.action = "quarantine" then
      (applied, [.policyDecision server toolName "quarantine" verdict.reason])
    else (applied, [.policyDecision server toolName "block" verdict.reason])

namespace Session

/-- `ApplyVerdict` updates the pin once the control plane classified a mismatch,
or could not be reached. A report about anything but the pending change does
nothing. -/
def applyVerdict (env : Env) (session : Session Schema) (server toolName : String)
    (revision : Nat) (unreachable : Bool) (verdict : Verdict) : Session Schema × List Event :=
  match session.pinned (key server toolName) with
  | none => (session, [])
  | some pin =>
      match pin.pending with
      | none => (session, [])
      | some change =>
          if change.revision ≠ revision ∨ change.verdictApplied then (session, [])
          else
            let (after, events) := pin.settle server toolName change unreachable verdict
            (session.setPin (key server toolName) after).buildEvents env events

/-- The pin after `RejectDefinition`: an existing pin is kept, but blocked. -/
def rejected (found : Option (PinnedTool Schema)) (reason : String) : PinnedTool Schema :=
  { found.getD { schemaError := reason } with
    invalidDefinition := reason, suspended := true, pending := none }

/-- `RejectDefinition` withdraws any outstanding approval when an observed tool
cannot be verified. -/
def rejectDefinition (env : Env) (session : Session Schema) (server name reason : String) :
    Session Schema × List Event :=
  (session.setPin (key server name) (rejected (session.pinned (key server name)) reason)).buildEvents
    env [.policyDecision server name "block" ("TOOL_SCHEMA_INVALID: " ++ reason)]

end Session

/-! ## Calls -/

/-- Whether a `tools/call` may proceed. -/
structure CallDecision (Schema : Type) where
  allow : Bool := false
  code : String := ""
  message : String := ""
  defHash : String := ""
  schema : Option Schema := none

/-- The fail-open condition: a read-only tool whose change has no verdict because
its report did not reach the control plane. -/
def PinnedTool.failOpen (pin : PinnedTool Schema) (change : PendingChange Schema) : Bool :=
  !change.verdictApplied && change.unreachable && pin.riskClass = .readOnly &&
    change.riskClass = .readOnly

/-- The decision for a tool with a pin. -/
def PinnedTool.decide (pin : PinnedTool Schema) : CallDecision Schema :=
  if pin.invalidDefinition ≠ "" then
    { code := "TOOL_SCHEMA_INVALID", message := "tool definition cannot be verified" }
  else if pin.schemaError ≠ "" then
    { code := "TOOL_SCHEMA_INVALID"
      message := "tool is blocked because its input schema is invalid: " ++ pin.schemaError }
  else
    match pin.pending with
    | some change =>
        if change.schemaError ≠ "" then
          { code := "TOOL_SCHEMA_INVALID"
            message :=
              "tool is blocked because its changed input schema is invalid: " ++ change.schemaError }
        else if !pin.suspended then
          { allow := true, defHash := pin.defHash, schema := pin.schema }
        else if pin.failOpen change then
          { allow := true
            code := "WARN_CONTROL_PLANE_UNREACHABLE"
            message :=
              "read-only tool allowed with audit: control plane unreachable, no verdict yet"
            defHash := change.newHash
            schema := change.newSchema }
        else
          { code := "TOOL_CONTRACT_CHANGED"
            message :=
              "tool suspended for this session: definition changed and has not been cleared" }
    | none =>
        if !pin.suspended then { allow := true, defHash := pin.defHash, schema := pin.schema }
        else
          { code := "TOOL_CONTRACT_CHANGED"
            message :=
              "tool suspended for this session: definition changed and has not been cleared" }

/-- `PrepareCall` is the check of a `tools/call`: is the tool pinned, and if it is
suspended, does policy let the call through anyway? -/
def Session.prepareCall (session : Session Schema) (server toolName : String) :
    CallDecision Schema :=
  match session.pinned (key server toolName) with
  | none =>
      { code := "TOOL_NOT_PINNED"
        message :=
          "call tools/list before tools/call for this tool (v1 requires an explicit pin)" }
  | some pin => pin.decide

/-! ## What an operation does to the pins -/

/-- The pin after a report: marked unreachable, replaced by the change, or kept
with the verdict applied. -/
theorem PinnedTool.settle_pin (pin : PinnedTool Schema) (server toolName : String)
    (change : PendingChange Schema) (unreachable : Bool) (verdict : Verdict) :
    (pin.settle server toolName change unreachable verdict).1 =
      if unreachable then { pin with pending := some { change with unreachable := true } }
      else if change.schemaError = "" ∧ (verdict.action = "resume" ∨ verdict.action = "warn") then
        change.promoted
      else { pin with pending := some { change with verdictApplied := true } } := by
  unfold settle
  cases unreachable with
  | true => rfl
  | false =>
      simp only [Bool.false_eq_true, ↓reduceIte]
      by_cases compilable : change.schemaError = ""
      · by_cases cleared : verdict.action = "resume" ∨ verdict.action = "warn"
        · simp only [compilable, cleared, ne_eq, not_true_eq_false, ↓reduceIte, and_self]
        · simp only [compilable, cleared, ne_eq, not_true_eq_false, ↓reduceIte, and_false]
          split <;> rfl
      · simp only [compilable, ne_eq, not_false_eq_true, ↓reduceIte, false_and]

namespace Session

/-- The part of a session that the decisions read. -/
structure SamePins (left right : Session Schema) : Prop where
  pinned : left.pinned = right.pinned
  nextChange : left.nextChange = right.nextChange

variable (env : Env)

theorem setPin_pinned (session : Session Schema) (key : String) (pin : PinnedTool Schema) :
    (session.setPin key pin).pinned = Function.update session.pinned key (some pin) := rfl

/-- Appending to the chain leaves the pins alone. -/
theorem buildEventLocked_samePins (session : Session Schema) (fields : EventFields) :
    (session.buildEventLocked env fields).1.SamePins session := by
  unfold buildEventLocked
  dsimp only
  cases env.eventHash (eventBody session.seq (env.clock session.seq) session.id fields
    (if session.seq = 0 then none else session.prevHash)) <;> exact ⟨rfl, rfl⟩

theorem buildEvents_samePins (session : Session Schema) (fields : List EventFields) :
    (session.buildEvents env fields).1.SamePins session := by
  induction fields generalizing session with
  | nil => exact ⟨rfl, rfl⟩
  | cons first rest ih =>
      have head := session.buildEventLocked_samePins env first
      have tail := ih (session.buildEventLocked env first).1
      exact ⟨tail.pinned.trans head.pinned, tail.nextChange.trans head.nextChange⟩

@[simp] theorem buildEvents_pinned (session : Session Schema) (fields : List EventFields) :
    (session.buildEvents env fields).1.pinned = session.pinned :=
  (session.buildEvents_samePins env fields).pinned

@[simp] theorem buildEvents_nextChange (session : Session Schema) (fields : List EventFields) :
    (session.buildEvents env fields).1.nextChange = session.nextChange :=
  (session.buildEvents_samePins env fields).nextChange

@[simp] theorem emitEvent_pinned (session : Session Schema) (fields : EventFields) :
    (session.emitEvent env fields).1.pinned = session.pinned :=
  session.buildEvents_pinned env [fields]

@[simp] theorem emitEvent_nextChange (session : Session Schema) (fields : EventFields) :
    (session.emitEvent env fields).1.nextChange = session.nextChange :=
  session.buildEvents_nextChange env [fields]

@[simp] theorem ensureStarted_pinned (session : Session Schema) (agent : String) :
    (session.ensureStarted env agent).1.pinned = session.pinned := by
  unfold ensureStarted
  split
  · rfl
  · rw [buildEvents_pinned]

@[simp] theorem ensureStarted_nextChange (session : Session Schema) (agent : String) :
    (session.ensureStarted env agent).1.nextChange = session.nextChange := by
  unfold ensureStarted
  split
  · rfl
  · rw [buildEvents_nextChange]

section

variable (session : Session Schema) (server : String) (tool : Tool) (defHash : String)
  (schema : Option Schema) (schemaError : String)

/-- The observation `ObserveDefinition` makes of a definition. -/
def observation : Observation Schema :=
  observe server tool defHash schema schemaError session.nextChange
    (session.pinned (key server (toolName tool)))

@[simp] theorem observeDefinition_pinned :
    (session.observeDefinition env server tool defHash schema schemaError).1.pinned =
      Function.update session.pinned (key server (toolName tool))
        (some (session.observation server tool defHash schema schemaError).pin) := by
  simp only [observeDefinition, buildEvents_pinned, setPin_pinned, observation]

@[simp] theorem observeDefinition_nextChange :
    (session.observeDefinition env server tool defHash schema schemaError).1.nextChange =
      (session.observation server tool defHash schema schemaError).nextChange := by
  simp only [observeDefinition, buildEvents_nextChange, observation]

@[simp] theorem observeDefinition_outcome :
    (session.observeDefinition env server tool defHash schema schemaError).2.2 =
      (session.observation server tool defHash schema schemaError).outcome := rfl

end

@[simp] theorem rejectDefinition_pinned (session : Session Schema) (server name reason : String) :
    (session.rejectDefinition env server name reason).1.pinned =
      Function.update session.pinned (key server name)
        (some (rejected (session.pinned (key server name)) reason)) := by
  simp only [rejectDefinition, buildEvents_pinned, setPin_pinned]

@[simp] theorem rejectDefinition_nextChange (session : Session Schema)
    (server name reason : String) :
    (session.rejectDefinition env server name reason).1.nextChange = session.nextChange := by
  simp only [rejectDefinition, buildEvents_nextChange, setPin]

/-- A report of `revision` finds nothing to settle: there is no outstanding change
of that revision, or its verdict has been applied. -/
def Stale (session : Session Schema) (key : String) (revision : Nat) : Prop :=
  ∀ pin change, session.pinned key = some pin → pin.pending = some change →
    change.revision = revision → change.verdictApplied = true

/-- A report either finds nothing to settle and changes nothing, or it settles
the pending change of its own revision. -/
theorem applyVerdict_cases (session : Session Schema) (server toolName : String) (revision : Nat)
    (unreachable : Bool) (verdict : Verdict) :
    (session.Stale (key server toolName) revision ∧
        session.applyVerdict env server toolName revision unreachable verdict = (session, [])) ∨
      ∃ pin change, session.pinned (key server toolName) = some pin ∧
        pin.pending = some change ∧ change.revision = revision ∧ change.verdictApplied = false ∧
        session.applyVerdict env server toolName revision unreachable verdict =
          (session.setPin (key server toolName)
            (pin.settle server toolName change unreachable verdict).1).buildEvents env
            (pin.settle server toolName change unreachable verdict).2 := by
  unfold applyVerdict Stale
  cases found : session.pinned (key server toolName) with
  | none => exact Or.inl ⟨fun _ _ absent => absurd absent (by simp), rfl⟩
  | some pin =>
      cases outstanding : pin.pending with
      | none =>
          simp only [outstanding]
          refine Or.inl ⟨?_, trivial⟩
          rintro _ change ⟨⟩ present
          exact absurd (outstanding.symm.trans present) (by simp)
      | some change =>
          simp only [outstanding]
          by_cases stale : change.revision ≠ revision ∨ change.verdictApplied
          · refine Or.inl ⟨?_, if_pos stale⟩
            rintro _ other ⟨⟩ present current
            obtain rfl := Option.some.inj (outstanding.symm.trans present)
            exact stale.resolve_left fun different => different current
          · rw [if_neg stale]
            push Not at stale
            exact Or.inr ⟨pin, change, rfl, outstanding, stale.1, by simpa using stale.2, rfl⟩

/-- A report about anything but the outstanding change of its key is ignored. -/
theorem applyVerdict_stale (session : Session Schema) (server toolName : String) (revision : Nat)
    (unreachable : Bool) (verdict : Verdict)
    (stale : session.Stale (key server toolName) revision) :
    session.applyVerdict env server toolName revision unreachable verdict = (session, []) := by
  obtain ⟨_, unchanged⟩ | ⟨pin, change, found, outstanding, current, fresh, _⟩ :=
    session.applyVerdict_cases env server toolName revision unreachable verdict
  · exact unchanged
  · have applied := stale pin change found outstanding current
    rw [fresh] at applied
    exact absurd applied (by decide)

end Session

end Proxy
