import Mathlib.Algebra.Order.Group.Nat
import Anviq.Machine.Run
import Anviq.Proxy.Session

/-! # The event log

Sessions hand their events to one bounded channel, from which a single goroutine
appends them to the session's file. A session operation builds its events under
the session's lock and sends them one at a time, each without blocking, while it
still holds the lock; the writer, and the operations of other sessions, run in
between. `outbox` is what the operation holding a session's lock has still to
send.
-/

namespace Proxy

/-! ## The writer -/

/-- A character of `sessionIDPattern`. -/
def isSessionIdChar (char : Char) : Bool :=
  char.isAlphanum || char = '_' || char = '-'

/-- The device names `ValidSessionID` excludes. -/
def isDeviceName (upper : List Char) : Bool :=
  match upper with
  | ['C', 'O', 'N'] | ['P', 'R', 'N'] | ['A', 'U', 'X'] | ['N', 'U', 'L'] => true
  | ['C', 'O', 'M', digit] | ['L', 'P', 'T', digit] => '1' ≤ digit && digit ≤ '9'
  | _ => false

/-- `ValidSessionID`. -/
def validSessionId (id : String) : Bool :=
  1 ≤ id.length && id.length ≤ 128 && id.toList.all isSessionIdChar &&
    !isDeviceName (id.toList.map Char.toUpper)

/-- `Writer`: the channel, the files and the count of events that did not get
through. Writes to disk do not fail. -/
structure Writer where
  capacity : Nat
  closed : Bool := false
  channel : List (String × Event) := []
  files : String → List Event := fun _ => []
  drops : Nat := 0

/-- `Enqueue` sends an event if the channel has room for it. -/
def Writer.enqueue (writer : Writer) (sessionId : String) (event : Event) : Writer × Bool :=
  if writer.closed ∨ validSessionId sessionId = false then
    ({ writer with drops := writer.drops + 1 }, false)
  else if writer.channel.length < writer.capacity then
    ({ writer with channel := writer.channel ++ [(sessionId, event)] }, true)
  else ({ writer with drops := writer.drops + 1 }, false)

/-- One round of `run` appends the oldest event of the channel to its file. -/
def Writer.append (writer : Writer) (sessionId : String) (event : Event)
    (channel : List (String × Event)) : Writer :=
  { writer with
    channel
    files := Function.update writer.files sessionId (writer.files sessionId ++ [event]) }

/-! ## Sessions and their writer -/

variable {Schema : Type}

/-- The sessions of a process and the writer they share. `built` and `dropped` are
history: the events each session built and those its channel had no room for. -/
structure Audit (Schema : Type) where
  sessions : String → Session Schema
  outbox : String → List Event := fun _ => []
  writer : Writer
  built : String → List Event := fun _ => []
  dropped : String → List Event := fun _ => []

namespace Audit

/-- A process that has served nothing: `Sessions.Get` creates a session the first
time it is asked for. -/
def initial (capacity : Nat) : Audit Schema where
  sessions := fun id => { id }
  writer := { capacity }

/-- A session operation has built `events` and left `session`. -/
def operated (audit : Audit Schema) (id : String) (session : Session Schema) (events : List Event) :
    Audit Schema :=
  { audit with
    sessions := Function.update audit.sessions id session
    outbox := Function.update audit.outbox id events
    built := Function.update audit.built id (audit.built id ++ events) }

/-- `emit` sends the first event of the outbox; the session is incomplete when the
channel has no room. -/
def emitted (audit : Audit Schema) (id : String) (event : Event) (rest : List Event) :
    Audit Schema :=
  let (writer, sent) := audit.writer.enqueue id event
  if sent then { audit with outbox := Function.update audit.outbox id rest, writer }
  else
    { audit with
      sessions :=
        Function.update audit.sessions id { audit.sessions id with auditIncomplete := true }
      outbox := Function.update audit.outbox id rest
      writer
      dropped := Function.update audit.dropped id (audit.dropped id ++ [event]) }

end Audit

/-- The session operations that may build events. -/
inductive SessionCall (Schema : Type) where
  | ensureStarted (agent : String)
  | emitEvent (fields : EventFields)
  | observeDefinition (server : String) (tool : Tool) (defHash : String) (schema : Option Schema)
      (schemaError : String)
  | applyVerdict (server toolName : String) (revision : Nat) (unreachable : Bool)
      (verdict : Verdict)
  | rejectDefinition (server name reason : String)

/-- The session after a call, and the events it built. -/
def SessionCall.apply (env : Env) (session : Session Schema) :
    SessionCall Schema → Session Schema × List Event
  | .ensureStarted agent => session.ensureStarted env agent
  | .emitEvent fields => session.emitEvent env fields
  | .observeDefinition server tool defHash schema schemaError =>
      let (next, events, _) :=
        session.observeDefinition env server tool defHash schema schemaError
      (next, events)
  | .applyVerdict server toolName revision unreachable verdict =>
      session.applyVerdict env server toolName revision unreachable verdict
  | .rejectDefinition server name reason => session.rejectDefinition env server name reason

/-- A step of the sessions and their writer. -/
inductive AuditLabel (Schema : Type) where
  | call (id : String) (call : SessionCall Schema)
  | emit (id : String)
  | write
  | close

/-- The steps: an operation starts when no other holds the session's lock. -/
inductive AuditStep (env : Env) : Audit Schema → AuditLabel Schema → Audit Schema → Prop where
  | call {audit : Audit Schema} {id : String} (call : SessionCall Schema)
      (unlocked : audit.outbox id = []) :
      AuditStep env audit (.call id call)
        (audit.operated id (call.apply env (audit.sessions id)).1
          (call.apply env (audit.sessions id)).2)
  | emit {audit : Audit Schema} {id : String} {event : Event} {rest : List Event}
      (held : audit.outbox id = event :: rest) :
      AuditStep env audit (.emit id) (audit.emitted id event rest)
  | write {audit : Audit Schema} {id : String} {event : Event} {rest : List (String × Event)}
      (queued : audit.writer.channel = (id, event) :: rest) :
      AuditStep env audit .write { audit with writer := audit.writer.append id event rest }
  | close {audit : Audit Schema} :
      AuditStep env audit .close { audit with writer := { audit.writer with closed := true } }

/-- Sessions sharing a writer whose channel holds `capacity` events. -/
def auditMachine (env : Env) (capacity : Nat) : Machine (Audit Schema) (AuditLabel Schema) where
  start := fun audit => audit = Audit.initial capacity
  step := AuditStep env

/-! ## Executing a schedule -/

/-- Take a step, if it is possible. -/
def Audit.perform (env : Env) (audit : Audit Schema) : AuditLabel Schema → Option (Audit Schema)
  | .call id call =>
      if (audit.outbox id).isEmpty then
        let (session, events) := call.apply env (audit.sessions id)
        some (audit.operated id session events)
      else none
  | .emit id =>
      match audit.outbox id with
      | event :: rest => some (audit.emitted id event rest)
      | [] => none
  | .write =>
      match audit.writer.channel with
      | (id, event) :: rest => some { audit with writer := audit.writer.append id event rest }
      | [] => none
  | .close => some { audit with writer := { audit.writer with closed := true } }

/-- What can be performed is a step. -/
theorem Audit.perform_step {env : Env} {audit next : Audit Schema} {label : AuditLabel Schema}
    (performed : audit.perform env label = some next) : AuditStep env audit label next := by
  cases label with
  | call id call =>
      simp only [perform] at performed
      split at performed
      · next unlocked =>
          obtain rfl := Option.some.inj performed
          exact .call call (List.isEmpty_iff.mp unlocked)
      · exact absurd performed (by simp)
  | emit id =>
      simp only [perform] at performed
      split at performed
      · next event rest held =>
          obtain rfl := Option.some.inj performed
          exact .emit held
      · exact absurd performed (by simp)
  | write =>
      simp only [perform] at performed
      split at performed
      · next id event rest queued =>
          obtain rfl := Option.some.inj performed
          exact .write queued
      · exact absurd performed (by simp)
  | close =>
      obtain rfl := Option.some.inj performed
      exact .close

/-- Take the steps of a schedule. -/
def Audit.play (env : Env) (audit : Audit Schema) (labels : List (AuditLabel Schema)) :
    Option (Audit Schema) :=
  labels.foldlM (Audit.perform env) audit

/-- A schedule that can be played is a run. -/
theorem Audit.play_run {env : Env} {capacity : Nat} {front labels : List (AuditLabel Schema)}
    {audit last : Audit Schema} (run : (auditMachine env capacity).Run front audit)
    (played : audit.play env labels = some last) :
    (auditMachine env capacity).Run (front ++ labels) last := by
  induction labels generalizing front audit with
  | nil =>
      obtain rfl := Option.some.inj played
      rwa [List.append_nil]
  | cons label labels ih =>
      rw [play, List.foldlM_cons] at played
      obtain ⟨next, performed, rest⟩ := Option.bind_eq_some_iff.mp played
      have last := ih (run.concat (perform_step performed)) rest
      rwa [List.append_assoc] at last

end Proxy
