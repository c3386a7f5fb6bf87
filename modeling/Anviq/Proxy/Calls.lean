import Anviq.Proxy.Chain
import Anviq.Proxy.Reports

/-! # Calls in the log

A turn of a goroutine performs one operation of its session or none, so that what the log promises
of any operations holds of the proxy. As long as a session is complete its log opens with the start
of the session, no response comes before its call, and a call without a response is still being
served.
-/

namespace Proxy

variable {Schema : Type}

/-! ## Counting -/

/-- The event starts the call. -/
def EventFields.begins (call : String) : EventFields → Bool
  | .toolCall callId .. => callId = call
  | _ => false

/-- The event ends the call. -/
def EventFields.ends (call : String) : EventFields → Bool
  | .toolResponse callId .. => callId = call
  | _ => false

/-- The goroutine owes the response to the call. -/
def Goroutine.owes (call : String) : Goroutine Schema → Bool
  | .posted _ callId => callId = call
  | .failed callId _ => callId = call
  | _ => false

/-- How often the events start the call. -/
def begun (call : String) (events : List Event) : Nat :=
  events.countP fun event => event.fields.begins call

/-- How often the events end the call. -/
def ended (call : String) (events : List Event) : Nat :=
  events.countP fun event => event.fields.ends call

/-- How many responses to the call are owed. -/
def owed (call : String) (goroutines : List (Goroutine Schema)) : Nat :=
  goroutines.countP (·.owes call)

section Counting

variable {call : String}

@[simp] theorem begun_append (front back : List Event) :
    begun call (front ++ back) = begun call front + begun call back := List.countP_append

@[simp] theorem ended_append (front back : List Event) :
    ended call (front ++ back) = ended call front + ended call back := List.countP_append

@[simp] theorem owed_append (front back : List (Goroutine Schema)) :
    owed call (front ++ back) = owed call front + owed call back := List.countP_append

@[simp] theorem begun_nil : begun call [] = 0 := rfl

@[simp] theorem ended_nil : ended call [] = 0 := rfl

@[simp] theorem owed_nil : owed call ([] : List (Goroutine Schema)) = 0 := rfl

theorem begun_singleton (event : Event) :
    begun call [event] = if event.fields.begins call then 1 else 0 := List.countP_singleton

theorem ended_singleton (event : Event) :
    ended call [event] = if event.fields.ends call then 1 else 0 := List.countP_singleton

theorem owed_singleton (goroutine : Goroutine Schema) :
    owed call [goroutine] = if goroutine.owes call then 1 else 0 := List.countP_singleton

/-- The fields are not about calls. -/
def EventFields.Quiet (fields : EventFields) : Prop :=
  ∀ call, fields.begins call = false ∧ fields.ends call = false

/-- Events of quiet kinds count for nothing. -/
theorem counts_quiet (call : String) {events : List Event} {kinds : List EventFields}
    (among : (events.map Event.fields).Sublist kinds) (quiet : ∀ fields ∈ kinds, fields.Quiet) :
    begun call events = 0 ∧ ended call events = 0 := by
  have each (event : Event) (present : event ∈ events) : event.fields.Quiet :=
    quiet _ (among.subset (List.mem_map_of_mem present))
  constructor
  · exact List.countP_eq_zero.mpr fun event present => by simp [(each event present call).1]
  · exact List.countP_eq_zero.mpr fun event present => by simp [(each event present call).2]

end Counting

/-! ## Operations -/

/-- The operation emits no event, or a decision. -/
def SessionCall.Plain (call : SessionCall Schema) : Prop :=
  ∀ fields, call = .emitEvent fields →
    ∃ server toolName action reason, fields = .policyDecision server toolName action reason

theorem SessionCall.Plain.decision (server toolName action reason : String) :
    (SessionCall.emitEvent (.policyDecision server toolName action reason) :
      SessionCall Schema).Plain := by
  rintro _ ⟨⟩
  exact ⟨server, toolName, action, reason, rfl⟩

/-- A session performs an operation, or nothing happens to it. Only `EnsureStarted` records its
start. -/
inductive Performs (env : Env) (session next : Session Schema) (events : List Event) : Prop where
  | nothing (same : next = session) (none : events = [])
  | call (call : SessionCall Schema) (performed : call.apply env session = (next, events))
      (starts : ∀ agent, call ≠ .emitEvent (.sessionStart agent))

section Turns

variable (gateway : Gateway Schema) (around : Surroundings Schema) (session : Session Schema)

theorem observeTool_call (env : Env)
    (compiled : String → Json.Members Number → Except String Schema) (server : String)
    (tool : Tool) :
    ∃ call : SessionCall Schema, call.Plain ∧ call.apply env session =
      ((observeTool env compiled server session tool).1,
        (observeTool env compiled server session tool).2.1) := by
  unfold observeTool
  dsimp only
  split
  · exact ⟨.emitEvent _, .decision _ _ _ _, rfl⟩
  · split
    · exact ⟨.rejectDefinition .., (fun _ absurdity => by cases absurdity), rfl⟩
    · split
      · exact ⟨.observeDefinition .., (fun _ absurdity => by cases absurdity), rfl⟩
      · exact ⟨.rejectDefinition .., (fun _ absurdity => by cases absurdity), rfl⟩

/-- One round over a list is an operation, and not about a call. -/
theorem inspectTool_call (env : Env) (server : String) (listing : Listing) (tool : Tool) :
    ∃ call : SessionCall Schema, call.Plain ∧ call.apply env session =
      ((inspectTool env around server session listing tool).session,
        (inspectTool env around server session listing tool).events) := by
  unfold inspectTool
  dsimp only
  split
  · exact ⟨.rejectDefinition .., (fun _ absurdity => by cases absurdity), rfl⟩
  · split
    · exact ⟨.emitEvent _, .decision _ _ _ _, rfl⟩
    · exact observeTool_call session env around.compiled server tool

/-- A turn is one operation or none. -/
theorem turn_performs (goroutine : Goroutine Schema) :
    Performs gateway.env session (goroutine.turn gateway around session).session
      (goroutine.turn gateway around session).events := by
  cases goroutine with
  | arrived server agent body =>
      unfold Goroutine.turn
      dsimp only
      split
      · exact .nothing rfl rfl
      · exact .call (.ensureStarted agent) rfl fun _ absurdity => by cases absurdity
  | dispatched server request =>
      unfold Goroutine.turn dispatchCall
      dsimp only
      split
      · exact .nothing rfl rfl
      · split
        · split
          · exact .nothing rfl rfl
          · split
            · exact .nothing rfl rfl
            · split
              · exact .call (.emitEvent _) rfl fun _ absurdity => by cases absurdity
              · split <;> exact .nothing rfl rfl
        · exact .nothing rfl rfl
  | relisting server => exact .nothing rfl rfl
  | inspecting server held listing tools =>
      cases tools with
      | nil => exact .nothing rfl rfl
      | cons tool tools =>
          rcases inspectTool_call around session gateway.env server listing tool with
            ⟨call, plain, performed⟩
          refine .call call performed fun agent same => ?_
          rcases plain _ same with ⟨_, _, _, _, absurdity⟩
          cases absurdity
  | reporting report => exact .call (.applyVerdict ..) rfl fun _ absurdity => by cases absurdity
  | allowed server params decision =>
      unfold Goroutine.turn
      dsimp only
      split
      · exact .call (.emitEvent _) rfl fun _ absurdity => by cases absurdity
      · exact .nothing rfl rfl
  | warned server params decision =>
      unfold Goroutine.turn auditCall
      dsimp only
      split <;> exact .call (.emitEvent _) rfl fun _ absurdity => by cases absurdity
  | posted server callId => exact .call (.emitEvent _) rfl fun _ absurdity => by cases absurdity
  | failed callId reason => exact .call (.emitEvent _) rfl fun _ absurdity => by cases absurdity

end Turns

/-! ## The proxy as operations -/

section Audit

variable {gateway : Gateway Schema} {capacity : Nat} {system next : System Schema}
  {label : SystemLabel Schema}

/-- An operation that does nothing. -/
theorem Audit.operated_nothing (audit : Audit Schema) {id : String}
    (unlocked : audit.outbox id = []) : audit.operated id (audit.sessions id) [] = audit := by
  have outbox : Function.update audit.outbox id [] = audit.outbox := by
    rw [← unlocked, Function.update_eq_self]
  rw [operated, outbox, List.append_nil, Function.update_eq_self, Function.update_eq_self]

/-- A step of the proxy is a step of the sessions and their writer, or nothing to them. -/
theorem step_audit (step : SystemStep gateway system label next) :
    next.audit = system.audit ∨ ∃ label, AuditStep gateway.env system.audit label next.audit := by
  cases step with
  | arrive id server agent body => exact .inl rfl
  | @turn id goroutine front back around running unlocked =>
      have performs := turn_performs gateway around (system.audit.sessions id) goroutine
      rw [System.turned]
      dsimp only
      cases performs with
      | nothing same none =>
          rw [same, none]
          exact .inl (system.audit.operated_nothing unlocked)
      | call call performed _ =>
          refine .inr ⟨.call id call, ?_⟩
          have step : AuditStep gateway.env system.audit _ _ := .call call unlocked
          rwa [performed] at step
  | emit held => exact .inr ⟨_, .emit held⟩
  | write queued => exact .inr ⟨_, .write queued⟩
  | close => exact .inr ⟨_, .close⟩

/-- What the sessions of a proxy and their writer come to, they come to by operations alone. -/
theorem audit_reachable (reachable : (machine gateway capacity).Reachable system) :
    (auditMachine gateway.env capacity).Reachable system.audit := by
  refine reachable.invariant
    (P := fun system => (auditMachine gateway.env capacity).Reachable system.audit) ?_ ?_
  · rintro _ rfl
    exact ⟨[], .start rfl⟩
  · rintro system label next ⟨labels, run⟩ step
    rcases step_audit step with same | ⟨operation, audited⟩
    · rw [same]
      exact ⟨labels, run⟩
    · exact ⟨labels ++ [operation], run.concat audited⟩

end Audit

/-! ## A turn -/

/-- The books of a turn: what it starts and owes from the beginning it ends or still owes, and it
ends nothing but what it owes. -/
structure Balanced (goroutine : Goroutine Schema) (events : List Event)
    (next : List (Goroutine Schema)) : Prop where
  balance : ∀ call, begun call events + owed call [goroutine] = ended call events + owed call next
  due : ∀ call, ended call events ≤ owed call [goroutine]

/-- A turn without calls. -/
theorem Balanced.quiet {goroutine : Goroutine Schema} {events : List Event}
    {next : List (Goroutine Schema)} {kinds : List EventFields}
    (among : (events.map Event.fields).Sublist kinds) (quiet : ∀ fields ∈ kinds, fields.Quiet)
    (idle : ∀ call, goroutine.owes call = false) (rest : ∀ call, owed call next = 0) :
    Balanced goroutine events next where
  balance call := by
    have counts := counts_quiet call among quiet
    rw [counts.1, counts.2, owed_singleton, idle call, rest call]
    rfl
  due call := by
    rw [(counts_quiet call among quiet).2]
    exact Nat.zero_le _

section Turns

variable {gateway : Gateway Schema} {session : Session Schema} {events : List Event}

/-- A session that stays complete has built the event. -/
theorem emitEvent_built {env : Env} {fields : EventFields}
    (complete : (session.emitEvent env fields).1.auditIncomplete = false) :
    ∃ event, (session.emitEvent env fields).2 = [event] ∧ event.fields = fields := by
  unfold Session.emitEvent Session.buildEvents Session.buildEventLocked at complete ⊢
  dsimp only at complete ⊢
  cases hashed : env.eventHash (eventBody session.seq (env.clock session.seq) session.id fields
      (if session.seq = 0 then none else session.prevHash)) with
  | error reason =>
      rw [hashed] at complete
      cases complete
  | ok hash => exact ⟨_, rfl, rfl⟩

/-- An operation that emits no event about a call builds none. -/
theorem SessionCall.kinds_quiet (call : SessionCall Schema) (plain : call.Plain) :
    ∀ fields ∈ call.kinds session, fields.Quiet := by
  intro fields present other
  cases call with
  | ensureStarted agent =>
      simp only [kinds] at present
      split at present
      · cases present
      · rw [List.mem_singleton.mp present]
        exact ⟨rfl, rfl⟩
  | emitEvent emitted =>
      rw [List.mem_singleton.mp present]
      rcases plain emitted rfl with ⟨_, _, _, _, rfl⟩
      exact ⟨rfl, rfl⟩
  | observeDefinition server tool defHash schema schemaError =>
      rcases observe_kinds _ _ present with rfl | ⟨action, reason, rfl, -⟩
      · exact ⟨rfl, rfl⟩
      · exact ⟨rfl, rfl⟩
  | applyVerdict server toolName revision unreachable verdict =>
      simp only [kinds] at present
      split at present
      · cases present
      · split at present
        · cases present
        · split at present
          · cases present
          · rcases PinnedTool.settle_kinds _ _ _ _ _ _ _ present with ⟨action, reason, rfl, -⟩
            exact ⟨rfl, rfl⟩
  | rejectDefinition server name reason =>
      rw [List.mem_singleton.mp present]
      exact ⟨rfl, rfl⟩

/-- A turn that emits an event about no call. -/
theorem Balanced.decision {goroutine : Goroutine Schema} {fields : EventFields}
    {next : List (Goroutine Schema)} (continues : session.Continues gateway.env events)
    (quiet : fields.Quiet) (idle : ∀ call, goroutine.owes call = false)
    (rest : ∀ call, owed call next = 0) :
    Balanced goroutine (emitTurn gateway.env session fields next).events
      (emitTurn gateway.env session fields next).next :=
  .quiet ((SessionCall.emitEvent fields).apply_extends continues).2.2.2.2
    (List.forall_mem_singleton.mpr quiet) idle rest

/-- A turn that starts a call and owes its response. -/
theorem Balanced.starts {goroutine owing : Goroutine Schema} {fields : EventFields}
    (complete : (emitTurn gateway.env session fields [owing]).session.auditIncomplete = false)
    (idle : ∀ call, goroutine.owes call = false)
    (same : ∀ call, fields.begins call = owing.owes call)
    (unended : ∀ call, fields.ends call = false) :
    Balanced goroutine (emitTurn gateway.env session fields [owing]).events
      (emitTurn gateway.env session fields [owing]).next := by
  rcases emitEvent_built complete with ⟨event, built, rfl⟩
  have events : (emitTurn gateway.env session event.fields [owing]).events = [event] := built
  have next : (emitTurn gateway.env session event.fields [owing]).next = [owing] := rfl
  rw [events, next]
  constructor
  · intro call
    rw [begun_singleton, ended_singleton, owed_singleton, owed_singleton, idle, same, unended]
    exact Nat.add_comm _ _
  · intro call
    rw [ended_singleton, unended]
    exact Nat.zero_le _

/-- A turn that ends a call whose response is owed. -/
theorem Balanced.ends {goroutine : Goroutine Schema} {fields : EventFields}
    {next : List (Goroutine Schema)}
    (complete : (emitTurn gateway.env session fields next).session.auditIncomplete = false)
    (same : ∀ call, fields.ends call = goroutine.owes call)
    (old : ∀ call, fields.begins call = false) (rest : ∀ call, owed call next = 0) :
    Balanced goroutine (emitTurn gateway.env session fields next).events
      (emitTurn gateway.env session fields next).next := by
  rcases emitEvent_built complete with ⟨event, built, rfl⟩
  have events : (emitTurn gateway.env session event.fields next).events = [event] := built
  have further : (emitTurn gateway.env session event.fields next).next = next := rfl
  rw [events, further]
  constructor
  · intro call
    rw [begun_singleton, ended_singleton, owed_singleton, rest, old, same]
    exact Nat.add_comm _ _
  · intro call
    rw [ended_singleton, owed_singleton, same]

theorem owed_relisting (call : String) (answered : Bool) (server : String) :
    owed call (if answered then [(.relisting server : Goroutine Schema)] else []) = 0 := by
  cases answered <;> rfl

theorem owed_inspection (call : String) (parseFloat : String → Option Number) (server : String)
    {asked : Bool} (upstream : Except String String) :
    owed call (startInspection parseFloat server asked upstream : List (Goroutine Schema)) = 0 := by
  unfold startInspection
  split
  · rfl
  · split <;> rfl

/-- The books of every turn of a session that stays complete are balanced. -/
theorem turn_balanced (continues : session.Continues gateway.env events)
    (around : Surroundings Schema) (goroutine : Goroutine Schema)
    (complete : (goroutine.turn gateway around session).session.auditIncomplete = false) :
    Balanced goroutine (goroutine.turn gateway around session).events
      (goroutine.turn gateway around session).next := by
  have nothing {goroutine : Goroutine Schema} {next : List (Goroutine Schema)}
      (idle : ∀ call, goroutine.owes call = false) (rest : ∀ call, owed call next = 0) :
      Balanced goroutine [] next := .quiet (.refl []) (List.forall_mem_nil _) idle rest
  cases goroutine with
  | arrived server agent body =>
      unfold Goroutine.turn
      dsimp only
      split
      · exact nothing (fun _ => rfl) fun _ => rfl
      · exact .quiet ((SessionCall.ensureStarted agent).apply_extends continues).2.2.2.2
          (SessionCall.kinds_quiet _ (fun _ absurdity => by cases absurdity)) (fun _ => rfl)
          fun _ => rfl
  | dispatched server request =>
      unfold Goroutine.turn dispatchCall
      dsimp only
      split
      · exact nothing (fun _ => rfl) fun call => owed_inspection call _ _ _
      · split
        · split
          · exact nothing (fun _ => rfl) fun _ => rfl
          · split
            · exact nothing (fun _ => rfl) fun _ => rfl
            · split
              · exact .decision continues (fun _ => ⟨rfl, rfl⟩) (fun _ => rfl) fun _ => rfl
              · split
                · exact nothing (fun _ => rfl) fun _ => rfl
                · exact nothing (fun _ => rfl) fun _ => rfl
        · exact nothing (fun _ => rfl) fun _ => rfl
  | relisting server => exact nothing (fun _ => rfl) fun call => owed_inspection call _ _ _
  | inspecting server held listing tools =>
      cases tools with
      | nil => exact nothing (fun _ => rfl) fun _ => rfl
      | cons tool tools =>
          rcases inspectTool_call around session gateway.env server listing tool with
            ⟨call, plain, performed⟩
          have among := (call.apply_extends continues).2.2.2.2
          rw [performed] at among
          refine .quiet among (call.kinds_quiet plain) (fun _ => rfl) fun other => ?_
          unfold Goroutine.turn
          dsimp only
          cases (inspectTool gateway.env around server session listing tool).report <;> rfl
  | reporting report =>
      exact .quiet ((SessionCall.applyVerdict ..).apply_extends continues).2.2.2.2
        (SessionCall.kinds_quiet _ (fun _ absurdity => by cases absurdity)) (fun _ => rfl)
        fun _ => rfl
  | allowed server params decision =>
      unfold Goroutine.turn
      dsimp only
      split
      · exact .decision continues (fun _ => ⟨rfl, rfl⟩) (fun _ => rfl) fun _ => rfl
      · exact nothing (fun _ => rfl) fun _ => rfl
  | warned server params decision =>
      unfold Goroutine.turn auditCall at complete ⊢
      dsimp only at complete ⊢
      split at complete
      · exact .starts complete (fun _ => rfl) (fun _ => rfl) fun _ => rfl
      · exact .decision continues (fun _ => ⟨rfl, rfl⟩) (fun _ => rfl) fun _ => rfl
      · exact .decision continues (fun _ => ⟨rfl, rfl⟩) (fun _ => rfl) fun _ => rfl
      · exact .starts complete (fun _ => rfl) (fun _ => rfl) fun _ => rfl
  | posted server callId =>
      exact .ends complete (fun _ => rfl) (fun _ => rfl) fun call => owed_relisting call _ server
  | failed callId reason => exact .ends complete (fun _ => rfl) (fun _ => rfl) fun _ => rfl

end Turns

/-! ## Runs -/

section Runs

variable {gateway : Gateway Schema} {capacity : Nat} {system next : System Schema}
  {label : SystemLabel Schema} {id : String}

/-- The books of a session: what was started was ended or is owed, and nothing was ended before it
was started. -/
structure Booked (system : System Schema) (id : String) : Prop where
  balance : ∀ call, begun call (system.audit.built id) =
    ended call (system.audit.built id) + owed call (system.goroutinesOf id)
  ordered : ∀ call events, events <+: system.audit.built id → ended call events ≤ begun call events

/-- The log opens with the start of the session and has no other. -/
def Opens (events : List Event) : Prop :=
  ∃ start rest, events = start :: rest ∧ (∃ agent, start.fields = .sessionStart agent) ∧
    ∀ event ∈ rest, ∀ agent, event.fields ≠ .sessionStart agent

/-- A goroutine that has not begun. -/
def Goroutine.Arrives (goroutine : Goroutine Schema) : Prop :=
  ∃ server agent body, goroutine = .arrived server agent body

/-- A session that has not started has done nothing, and one that has opens its log. -/
structure Started (system : System Schema) (id : String) : Prop where
  before : (system.audit.sessions id).started = false →
    system.audit.built id = [] ∧ ∀ goroutine ∈ system.goroutinesOf id, goroutine.Arrives
  opens : (system.audit.sessions id).started = true →
    (system.audit.sessions id).auditIncomplete = false → Opens (system.audit.built id)

theorem goroutinesOf_running {goroutine : Goroutine Schema}
    {front back : List (String × Goroutine Schema)}
    (running : system.goroutines = front ++ (id, goroutine) :: back) :
    system.goroutinesOf id =
      ({ system with goroutines := front } : System Schema).goroutinesOf id ++ [goroutine] ++
        ({ system with goroutines := back } : System Schema).goroutinesOf id := by
  simp only [System.goroutinesOf, running, List.filterMap_append, List.filterMap_cons, ↓reduceIte,
    List.append_assoc, List.singleton_append]

theorem Booked.congr (booked : Booked system id)
    (built : next.audit.built id = system.audit.built id)
    (running : ∀ call, owed call (next.goroutinesOf id) = owed call (system.goroutinesOf id)) :
    Booked next id where
  balance call := by rw [built, running, booked.balance]
  ordered := by
    rw [built]
    exact booked.ordered

/-- A session that performs an operation was complete if it is. -/
theorem Performs.complete {env : Env} {session after : Session Schema} {events built : List Event}
    (performs : Performs env session after built) (continues : session.Continues env events)
    (complete : after.auditIncomplete = false) : session.auditIncomplete = false := by
  rw [Bool.eq_false_iff]
  intro incomplete
  cases performs with
  | nothing same _ =>
      rw [same, incomplete] at complete
      cases complete
  | call call performed _ =>
      have marked := (call.apply_extends continues).2.2.2.1 incomplete
      rw [performed, complete] at marked
      cases marked

/-- A balanced turn keeps the books. -/
theorem Booked.turn (booked : Booked system id) {around : Surroundings Schema}
    {goroutine : Goroutine Schema} {front back : List (String × Goroutine Schema)}
    (running : system.goroutines = front ++ (id, goroutine) :: back)
    (balanced : Balanced goroutine
      (goroutine.turn gateway around (system.audit.sessions id)).events
      (goroutine.turn gateway around (system.audit.sessions id)).next) :
    Booked (system.turned gateway id around goroutine front back) id := by
  have built : (system.turned gateway id around goroutine front back).audit.built id =
      system.audit.built id ++
        (goroutine.turn gateway around (system.audit.sessions id)).events :=
    Function.update_self ..
  have before := goroutinesOf_running running
  have after : (system.turned gateway id around goroutine front back).goroutinesOf id = _ :=
    System.goroutinesOf_turned_self
  constructor
  · intro call
    have old := booked.balance call
    have turned := balanced.balance call
    rw [before, owed_append, owed_append] at old
    rw [built, after, begun_append, ended_append, owed_append, owed_append]
    omega
  · rintro call events ⟨rest, leads⟩
    rw [built] at leads
    rcases List.append_eq_append_iff.mp leads with ⟨more, earlier, -⟩ | ⟨part, rfl, inside⟩
    · exact booked.ordered call events ⟨more, earlier.symm⟩
    · have old := booked.balance call
      have due := balanced.due call
      rw [before, owed_append, owed_append] at old
      rw [inside, ended_append] at due
      rw [begun_append, ended_append]
      omega

theorem emitted_built (audit : Audit Schema) (actor : String) (event : Event) (rest : List Event) :
    (audit.emitted actor event rest).built = audit.built := by
  unfold Audit.emitted
  dsimp only
  split <;> rfl

/-- An emission leaves a session that is complete as it was. -/
theorem emitted_complete {audit : Audit Schema} {actor : String} {event : Event} {rest : List Event}
    (complete : ((audit.emitted actor event rest).sessions id).auditIncomplete = false) :
    (audit.emitted actor event rest).sessions id = audit.sessions id := by
  unfold Audit.emitted at complete ⊢
  dsimp only at complete ⊢
  split
  · rfl
  · next dropped =>
      rw [if_neg dropped] at complete
      by_cases same : id = actor
      · subst same
        dsimp only at complete
        rw [Function.update_self] at complete
        cases complete
      · exact Function.update_of_ne same ..

theorem goroutinesOf_arrived (server agent body actor call : String) :
    owed call (System.goroutinesOf { system with
      goroutines := system.goroutines ++ [(actor, .arrived server agent body)] } id) =
        owed call (system.goroutinesOf id) := by
  unfold System.goroutinesOf
  rw [List.filterMap_append, owed_append, List.filterMap_cons, List.filterMap_nil]
  dsimp only
  by_cases same : actor = id
  · rw [if_pos same]
    rfl
  · rw [if_neg same]
    rfl

/-- Every step keeps the books of a session that stays complete. -/
theorem step_booked (continues : ∀ id, (system.audit.sessions id).Continues gateway.env
      (system.audit.built id))
    (booked : (system.audit.sessions id).auditIncomplete = false → Booked system id)
    (step : SystemStep gateway system label next)
    (complete : (next.audit.sessions id).auditIncomplete = false) : Booked next id := by
  cases step with
  | arrive actor server agent body =>
      exact (booked complete).congr rfl fun call =>
        goroutinesOf_arrived server agent body actor call
  | @turn actor goroutine front back around running unlocked =>
      by_cases own : actor = id
      · subst own
        have after : (goroutine.turn gateway around
            (system.audit.sessions actor)).session.auditIncomplete = false := by
          have session : (system.turned gateway actor around goroutine front back).audit.sessions
            actor = _ := Function.update_self ..
          rwa [session] at complete
        have before := (turn_performs gateway around _ goroutine).complete (continues actor) after
        exact (booked before).turn running (turn_balanced (continues actor) around goroutine after)
      · have session : (system.turned gateway actor around goroutine front back).audit.sessions id =
          system.audit.sessions id := Function.update_of_ne (Ne.symm own) ..
        rw [session] at complete
        refine (booked complete).congr (Function.update_of_ne (Ne.symm own) ..) fun call => ?_
        rw [System.goroutinesOf_turned_other (Ne.symm own) running]
  | @emit actor event rest held =>
      have session := emitted_complete complete
      dsimp only at complete
      rw [session] at complete
      exact (booked complete).congr (congrFun (emitted_built _ actor event rest) id) fun _ => rfl
  | write queued => exact (booked complete).congr rfl fun _ => rfl
  | close => exact (booked complete).congr rfl fun _ => rfl

theorem emitted_started (audit : Audit Schema) (actor : String) (event : Event)
    (rest : List Event) :
    ((audit.emitted actor event rest).sessions id).started = (audit.sessions id).started := by
  unfold Audit.emitted
  dsimp only
  split
  · rfl
  · by_cases same : id = actor
    · subst same
      dsimp only
      rw [Function.update_self]
    · exact congrArg Session.started (Function.update_of_ne same ..)

theorem Performs.started {env : Env} {session after : Session Schema} {events built : List Event}
    (performs : Performs env session after built) (continues : session.Continues env events)
    (started : session.started = true) : after.started = true := by
  cases performs with
  | nothing same _ => rw [same, started]
  | call call performed _ =>
      have next := (call.apply_extends continues).2.2.1
      rw [performed, started, Bool.or_true] at next
      exact next

/-- A log that has been opened stays so under the operations of a session that has started. -/
theorem Opens.performs {env : Env} {session after : Session Schema} {events built : List Event}
    (opens : Opens events) (continues : session.Continues env events)
    (started : session.started = true) (performs : Performs env session after built) :
    Opens (events ++ built) := by
  cases performs with
  | nothing _ none =>
      rw [none, List.append_nil]
      exact opens
  | call call performed starts =>
      have among := (call.apply_extends continues).2.2.2.2
      rw [performed] at among
      rcases opens with ⟨start, rest, rfl, first, once⟩
      refine ⟨start, rest ++ built, rfl, first, List.forall_mem_append.mpr ⟨once, ?_⟩⟩
      exact fun event present => SessionCall.kinds_started started starts _
        (among.subset (List.mem_map_of_mem present))

theorem emitEvent_started {env : Env} (session : Session Schema) (fields : EventFields) :
    (session.emitEvent env fields).1.started = session.started := by
  unfold Session.emitEvent Session.buildEvents Session.buildEventLocked
  dsimp only
  cases env.eventHash (eventBody session.seq (env.clock session.seq) session.id fields
    (if session.seq = 0 then none else session.prevHash)) <;> rfl

/-- The first operation of a session opens its log. -/
theorem turn_arrives (gateway : Gateway Schema) (around : Surroundings Schema)
    {session : Session Schema} (server agent body : String) (fresh : session.started = false) :
    let turn := (Goroutine.arrived server agent body : Goroutine Schema).turn gateway around session
    (turn.session.started = false → turn.events = [] ∧ turn.next = []) ∧
      (turn.session.started = true → turn.session.auditIncomplete = false → Opens turn.events) := by
  unfold Goroutine.turn
  dsimp only
  split
  · exact ⟨fun _ => ⟨rfl, rfl⟩, fun started => absurd started (by simp [fresh])⟩
  · next request read =>
      dsimp only
      have emits : session.ensureStarted gateway.env agent = Session.emitEvent gateway.env
          { session with started := true, agent } (.sessionStart agent) := by
        unfold Session.ensureStarted
        rw [fresh, if_neg Bool.false_ne_true]
        rfl
      rw [emits]
      constructor
      · intro unstarted
        rw [emitEvent_started] at unstarted
        cases unstarted
      · intro _ complete
        rcases emitEvent_built complete with ⟨event, built, kind⟩
        rw [built]
        exact ⟨event, [], rfl, ⟨agent, kind⟩, List.forall_mem_nil _⟩

/-- Every step keeps what is known of the start of a session. -/
theorem step_started (continues : ∀ id, (system.audit.sessions id).Continues gateway.env
      (system.audit.built id)) (known : Started system id)
    (step : SystemStep gateway system label next) : Started next id := by
  cases step with
  | arrive actor server agent body =>
      refine ⟨fun unstarted => ⟨(known.before unstarted).1, fun goroutine among => ?_⟩, known.opens⟩
      rcases List.mem_filterMap.mp among with ⟨running, present, shown⟩
      rcases List.mem_append.mp present with old | new
      · exact (known.before unstarted).2 goroutine (List.mem_filterMap.mpr ⟨running, old, shown⟩)
      · rw [List.mem_singleton.mp new] at shown
        split at shown
        · cases shown
          exact ⟨server, agent, body, rfl⟩
        · cases shown
  | @turn actor goroutine front back around running unlocked =>
      by_cases own : actor = id
      · subst own
        have session : (system.turned gateway actor around goroutine front back).audit.sessions
          actor = _ := Function.update_self ..
        have built : (system.turned gateway actor around goroutine front back).audit.built
          actor = _ := Function.update_self ..
        have before := goroutinesOf_running running
        have after : (system.turned gateway actor around goroutine front back).goroutinesOf
          actor = _ := System.goroutinesOf_turned_self
        have performs := turn_performs gateway around (system.audit.sessions actor) goroutine
        cases started : (system.audit.sessions actor).started with
        | true =>
            constructor
            · intro unstarted
              rw [session, performs.started (continues actor) started] at unstarted
              cases unstarted
            · intro _ complete
              rw [session] at complete
              rw [built]
              exact (known.opens started (performs.complete (continues actor) complete)).performs
                (continues actor) started performs
        | false =>
            rcases known.before started with ⟨empty, arrives⟩
            rw [before] at arrives
            rcases arrives goroutine (by simp) with ⟨server, agent, body, rfl⟩
            have first := turn_arrives gateway around server agent body started
            constructor
            · intro unstarted
              rw [session] at unstarted
              rcases first.1 unstarted with ⟨none, idle⟩
              refine ⟨by rw [built, empty, none]; rfl, fun other among => arrives other ?_⟩
              rw [after, idle, List.append_nil] at among
              rcases List.mem_append.mp among with earlier | later
              · exact List.mem_append_left _ (List.mem_append_left _ earlier)
              · exact List.mem_append_right _ later
            · intro begun complete
              rw [session] at begun complete
              rw [built, empty]
              exact first.2 begun complete
      · have session : (system.turned gateway actor around goroutine front back).audit.sessions id =
          system.audit.sessions id := Function.update_of_ne (Ne.symm own) ..
        have built : (system.turned gateway actor around goroutine front back).audit.built id =
          system.audit.built id := Function.update_of_ne (Ne.symm own) ..
        have same : (system.turned gateway actor around goroutine front back).goroutinesOf id =
            system.goroutinesOf id := System.goroutinesOf_turned_other (Ne.symm own) running
        constructor
        · rw [session, built, same]
          exact known.before
        · rw [session, built]
          exact known.opens
  | @emit actor event rest held =>
      have built := congrFun (emitted_built system.audit actor event rest) id
      constructor
      · rw [emitted_started, built]
        exact known.before
      · intro started complete
        have session := emitted_complete complete
        dsimp only at started complete ⊢
        rw [session] at started complete
        rw [built]
        exact known.opens started complete
  | write queued => exact ⟨known.before, known.opens⟩
  | close => exact ⟨known.before, known.opens⟩

/-- What holds of the log of a session that is complete. -/
structure Whole (system : System Schema) (id : String) : Prop where
  /-- Every event is in the file or on its way, one chained to the other. -/
  delivered : system.audit.delivered id = system.audit.built id
  file : system.audit.writer.files id <+: system.audit.built id
  chained : Chained (system.audit.built id)
  opens : system.audit.built id = [] ∨ Opens (system.audit.built id)
  booked : Booked system id

/-- **The log of a complete session is whole.** Whatever goroutines do and in whatever order, as
long as what the writer takes is written and a session is not marked incomplete its events are in its file or on their way there, opened
by its start and chained; every response has its call before it, in the file too, and every call has
one response, or one goroutine that owes it. -/
theorem log_whole (reachable : (machine gateway capacity).Reachable system)
    (complete : (system.audit.sessions id).auditIncomplete = false) : Whole system id := by
  have known : ((system.audit.sessions id).auditIncomplete = false → Booked system id) ∧
      Started system id := by
    rcases reachable with ⟨labels, run⟩
    clear complete
    induction run with
    | start begins =>
        cases begins
        refine ⟨fun _ => ⟨fun _ => rfl, fun call events leads => ?_⟩,
          fun _ => ⟨rfl, fun _ absent => by cases absent⟩, fun started => by cases started⟩
        rw [List.prefix_nil.mp leads]
        exact Nat.le_refl 0
    | @concat labels system next label run step ih =>
        have continues (id : String) : (system.audit.sessions id).Continues gateway.env
            (system.audit.built id) :=
          (Audit.Accounted.reachable (audit_reachable ⟨labels, run⟩) id).continues
        exact ⟨step_booked continues ih.1 step, step_started continues ih.2 step⟩
  have accounted := Audit.Accounted.reachable (audit_reachable reachable) id
  have kept : system.audit.dropped id = [] := by
    by_contra dropped
    rw [accounted.marked dropped] at complete
    cases complete
  have delivered : system.audit.delivered id = system.audit.built id := by
    have all := accounted.complete
    rw [kept, List.append_nil] at all
    exact accounted.delivered.eq_of_length all.length_eq
  refine ⟨delivered, ?_, accounted.continues.chained, ?_, known.1 complete⟩
  · rw [← delivered]
    exact List.prefix_append ..
  · cases started : (system.audit.sessions id).started with
    | true => exact .inr (known.2.opens started complete)
    | false => exact .inl (known.2.before started).1

end Runs

/-- A tool is listed and then called, and the call waits for the upstream. -/
def callWaiting : List (Move Unit) :=
  let around : Surroundings Unit :=
    { quarantined := fun _ _ => false
      compiled := fun _ _ => .ok ()
      upstream := .ok ("\x7b\"result\":\x7b\"tools\":[\x7b\"name\":\"read\"," ++
        "\"description\":\"a\",\"inputSchema\":\x7b\x7d\x7d]\x7d\x7d") }
  let call := "\x7b\"method\":\"tools/call\",\"params\":\x7b\"name\":\"read\"," ++
    "\"arguments\":\x7b\x7d\x7d\x7d"
  [.arrive "session" "files" "agent" "\x7b\"method\":\"tools/list\"\x7d", .turn 0 around,
    .emit "session", .turn 0 around, .turn 0 around, .emit "session", .turn 0 around,
    .arrive "session" "files" "agent" call, .turn 0 around, .turn 0 around, .turn 0 around,
    .turn 0 around, .emit "session", .write]

/-- The waiting call is in the log once, without a response, and one goroutine owes it. -/
theorem log_whole_callWaiting :
    ∃ system : System Unit, Whole system "session" ∧
      begun "session-0" (system.audit.built "session") = 1 ∧
      ended "session-0" (system.audit.built "session") = 0 ∧
      owed "session-0" (system.goroutinesOf "session") = 1 := by
  have waiting : (System.play System.describing { audit := Audit.initial 8 } callWaiting).map
      (fun system => (begun "session-0" (system.audit.built "session"),
        ended "session-0" (system.audit.built "session"),
        (system.audit.sessions "session").auditIncomplete)) = some (1, 0, false) := by
    decide +kernel
  rcases Option.map_eq_some_iff.mp waiting with ⟨system, played, counts⟩
  have reachable : (machine System.describing 8).Reachable system :=
    System.play_reachable ⟨[], .start rfl⟩ played
  rw [Prod.mk.injEq, Prod.mk.injEq] at counts
  have whole := log_whole reachable counts.2.2
  have balance := whole.booked.balance "session-0"
  rw [counts.1, counts.2.1, Nat.zero_add] at balance
  exact ⟨system, whole, counts.1, counts.2.1, balance.symm⟩

end Proxy
