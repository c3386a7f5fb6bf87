import Anviq.Proxy.Calls
import Anviq.Proxy.Compiled
import Anviq.Proxy.Schemacache

/-! # Forwarded calls

Where a call that waits for its upstream comes from: a request of its session that was let through,
by the quarantine and by the contract of the tool, and whose arguments were accepted by the schema
that had been compiled for that contract. What was let through is among the events the session has
built; what the files hold of these is a matter of the writer.
-/

namespace Proxy

variable {Schema : Type} {gateway : Gateway Schema} {capacity : Nat} {system next : System Schema}
  {labels : List (SystemLabel Schema)} {label : SystemLabel Schema} {id : String}

/-! ## Origins -/

/-- A request for the call was let through. -/
def LetThrough (gateway : Gateway Schema) (capacity : Nat) (labels : List (SystemLabel Schema))
    (id server : String) (params : CallParams) (decision : CallDecision Schema) : Prop :=
  ∃ earlier request around later moment,
    labels = earlier ++ .turn id (.dispatched server request) around :: later ∧
      (machine gateway capacity).Run earlier moment ∧ request.method = "tools/call" ∧
      (request.params.bind fun tree => (CallParams.decode tree).checked) = some params ∧
      params.name ≠ "" ∧ around.quarantined server params.name = false ∧
      (moment.audit.sessions id).prepareCall server params.name = decision ∧ decision.allow = true

/-- The session has built such an event, unless it is marked incomplete. -/
def Builds (system : System Schema) (id : String) (fields : EventFields) : Prop :=
  (system.audit.sessions id).auditIncomplete = true ∨
    ∃ event ∈ system.audit.built id, event.fields = fields

/-- A call that was only let through because the control plane was not reached has left a
warning. -/
def Warned (system : System Schema) (id server : String) (params : CallParams)
    (decision : CallDecision Schema) : Prop :=
  decision.code ≠ "" → Builds system id
    (.policyDecision server params.name "warn" (decision.code ++ ": " ++ decision.message))

/-- The schema compiled for the contract of a call has accepted its arguments: there are some, no
number among them is too long, and they are valid. -/
structure Accepted (gateway : Gateway Schema) (labels : List (SystemLabel Schema))
    (id key : String) (decision : CallDecision Schema) (arguments : Option RawJson)
    (schema : Schema) (inst : RawJson) : Prop where
  held : decision.schema = some schema
  compiled : ShownCompiled gateway labels id key decision.defHash schema
  given : arguments = some inst
  short : hasLongNumber maxJSONNumberBytes inst = false
  valid : gateway.validate schema inst.collapse = .ok ()

/-- The call was let through, its arguments were accepted, and its event was built. -/
structure Forwarded (gateway : Gateway Schema) (capacity : Nat)
    (labels : List (SystemLabel Schema)) (system : System Schema) (id server callId : String)
    (params : CallParams) (decision : CallDecision Schema) : Prop where
  letThrough : LetThrough gateway capacity labels id server params decision
  warned : Warned system id server params decision
  accepted : ∃ schema inst, Accepted gateway labels id (key server params.name) decision
    params.arguments schema inst
  built : Builds system id (.toolCall callId server params.name decision.defHash
    (recorded gateway.parseFloat params.arguments))

/-- What a goroutine has come through. -/
def Goroutine.Founded (gateway : Gateway Schema) (capacity : Nat)
    (labels : List (SystemLabel Schema)) (system : System Schema) (id : String) :
    Goroutine Schema → Prop
  | .allowed server params decision => LetThrough gateway capacity labels id server params decision
  | .warned server params decision =>
      LetThrough gateway capacity labels id server params decision ∧
        Warned system id server params decision
  | .posted server callId =>
      ∃ params decision, Forwarded gateway capacity labels system id server callId params decision
  | _ => True

/-! ## Later -/

/-- A session goes on: it builds more events, and a mark on it stays. -/
structure Onward (system next : System Schema) (id : String) : Prop where
  built : system.audit.built id <+: next.audit.built id
  marked : (system.audit.sessions id).auditIncomplete = true →
    (next.audit.sessions id).auditIncomplete = true

theorem LetThrough.later {server : String} {params : CallParams} {decision : CallDecision Schema}
    (letThrough : LetThrough gateway capacity labels id server params decision)
    (label : SystemLabel Schema) :
    LetThrough gateway capacity (labels ++ [label]) id server params decision := by
  rcases letThrough with ⟨earlier, request, around, later, moment, rfl, rest⟩
  refine ⟨earlier, request, around, later ++ [label], moment, ?_, rest⟩
  rw [List.append_assoc, List.cons_append]

theorem Builds.later {fields : EventFields} (builds : Builds system id fields)
    (onward : Onward system next id) : Builds next id fields := by
  rcases builds with incomplete | ⟨event, among, same⟩
  · exact .inl (onward.marked incomplete)
  · exact .inr ⟨event, onward.built.subset among, same⟩

theorem Accepted.later {key : String} {decision : CallDecision Schema}
    {arguments : Option RawJson} {schema : Schema} {inst : RawJson}
    (accepted : Accepted gateway labels id key decision arguments schema inst)
    (label : SystemLabel Schema) :
    Accepted gateway (labels ++ [label]) id key decision arguments schema inst :=
  { accepted with compiled := accepted.compiled.later }

theorem Goroutine.Founded.later {goroutine : Goroutine Schema}
    (founded : goroutine.Founded gateway capacity labels system id)
    (onward : Onward system next id) (label : SystemLabel Schema) :
    goroutine.Founded gateway capacity (labels ++ [label]) next id := by
  cases goroutine with
  | allowed server params decision => exact LetThrough.later founded label
  | warned server params decision =>
      exact ⟨founded.1.later label, fun code => (founded.2 code).later onward⟩
  | posted server callId =>
      rcases founded with ⟨params, decision, forwarded⟩
      refine ⟨params, decision, forwarded.letThrough.later label,
        fun code => (forwarded.warned code).later onward, ?_, forwarded.built.later onward⟩
      rcases forwarded.accepted with ⟨schema, inst, accepted⟩
      exact ⟨schema, inst, accepted.later label⟩
  | _ => trivial

theorem step_onward (continues : ∀ id, (system.audit.sessions id).Continues gateway.env
      (system.audit.built id)) (step : SystemStep gateway system label next) :
    Onward system next id := by
  cases step with
  | arrive actor server agent body => exact ⟨List.prefix_rfl, fun marked => marked⟩
  | @turn actor goroutine front back around running unlocked =>
      by_cases own : actor = id
      · subst own
        have session : (system.turned gateway actor around goroutine front back).audit.sessions
          actor = _ := Function.update_self ..
        have built : (system.turned gateway actor around goroutine front back).audit.built
          actor = _ := Function.update_self ..
        refine ⟨built ▸ List.prefix_append .., fun marked => ?_⟩
        rw [session]
        by_contra complete
        have before := (turn_performs gateway around (system.audit.sessions actor)
          goroutine).complete (continues actor) (Bool.eq_false_iff.mpr complete)
        rw [marked] at before
        cases before
      · have session : (system.turned gateway actor around goroutine front back).audit.sessions id =
          system.audit.sessions id := Function.update_of_ne (Ne.symm own) ..
        have built : (system.turned gateway actor around goroutine front back).audit.built id =
          system.audit.built id := Function.update_of_ne (Ne.symm own) ..
        exact ⟨built ▸ List.prefix_rfl, fun marked => session ▸ marked⟩
  | @emit actor event rest held =>
      refine ⟨?_, fun marked => ?_⟩
      · rw [emitted_built]
      · by_contra complete
        have same := emitted_complete (Bool.eq_false_iff.mpr complete)
        dsimp only at complete
        rw [same] at complete
        exact complete marked
  | write queued => exact ⟨List.prefix_rfl, fun marked => marked⟩
  | close => exact ⟨List.prefix_rfl, fun marked => marked⟩

/-! ## Turns -/

section Turns

variable {around : Surroundings Schema} {front back : List (String × Goroutine Schema)}
  {goroutine : Goroutine Schema}

/-- What a turn emits is built. -/
theorem builds_emitted {fields : EventFields} {rest : List (Goroutine Schema)}
    (emits : goroutine.turn gateway around (system.audit.sessions id) =
      emitTurn gateway.env (system.audit.sessions id) fields rest) :
    Builds (system.turned gateway id around goroutine front back) id fields := by
  have session : (system.turned gateway id around goroutine front back).audit.sessions id = _ :=
    Function.update_self ..
  have built : (system.turned gateway id around goroutine front back).audit.built id = _ :=
    Function.update_self ..
  rw [emits] at session built
  cases complete : ((system.audit.sessions id).emitEvent gateway.env fields).1.auditIncomplete with
  | true => exact .inl ((congrArg Session.auditIncomplete session).trans complete)
  | false =>
      rcases emitEvent_built complete with ⟨event, only, same⟩
      refine .inr ⟨event, ?_, same⟩
      rw [built]
      have events : (emitTurn gateway.env (system.audit.sessions id) fields rest).events =
        [event] := only
      rw [events]
      exact List.mem_append_right _ List.mem_cons_self

/-- The call a request is let through for. -/
theorem dispatchCall_next {server : String} {request : Request} {session : Session Schema}
    {fresh : Goroutine Schema}
    (among : fresh ∈ (dispatchCall gateway around session server request).next) :
    ∃ params, fresh = .allowed server params (session.prepareCall server params.name) ∧
      (request.params.bind fun tree => (CallParams.decode tree).checked) = some params ∧
      params.name ≠ "" ∧ around.quarantined server params.name = false ∧
      (session.prepareCall server params.name).allow = true := by
  unfold dispatchCall at among
  split at among
  · cases among
  · next params decoded =>
      split at among
      · cases among
      · next named =>
          split at among
          · cases among
          · next released =>
              dsimp only at among
              split at among
              · next allowed =>
                  rw [List.mem_singleton.mp among]
                  exact ⟨params, rfl, decoded, named, Bool.eq_false_iff.mpr released, allowed⟩
              · cases among

/-- A call that goes on has had its arguments accepted, or will be recorded as a failure. -/
theorem auditCall_next {server : String} {params : CallParams} {decision : CallDecision Schema}
    {session : Session Schema} {fresh : Goroutine Schema}
    (among : fresh ∈ (auditCall gateway around session server params decision).next) :
    (∃ callId, fresh = .posted server callId ∧
        checkArguments gateway.validate decision.schema params.arguments = .accepted ∧
        auditCall gateway around session server params decision =
          emitTurn gateway.env session (.toolCall callId server params.name decision.defHash
            (recorded gateway.parseFloat params.arguments)) [.posted server callId]) ∨
      ∃ callId reason, fresh = .failed callId reason := by
  unfold auditCall at among ⊢
  dsimp only at among ⊢
  cases checked : checkArguments gateway.validate decision.schema params.arguments with
  | accepted =>
      rw [checked] at among
      exact .inl ⟨_, List.mem_singleton.mp among, rfl, rfl⟩
  | numberTooLong =>
      rw [checked] at among
      cases among
  | notJson error =>
      rw [checked] at among
      cases among
  | violates error =>
      rw [checked] at among
      exact .inr ⟨_, _, List.mem_singleton.mp among⟩

/-- A call is let through under a schema that was compiled for its contract. -/
theorem LetThrough.compiled {server : String} {params : CallParams}
    {decision : CallDecision Schema}
    (letThrough : LetThrough gateway capacity labels id server params decision) :
    ∃ schema, decision.schema = some schema ∧
      ShownCompiled gateway labels id (key server params.name) decision.defHash schema := by
  rcases letThrough with
    ⟨earlier, request, around, later, moment, rfl, run, -, -, -, -, rfl, allowed⟩
  rcases prepareCall_compiled run allowed with
    ⟨schema, found, server, held, listing, tool, tools, shown, inputSchema, among, rest⟩
  exact ⟨schema, found, server, held, listing, tool, tools, shown, inputSchema,
    List.mem_append_left _ among, rest⟩

/-- The checks of the arguments pass only if the schema has accepted them. -/
theorem checkArguments_accepted {validate : Schema → RawJson → Except String Unit}
    {schema : Schema} {arguments : Option RawJson}
    (checked : checkArguments validate (some schema) arguments = .accepted) :
    ∃ inst, arguments = some inst ∧ hasLongNumber maxJSONNumberBytes inst = false ∧
      validate schema inst.collapse = .ok () := by
  cases arguments with
  | none => cases checked
  | some inst =>
      unfold checkArguments at checked
      dsimp only at checked
      split at checked
      · cases checked
      · next short =>
          split at checked
          · next valid => exact ⟨inst, rfl, Bool.eq_false_iff.mpr short, valid⟩
          · cases checked

/-- A call that was let through and whose arguments passed the checks was accepted. -/
theorem LetThrough.accepted {server : String} {params : CallParams}
    {decision : CallDecision Schema}
    (letThrough : LetThrough gateway capacity labels id server params decision)
    (checked : checkArguments gateway.validate decision.schema params.arguments = .accepted) :
    ∃ schema inst, Accepted gateway labels id (key server params.name) decision
      params.arguments schema inst := by
  rcases letThrough.compiled with ⟨schema, found, compiled⟩
  rw [found] at checked
  rcases checkArguments_accepted checked with ⟨inst, given, short, valid⟩
  exact ⟨schema, inst, found, compiled, given, short, valid⟩

theorem startInspection_next {parseFloat : String → Option Number} {server : String} {asked : Bool}
    {upstream : Except String String} {fresh : Goroutine Schema}
    (among : fresh ∈ (startInspection parseFloat server asked upstream : List (Goroutine Schema))) :
    ∃ held tools, fresh = .inspecting server held {} tools := by
  unfold startInspection at among
  split at among
  · cases among
  · split at among
    · exact ⟨_, _, List.mem_singleton.mp among⟩
    · cases among

/-- What goes on after a turn has come through what it should. -/
theorem turn_founded (run : (machine gateway capacity).Run labels system)
    (onward : Onward system (system.turned gateway id around goroutine front back) id)
    (founded : goroutine.Founded gateway capacity labels system id) {fresh : Goroutine Schema}
    (among : fresh ∈ (goroutine.turn gateway around (system.audit.sessions id)).next) :
    fresh.Founded gateway capacity (labels ++ [.turn id goroutine around])
      (system.turned gateway id around goroutine front back) id := by
  cases goroutine with
  | arrived server agent body =>
      unfold Goroutine.turn at among
      dsimp only at among
      split at among
      · cases among
      · rw [List.mem_singleton.mp among]
        trivial
  | dispatched server request =>
      unfold Goroutine.turn at among
      dsimp only at among
      split at among
      · rcases startInspection_next among with ⟨held, tools, rfl⟩
        trivial
      · split at among
        · next called =>
            rcases dispatchCall_next among with ⟨params, rfl, decoded, named, released, allowed⟩
            exact ⟨labels, request, around, [], system, rfl, run, called, decoded, named, released,
              rfl, allowed⟩
        · cases among
  | relisting server =>
      rcases startInspection_next among with ⟨held, tools, rfl⟩
      trivial
  | inspecting server held listing tools =>
      cases tools with
      | nil => cases among
      | cons tool tools =>
          rcases List.mem_cons.mp among with rfl | started
          · trivial
          · rcases Option.mem_map.mp (Option.mem_toList.mp started) with ⟨report, -, rfl⟩
            trivial
  | reporting report => cases among
  | allowed server params decision =>
      unfold Goroutine.turn at among
      dsimp only at among
      split at among
      · next code =>
          have emits : (Goroutine.allowed server params decision).turn gateway around
              (system.audit.sessions id) = emitTurn gateway.env (system.audit.sessions id)
                (.policyDecision server params.name "warn"
                  (decision.code ++ ": " ++ decision.message)) [.warned server params decision] :=
            if_pos code
          rw [List.mem_singleton.mp among]
          exact ⟨LetThrough.later founded _, fun _ => builds_emitted emits⟩
      · next trusted =>
          rw [List.mem_singleton.mp among]
          exact ⟨LetThrough.later founded _, fun code => absurd code trusted⟩
  | warned server params decision =>
      rcases auditCall_next among with ⟨callId, rfl, checked, emits⟩ | ⟨callId, reason, rfl⟩
      · have letThrough := founded.1.later (.turn id (.warned server params decision) around)
        exact ⟨params, decision, letThrough, fun code => (founded.2 code).later onward,
          letThrough.accepted checked, builds_emitted emits⟩
      · trivial
  | posted server callId =>
      unfold Goroutine.turn emitTurn at among
      dsimp only at among
      split at among
      · rw [List.mem_singleton.mp among]
        trivial
      · cases among
  | failed callId reason => cases among

end Turns

/-! ## Runs -/

/-- In every run every goroutine has come through what it should. -/
theorem run_founded (run : (machine gateway capacity).Run labels system)
    {goroutine : Goroutine Schema} (running : goroutine ∈ system.goroutinesOf id) :
    goroutine.Founded gateway capacity labels system id := by
  induction run generalizing id goroutine with
  | start begins =>
      cases begins
      cases running
  | @concat labels system next label run step ih =>
      have continues (id : String) : (system.audit.sessions id).Continues gateway.env
          (system.audit.built id) :=
        (Audit.Accounted.reachable (audit_reachable ⟨labels, run⟩) id).continues
      have onward : Onward system next id := step_onward continues step
      cases step with
      | arrive actor server agent body =>
          rcases List.mem_filterMap.mp running with ⟨started, present, shown⟩
          rcases List.mem_append.mp present with old | new
          · exact (ih (List.mem_filterMap.mpr ⟨started, old, shown⟩)).later onward _
          · rw [List.mem_singleton.mp new] at shown
            split at shown
            · cases shown
              trivial
            · cases shown
      | @turn actor ran front back around listed unlocked =>
          by_cases own : id = actor
          · subst own
            rw [System.goroutinesOf_turned_self, List.mem_append, List.mem_append] at running
            have before := goroutinesOf_running listed
            have kept (old : goroutine ∈ system.goroutinesOf id) := (ih old).later onward
              (.turn id ran around)
            rcases running with (earlier | fresh) | later
            · exact kept (by rw [before]; simp [earlier])
            · exact turn_founded run onward (ih (by rw [before]; simp)) fresh
            · exact kept (by rw [before]; simp [later])
          · rw [System.goroutinesOf_turned_other own listed] at running
            exact (ih running).later onward _
      | emit held => exact (ih running).later onward _
      | write queued => exact (ih running).later onward _
      | close => exact (ih running).later onward _

/-- **No call goes unchecked.** Whatever goroutines do and in whatever order, a call that waits for
its upstream was asked for at a turn at which its tool was not in quarantine and its contract let it
through; the schema that had been compiled for a definition of that contract's hash, when the
session was shown one, accepted its arguments; and unless it is marked incomplete the session has
built the event of the call under that hash, and a warning if the control plane had not been
reached. -/
theorem forwarded_checked (run : (machine gateway capacity).Run labels system)
    {server callId : String} (waiting : .posted server callId ∈ system.goroutinesOf id) :
    ∃ params decision, Forwarded gateway capacity labels system id server callId params decision :=
  run_founded run waiting

/-- The server and the call, if a goroutine waits for its upstream. -/
def Goroutine.waits? : Goroutine Schema → Option (String × String)
  | .posted server callId => some (server, callId)
  | _ => none

/-- A gateway whose schemas are the names of the arguments they require. -/
def System.requiring : Gateway (List String) where
  env := System.describing.env
  parseFloat := fun _ => none
  validate := fun names inst =>
    match inst with
    | .obj members =>
        if names.all fun name => (Json.Members.get? members name).isSome then .ok ()
        else .error "missing properties"
    | _ => .error "not an object"

/-- A tool that requires a path is listed and then called with one, and the call waits for the
upstream. -/
def callRequiring : List (Move (List String)) :=
  let around : Surroundings (List String) :=
    { quarantined := fun _ _ => false
      compiled := fun _ inputSchema => Cache.requiredCompiler.compile inputSchema
      upstream := .ok ("\x7b\"result\":\x7b\"tools\":[\x7b\"name\":\"read\"," ++
        "\"description\":\"a\",\"inputSchema\":\x7b\"required\":[\"path\"]\x7d\x7d]\x7d\x7d") }
  let call := "\x7b\"method\":\"tools/call\",\"params\":\x7b\"name\":\"read\"," ++
    "\"arguments\":\x7b\"path\":\"notes\"\x7d\x7d\x7d"
  [.arrive "session" "files" "agent" "\x7b\"method\":\"tools/list\"\x7d", .turn 0 around,
    .emit "session", .turn 0 around, .turn 0 around, .emit "session", .turn 0 around,
    .arrive "session" "files" "agent" call, .turn 0 around, .turn 0 around, .turn 0 around,
    .turn 0 around, .emit "session", .write]

/-- A call of a tool that requires a path waits for the upstream, checked. -/
theorem forwarded_checked_callRequiring :
    ∃ (labels : List (SystemLabel (List String))) (system : System (List String))
      (params : CallParams) (decision : CallDecision (List String)),
      Forwarded System.requiring 8 labels system "session" "files" "session-0" params decision := by
  have waiting : (System.play System.requiring { audit := Audit.initial 8 } callRequiring).map
      (fun system => (system.goroutinesOf "session").filterMap Goroutine.waits?) =
        some [("files", "session-0")] := by decide +kernel
  rcases Option.map_eq_some_iff.mp waiting with ⟨system, played, waits⟩
  rcases System.play_reachable ⟨[], .start rfl⟩ played with ⟨labels, run⟩
  have among : ("files", "session-0") ∈ (system.goroutinesOf "session").filterMap
      Goroutine.waits? := waits ▸ List.mem_cons_self
  rcases List.mem_filterMap.mp among with ⟨goroutine, present, shown⟩
  cases goroutine with
  | posted server callId =>
      cases shown
      rcases forwarded_checked run present with ⟨params, decision, forwarded⟩
      exact ⟨labels, system, params, decision, forwarded⟩
  | _ => cases shown

end Proxy
