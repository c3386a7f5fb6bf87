import Mathlib.Data.List.Perm.Basic
import Anviq.Proxy.Eventlog

/-! # The chain and its delivery

In every run of the sessions and their writer, the events a session built are
numbered from zero and each carries the hash of the one before it; what has been
written, is queued, or is still to be sent is a subsequence of them, and what is
missing from it has been dropped and has marked the session incomplete.
-/

namespace Proxy

variable {Schema : Type}

/-! ## Chains -/

/-- Events numbered from zero, each with the hash of the event before it. -/
def Chained (events : List Event) : Prop :=
  ∀ (position : Nat) (event : Event), events[position]? = some event →
    event.seq = position ∧
      event.prevHash =
        match position with
        | 0 => none
        | before + 1 => events[before]?.map Event.eventHash

/-- A chain goes on with the number of its events and the hash of its last one. -/
theorem Chained.concat {events : List Event} {event : Event} (chained : Chained events)
    (seq : event.seq = events.length)
    (prevHash : event.prevHash = events.getLast?.map Event.eventHash) :
    Chained (events ++ [event]) := by
  intro position found present
  rcases Nat.lt_trichotomy position events.length with inside | rfl | outside
  · rw [List.getElem?_append_left inside] at present
    refine ⟨(chained position found present).1, ?_⟩
    rw [(chained position found present).2]
    cases position with
    | zero => rfl
    | succ before =>
        exact congrArg (Option.map _) (List.getElem?_append_left (Nat.lt_of_succ_lt inside)).symm
  · rw [List.getElem?_concat_length] at present
    obtain rfl := Option.some.inj present
    refine ⟨seq, prevHash.trans ?_⟩
    rw [List.getLast?_eq_getElem?]
    cases length : events.length with
    | zero => rw [List.length_eq_zero_iff.mp length]; rfl
    | succ before =>
        rw [Nat.succ_sub_one]
        exact congrArg (Option.map _) (List.getElem?_append_left (by omega)).symm
  · rw [List.getElem?_eq_none (by simp; omega)] at present
    exact absurd present (by simp)

/-- Different events of a chain have different numbers. -/
theorem Chained.nodup {events : List Event} (chained : Chained events) : events.Nodup := by
  rw [List.nodup_iff_getElem?_ne_getElem?]
  intro first second before inside same
  have present := List.getElem?_eq_getElem inside
  have firstSeq := (chained first _ (same.trans present)).1
  have secondSeq := (chained second _ present).1
  omega

/-- The number of an event of a chain is its position. -/
theorem Chained.getElem?_seq {events : List Event} (chained : Chained events) {event : Event}
    (present : event ∈ events) : events[event.seq]? = some event := by
  obtain ⟨position, inside, rfl⟩ := List.mem_iff_getElem.mp present
  have found := List.getElem?_eq_getElem inside
  rw [(chained position _ found).1, found]

/-! ## Building -/

/-- An event as `buildEventLocked` makes it. -/
structure Event.Sealed (env : Env) (id : String) (event : Event) : Prop where
  sessionId : event.sessionId = id
  ts : event.ts = env.clock event.seq
  hashed : env.eventHash event.body = .ok event.eventHash

namespace Session

/-- The session goes on from the chain `events`. -/
structure Continues (env : Env) (session : Session Schema) (events : List Event) : Prop where
  chained : Chained events
  built : ∀ event ∈ events, event.Sealed env session.id
  seq : session.seq = events.length
  prevHash : events ≠ [] → session.prevHash = events.getLast?.map Event.eventHash

/-- The part of a session that `buildEventLocked` reads. -/
structure SameChain (left right : Session Schema) : Prop where
  id : left.id = right.id
  seq : left.seq = right.seq
  prevHash : left.prevHash = right.prevHash
  auditIncomplete : left.auditIncomplete = right.auditIncomplete

theorem SameChain.refl (session : Session Schema) : session.SameChain session := ⟨rfl, rfl, rfl, rfl⟩

theorem SameChain.continues {env : Env} {left right : Session Schema} {events : List Event}
    (same : left.SameChain right) (continues : right.Continues env events) :
    left.Continues env events where
  chained := continues.chained
  built := same.id ▸ continues.built
  seq := same.seq.trans continues.seq
  prevHash := fun nonempty => same.prevHash.trans (continues.prevHash nonempty)

variable {env : Env}

/-- What an operation that builds `built` makes of a session. -/
structure Extends (env : Env) (session next : Session Schema) (events built : List Event) :
    Prop where
  continues : next.Continues env (events ++ built)
  id : next.id = session.id
  started : next.started = session.started
  incomplete : session.auditIncomplete = true → next.auditIncomplete = true

theorem buildEvents_cons (env : Env) (session : Session Schema) (first : EventFields)
    (rest : List EventFields) :
    session.buildEvents env (first :: rest) =
      (((session.buildEventLocked env first).1.buildEvents env rest).1,
        (session.buildEventLocked env first).2.toList ++
          ((session.buildEventLocked env first).1.buildEvents env rest).2) := rfl

/-- What `buildEventLocked` does: it marks the session incomplete, or it appends an
event of the given kind to the chain. -/
theorem buildEventLocked_cases {session : Session Schema} {events : List Event}
    (continues : session.Continues env events) (fields : EventFields) :
    ((∃ error, env.eventHash (eventBody session.seq (env.clock session.seq) session.id fields
          (if session.seq = 0 then none else session.prevHash)) = .error error) ∧
        session.buildEventLocked env fields = ({ session with auditIncomplete := true }, none)) ∨
      ∃ event, event.fields = fields ∧ (session.buildEventLocked env fields).2 = some event ∧
        session.Extends env (session.buildEventLocked env fields).1 events [event] := by
  unfold buildEventLocked
  dsimp only
  cases hashed : env.eventHash (eventBody session.seq (env.clock session.seq) session.id fields
    (if session.seq = 0 then none else session.prevHash)) with
  | error error => exact Or.inl ⟨⟨error, rfl⟩, rfl⟩
  | ok eventHash =>
      have prevHash : (if session.seq = 0 then none else session.prevHash) =
          events.getLast?.map Event.eventHash := by
        split
        · next zero =>
            rw [continues.seq, List.length_eq_zero_iff] at zero
            rw [zero]
            rfl
        · next nonzero =>
            refine continues.prevHash fun empty => nonzero ?_
            rw [continues.seq, empty]
            rfl
      refine Or.inr ⟨_, rfl, rfl, ?_, rfl, rfl, fun marked => marked⟩
      refine
        { chained := continues.chained.concat continues.seq prevHash
          built := List.forall_mem_append.mpr
            ⟨continues.built, List.forall_mem_singleton.mpr ⟨rfl, rfl, hashed⟩⟩
          seq := ?_
          prevHash := fun _ => ?_ }
      · rw [List.length_append, ← continues.seq]
        rfl
      · rw [List.getLast?_concat]
        rfl

/-- Building events continues the chain, with events of the given kinds. -/
theorem buildEvents_extends {session : Session Schema} {events : List Event}
    (continues : session.Continues env events) (fields : List EventFields) :
    session.Extends env (session.buildEvents env fields).1 events
        (session.buildEvents env fields).2 ∧
      ((session.buildEvents env fields).2.map Event.fields).Sublist fields := by
  induction fields generalizing session events with
  | nil =>
      refine ⟨⟨?_, rfl, rfl, fun marked => marked⟩, List.Sublist.refl _⟩
      rw [buildEvents, List.append_nil]
      exact continues
  | cons first rest ih =>
      rw [buildEvents_cons]
      rcases buildEventLocked_cases continues first with
        ⟨-, unbuilt⟩ | ⟨event, kind, built, next⟩
      · have marked : ({ session with auditIncomplete := true }).Continues env events :=
          ⟨continues.chained, continues.built, continues.seq, continues.prevHash⟩
        obtain ⟨later, kinds⟩ := ih marked
        rw [unbuilt]
        exact ⟨⟨later.continues, later.id, later.started, fun _ => later.incomplete rfl⟩,
          kinds.cons _⟩
      · obtain ⟨later, kinds⟩ := ih next.continues
        rw [built]
        refine ⟨⟨?_, later.id.trans next.id, later.started.trans next.started,
          fun marked => later.incomplete (next.incomplete marked)⟩, kind ▸ kinds.cons_cons _⟩
        rw [← List.append_assoc]
        exact later.continues

/-- When every event can be hashed, all of them are built. -/
theorem buildEvents_hashes {session : Session Schema} {events : List Event}
    (hashes : ∀ value, ∃ hash, env.sha256Hex value = .ok hash)
    (continues : session.Continues env events) (fields : List EventFields) :
    (session.buildEvents env fields).2.map Event.fields = fields := by
  induction fields generalizing session events with
  | nil => rfl
  | cons first rest ih =>
      rw [buildEvents_cons]
      rcases buildEventLocked_cases continues first with
        ⟨⟨error, failed⟩, -⟩ | ⟨event, kind, built, next⟩
      · obtain ⟨hash, hashed⟩ := hashes _
        rw [Env.eventHash, hashed] at failed
        exact absurd failed (by simp)
      · rw [built, List.map_append, ih next.continues, Option.toList_some, List.map_singleton, kind]
        rfl

end Session

/-! ## The kinds of events -/

/-- A definition that is observed is recorded, and what is decided about it is a
block or a lifted block. -/
theorem observe_kinds {server : String} {tool : Tool} {defHash : String} {schema : Option Schema}
    {schemaError : String} {nextChange : Nat} (found : Option (PinnedTool Schema)) :
    ∀ fields ∈ (observe server tool defHash schema schemaError nextChange found).events,
      fields = .toolDefinition server tool defHash ∨
        ∃ action reason, fields = .policyDecision server (toolName tool) action reason ∧
          action ∈ ["block", "resume"] := by
  refine observe_cases (P := fun _ observation => ∀ fields ∈ observation.events,
    fields = .toolDefinition server tool defHash ∨
      ∃ action reason, fields = .policyDecision server (toolName tool) action reason ∧
        action ∈ ["block", "resume"]) ?_ ?_ ?_ ?_ ?_ found
  · refine List.forall_mem_cons.mpr ⟨Or.inl rfl, fun fields present => ?_⟩
    split at present
    · exact Or.inr ⟨_, _, List.mem_singleton.mp present, by decide⟩
    · exact absurd present List.not_mem_nil
  · intro pin _ fields present
    simp only [observeUnchanged] at present
    split at present
    · exact Or.inr ⟨_, _, List.mem_singleton.mp present, by decide⟩
    · exact absurd present List.not_mem_nil
  · exact fun pin _ _ _ fields present => Or.inl (List.mem_singleton.mp present)
  · intro pin change _ _ _ _ fields present
    simp only [observePending] at present
    split_ifs at present <;> exact absurd present List.not_mem_nil
  · refine fun pin _ _ _ => List.forall_mem_cons.mpr ⟨Or.inl rfl, fun fields present => ?_⟩
    exact Or.inr ⟨_, _, List.mem_singleton.mp present, by decide⟩

/-- What is recorded of a report is a decision. -/
theorem PinnedTool.settle_kinds (pin : PinnedTool Schema) (server toolName : String)
    (change : PendingChange Schema) (unreachable : Bool) (verdict : Verdict) :
    ∀ fields ∈ (pin.settle server toolName change unreachable verdict).2,
      ∃ action reason, fields = .policyDecision server toolName action reason ∧
        action ∈ ["allow", "warn", "block", "quarantine"] ∧
        (reason = verdict.reason ∨
          reason = "TOOL_SCHEMA_INVALID: an invalid schema cannot be resumed") := by
  intro fields present
  unfold settle at present
  split_ifs at present with unreached invalid cleared quarantined
  · exact absurd present List.not_mem_nil
  · exact ⟨_, _, List.mem_singleton.mp present, by decide, Or.inr rfl⟩
  · refine ⟨_, _, List.mem_singleton.mp present, ?_, Or.inl rfl⟩
    unfold actionFor
    split_ifs <;> decide
  · exact ⟨_, _, List.mem_singleton.mp present, by decide, Or.inl rfl⟩
  · exact ⟨_, _, List.mem_singleton.mp present, by decide, Or.inl rfl⟩

/-! ## The session operations -/

namespace SessionCall

variable {env : Env}

/-- The kinds of events a call may build. -/
def kinds (session : Session Schema) : SessionCall Schema → List EventFields
  | .ensureStarted agent => if session.started then [] else [.sessionStart agent]
  | .emitEvent fields => [fields]
  | .observeDefinition server tool defHash schema schemaError =>
      (session.observation server tool defHash schema schemaError).events
  | .applyVerdict server toolName revision unreachable verdict =>
      match session.pinned (key server toolName) with
      | none => []
      | some pin =>
          match pin.pending with
          | none => []
          | some change =>
              if change.revision ≠ revision ∨ change.verdictApplied then []
              else (pin.settle server toolName change unreachable verdict).2
  | .rejectDefinition server name reason =>
      [.policyDecision server name "block" ("TOOL_SCHEMA_INVALID: " ++ reason)]

/-- The session a call builds its events on. -/
def settled (session : Session Schema) : SessionCall Schema → Session Schema
  | .ensureStarted agent =>
      if session.started then session else { session with started := true, agent }
  | .emitEvent _ => session
  | .observeDefinition server tool defHash schema schemaError =>
      { session.setPin (key server (toolName tool))
          (session.observation server tool defHash schema schemaError).pin with
        nextChange := (session.observation server tool defHash schema schemaError).nextChange }
  | .applyVerdict server toolName revision unreachable verdict =>
      match session.pinned (key server toolName) with
      | none => session
      | some pin =>
          match pin.pending with
          | none => session
          | some change =>
              if change.revision ≠ revision ∨ change.verdictApplied then session
              else session.setPin (key server toolName)
                (pin.settle server toolName change unreachable verdict).1
  | .rejectDefinition server name reason =>
      session.setPin (key server name)
        (Session.rejected (session.pinned (key server name)) reason)

/-- A call changes the pins and then appends to the chain. -/
theorem apply_eq (env : Env) (session : Session Schema) (call : SessionCall Schema) :
    call.apply env session = (call.settled session).buildEvents env (call.kinds session) := by
  cases call with
  | ensureStarted agent =>
      simp only [apply, settled, kinds, Session.ensureStarted]
      split <;> rfl
  | emitEvent fields => rfl
  | observeDefinition server tool defHash schema schemaError => rfl
  | applyVerdict server toolName revision unreachable verdict =>
      simp only [apply, settled, kinds, Session.applyVerdict]
      cases session.pinned (key server toolName) with
      | none => rfl
      | some pin =>
          cases outstanding : pin.pending with
          | none => simp only [outstanding]; rfl
          | some change =>
              simp only [outstanding]
              split <;> rfl
  | rejectDefinition server name reason => rfl

/-- Only `EnsureStarted` starts a session. -/
def starts : SessionCall Schema → Bool
  | .ensureStarted _ => true
  | _ => false

theorem settled_sameChain (session : Session Schema) (call : SessionCall Schema) :
    (call.settled session).SameChain session := by
  cases call with
  | ensureStarted agent =>
      simp only [settled]
      split <;> exact ⟨rfl, rfl, rfl, rfl⟩
  | emitEvent fields => exact .refl session
  | observeDefinition server tool defHash schema schemaError => exact ⟨rfl, rfl, rfl, rfl⟩
  | applyVerdict server toolName revision unreachable verdict =>
      simp only [settled]
      split
      · exact .refl session
      · split
        · exact .refl session
        · split
          · exact .refl session
          · exact ⟨rfl, rfl, rfl, rfl⟩
  | rejectDefinition server name reason => exact ⟨rfl, rfl, rfl, rfl⟩

theorem settled_started (session : Session Schema) (call : SessionCall Schema) :
    (call.settled session).started = (call.starts || session.started) := by
  cases call with
  | ensureStarted agent =>
      simp only [settled, starts, Bool.true_or]
      split
      · next begun => exact begun
      · rfl
  | emitEvent fields => rfl
  | observeDefinition server tool defHash schema schemaError => rfl
  | applyVerdict server toolName revision unreachable verdict =>
      simp only [settled, starts, Bool.false_or]
      split
      · rfl
      · split
        · rfl
        · split <;> rfl
  | rejectDefinition server name reason => rfl

/-- Only `EnsureStarted`, and only once, records the start of a session, unless
`EmitEvent` is asked to. -/
theorem kinds_started {session : Session Schema} (begun : session.started = true)
    {call : SessionCall Schema} (plain : ∀ agent, call ≠ .emitEvent (.sessionStart agent)) :
    ∀ fields ∈ call.kinds session, ∀ agent, fields ≠ .sessionStart agent := by
  intro fields present agent start
  subst start
  cases call with
  | ensureStarted other =>
      rw [kinds, if_pos begun] at present
      exact absurd present List.not_mem_nil
  | emitEvent fields => exact plain agent (congrArg _ (List.mem_singleton.mp present).symm)
  | observeDefinition server tool defHash schema schemaError =>
      rcases observe_kinds _ _ present with definition | ⟨action, reason, decision, -⟩
      · exact absurd definition (by simp)
      · exact absurd decision (by simp)
  | applyVerdict server toolName revision unreachable verdict =>
      simp only [kinds] at present
      split at present
      · exact absurd present List.not_mem_nil
      · split at present
        · exact absurd present List.not_mem_nil
        · split at present
          · exact absurd present List.not_mem_nil
          · obtain ⟨action, reason, decision, -⟩ := PinnedTool.settle_kinds _ _ _ _ _ _ _ present
            exact absurd decision (by simp)
  | rejectDefinition server name reason => exact absurd (List.mem_singleton.mp present) (by simp)

/-- A call continues the chain. -/
theorem apply_extends {session : Session Schema} {events : List Event}
    (continues : session.Continues env events) (call : SessionCall Schema) :
    (call.apply env session).1.Continues env (events ++ (call.apply env session).2) ∧
      (call.apply env session).1.id = session.id ∧
      (call.apply env session).1.started = (call.starts || session.started) ∧
      (session.auditIncomplete = true → (call.apply env session).1.auditIncomplete = true) ∧
      ((call.apply env session).2.map Event.fields).Sublist (call.kinds session) := by
  have same := call.settled_sameChain session
  obtain ⟨next, kinds⟩ :=
    Session.buildEvents_extends (same.continues continues) (call.kinds session)
  rw [apply_eq]
  exact ⟨next.continues, next.id.trans same.id,
    next.started.trans (call.settled_started session),
    fun marked => next.incomplete (same.auditIncomplete.trans marked), kinds⟩

end SessionCall

/-! ## Delivery -/

/-- The events of a session in the channel. -/
def Writer.queued (writer : Writer) (id : String) : List Event :=
  (writer.channel.filter fun record => record.1 = id).map Prod.snd

/-- `Enqueue` adds the event of a valid session to the channel, or counts a drop. -/
theorem Writer.enqueue_cases (writer : Writer) (id : String) (event : Event) :
    (validSessionId id = true ∧ writer.enqueue id event =
        ({ writer with channel := writer.channel ++ [(id, event)] }, true)) ∨
      writer.enqueue id event = ({ writer with drops := writer.drops + 1 }, false) := by
  unfold enqueue
  split
  · exact Or.inr rfl
  · next admitted =>
      push Not at admitted
      split
      · exact Or.inl ⟨by simpa using admitted.2, rfl⟩
      · exact Or.inr rfl

/-- An event joins the queue of its session. -/
theorem Writer.queued_concat (writer : Writer) (id other : String) (event : Event) :
    { writer with channel := writer.channel ++ [(id, event)] }.queued other =
      writer.queued other ++ if id = other then [event] else [] := by
  simp only [queued, List.filter_append, List.map_append]
  by_cases same : id = other <;> simp [same]

/-- Writing moves the oldest event of the channel to its file. -/
theorem Writer.append_delivered {writer : Writer} {id : String} {event : Event}
    {rest : List (String × Event)} (first : writer.channel = (id, event) :: rest) (other : String) :
    (writer.append id event rest).files other ++ (writer.append id event rest).queued other =
      writer.files other ++ writer.queued other := by
  simp only [append, queued, first]
  by_cases same : other = id
  · simp [same]
  · simp [Function.update_of_ne same, Ne.symm same]

namespace Audit

/-- The events of a session on their way to its file: those in the file, in the
channel and in the hands of the operation that built them. -/
def delivered (audit : Audit Schema) (id : String) : List Event :=
  audit.writer.files id ++ (audit.writer.queued id ++ audit.outbox id)

/-- The events of a session are accounted for. -/
structure Accounted (env : Env) (audit : Audit Schema) (id : String) : Prop where
  named : (audit.sessions id).id = id
  continues : (audit.sessions id).Continues env (audit.built id)
  delivered : (audit.delivered id).Sublist (audit.built id)
  complete : (audit.delivered id ++ audit.dropped id).Perm (audit.built id)
  marked : audit.dropped id ≠ [] → (audit.sessions id).auditIncomplete = true
  valid : ∀ event ∈ audit.writer.files id ++ audit.writer.queued id, validSessionId id = true

variable {env : Env} {audit : Audit Schema}

/-- A step that leaves a session, its events and its history alone. -/
theorem Accounted.of_same {next : Audit Schema} {id : String} (accounted : audit.Accounted env id)
    (session : next.sessions id = audit.sessions id)
    (delivered : next.delivered id = audit.delivered id)
    (built : next.built id = audit.built id) (dropped : next.dropped id = audit.dropped id)
    (valid : ∀ event ∈ next.writer.files id ++ next.writer.queued id, validSessionId id = true) :
    next.Accounted env id where
  named := session ▸ accounted.named
  continues := by rw [session, built]; exact accounted.continues
  delivered := by rw [delivered, built]; exact accounted.delivered
  complete := by rw [delivered, built, dropped]; exact accounted.complete
  marked := by rw [session, dropped]; exact accounted.marked
  valid := valid

/-- A new operation hands over all it built. -/
theorem Accounted.call {id : String} (accounted : audit.Accounted env id)
    (call : SessionCall Schema) (unlocked : audit.outbox id = []) :
    (audit.operated id (call.apply env (audit.sessions id)).1
      (call.apply env (audit.sessions id)).2).Accounted env id := by
  obtain ⟨continues, named, -, incomplete, -⟩ := call.apply_extends accounted.continues
  have delivered := accounted.delivered
  have complete := accounted.complete
  simp only [Audit.delivered, unlocked, List.append_nil] at delivered complete
  refine
    { named := ?_, continues := ?_, delivered := ?_, complete := ?_, marked := fun some => ?_
      valid := accounted.valid }
  · simp only [operated, Function.update_self, named, accounted.named]
  · simpa only [operated, Function.update_self] using continues
  · simp only [operated, Audit.delivered, Function.update_self, ← List.append_assoc]
    exact delivered.append (List.Sublist.refl _)
  · simp only [operated, Audit.delivered, Function.update_self, ← List.append_assoc]
    rw [List.append_assoc _ _ (audit.dropped id)]
    refine (List.perm_append_comm.append_left _).trans ?_
    rw [← List.append_assoc]
    exact complete.append_right _
  · simp only [operated, Function.update_self]
    exact incomplete (accounted.marked some)

/-- An event is queued, or dropped with a mark on the session. -/
theorem Accounted.emit {id : String} {event : Event} {rest : List Event}
    (accounted : audit.Accounted env id) (held : audit.outbox id = event :: rest) :
    (audit.emitted id event rest).Accounted env id := by
  have delivered := accounted.delivered
  have complete := accounted.complete
  simp only [Audit.delivered, held] at delivered complete
  rcases audit.writer.enqueue_cases id event with ⟨valid, sent⟩ | refused
  · refine accounted.of_same ?_ ?_ ?_ ?_ fun _ _ => valid
    all_goals simp only [emitted, sent, ↓reduceIte]
    simp only [Audit.delivered, held, Writer.queued_concat, ↓reduceIte, Function.update_self,
      List.append_assoc, List.singleton_append]
  · have files : (audit.emitted id event rest).delivered id =
        audit.writer.files id ++ (audit.writer.queued id ++ rest) := by
      simp only [emitted, refused, Bool.false_eq_true, ↓reduceIte, Audit.delivered,
        Function.update_self]
      rfl
    refine
      { named := ?_, continues := ?_, delivered := ?_, complete := ?_, marked := fun _ => ?_
        valid := ?_ }
    · simp only [emitted, refused, Bool.false_eq_true, ↓reduceIte, Function.update_self,
        accounted.named]
    · simp only [emitted, refused, Bool.false_eq_true, ↓reduceIte, Function.update_self]
      have chain := accounted.continues
      exact ⟨chain.chained, chain.built, chain.seq, chain.prevHash⟩
    · rw [files]
      simp only [emitted, refused, Bool.false_eq_true, ↓reduceIte]
      refine List.Sublist.trans ?_ delivered
      exact ((List.sublist_cons_self event rest).append_left _).append_left _
    · rw [files]
      simp only [emitted, refused, Bool.false_eq_true, ↓reduceIte, Function.update_self]
      refine List.Perm.trans ?_ complete
      rw [← List.append_assoc _ (audit.dropped id), List.append_assoc _ _ (audit.dropped id),
        List.append_assoc _ _ (audit.dropped id), List.append_assoc _ _ [event],
        List.append_assoc _ _ [event], List.append_assoc _ _ (audit.dropped id),
        List.append_assoc _ _ (audit.dropped id)]
      exact ((List.perm_append_singleton event _).append_left _).append_left _
    · simp only [emitted, refused, Bool.false_eq_true, ↓reduceIte, Function.update_self]
    · simp only [emitted, refused, Bool.false_eq_true, ↓reduceIte]
      exact accounted.valid

/-- What an operation of one session does leaves the others alone. -/
theorem Accounted.other {id other : String} (accounted : audit.Accounted env other)
    (apart : other ≠ id) (session : Session Schema) (events : List Event) :
    (audit.operated id session events).Accounted env other := by
  refine accounted.of_same ?_ ?_ ?_ ?_ accounted.valid
  all_goals simp only [operated, Audit.delivered, Function.update_of_ne apart]

theorem Accounted.emitOther {id other : String} (accounted : audit.Accounted env other)
    (apart : other ≠ id) (event : Event) (rest : List Event) :
    (audit.emitted id event rest).Accounted env other := by
  rcases audit.writer.enqueue_cases id event with ⟨-, sent⟩ | refused
  · refine accounted.of_same ?_ ?_ ?_ ?_ ?_
    all_goals simp only [emitted, sent, ↓reduceIte]
    · simp only [Audit.delivered, Writer.queued_concat, if_neg (Ne.symm apart), List.append_nil,
        Function.update_of_ne apart]
    · simp only [Writer.queued_concat, if_neg (Ne.symm apart), List.append_nil]
      exact accounted.valid
  · refine accounted.of_same ?_ ?_ ?_ ?_ ?_
    all_goals simp only [emitted, refused, Bool.false_eq_true, ↓reduceIte,
      Function.update_of_ne apart]
    · simp only [Audit.delivered, Function.update_of_ne apart]
      rfl
    · exact accounted.valid

/-- Every step keeps the account of every session. -/
theorem Accounted.step {next : Audit Schema} {label : AuditLabel Schema}
    (accounted : ∀ id, audit.Accounted env id) (step : AuditStep env audit label next) (id : String) :
    next.Accounted env id := by
  cases step with
  | @call actor call unlocked =>
      by_cases same : id = actor
      · subst same
        exact (accounted id).call call unlocked
      · exact (accounted id).other same _ _
  | @emit actor event rest held =>
      by_cases same : id = actor
      · subst same
        exact (accounted id).emit held
      · exact (accounted id).emitOther same event rest
  | write queued =>
      refine (accounted id).of_same rfl ?_ rfl rfl ?_
      · simp only [Audit.delivered, ← List.append_assoc]
        rw [Writer.append_delivered queued]
      · rw [Writer.append_delivered queued]
        exact (accounted id).valid
  | close => exact (accounted id).of_same rfl rfl rfl rfl (accounted id).valid

/-- In every reachable state the events of every session are accounted for. -/
theorem Accounted.reachable {capacity : Nat} (reachable : (auditMachine env capacity).Reachable audit)
    (id : String) : audit.Accounted env id := by
  refine reachable.invariant (P := fun audit : Audit Schema => ∀ id, audit.Accounted env id)
    ?_ (fun _ _ _ accounted step => Accounted.step accounted step) id
  rintro _ rfl id
  have empty : Chained ([] : List Event) := fun position event present => absurd present (by simp)
  refine
    { named := rfl
      continues := ⟨empty, fun _ absent => absurd absent List.not_mem_nil, rfl,
        fun nonempty => absurd rfl nonempty⟩
      delivered := List.Sublist.refl []
      complete := List.Perm.refl []
      marked := fun nonempty => absurd rfl nonempty
      valid := fun _ absent => absurd absent List.not_mem_nil }

end Audit

/-! ## The calls of one session -/

/-- The call of a session a label stands for. -/
def AuditLabel.call? (id : String) : AuditLabel Schema → Option (SessionCall Schema)
  | .call actor made => if actor = id then some made else none
  | _ => none

/-- The calls of a session, in the order they were made. -/
def callsOf (id : String) (labels : List (AuditLabel Schema)) : List (SessionCall Schema) :=
  labels.filterMap (AuditLabel.call? id)

/-- A session changes with its own calls, except that a drop marks it: what every
call and every mark keeps holds of the session and of what it built. -/
theorem auditRun_session {env : Env} {capacity : Nat}
    {P : List (SessionCall Schema) → Session Schema → List Event → Prop} (id : String)
    (starts : P [] { id } [])
    (calls : ∀ calls session events call, P calls session events →
      session.Continues env events →
      P (calls ++ [call]) (call.apply env session).1 (events ++ (call.apply env session).2))
    (marks : ∀ calls session events, P calls session events →
      P calls { session with auditIncomplete := true } events)
    {labels : List (AuditLabel Schema)} {audit : Audit Schema}
    (run : (auditMachine env capacity).Run labels audit) :
    P (callsOf id labels) (audit.sessions id) (audit.built id) := by
  induction run with
  | start begins =>
      rw [begins]
      exact starts
  | @concat labels audit next label run step ih =>
      have accounted := Audit.Accounted.reachable ⟨labels, run⟩ id
      have appended : callsOf id (labels ++ [label]) = callsOf id labels ++ (label.call? id).toList := by
        rw [callsOf, List.filterMap_append]
        cases called : label.call? id <;> simp [called, callsOf]
      rw [appended]
      cases step with
      | @call actor call unlocked =>
          by_cases same : actor = id
          · subst same
            simp only [AuditLabel.call?, ↓reduceIte, Option.toList_some, Audit.operated,
              Function.update_self]
            exact calls _ _ _ call ih accounted.continues
          · simp only [AuditLabel.call?, same, ↓reduceIte, Option.toList_none, List.append_nil,
              Audit.operated, Function.update_of_ne (Ne.symm same)]
            exact ih
      | @emit actor event rest held =>
          simp only [AuditLabel.call?, Option.toList_none, List.append_nil, Audit.emitted]
          split
          · exact ih
          · by_cases same : id = actor
            · subst same
              simp only [Function.update_self]
              exact marks _ _ _ ih
            · simp only [Function.update_of_ne same]
              exact ih
      | write queued =>
          simp only [AuditLabel.call?, Option.toList_none, List.append_nil]
          exact ih
      | close =>
          simp only [AuditLabel.call?, Option.toList_none, List.append_nil]
          exact ih

end Proxy
