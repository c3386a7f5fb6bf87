import Anviq.Harness.Readback
import Anviq.Proxy.Chain

/-! # Unbroken lines

What the session operations record is made of the strings they are given and of
hashes. If none of those has a U+0085, every event they build stays on one line
of the log.
-/

namespace Harness

open Proxy (EventFields Event Env PinnedTool PendingChange SessionCall)

variable {Schema : Type}

/-! ## Texts -/

instance (text : String) : Decidable (Unbroken text) :=
  decidable_of_iff (text.toList.all (· ≠ '\u0085') = true) (by simp [Unbroken])

theorem Unbroken.append {left right : String} (unbrokenLeft : Unbroken left)
    (unbrokenRight : Unbroken right) : Unbroken (left ++ right) := by
  rw [Unbroken, String.toList_append]
  exact List.forall_mem_append.mpr ⟨unbrokenLeft, unbrokenRight⟩

/-- The name of a tool is one of its strings. -/
theorem unbroken_toolName {tool : Proxy.Tool} (unbroken : (Json.obj tool).AllStrings Unbroken) :
    Unbroken (Proxy.toolName tool) := by
  unfold Proxy.toolName
  split
  · next name found =>
      exact (Json.allStrings_obj.mp unbroken _ (Json.Members.mem_of_get? found)).2
  · decide

/-- The strings an operation takes from outside have no U+0085. -/
structure UnbrokenEnv (env : Env) : Prop where
  clock : ∀ seq, Unbroken (env.clock seq)
  hash : ∀ value hash, env.sha256Hex value = .ok hash → Unbroken hash

/-- The members of an event's kind have no U+0085. -/
def UnbrokenFields (fields : EventFields) : Prop :=
  (Json.obj fields.members).AllStrings Unbroken

theorem unbroken_policyDecision {server toolName action reason : String} (first : Unbroken server)
    (second : Unbroken toolName) (third : Unbroken action) (fourth : Unbroken reason) :
    UnbrokenFields (.policyDecision server toolName action reason) := by
  refine Json.allStrings_obj.mpr ?_
  simp only [EventFields.members, List.forall_mem_cons, List.not_mem_nil, false_implies,
    implies_true, and_true]
  exact ⟨⟨by decide, first⟩, ⟨by decide, second⟩, ⟨by decide, third⟩, by decide, fourth⟩

theorem unbroken_toolDefinition {server : String} {tool : Proxy.Tool} {defHash : String}
    (first : Unbroken server) (second : (Json.obj tool).AllStrings Unbroken)
    (third : Unbroken defHash) : UnbrokenFields (.toolDefinition server tool defHash) := by
  refine Json.allStrings_obj.mpr ?_
  simp only [EventFields.members, List.forall_mem_cons, List.not_mem_nil, false_implies,
    implies_true, and_true]
  exact ⟨⟨by decide, first⟩, ⟨by decide, second⟩, by decide, third⟩

/-! ## Events -/

/-- The type of an event is one of the schema's. -/
theorem type_mem (fields : EventFields) : fields.type ∈ eventTypes := by
  cases fields <;> simp [EventFields.type, eventTypes]

/-- An event stays on one line if its strings do. -/
theorem oneLine_of_sealed {env : Env} (unbroken : UnbrokenEnv env) {id : String} {event : Event}
    (identified : Unbroken id) (sealed : event.Sealed env id)
    (fields : UnbrokenFields event.fields)
    (prevHash : ∀ hash, event.prevHash = some hash → Unbroken hash) : OneLine event := by
  have hash : Unbroken event.eventHash := unbroken.hash _ _ sealed.hashed
  have ts : Unbroken event.ts := sealed.ts ▸ unbroken.clock _
  have type : Unbroken event.fields.type :=
    (by decide : ∀ type ∈ eventTypes, Unbroken type) _ (type_mem event.fields)
  have id : Unbroken event.sessionId := sealed.sessionId ▸ identified
  have fields := Json.allStrings_obj.mp fields
  have front : ∀ member ∈ [("v", Proxy.goInt 1), ("seq", Proxy.goInt event.seq),
      ("ts", .str event.ts), ("session_id", .str event.sessionId), ("type", .str event.fields.type)],
      Unbroken member.1 ∧ member.2.AllStrings Unbroken := by
    simp only [List.forall_mem_cons, List.not_mem_nil, false_implies, implies_true, and_true]
    exact ⟨⟨by decide, trivial⟩, ⟨by decide, trivial⟩, ⟨by decide, ts⟩, ⟨by decide, id⟩,
      by decide, type⟩
  refine Json.allStrings_obj.mpr (List.forall_mem_append.mpr ⟨?_, ?_⟩)
  · refine List.forall_mem_append.mpr ⟨List.forall_mem_append.mpr ⟨front, fields⟩,
      List.forall_mem_singleton.mpr ⟨(by decide : Unbroken "prev_hash"), ?_⟩⟩
    cases found : event.prevHash with
    | none => trivial
    | some hash => exact prevHash hash found
  · exact List.forall_mem_singleton.mpr ⟨(by decide : Unbroken "event_hash"), hash⟩

/-! ## Sessions -/

/-- A call whose strings have no U+0085. -/
def UnbrokenCall : SessionCall Schema → Prop
  | .ensureStarted agent => Unbroken agent
  | .emitEvent fields => UnbrokenFields fields
  | .observeDefinition server tool defHash _ schemaError =>
      Unbroken server ∧ (Json.obj tool).AllStrings Unbroken ∧ Unbroken defHash ∧
        Unbroken schemaError
  | .applyVerdict server toolName _ _ verdict =>
      Unbroken server ∧ Unbroken toolName ∧ Unbroken verdict.reason
  | .rejectDefinition server name reason => Unbroken server ∧ Unbroken name ∧ Unbroken reason

/-- The hashes of a pin have no U+0085. -/
structure UnbrokenPin (pin : PinnedTool Schema) : Prop where
  defHash : Unbroken pin.defHash
  newHash : ∀ change, pin.pending = some change → Unbroken change.newHash

/-- The hashes of all pins have no U+0085. -/
def UnbrokenPins (session : Proxy.Session Schema) : Prop :=
  ∀ key pin, session.pinned key = some pin → UnbrokenPin pin

theorem unbroken_update {session : Proxy.Session Schema} (unbroken : UnbrokenPins session)
    (key : String) {pin : PinnedTool Schema} (after : UnbrokenPin pin) :
    UnbrokenPins (session.setPin key pin) := by
  intro other found present
  rw [Proxy.Session.setPin_pinned, Function.update_apply] at present
  split at present
  · obtain rfl := Option.some.inj present
    exact after
  · exact unbroken other found present

section Observe

variable {server : String} {tool : Proxy.Tool} {defHash schemaError : String}

/-- An observation of unbroken strings is unbroken. -/
theorem unbroken_observe (first : Unbroken server) (second : (Json.obj tool).AllStrings Unbroken)
    (third : Unbroken defHash) (fourth : Unbroken schemaError) (schema : Option Schema)
    (nextChange : Nat) {found : Option (PinnedTool Schema)}
    (pinned : ∀ pin, found = some pin → UnbrokenPin pin) :
    UnbrokenPin (Proxy.observe server tool defHash schema schemaError nextChange found).pin ∧
      ∀ fields ∈
        (Proxy.observe server tool defHash schema schemaError nextChange found).events,
        UnbrokenFields fields := by
  have named := unbroken_toolName second
  have definition := unbroken_toolDefinition first second third
  have decision {action reason : String} (short : Unbroken action) (text : Unbroken reason) :=
    unbroken_policyDecision first named short text
  have unpending {pin : PinnedTool Schema} (hash : Unbroken pin.defHash)
      (cleared : pin.pending = none) : UnbrokenPin pin :=
    ⟨hash, fun change present => absurd (cleared.symm.trans present) (by simp)⟩
  refine Proxy.observe_cases (P := fun found observation =>
    (∀ pin, found = some pin → UnbrokenPin pin) → UnbrokenPin observation.pin ∧
      ∀ fields ∈ observation.events, UnbrokenFields fields) ?_ ?_ ?_ ?_ ?_ found pinned
  · refine fun _ => ⟨unpending third rfl, List.forall_mem_cons.mpr ⟨definition, ?_⟩⟩
    intro fields present
    split at present
    · rw [List.mem_singleton.mp present]
      exact decision (by decide) (.append (by decide) fourth)
    · exact absurd present List.not_mem_nil
  · intro pin same unbroken
    have before := unbroken pin rfl
    refine ⟨?_, fun fields present => ?_⟩
    · simp only [Proxy.observeUnchanged]
      split
      · exact unpending before.defHash rfl
      · exact ⟨before.defHash, before.newHash⟩
    · simp only [Proxy.observeUnchanged] at present
      split at present
      · rw [List.mem_singleton.mp present]
        exact decision (by decide) (by decide)
      · exact absurd present List.not_mem_nil
  · exact fun pin _ _ _ _ => ⟨unpending third rfl, List.forall_mem_singleton.mpr definition⟩
  · intro pin change _ _ outstanding _ unbroken
    have before := unbroken pin rfl
    simp only [Proxy.observePending]
    split_ifs
    · exact ⟨⟨before.defHash, before.newHash⟩, fun _ absent => absurd absent List.not_mem_nil⟩
    · refine ⟨⟨before.defHash, ?_⟩, fun _ absent => absurd absent List.not_mem_nil⟩
      rintro _ ⟨⟩
      exact before.newHash change outstanding
    · exact ⟨⟨before.defHash, before.newHash⟩, fun _ absent => absurd absent List.not_mem_nil⟩
  · intro pin _ _ _ unbroken
    have before := unbroken pin rfl
    refine ⟨⟨before.defHash, ?_⟩, List.forall_mem_cons.mpr ⟨definition, ?_⟩⟩
    · rintro _ ⟨⟩
      exact third
    · refine List.forall_mem_singleton.mpr (decision (by decide) ?_)
      split
      · exact .append (by decide) fourth
      · exact .append (.append (.append (.append (by decide) before.defHash) (by decide)) third)
          (by decide)

end Observe

/-- A call with unbroken strings builds unbroken events and keeps the pins so. -/
theorem unbroken_call {session : Proxy.Session Schema} (pins : UnbrokenPins session)
    {call : SessionCall Schema} (unbroken : UnbrokenCall call) :
    UnbrokenPins (call.settled session) ∧ ∀ fields ∈ call.kinds session, UnbrokenFields fields := by
  cases call with
  | ensureStarted agent =>
      simp only [SessionCall.settled, SessionCall.kinds]
      split
      · exact ⟨pins, fun _ absent => absurd absent List.not_mem_nil⟩
      · refine ⟨pins, List.forall_mem_singleton.mpr (Json.allStrings_obj.mpr ?_)⟩
        exact List.forall_mem_singleton.mpr ⟨(by decide : Unbroken "agent"), unbroken⟩
  | emitEvent fields => exact ⟨pins, List.forall_mem_singleton.mpr unbroken⟩
  | observeDefinition server tool defHash schema schemaError =>
      obtain ⟨first, second, third, fourth⟩ := unbroken
      obtain ⟨pin, events⟩ := unbroken_observe first second third fourth schema session.nextChange
        (pins (Proxy.key server (Proxy.toolName tool)))
      exact ⟨unbroken_update pins _ pin, events⟩
  | applyVerdict server toolName revision unreachable verdict =>
      obtain ⟨first, second, third⟩ := unbroken
      simp only [SessionCall.settled, SessionCall.kinds]
      split
      · exact ⟨pins, fun _ absent => absurd absent List.not_mem_nil⟩
      · next pin found =>
          split
          · exact ⟨pins, fun _ absent => absurd absent List.not_mem_nil⟩
          · next change outstanding =>
              split
              · exact ⟨pins, fun _ absent => absurd absent List.not_mem_nil⟩
              · have before := pins _ pin found
                refine ⟨unbroken_update pins _ ?_, fun fields present => ?_⟩
                · rw [PinnedTool.settle_pin]
                  split_ifs
                  · refine ⟨before.defHash, ?_⟩
                    rintro _ ⟨⟩
                    exact before.newHash change outstanding
                  · refine ⟨before.newHash change outstanding, fun _ absent => ?_⟩
                    exact absurd absent (by simp [PendingChange.promoted])
                  · refine ⟨before.defHash, ?_⟩
                    rintro _ ⟨⟩
                    exact before.newHash change outstanding
                · obtain ⟨action, reason, rfl, listed, text⟩ :=
                    pin.settle_kinds server toolName change unreachable verdict fields present
                  refine unbroken_policyDecision first second ?_ ?_
                  · exact (by decide : ∀ action ∈ ["allow", "warn", "block", "quarantine"],
                      Unbroken action) action listed
                  · rcases text with rfl | rfl
                    · exact third
                    · decide
  | rejectDefinition server name reason =>
      obtain ⟨first, second, third⟩ := unbroken
      refine ⟨unbroken_update pins _ ⟨?_, fun _ absent => absurd absent (by simp [Proxy.Session.rejected])⟩,
        List.forall_mem_singleton.mpr (unbroken_policyDecision first second (by decide)
          (.append (by decide) third))⟩
      cases found : session.pinned (Proxy.key server name) with
      | none => exact (by decide : Unbroken "")
      | some pin => exact (pins _ pin found).defHash

end Harness
