import Anviq.Json.Value
import Anviq.Json.Number

/-! # Audit events

The events the proxy appends to a session's hash chain. `EventFields` lists the
shapes its call sites build, one constructor for each kind of event, and
`Event.body` is the object `buildEventLocked` hashes: the common members, the
members of the kind, and the hash of the previous event.
-/

namespace Proxy

/-- A Go value decoded from JSON: every number is a `float64`. -/
abbrev GoJson := Json Number

/-- An MCP tool object, `map[string]any`. -/
abbrev Tool := Json.Members Number

/-- `tool["name"].(string)`, empty when the member is missing or not a string. -/
def toolName (tool : Tool) : String :=
  match tool.get? "name" with
  | some (.str name) => name
  | _ => ""

/-- Whole numbers as the encoder prints them. -/
def goInt (value : Int) : GoJson :=
  .num (Number.ofInt value)

/-- How a call ended: the upstream's result, or an error with its code when the
upstream gave one. -/
inductive CallResult where
  | result (value : GoJson)
  | error (code : Option Int) (message : String)

/-- The kind-specific members of an event. -/
inductive EventFields where
  | sessionStart (agent : String)
  | toolDefinition (server : String) (tool : Tool) (defHash : String)
  | toolCall (callId server toolName defHash : String) (args : GoJson)
  | toolResponse (callId : String) (latencyMs : Number) (outcome : CallResult)
  | policyDecision (server toolName action reason : String)

namespace EventFields

/-- The value of an event's `type` member. -/
def type : EventFields → String
  | .sessionStart _ => "session_start"
  | .toolDefinition .. => "tool_definition"
  | .toolCall .. => "tool_call"
  | .toolResponse .. => "tool_response"
  | .policyDecision .. => "policy_decision"

/-- The members a call site passes to `buildEventLocked`. -/
def members : EventFields → Json.Members Number
  | .sessionStart agent => [("agent", .str agent)]
  | .toolDefinition server tool defHash =>
      [("server", .str server), ("tool", .obj tool), ("def_hash", .str defHash)]
  | .toolCall callId server toolName defHash args =>
      [("call_id", .str callId), ("server", .str server), ("tool_name", .str toolName),
        ("def_hash", .str defHash), ("args", args)]
  | .toolResponse callId latencyMs (.result value) =>
      [("call_id", .str callId), ("latency_ms", .num latencyMs), ("ok", .bool true),
        ("result", value)]
  | .toolResponse callId latencyMs (.error none message) =>
      [("call_id", .str callId), ("latency_ms", .num latencyMs), ("ok", .bool false),
        ("error", .obj [("message", .str message)])]
  | .toolResponse callId latencyMs (.error (some code) message) =>
      [("call_id", .str callId), ("latency_ms", .num latencyMs), ("ok", .bool false),
        ("error", .obj [("code", goInt code), ("message", .str message)])]
  | .policyDecision server toolName action reason =>
      [("server", .str server), ("tool_name", .str toolName), ("action", .str action),
        ("reason", .str reason)]

end EventFields

/-- An event of a session's chain. -/
structure Event where
  seq : Nat
  ts : String
  sessionId : String
  fields : EventFields
  prevHash : Option String
  eventHash : String

/-- The members of an event before its own hash is added. -/
def eventBody (seq : Nat) (ts sessionId : String) (fields : EventFields)
    (prevHash : Option String) : Json.Members Number :=
  [("v", goInt 1), ("seq", goInt seq), ("ts", .str ts), ("session_id", .str sessionId),
    ("type", .str fields.type)] ++ fields.members ++
    [("prev_hash", match prevHash with
      | none => .null
      | some hash => .str hash)]

/-- The members an event's hash covers. -/
def Event.body (event : Event) : Json.Members Number :=
  eventBody event.seq event.ts event.sessionId event.fields event.prevHash

/-- The members of an event. -/
def Event.members (event : Event) : Json.Members Number :=
  event.body ++ [("event_hash", .str event.eventHash)]

/-- The object written to the log. -/
def Event.toJson (event : Event) : GoJson := .obj event.members

/-! ## Reading an event's members -/

namespace EventFields

/-- The names of the members a call site passes. -/
def names : List String :=
  ["agent", "server", "tool", "def_hash", "call_id", "tool_name", "args", "latency_ms", "ok",
    "result", "error", "action", "reason"]

/-- A call site passes none of the common members. -/
theorem names_members (fields : EventFields) :
    (fields.members.map Prod.fst).Nodup ∧ fields.members.map Prod.fst ⊆ names := by
  cases fields with
  | toolResponse callId latencyMs outcome =>
      cases outcome with
      | result value => exact ⟨by simp [members], by simp [members, names]⟩
      | error code message => cases code <;> exact ⟨by simp [members], by simp [members, names]⟩
  | _ => exact ⟨by simp [members], by simp [members, names]⟩

theorem get?_members (fields : EventFields) {name : String} (common : name ∉ names) :
    fields.members.get? name = none :=
  Json.Members.get?_eq_none.mpr fun present => common (fields.names_members.2 present)

end EventFields

namespace Event

variable (event : Event)

/-- The names of an event's members are different. -/
theorem names_nodup : (event.members.map Prod.fst).Nodup := by
  obtain ⟨distinct, among⟩ := event.fields.names_members
  have front : ∀ name ∈ EventFields.names, name ∉ ["v", "seq", "ts", "session_id", "type"] := by
    decide
  have back : ∀ name ∈ EventFields.names, name ∉ ["prev_hash", "event_hash"] := by decide
  have names : event.members.map Prod.fst = ["v", "seq", "ts", "session_id", "type"] ++
      (event.fields.members.map Prod.fst ++ ["prev_hash", "event_hash"]) := by
    simp [members, body, eventBody]
  rw [names]
  refine List.nodup_append.mpr ⟨by decide, List.nodup_append.mpr ⟨distinct, by decide, ?_⟩, ?_⟩
  · rintro name present _ last rfl
    exact back name (among present) last
  · rintro name present _ rest rfl
    rcases List.mem_append.mp rest with inner | last
    · exact front name (among inner) present
    · exact absurd last ((by decide : ∀ name ∈ ["v", "seq", "ts", "session_id", "type"],
        name ∉ ["prev_hash", "event_hash"]) name present)

/-- A common member. -/
theorem get?_common {name : String} (common : name ∉ EventFields.names) :
    event.members.get? name =
      Json.Members.get?
        [("v", goInt 1), ("seq", goInt event.seq), ("ts", .str event.ts),
          ("session_id", .str event.sessionId), ("type", .str event.fields.type),
          ("prev_hash", match event.prevHash with
            | none => .null
            | some hash => .str hash),
          ("event_hash", .str event.eventHash)] name := by
  have split : event.members =
      [("v", goInt 1), ("seq", goInt event.seq), ("ts", .str event.ts),
        ("session_id", .str event.sessionId), ("type", .str event.fields.type)] ++
        (event.fields.members ++
          [("prev_hash", match event.prevHash with
            | none => .null
            | some hash => .str hash),
          ("event_hash", .str event.eventHash)]) := by
    simp only [members, body, eventBody, List.append_assoc]
    rfl
  rw [split, Json.Members.get?_append, Json.Members.get?_append, event.fields.get?_members common,
    Option.none_or, ← Json.Members.get?_append]
  rfl

end Event

end Proxy
