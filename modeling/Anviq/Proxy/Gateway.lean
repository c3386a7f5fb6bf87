import Anviq.Proxy.Canonical
import Anviq.Proxy.Rpc

/-! # The gateway

What the gateway does with a request: `tools/list` answers are inspected one
definition at a time before the agent sees them, `tools/call` requests are
checked against the session's pin before they are forwarded, and anything else
is passed on.

A handler is cut at the session operations it performs, each of which runs under
the session's lock. `Gateway` holds what is fixed for a process, `Surroundings`
what a step reads that may be different at the next one.
-/

namespace Proxy

variable {Schema : Type}

/-- What the process provides. `validate` is `Schema.Validate` on a decoded
instance. -/
structure Gateway (Schema : Type) where
  env : Env
  parseFloat : String → Option Number
  validate : Schema → RawJson → Except String Unit

/-- What a step finds outside its session: the quarantine snapshot, the schema
cache, the control plane's answer or its absence, the upstream's body or the
transport error, the nanosecond clock in a call id, and the measured latency. -/
structure Surroundings (Schema : Type) where
  quarantined : String → String → Bool
  compiled : String → Json.Members Number → Except String Schema
  control : Option Verdict := none
  upstream : Except String String := .error ""
  unixNano : Nat := 0
  latencyMs : Number := .zero false
  relist : Bool := false

/-! ## Inspecting a definition -/

/-- The change a goroutine of `reportAndApply` reports. -/
structure Report where
  server : String
  tool : String
  revision : Nat
  oldHash : String
  newHash : String
  oldDef : Tool
  newDef : Tool

/-- The report an outcome calls for. -/
def ListOutcome.report? (outcome : ListOutcome) (server tool : String) : Option Report :=
  if outcome.action = .mismatch ∨ outcome.action = .retry then
    some
      { server, tool, revision := outcome.revision, oldHash := outcome.oldHash
        newHash := outcome.newHash, oldDef := outcome.oldTool, newDef := outcome.newTool }
  else none

/-- The compiled schema and the schema error of an observation. -/
def compileResult (compiled : Except String Schema) : Option Schema × String :=
  match compiled with
  | .ok schema => (some schema, "")
  | .error detail => (none, "schemacache: " ++ detail)

/-- `observeTool` without the report it starts. -/
def observeTool (env : Env) (compiled : String → Json.Members Number → Except String Schema)
    (server : String) (session : Session Schema) (tool : Tool) :
    Session Schema × List Event × ListOutcome :=
  let name := toolName tool
  if name = "" then
    let (next, events) := session.emitEvent env
      (.policyDecision server "" "block" "TOOL_SCHEMA_INVALID: tool name is missing")
    (next, events, { action := .invalid, key := "", schemaError := "tool name is missing" })
  else
    match env.toolHash tool with
    | .error error =>
        let (next, events) := session.rejectDefinition env server name
          ("definition cannot be hashed: " ++ error)
        (next, events, { action := .invalid, key := "", schemaError := error })
    | .ok defHash =>
        match tool.get? "inputSchema" with
        | some (.obj inputSchema) =>
            let (schema, schemaError) := compileResult (compiled defHash inputSchema)
            session.observeDefinition env server tool defHash schema schemaError
        | _ =>
            let (next, events) := session.rejectDefinition env server name
              "inputSchema must be a JSON object"
            (next, events, { action := .invalid, key := "" })

/-! ## Inspecting a list -/

/-- Why a list is withheld from the agent. -/
structure ListBlock where
  code : ErrorCode
  reason : String
  message : String
  tool : String := ""
deriving DecidableEq

/-- The answer to a list that cannot be inspected. -/
def invalidList : ListBlock where
  code := .definitionInvalid
  reason := "TOOL_SCHEMA_INVALID"
  message := "upstream returned an invalid tools/list response"

/-- The answer to a list with a quarantined tool. -/
def quarantinedList (name : String) : ListBlock where
  code := .toolQuarantined
  reason := "TOOL_QUARANTINED"
  message := "tools/list withheld because it contains a quarantined tool"
  tool := name

/-- The block an outcome calls for. -/
def ListOutcome.block? (outcome : ListOutcome) (name : String) : Option ListBlock :=
  match outcome.action with
  | .invalid =>
      some
        { code := .definitionInvalid, reason := "TOOL_SCHEMA_INVALID", tool := name
          message := "tools/list withheld because a tool definition is invalid" }
  | .mismatch | .pending | .retry =>
      some
        { code := .contractChanged, reason := "TOOL_CONTRACT_CHANGED", tool := name
          message :=
            "tools/list withheld because a tool contract changed and has not been cleared" }
  | .pinned | .unchanged => none

/-- The accumulators of the loop of `observeListResponse`. -/
structure Listing where
  seen : List String := []
  blocked : Option ListBlock := none

/-- What one round of the loop does. -/
structure Inspection (Schema : Type) where
  session : Session Schema
  events : List Event
  listing : Listing
  report : Option Report := none

/-- The quarantine decision a list or a call records. -/
def quarantineEvent (server name : String) : EventFields :=
  .policyDecision server name "quarantine" "tool is quarantined for all sessions"

/-- One round of the loop of `observeListResponse`: every tool is inspected, even
after a blocked one. -/
def inspectTool (env : Env) (around : Surroundings Schema) (server : String)
    (session : Session Schema) (listing : Listing) (tool : Tool) : Inspection Schema :=
  let name := toolName tool
  if name ∈ listing.seen then
    let (session, events) :=
      session.rejectDefinition env server name "duplicate tool name in tools/list"
    { session, events, listing := { listing with blocked := some invalidList } }
  else
    let seen := name :: listing.seen
    if name ≠ "" ∧ around.quarantined server name then
      let (session, events) := session.emitEvent env (quarantineEvent server name)
      { session, events, listing := { seen, blocked := some (quarantinedList name) } }
    else
      let (session, events, outcome) := observeTool env around.compiled server session tool
      { session, events
        listing := { seen, blocked := listing.blocked.or (outcome.block? name) }
        report := outcome.report? server name }

/-- What `observeListResponse` makes of a body before it looks at any tool. -/
inductive ListReading where
  | invalid
  | errored
  | tools (tools : List Tool)

/-- The tools of a `tools/list` response. An `error` member ends the inspection. -/
def readList (parseFloat : String → Option Number) (body : String) : ListReading :=
  match (unmarshal body).bind fun tree => (Response.decode parseFloat tree).checked with
  | none => .invalid
  | some response =>
      if response.error.isSome then .errored
      else
        match response.result.bind fun tree => (decodeToolsListResult parseFloat tree).checked with
        | some (some tools) => .tools tools
        | _ => .invalid

/-- The loop of `observeListResponse` over the tools of a list. -/
def inspectTools (env : Env) (around : Surroundings Schema) (server : String)
    (session : Session Schema) (listing : Listing) : List Tool → Session Schema × Listing
  | [] => (session, listing)
  | tool :: tools =>
      let inspection := inspectTool env around server session listing tool
      inspectTools env around server inspection.session inspection.listing tools

/-- `observeListResponse` without interruption: the session after it and the block
it returns. -/
def observeListResponse (gateway : Gateway Schema) (around : Surroundings Schema) (server : String)
    (session : Session Schema) (body : String) : Session Schema × Option ListBlock :=
  match readList gateway.parseFloat body with
  | .invalid => (session, some invalidList)
  | .errored => (session, none)
  | .tools tools =>
      let (session, listing) := inspectTools gateway.env around server session {} tools
      (session, listing.blocked)

/-- What the agent is sent for a `tools/list`. -/
inductive ListReply where
  | unreachable (error : String)
  | blocked (block : ListBlock)
  | through (body : String)
deriving DecidableEq

/-- `handleToolsList`. -/
def handleToolsList (gateway : Gateway Schema) (around : Surroundings Schema) (server : String)
    (session : Session Schema) : Session Schema × ListReply :=
  match around.upstream with
  | .error error => (session, .unreachable error)
  | .ok body =>
      match observeListResponse gateway around server session body with
      | (session, some block) => (session, .blocked block)
      | (session, none) => (session, .through body)

/-! ## Checking a call -/

mutual

/-- `validateJSONNumberLengths` finds a number of more than `limit` characters. -/
def hasLongNumber (limit : Nat) : RawJson → Bool
  | .num token => limit < token.length
  | .arr elements => hasLongElement limit elements
  | .obj members => hasLongMember limit members
  | _ => false

def hasLongElement (limit : Nat) : List RawJson → Bool
  | [] => false
  | element :: elements => hasLongNumber limit element || hasLongElement limit elements

def hasLongMember (limit : Nat) : Json.Members String → Bool
  | [] => false
  | (_, value) :: members => hasLongNumber limit value || hasLongMember limit members

end

/-- `maxJSONNumberBytes`. -/
def maxJSONNumberBytes : Nat := 4096

/-- What the checks of a call's arguments say. A nil schema checks nothing. -/
inductive ArgumentsCheck where
  | accepted
  | numberTooLong
  | notJson (error : String)
  | violates (error : String)

/-- The checks of a call's arguments. The instance is the raw arguments as
`jsonschema.UnmarshalJSON` decodes them. -/
def checkArguments (validate : Schema → RawJson → Except String Unit) (schema : Option Schema)
    (arguments : Option RawJson) : ArgumentsCheck :=
  match schema with
  | none => .accepted
  | some schema =>
      match arguments with
      | none => .notJson "EOF"
      | some arguments =>
          if hasLongNumber maxJSONNumberBytes arguments then .numberTooLong
          else
            match validate schema arguments.collapse with
            | .ok () => .accepted
            | .error error => .violates error

/-! ## Goroutines -/

/-- The request of a body; a body that does not decode is answered with an error. -/
def readRequest (body : String) : Option Request :=
  (unmarshal body).bind fun tree => (Request.decode tree).checked

/-- Where a goroutine of the gateway stands between two session operations. -/
inductive Goroutine (Schema : Type) where
  /-- `ServeHTTP` with the body of a request. -/
  | arrived (server agent body : String)
  /-- The handler the method selects. -/
  | dispatched (server : String) (request : Request)
  /-- `maybeRelist` waiting for the upstream's list. -/
  | relisting (server : String)
  /-- The loop of `observeListResponse`, with the body the agent is sent if nothing blocks it; a
  list the proxy asked for itself is for no agent. -/
  | inspecting (server : String) (held : Option String) (listing : Listing) (tools : List Tool)
  /-- `reportAndApply` waiting for the control plane. -/
  | reporting (report : Report)
  /-- A call that `PrepareCall` allowed. -/
  | allowed (server : String) (params : CallParams) (decision : CallDecision Schema)
  /-- A call whose fail-open warning has been recorded, if it needs one. -/
  | warned (server : String) (params : CallParams) (decision : CallDecision Schema)
  /-- A call waiting for the upstream's answer. -/
  | posted (server callId : String)
  /-- `recordCallFailure` after its first event. -/
  | failed (callId reason : String)

/-- What a goroutine does at one session operation: the session after it, the
events the operation built, and the goroutines that go on. -/
structure Turn (Schema : Type) where
  session : Session Schema
  events : List Event := []
  next : List (Goroutine Schema) := []

/-- A turn that only emits an event. -/
def emitTurn (env : Env) (session : Session Schema) (fields : EventFields)
    (next : List (Goroutine Schema)) : Turn Schema :=
  let (session, events) := session.emitEvent env fields
  { session, events, next }

/-- The goroutines that go on when the upstream's list has arrived, which an agent has asked for
or the proxy itself. -/
def startInspection (parseFloat : String → Option Number) (server : String) (asked : Bool)
    (upstream : Except String String) : List (Goroutine Schema) :=
  match upstream with
  | .error _ => []
  | .ok body =>
      match readList parseFloat body with
      | .tools tools => [.inspecting server (if asked then some body else none) {} tools]
      | _ => []

/-- A raw message as an event records it; nil when it is missing. -/
def recorded (parseFloat : String → Option Number) (message : Option RawJson) : GoJson :=
  (message.map (decodeAny parseFloat)).getD .null

/-- The id of a call. -/
def callId (sessionId : String) (unixNano : Nat) : String := sessionId ++ "-" ++ toString unixNano

/-- The outcome of a call as its event records it. -/
def callResult (parseFloat : String → Option Number) (upstream : Except String String) :
    CallResult :=
  match upstream with
  | .error error => .error none error
  | .ok body =>
      let response : Decoded Response :=
        ((unmarshal body).map (Response.decode parseFloat)).getD { value := {}, fits := false }
      match response.value.error with
      | some error => .error (some error.code) error.message
      | none =>
          if response.fits then .result (recorded parseFloat response.value.result)
          else .error none "upstream returned a non-JSON-RPC response"

section Turns

variable (gateway : Gateway Schema) (around : Surroundings Schema) (session : Session Schema)

/-- `handleToolsCall` up to the answer of `PrepareCall`. -/
def dispatchCall (server : String) (request : Request) : Turn Schema :=
  match request.params.bind fun tree => (CallParams.decode tree).checked with
  | none => { session }
  | some params =>
      if params.name = "" then { session }
      else if around.quarantined server params.name then
        emitTurn gateway.env session (quarantineEvent server params.name) []
      else
        let decision := session.prepareCall server params.name
        if decision.allow then { session, next := [.allowed server params decision] }
        else { session }

/-- `handleToolsCall` from the checks of the arguments to the event of the call. -/
def auditCall (server : String) (params : CallParams) (decision : CallDecision Schema) :
    Turn Schema :=
  let id := callId session.id around.unixNano
  let call : EventFields := .toolCall id server params.name decision.defHash
    (recorded gateway.parseFloat params.arguments)
  match checkArguments gateway.validate decision.schema params.arguments with
  | .accepted => emitTurn gateway.env session call [.posted server id]
  | .numberTooLong =>
      emitTurn gateway.env session (.policyDecision server params.name "block"
        "ARGS_NUMBER_TOO_LONG: numeric argument exceeds 4096 bytes") []
  | .notJson error =>
      emitTurn gateway.env session (.policyDecision server params.name "block"
        ("ARGS_NOT_JSON: " ++ error)) []
  | .violates error =>
      emitTurn gateway.env session call [.failed id ("ARGS_SCHEMA_VIOLATION: " ++ error)]

/-- The turn of a goroutine. -/
def Goroutine.turn : Goroutine Schema → Turn Schema
  | .arrived server agent body =>
      match readRequest body with
      | none => { session }
      | some request =>
          let (session, events) := session.ensureStarted gateway.env agent
          { session, events, next := [.dispatched server request] }
  | .dispatched server request =>
      if request.method = "tools/list" then
        { session, next := startInspection gateway.parseFloat server true around.upstream }
      else if request.method = "tools/call" then
        dispatchCall gateway around session server request
      else { session }
  | .relisting server =>
      { session, next := startInspection gateway.parseFloat server false around.upstream }
  | .inspecting _ _ _ [] => { session }
  | .inspecting server held listing (tool :: tools) =>
      let inspection := inspectTool gateway.env around server session listing tool
      { session := inspection.session
        events := inspection.events
        next := .inspecting server held inspection.listing tools ::
          (inspection.report.map .reporting).toList }
  | .reporting report =>
      let (session, events) := session.applyVerdict gateway.env report.server report.tool
        report.revision around.control.isNone (around.control.getD {})
      { session, events }
  | .allowed server params decision =>
      if decision.code ≠ "" then
        emitTurn gateway.env session (.policyDecision server params.name "warn"
          (decision.code ++ ": " ++ decision.message)) [.warned server params decision]
      else { session, next := [.warned server params decision] }
  | .warned server params decision => auditCall gateway around session server params decision
  | .posted server callId =>
      emitTurn gateway.env session
        (.toolResponse callId around.latencyMs (callResult gateway.parseFloat around.upstream))
        (if around.upstream.isOk && around.relist then [.relisting server] else [])
  | .failed callId reason =>
      emitTurn gateway.env session
        (.toolResponse callId (.zero false) (.error none reason)) []

end Turns

/-! ## Answering a list -/

/-- What is written for a list that has been inspected. -/
def Listing.reply (listing : Listing) (body : String) : ListReply :=
  match listing.blocked with
  | some block => .blocked block
  | none => .through body

/-- The server of a goroutine, and what the agent is sent at its turn for a `tools/list`. -/
def Goroutine.listReply? (gateway : Gateway Schema) (around : Surroundings Schema) :
    Goroutine Schema → Option (String × ListReply)
  | .dispatched server request =>
      if request.method = "tools/list" then
        match around.upstream with
        | .error error => some (server, .unreachable error)
        | .ok body =>
            match readList gateway.parseFloat body with
            | .invalid => some (server, .blocked invalidList)
            | .errored => some (server, .through body)
            | .tools _ => none
      else none
  | .inspecting server (some body) listing [] => some (server, listing.reply body)
  | _ => none

end Proxy
