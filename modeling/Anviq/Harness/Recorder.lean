import Anviq.Harness.PyValue
import Anviq.Harness.Recording
import Anviq.Machine.Dict
import Anviq.Machine.Run

/-! # The recorder

`recorder.py`: a session writes its events to a file, one line each, as its operations come.
What they are given are Python values, which `canonical_json` may refuse; the caller catches
what is raised and goes on. The first half of `call`, up to the function called, is one
operation and the response another, so that calls may nest and overlap.
-/

namespace Harness

/-! ## Python values -/

/-- A `str`. -/
abbrev PyText := List CodePoint

/-- The items of a `dict`. -/
abbrev PyItems := List (PyKey × PyValue)

/-- The `str` of a literal. -/
def pyText (text : String) : PyValue := .str (codePoints text)

/-- An item whose key is a literal. -/
def pyItem (item : String × PyValue) : PyKey × PyValue := (.str (codePoints item.1), item.2)

/-- The item has this key. -/
def isNamed (name : String) (item : PyKey × PyValue) : Bool :=
  item.1.text? = some (codePoints name)

/-- `items.get(name)`. -/
def PyItems.get? (items : PyItems) (name : String) : Option PyValue :=
  (items.find? (isNamed name)).map Prod.snd

/-! ## Hashes of definitions -/

/-- The strings of a list, if it holds nothing else. -/
def allTexts : List PyValue → Option (List PyText)
  | [] => some []
  | .str text :: elements => (allTexts elements).map (text :: ·)
  | _ :: _ => none

/-- `sorted(set(texts), key=lambda s: s.encode("utf-16-be"))`. -/
def sortedTexts (texts : List PyText) : Except PyError (List PyText) := do
  let keyed ← texts.dedup.mapM fun text => do
    let bytes ← textBytes text
    .ok (bytes, text)
  .ok ((keyed.insertionSort fun left right => !decide (right.1 < left.1)).map Prod.snd)

/-- The item of a normalised `dict`, where `required` is sorted if it is a list of strings. -/
def sortRequired (item : PyKey × PyValue) : Except PyError (PyKey × PyValue) :=
  if isNamed "required" item then
    match item.2 with
    | .list elements =>
        match allTexts elements with
        | some texts => do
            let sorted ← sortedTexts texts
            .ok (item.1, .list (sorted.map .str))
        | none => .ok item
    | _ => .ok item
  else .ok item

mutual

/-- `_normalize_schema`. A tuple is left as it is. -/
def normalizeValue : PyValue → Except PyError PyValue
  | .dict items => do
      let out ← normalizeItems items
      let sorted ← out.mapM sortRequired
      .ok (.dict sorted)
  | .list elements => do
      let out ← normalizeValues elements
      .ok (.list out)
  | node => .ok node

def normalizeValues : List PyValue → Except PyError (List PyValue)
  | [] => .ok []
  | element :: elements => do
      let first ← normalizeValue element
      let rest ← normalizeValues elements
      .ok (first :: rest)

def normalizeItems : List (PyKey × PyValue) → Except PyError (List (PyKey × PyValue))
  | [] => .ok []
  | (key, value) :: items => do
      if key.text? = some (codePoints "$comment") then normalizeItems items
      else
        let first ← normalizeValue value
        let rest ← normalizeItems items
        .ok ((key, first) :: rest)

end

/-- The item for an optional member of a definition. -/
def normalizedOptional (items : PyItems) (name : String) :
    Except PyError (List (String × PyValue)) :=
  match items.get? name with
  | some value => do
      let normalized ← normalizeValue value
      .ok [(name, normalized)]
  | none => .ok []

/-- `normalize_tool`. -/
def normalizeDefinition (items : PyItems) : Except PyError (List (String × PyValue)) :=
  match items.get? "name" with
  | none => .error (.keyError "name")
  | some name => do
      let inputSchema ← normalizeValue ((items.get? "inputSchema").getD (.dict []))
      let outputSchema ← normalizedOptional items "outputSchema"
      let annotations ← normalizedOptional items "annotations"
      .ok ([("name", name), ("description", (items.get? "description").getD (pyText "")),
          ("inputSchema", inputSchema)] ++ outputSchema ++ annotations)

/-- `sha256_hex`. -/
def valueHash (sha : String → String) (value : PyValue) : Except PyError String := do
  let text ← canonicalValue value
  .ok ("sha256:" ++ sha (String.ofList text))

/-- `tool_hash`. -/
def definitionHash (sha : String → String) (items : PyItems) : Except PyError String := do
  let normalized ← normalizeDefinition items
  valueHash sha (.dict (normalized.map pyItem))

/-- A definition a server listed: its name, if it has one, is a string. -/
structure Definition where
  items : PyItems
  name? : Option PyText
  named : items.get? "name" = name?.map .str

/-! ## Events -/

/-- The fields of an event beside those every event has. -/
inductive RecordFields where
  | sessionStart (agent : PyText) (metaItems : Option PyItems)
  | toolDefinition (server : PyText) (tool : PyItems) (defHash : String)
  | toolCall (callId server toolName defHash : PyText) (args : PyValue)
  | okResponse (callId : PyText) (result : PyValue) (latencyMs : PyNumber)
  | errorResponse (callId code message : PyText) (latencyMs : PyNumber)
  | policyDecision (server toolName action reason : PyText) (callId : Option PyText)
      (findings : Option (List PyValue))
  | sessionEnd (reason : String)

namespace RecordFields

/-- The `event_type` `_emit` is called with. -/
def type : RecordFields → String
  | sessionStart .. => "session_start"
  | toolDefinition .. => "tool_definition"
  | toolCall .. => "tool_call"
  | okResponse .. => "tool_response"
  | errorResponse .. => "tool_response"
  | policyDecision .. => "policy_decision"
  | sessionEnd .. => "session_end"

/-- The `fields` `_emit` is called with. -/
def items : RecordFields → List (String × PyValue)
  | sessionStart agent metaItems =>
      ("agent", .str agent) :: (metaItems.map fun items => ("meta", .dict items)).toList
  | toolDefinition server tool defHash =>
      [("server", .str server), ("tool", .dict tool), ("def_hash", pyText defHash)]
  | toolCall callId server toolName defHash args =>
      [("call_id", .str callId), ("server", .str server), ("tool_name", .str toolName),
        ("def_hash", .str defHash), ("args", args)]
  | okResponse callId result latencyMs =>
      [("call_id", .str callId), ("ok", .bool true), ("result", result),
        ("latency_ms", .num latencyMs)]
  | errorResponse callId code message latencyMs =>
      [("call_id", .str callId), ("ok", .bool false),
        ("error", .dict ([("code", .str code), ("message", .str message)].map pyItem)),
        ("latency_ms", .num latencyMs)]
  | policyDecision server toolName action reason callId findings =>
      [("server", .str server), ("tool_name", .str toolName), ("action", .str action),
        ("reason", .str reason)] ++
        (callId.map fun id => ("call_id", .str id)).toList ++
        (findings.map fun items => ("findings", .list items)).toList
  | sessionEnd reason => [("reason", pyText reason)]

end RecordFields

/-! ## The recorder -/

/-- What a recorder is made with. The clock and the identifiers are known by how often they
have been asked; `reprKey` is `repr` of a key of `_defs`. -/
structure RecorderSettings where
  sha : String → String
  sessionId : PyText
  agent : PyText
  metaItems : Option PyItems
  redact : PyValue → PyValue
  clock : Nat → PyText
  ids : Nat → PyText
  reprKey : PyText × PyText → String

/-- `Recorder`, and the text of its file. -/
structure Recorder where
  text : List Char := []
  seq : Nat := 0
  prevHash : Option String := none
  defs : Dict (PyText × PyText) String := .empty
  ticks : Nat := 0
  issued : Nat := 0
  closed : Bool := false

namespace Recorder

section Operations

variable (settings : RecorderSettings)

/-- The event `_emit` builds, before its hash. -/
def event (recorder : Recorder) (fields : RecordFields) : List (String × PyValue) :=
  [("v", .num (.int 1)), ("seq", .num (.int recorder.seq)),
    ("ts", .str (settings.clock recorder.ticks)), ("session_id", .str settings.sessionId),
    ("type", pyText fields.type), ("prev_hash", (recorder.prevHash.map pyText).getD .none)] ++
    fields.items

/-- The hash of an event, `event_hash`, and its text with the hash. -/
def sealEvent (event : List (String × PyValue)) : Except PyError (String × List Char) := do
  let unsealed := event.filter fun item => item.1 ≠ "event_hash"
  let hash ← valueHash settings.sha (.dict (unsealed.map pyItem))
  let text ← canonicalValue (.dict ((event ++ [("event_hash", pyText hash)]).map pyItem))
  .ok (hash, text)

/-- `_emit`. -/
def emit (recorder : Recorder) (fields : RecordFields) : Except PyError Unit × Recorder :=
  let ticked := { recorder with ticks := recorder.ticks + 1 }
  match sealEvent settings (recorder.event settings fields) with
  | .error error => (.error error, ticked)
  | .ok (hash, text) =>
      (.ok (), { ticked with
        text := recorder.text ++ text ++ ['\n'], seq := recorder.seq + 1, prevHash := some hash })

/-- `__enter__`. -/
def enter (recorder : Recorder) : Except PyError Unit × Recorder :=
  recorder.emit settings (.sessionStart settings.agent settings.metaItems)

/-- `__exit__`, of a session that failed or not. -/
def exit (recorder : Recorder) (failed : Bool) : Except PyError Unit × Recorder :=
  match recorder.emit settings (.sessionEnd (if failed then "error" else "completed")) with
  | (.ok (), next) => (.ok (), { next with closed := true })
  | (.error error, next) => (.error error, next)

/-- The body of the loop of `record_definitions`. -/
def recordDefinition (recorder : Recorder) (server : PyText) (tool : Definition) :
    Except PyError Unit × Recorder :=
  match tool.name? with
  | none => (.error (.keyError "name"), recorder)
  | some name =>
      match definitionHash settings.sha tool.items with
      | .error error => (.error error, recorder)
      | .ok hash =>
          if recorder.defs.get? (server, name) = some hash then (.ok (), recorder)
          else
            -- The table is ahead of the file if the emission fails.
            { recorder with defs := recorder.defs.assign (server, name) hash }.emit settings
              (.toolDefinition server tool.items hash)

/-- `record_definitions`. -/
def recordDefinitions (recorder : Recorder) (server : PyText) :
    List Definition → Except PyError Unit × Recorder
  | [] => (.ok (), recorder)
  | tool :: tools =>
      match recorder.recordDefinition settings server tool with
      | (.ok (), next) => next.recordDefinitions server tools
      | (.error error, next) => (.error error, next)

/-- `_def_hash`. -/
def defHash (recorder : Recorder) (server name : PyText) (tool : Option Definition) :
    Except PyError String × Recorder :=
  match recorder.defs.get? (server, name) with
  | some hash => (.ok hash, recorder)
  | none =>
      match tool with
      | none =>
          (.error (.keyError (s!"no definition recorded yet for {settings.reprKey (server, name)}; " ++
            "call record_definitions() first")), recorder)
      | some tool =>
          match recorder.recordDefinitions settings server [tool] with
          | (.error error, next) => (.error error, next)
          | (.ok (), next) =>
              match next.defs.get? (server, name) with
              | some hash => (.ok hash, next)
              | none => (.error (.keyError (settings.reprKey (server, name))), next)

/-- `wrap`, up to the function it returns. -/
def wrap (recorder : Recorder) (server : PyText) (tool : Definition) :
    Except PyError Unit × Recorder :=
  match tool.name? with
  | none => (.error (.keyError "name"), recorder)
  | some name =>
      match recorder.defHash settings server name (some tool) with
      | (.ok _, next) => (.ok (), next)
      | (.error error, next) => (.error error, next)

/-- `emit_call`: the identifier of the call. -/
def emitCall (recorder : Recorder) (server name defHash : PyText) (args : PyItems) :
    Except PyError PyText × Recorder :=
  let callId := settings.ids recorder.issued
  match { recorder with issued := recorder.issued + 1 }.emit settings
      (.toolCall callId server name defHash (settings.redact (.dict args))) with
  | (.ok (), next) => (.ok callId, next)
  | (.error error, next) => (.error error, next)

/-- `call`, up to the call of the function: the identifier of the call. -/
def startCall (recorder : Recorder) (server name : PyText) (args : PyItems)
    (tool : Option Definition) : Except PyError PyText × Recorder :=
  match recorder.defHash settings server name tool with
  | (.ok hash, next) => next.emitCall settings server name (codePoints hash) args
  | (.error error, next) => (.error error, next)

/-- `emit_ok_response`; `latencyMs` is `elapsed_seconds * 1000`. -/
def emitOkResponse (recorder : Recorder) (callId : PyText) (result : PyValue)
    (latencyMs : PyNumber) : Except PyError Unit × Recorder :=
  recorder.emit settings (.okResponse callId (settings.redact result) latencyMs)

/-- `emit_error_response` for an exception of the type `code`. -/
def emitErrorResponse (recorder : Recorder) (callId code message : PyText)
    (latencyMs : PyNumber) : Except PyError Unit × Recorder :=
  recorder.emit settings (.errorResponse callId code message latencyMs)

/-- `policy_decision`. -/
def policyDecision (recorder : Recorder) (server toolName action reason : PyText)
    (callId : Option PyText) (findings : Option (List PyValue)) :
    Except PyError Unit × Recorder :=
  recorder.emit settings (.policyDecision server toolName action reason callId findings)

end Operations

end Recorder

/-! ## Sessions -/

/-- An operation on a recorder that has been entered. -/
inductive Operation where
  | recordDefinitions (server : PyText) (tools : List Definition)
  | wrap (server : PyText) (tool : Definition)
  | startCall (server name : PyText) (args : PyItems) (tool : Option Definition)
  | emitCall (server name defHash : PyText) (args : PyItems)
  | emitOkResponse (callId : PyText) (result : PyValue) (latencyMs : PyNumber)
  | emitErrorResponse (callId code message : PyText) (latencyMs : PyNumber)
  | policyDecision (server toolName action reason : PyText) (callId : Option PyText)
      (findings : Option (List PyValue))
  | exit (failed : Bool)

/-- A recorder, and the calls its caller has been given and has not recorded a response of. -/
structure Session where
  recorder : Recorder
  pending : List PyText := []

/-- A session after an operation that starts no call. -/
def Session.after (session : Session) (outcome : Except PyError Unit × Recorder) :
    Except PyError Unit × Session :=
  (outcome.1, { session with recorder := outcome.2 })

/-- A session after an operation that starts a call. -/
def Session.called (session : Session) (outcome : Except PyError PyText × Recorder) :
    Except PyError Unit × Session :=
  match outcome with
  | (.ok callId, next) => (.ok (), { recorder := next, pending := callId :: session.pending })
  | (.error error, next) => (.error error, { session with recorder := next })

/-- A session after the response of a call. -/
def Session.answered (session : Session) (callId : PyText)
    (outcome : Except PyError Unit × Recorder) : Except PyError Unit × Session :=
  match outcome with
  | (.ok (), next) => (.ok (), { recorder := next, pending := session.pending.erase callId })
  | (.error error, next) => (.error error, { session with recorder := next })

/-- What an operation raises, and the session after it. -/
def Session.handle (settings : RecorderSettings) (session : Session) :
    Operation → Except PyError Unit × Session
  | .recordDefinitions server tools =>
      session.after (session.recorder.recordDefinitions settings server tools)
  | .wrap server tool => session.after (session.recorder.wrap settings server tool)
  | .startCall server name args tool =>
      session.called (session.recorder.startCall settings server name args tool)
  | .emitCall server name defHash args =>
      session.called (session.recorder.emitCall settings server name defHash args)
  | .emitOkResponse callId result latencyMs =>
      session.answered callId (session.recorder.emitOkResponse settings callId result latencyMs)
  | .emitErrorResponse callId code message latencyMs =>
      session.answered callId
        (session.recorder.emitErrorResponse settings callId code message latencyMs)
  | .policyDecision server toolName action reason callId findings =>
      session.after
        (session.recorder.policyDecision settings server toolName action reason callId findings)
  | .exit failed => session.after (session.recorder.exit settings failed)

/-- A session from when it is entered until its file is closed. The caller catches what the
operations raise. -/
def recorderMachine (settings : RecorderSettings) : Machine Session Operation where
  start session := session.pending = [] ∧ Recorder.enter settings {} = (.ok (), session.recorder)
  step session operation next :=
    session.recorder.closed = false ∧ (session.handle settings operation).2 = next

end Harness
