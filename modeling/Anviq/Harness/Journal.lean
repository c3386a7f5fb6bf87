import Anviq.Harness.NoTrace
import Anviq.Harness.Replay

/-! # What a session is a journal of

`Journal` says what a recorder is for: the definitions of the tools, each time they change, the
calls with their arguments and how they ended, and the decisions of a policy. A session whose
operations all return leaves a file from which `load` reads its journal back: every value is one
`canonical_json` writes as it wrote the one that was recorded.
-/

namespace Harness

/-! ## Journals -/

/-- How a call ended. -/
inductive Outcome where
  | result (value : PyValue) (latencyMs : PyNumber)
  | error (code message : PyText) (latencyMs : PyNumber)

/-- A call, and how it ended if it has. -/
structure JournalCall where
  callId : PyText
  server : PyText
  toolName : PyText
  defHash : PyText
  args : PyValue
  outcome : Option Outcome := none

/-- A definition that became the one in force. -/
structure JournalDefinition where
  server : PyText
  name : PyText
  items : PyItems
  hash : String

/-- What a policy has decided about a tool. -/
structure JournalDecision where
  server : PyText
  toolName : PyText
  action : PyText
  reason : PyText
  callId : Option PyText
  findings : Option (List PyValue)

/-- What a session is to record. -/
structure Journal where
  definitions : List JournalDefinition := []
  calls : List JournalCall := []
  decisions : List JournalDecision := []

namespace Journal

/-- The hash of the definition in force. -/
def inForce (journal : Journal) (server name : PyText) : Option String :=
  (journal.definitions.filter fun definition =>
    decide (definition.server = server ∧ definition.name = name)).getLast?.map
      JournalDefinition.hash

/-- A definition that is listed becomes the one in force, unless it is. -/
def list (sha : String → String) (journal : Journal) (server : PyText) (tool : Definition) :
    Journal :=
  match tool.name?, definitionHash sha tool.items with
  | some name, .ok hash =>
      if journal.inForce server name = some hash then journal
      else
        { journal with
          definitions := journal.definitions ++ [{ server, name, items := tool.items, hash }] }
  | _, _ => journal

/-- The definition that comes with a call is listed if there is none. -/
def ensure (sha : String → String) (journal : Journal) (server name : PyText)
    (tool : Option Definition) : Journal :=
  match journal.inForce server name, tool with
  | none, some tool => journal.list sha server tool
  | _, _ => journal

section Calls

variable (settings : RecorderSettings)

/-- A call is given the next identifier, and its arguments are redacted. -/
def call (journal : Journal) (server toolName defHash : PyText) (args : PyItems) : Journal :=
  { journal with
    calls := journal.calls ++ [{
      callId := settings.ids journal.calls.length
      server, toolName, defHash
      args := settings.redact (.dict args) }] }

/-- The call of this identifier has ended. -/
def settle (journal : Journal) (callId : PyText) (outcome : Outcome) : Journal :=
  { journal with
    calls := journal.calls.map fun call =>
      if call.callId = callId then { call with outcome := some outcome } else call }

/-- What an operation that returns adds. -/
def record (journal : Journal) : Operation → Journal
  | .recordDefinitions server tools =>
      tools.foldl (fun journal tool => journal.list settings.sha server tool) journal
  | .wrap server tool =>
      match tool.name? with
      | some name => journal.ensure settings.sha server name (some tool)
      | none => journal
  | .startCall server name args tool =>
      let journal := journal.ensure settings.sha server name tool
      match journal.inForce server name with
      | some hash => journal.call settings server name (codePoints hash) args
      | none => journal
  | .emitCall server name defHash args => journal.call settings server name defHash args
  | .emitOkResponse callId result latencyMs =>
      journal.settle callId (.result (settings.redact result) latencyMs)
  | .emitErrorResponse callId code message latencyMs =>
      journal.settle callId (.error code message latencyMs)
  | .policyDecision server toolName action reason callId findings =>
      { journal with
        decisions := journal.decisions ++ [{ server, toolName, action, reason, callId, findings }] }
  | .exit _ => journal

/-- The journal of a session. -/
def ofOperations (operations : List Operation) : Journal :=
  operations.foldl (record settings) {}

end Calls

/-- The definitions a recording keeps under a key. -/
def versions (journal : Journal) (key : PyJson × PyJson) : List JournalDefinition :=
  journal.definitions.filter fun definition =>
    decide ((PyValue.str definition.server).json? = some key.1 ∧
      (PyValue.str definition.name).json? = some key.2)

end Journal

/-! ## Reproductions -/

/-- `canonical_json` writes what was read as it wrote what was recorded. -/
def Reproduces (json : PyJson) (value : PyValue) : Prop :=
  ∃ text, canonicalValue value = .ok text ∧ canonicalJson json = .ok text

/-- A text is read as it was. -/
def ReadsText (json : PyJson) (codes : PyText) : Prop :=
  ∃ text, codes = codePoints text ∧ json = .str text

structure JournalDefinition.Reproduced (definition : JournalDefinition) (version : ToolVersion) :
    Prop where
  server : ReadsText version.server definition.server
  name : ReadsText version.name definition.name
  tool : Reproduces (.obj version.tool) (.dict definition.items)
  hash : version.defHash = .str definition.hash

/-- The members of a record that a response sets. -/
def Outcome.Reproduced (record : CallRecord) : Option Outcome → Prop
  | none => record.ok = .null ∧ record.result = .null ∧ record.error = .null ∧
      record.latencyMs = .null
  | some (.result value latencyMs) => record.ok = .bool true ∧ Reproduces record.result value ∧
      record.error = .null ∧ Reproduces record.latencyMs (.num latencyMs)
  | some (.error code message latencyMs) => record.ok = .bool false ∧ record.result = .null ∧
      Reproduces record.error (.dict ([("code", .str code), ("message", .str message)].map pyItem)) ∧
      Reproduces record.latencyMs (.num latencyMs)

structure JournalCall.Reproduced (call : JournalCall) (record : CallRecord) : Prop where
  callId : ReadsText record.callId call.callId
  server : ReadsText record.server call.server
  toolName : ReadsText record.toolName call.toolName
  defHash : ReadsText record.defHash call.defHash
  args : Reproduces record.args call.args
  outcome : Outcome.Reproduced record call.outcome

/-- The event has what was decided, and `null` for what was left out. -/
structure JournalDecision.Reproduced (decision : JournalDecision) (event : PyDict) : Prop where
  server : ReadsText (getOrNone event "server") decision.server
  toolName : ReadsText (getOrNone event "tool_name") decision.toolName
  action : ReadsText (getOrNone event "action") decision.action
  reason : ReadsText (getOrNone event "reason") decision.reason
  callId : match decision.callId with
    | some callId => ReadsText (getOrNone event "call_id") callId
    | none => getOrNone event "call_id" = .null
  findings : match decision.findings with
    | some findings => Reproduces (getOrNone event "findings") (.list findings)
    | none => getOrNone event "findings" = .null

/-- The events of a recording that are decisions of a policy. -/
def Recording.decisions (recording : Recording) : List PyDict :=
  recording.events.filter fun event => getOrNone event "type" == .str "policy_decision"

theorem reproduces_of_read {json : PyJson} {value : PyValue} (read : value.json? = some json)
    (encodable : json.AllNumbers PyNumber.Encodable) : Reproduces json value := by
  have written : canonicalJson json = .ok _ := canonicalJson_eq_ok.mpr ⟨encodable, rfl⟩
  exact ⟨_, (canonicalValue_eq_ok value _).mpr ⟨json, read, written⟩, written⟩

/-! ## Events -/

/-- `recording.tools`. -/
def Recording.tools (recording : Recording) : Dict (PyJson × PyJson) (List ToolVersion) :=
  (indexEvents recording.events).tools

section Members

variable {items : List (String × PyValue)} {rest : PyDict}

/-- A field stands for the member of its name. -/
theorem get?_read (read : PyValue.members? (items.map pyItem) = some rest)
    (distinct : (items.map Prod.fst).Nodup) {name : String} {value : PyValue}
    (among : (name, value) ∈ items) :
    ∃ json, value.json? = some json ∧ rest.get? name = some json := by
  induction items generalizing rest with
  | nil => exact absurd among List.not_mem_nil
  | cons item items ih =>
      rcases item with ⟨first, own⟩
      rcases members?_cons.mp read with ⟨json, others, ownRead, othersRead, rfl⟩
      rw [List.map_cons, List.nodup_cons] at distinct
      rcases List.mem_cons.mp among with same | later
      · cases same
        exact ⟨json, ownRead, by rw [Json.Members.get?_cons, if_pos rfl]⟩
      · rcases ih othersRead distinct.2 later with ⟨found, valueRead, here⟩
        refine ⟨found, valueRead, ?_⟩
        rw [Json.Members.get?_cons, if_neg, here]
        intro same
        exact distinct.1 (List.mem_map.mpr ⟨_, later, same.symm⟩)

end Members

namespace Emission

variable {settings : RecorderSettings} {recorder : Recorder} {fields : RecordFields}
  (emission : Emission settings recorder fields)

theorem apart {name : String} (among : name ∈ fields.items.map Prod.fst) :
    name ∉ ["v", "seq", "ts", "session_id", "type", "prev_hash", "event_hash"] := by
  have distinct := names_distinct fields
  intro own
  rw [List.nodup_append, List.nodup_append] at distinct
  rcases distinct with ⟨⟨-, -, before⟩, -, after⟩
  rcases List.mem_append.mp (show name ∈ ["v", "seq", "ts", "session_id", "type", "prev_hash"] ++
    ["event_hash"] from own) with first | last
  · exact before name first name among rfl
  · exact after name (List.mem_append_right _ among) name last rfl

/-- A field stands for the member that is written. -/
theorem written (name : String) (value : PyValue) (among : (name, value) ∈ fields.items) :
    ∃ json, value.json? = some json ∧ getOrNone emission.event name = json := by
  have named : name ∈ fields.items.map Prod.fst := List.mem_map.mpr ⟨_, among, rfl⟩
  have distinct : (fields.items.map Prod.fst).Nodup :=
    ((List.nodup_append.mp (List.nodup_append.mp (names_distinct fields)).1).2).1
  rcases get?_read emission.read distinct among with ⟨json, read, found⟩
  refine ⟨json, read, ?_⟩
  rw [getOrNone, Emission.event, get?_field (Emission.apart named), found]
  rfl

theorem loaded_distinct : (Json.obj emission.loaded).Distinct := emission.legible.restored_distinct

theorem loaded_encodable : (Json.obj emission.loaded).AllNumbers PyNumber.Encodable :=
  emission.legible.restored_encodable

/-- A field is reproduced. -/
theorem reproduces (name : String) (value : PyValue) (among : (name, value) ∈ fields.items) :
    Reproduces (getOrNone emission.loaded name) value := by
  rcases emission.written _ _ among with ⟨json, read, here⟩
  have whole := (canonicalJson_eq_ok.mp emission.legible.written).1
  have encodable : json.AllNumbers PyNumber.Encodable := by
    rw [← here]
    exact Json.getD_allNumbers whole name trivial
  rcases reproduces_of_read read encodable with ⟨text, valueText, jsonText⟩
  refine ⟨text, valueText, ?_⟩
  have same := getOrNone_same emission.sameFinite name
  have distinct := emission.loaded_distinct
  have numbers := emission.loaded_encodable
  have eventDistinct : (Json.obj emission.event).Distinct := emission.legible.distinct
  rw [← here] at jsonText
  generalize emission.loaded = loaded at *
  generalize emission.event = event at *
  exact canonicalJson_same same (Json.getD_distinct eventDistinct name trivial)
    (Json.getD_distinct distinct name trivial) (Json.getD_allNumbers numbers name trivial) jsonText

/-- A field that is a text is read as it was. -/
theorem text (name : String) (codes : PyText) (among : (name, .str codes) ∈ fields.items) :
    ReadsText (getOrNone emission.loaded name) codes := by
  rcases emission.written _ _ among with ⟨json, read, here⟩
  rcases json?_text.mp read with ⟨text, rfl, rfl⟩
  exact ⟨text, rfl, getOrNone_str emission.sameFinite here⟩

/-- A flag is read as it was. -/
theorem flag (name : String) (value : Bool) (among : (name, .bool value) ∈ fields.items) :
    getOrNone emission.loaded name = .bool value := by
  rcases emission.written _ _ among with ⟨json, read, here⟩
  cases (json?_bool value).symm.trans read
  have same := getOrNone_same emission.sameFinite name
  rw [here] at same
  generalize getOrNone emission.loaded name = other at same
  cases same
  rfl

/-- A name that is no field reads as `None`. -/
theorem absent {name : String} (apart : name ∉ ["v", "seq", "ts", "session_id", "type",
    "prev_hash", "event_hash"]) (absent : name ∉ fields.items.map Prod.fst) :
    getOrNone emission.loaded name = .null := by
  have missing : emission.rest.get? name = none := by
    rw [Json.Members.get?_eq_none, names_read emission.read]
    exact absent
  have here : getOrNone emission.event name = .null := by
    rw [getOrNone, Emission.event, get?_field apart, missing]
    rfl
  have same := getOrNone_same emission.sameFinite name
  rw [here] at same
  generalize getOrNone emission.loaded name = read at same
  cases same
  rfl

end Emission

/-! ## The index of a file -/

/-- What `load` keeps of the events a recorder has written. -/
def fileIndex (settings : RecorderSettings) (recorder : Recorder) : Index :=
  indexEvents (load settings.sha (String.ofList recorder.text)).events

/-- The decisions among the events a recorder has written. -/
def fileDecisions (settings : RecorderSettings) (recorder : Recorder) : List PyDict :=
  (load settings.sha (String.ofList recorder.text)).decisions

/-- The index has the journal: its definitions and its calls, in order, and where a call is. -/
structure Reflects (journal : Journal) (index : Index) : Prop where
  tools : ∀ key, List.Forall₂ JournalDefinition.Reproduced (journal.versions key)
    ((index.tools.get? key).getD [])
  calls : List.Forall₂ JournalCall.Reproduced journal.calls index.calls
  byId : ∀ (text : String) position, index.callsById.get? (.str text) = some position ↔
    ∃ call, journal.calls[position]? = some call ∧ call.callId = codePoints text

section Files

variable {settings : RecorderSettings} {recorder ahead next : Recorder} {fields : RecordFields}
  {id : String} {events : List PyDict} {progress : Progress}

/-- One more event is read after those there were. -/
theorem Recorded.events_wrote (recorded : Recorded settings id recorder events progress)
    (text : ahead.text = recorder.text) (emission : Emission settings ahead fields)
    (wrote : next.text = ahead.text ++ emission.line ++ ['\n']) :
    (Harness.load settings.sha (String.ofList next.text)).events =
      (Harness.load settings.sha (String.ofList recorder.text)).events ++ [emission.loaded] := by
  rcases recorded.lines with ⟨lines, legible, written⟩
  have before := load_legible settings.sha legible
  have after := load_legible settings.sha (List.rel_append legible (.cons emission.legible .nil))
  have same : next.text = (lines ++ [emission.line]).flatMap fun line => line ++ ['\n'] := by
    simp [wrote, text, written, fileText]
  rw [same, after, List.map_append, List.map_singleton, written, fileText, before, Emission.loaded,
    Emission.event]

/-- One more event is one more step of the index. -/
theorem Recorded.fileIndex_wrote (recorded : Recorded settings id recorder events progress)
    (text : ahead.text = recorder.text) (emission : Emission settings ahead fields)
    (wrote : next.text = ahead.text ++ emission.line ++ ['\n']) :
    fileIndex settings next = indexEvent (fileIndex settings recorder) emission.loaded := by
  rw [fileIndex, fileIndex, recorded.events_wrote text emission wrote, indexEvents, indexEvents,
    List.foldl_append, List.foldl_cons, List.foldl_nil]

/-- One more event is a decision if it says so. -/
theorem Recorded.fileDecisions_wrote (recorded : Recorded settings id recorder events progress)
    (text : ahead.text = recorder.text) (emission : Emission settings ahead fields)
    (wrote : next.text = ahead.text ++ emission.line ++ ['\n']) :
    fileDecisions settings next = fileDecisions settings recorder ++
      if fields.type = "policy_decision" then [emission.loaded] else [] := by
  rw [fileDecisions, fileDecisions, Recording.decisions, Recording.decisions,
    recorded.events_wrote text emission wrote, List.filter_append, List.filter_singleton,
    emission.loaded_type]
  congr 1
  by_cases decides : fields.type = "policy_decision"
  · rw [decides, if_pos rfl, beq_self_eq_true]
    rfl
  · have apart : (Json.str fields.type == (.str "policy_decision" : PyJson)) = false :=
      beq_eq_false_iff_ne.mpr fun same => decides (Json.str.inj same)
    rw [apart, if_neg decides]
    rfl

end Files

section Events

variable {settings : RecorderSettings} {recorder : Recorder} {fields : RecordFields}
  {journal : Journal} {index : Index} {callId server name defHash : PyText}

theorem Reflects.other (reflects : Reflects journal index)
    (emission : Emission settings recorder fields) (defines : fields.type ≠ "tool_definition")
    (calls : fields.type ≠ "tool_call") (responds : fields.type ≠ "tool_response") :
    Reflects journal (indexEvent index emission.loaded) := by
  have typed := emission.loaded_type
  have same : indexEvent index emission.loaded = index := by
    rw [indexEvent, if_pos emission.loaded_valid, typed]
    split
    · next equal => exact absurd (Json.str.inj equal) defines
    · next equal => exact absurd (Json.str.inj equal) calls
    · next equal => exact absurd (Json.str.inj equal) responds
    · rfl
  rw [same]
  exact reflects

/-- A definition has what the schema requires. -/
theorem required_of_definition {event : PyDict} (valid : validEvent event = true)
    (typed : getOrNone event "type" = .str "tool_definition") :
    required event ["server", "tool", "def_hash"] = true := by
  have branches := matchesType_of_valid valid
  simp only [matchesType, hasType_of_typed typed, Bool.and_eq_true, Bool.not_true,
    Bool.false_or] at branches
  rcases branches with ⟨⟨⟨⟨⟨-, definition⟩, -⟩, -⟩, -⟩, -⟩
  exact definition.1.1.1

/-- The version a definition adds. -/
theorem indexEvent_definition {event : PyDict} (valid : validEvent event = true)
    (typed : getOrNone event "type" = .str "tool_definition") {tool : PyDict} {name : PyJson}
    (tooled : getOrNone event "tool" = .obj tool) (named : tool.get? "name" = some name) :
    indexEvent index event =
      { index with
        tools := index.tools.assign (getOrNone event "server", name)
          ((index.tools.get? (getOrNone event "server", name)).getD [] ++
            [{ server := getOrNone event "server", name, tool
               defHash := getOrNone event "def_hash", seq := getOrNone event "seq" }]) } := by
  have complete := required_of_definition valid typed
  have server : getOr event "server" (.str "") = getOrNone event "server" :=
    getOr_of_required complete (by simp) _
  have tool' : getOr event "tool" (.obj []) = .obj tool :=
    (getOr_of_required complete (by simp) _).trans tooled
  have hash : getOr event "def_hash" (.str "") = getOrNone event "def_hash" :=
    getOr_of_required complete (by simp) _
  have name' : getOr tool "name" (.str "") = name := by rw [getOr, named, Option.getD_some]
  simp only [indexEvent, valid, typed, if_true, server, tool', hash, Json.members, name']

theorem get?_str_same {left right : PyDict} (same : SameFinite (.obj left) (.obj right))
    {name text : String} (found : left.get? name = some (.str text)) :
    right.get? name = some (.str text) := by
  have read : getOrNone right name = .str text :=
    getOrNone_str same (by rw [getOrNone, found, Option.getD_some])
  rw [getOrNone] at read
  cases other : right.get? name with
  | none =>
      rw [other] at read
      cases read
  | some value =>
      rw [other] at read
      exact congrArg some read

/-- One more definition is one more version under its key. -/
theorem Journal.versions_concat (journal : Journal) (definition : JournalDefinition)
    {serverText nameText : String} (server : definition.server = codePoints serverText)
    (name : definition.name = codePoints nameText) (key : PyJson × PyJson) :
    Journal.versions { journal with definitions := journal.definitions ++ [definition] } key =
      journal.versions key ++ if key = (.str serverText, .str nameText) then [definition] else [] := by
  have kept : decide ((PyValue.str definition.server).json? = some key.1 ∧
      (PyValue.str definition.name).json? = some key.2) =
        decide (key = (.str serverText, .str nameText)) := by
    rw [decide_eq_decide, server, name, json?_text.mpr ⟨serverText, rfl, rfl⟩,
      json?_text.mpr ⟨nameText, rfl, rfl⟩, Prod.ext_iff]
    simp only [Option.some.injEq, eq_comm]
  rw [Journal.versions, List.filter_append, List.filter_singleton, kept]
  simp [Journal.versions]

/-- A definition that is written whole is one more version of its tool. -/
theorem Reflects.define (reflects : Reflects journal index) {members : PyDict} {hash : String}
    (emission : Emission settings recorder (.toolDefinition server (PyValue.ofMembers members) hash))
    {nameText : String} (named : members.get? "name" = some (.str nameText)) :
    Reflects { journal with
      definitions := journal.definitions ++ [{
        server, name := codePoints nameText, items := PyValue.ofMembers members, hash }] }
      (indexEvent index emission.loaded) := by
  rcases emission.text "server" server (by simp [RecordFields.items]) with
    ⟨serverText, rfl, serverFound⟩
  rcases emission.text "def_hash" (codePoints hash) (by simp [RecordFields.items, pyText]) with
    ⟨hashText, sameHash, hashFound⟩
  rw [← codePoints_injective sameHash] at hashFound
  have defined : ("tool", PyValue.dict (PyValue.ofMembers members)) ∈ RecordFields.items
      (.toolDefinition (codePoints serverText) (PyValue.ofMembers members) hash) := by
    simp [RecordFields.items]
  rcases emission.written _ _ defined with ⟨json, read, here⟩
  rcases json?_dict.mp read with ⟨whole, wholeRead, rfl⟩
  cases wholeRead.symm.trans (members?_ofMembers members)
  have same := getOrNone_same emission.sameFinite "tool"
  rw [here] at same
  have toolRead := emission.reproduces _ _ defined
  have valid := emission.loaded_valid
  have typed : getOrNone emission.loaded "type" = .str "tool_definition" := emission.loaded_type
  clear here
  generalize emission.loaded = event at *
  cases loadedTool : getOrNone event "tool" with
  | obj tool =>
      rw [loadedTool] at same toolRead
      rw [indexEvent_definition valid typed loadedTool
        (get?_str_same same named), serverFound, hashFound]
      refine ⟨?_, reflects.calls, reflects.byId⟩
      intro key
      rw [Journal.versions_concat journal _ rfl rfl, Dict.get?_assign]
      split
      · next here =>
          rw [here]
          refine List.rel_append (reflects.tools _) (.cons ?_ .nil)
          exact ⟨⟨serverText, rfl, rfl⟩, ⟨nameText, rfl, rfl⟩, toolRead, rfl⟩
      · rw [List.append_nil]
        exact reflects.tools key
  | _ =>
      rw [loadedTool] at same
      cases same

theorem CallRecord.ofEvent_defHash {event : PyDict} (valid : validEvent event = true)
    (typed : getOrNone event "type" = .str "tool_call") :
    (CallRecord.ofEvent event).defHash = getOrNone event "def_hash" :=
  getOr_of_required (required_of_call valid typed) (by simp) _

theorem Outcome.reproduced_ofEvent (event : PyDict) : Outcome.Reproduced (.ofEvent event) none :=
  ⟨rfl, rfl, rfl, rfl⟩

/-- The record of a call that has no response yet. -/
theorem Emission.call {args : PyValue}
    (emission : Emission settings recorder (.toolCall callId server name defHash args)) :
    JournalCall.Reproduced { callId, server, toolName := name, defHash, args }
      (.ofEvent emission.loaded) := by
  have valid := emission.loaded_valid
  have typed := emission.loaded_type
  constructor
  · rw [CallRecord.ofEvent_callId valid typed]
    exact emission.text _ _ (by simp [RecordFields.items])
  · rw [CallRecord.ofEvent_server valid typed]
    exact emission.text _ _ (by simp [RecordFields.items])
  · rw [CallRecord.ofEvent_toolName valid typed]
    exact emission.text _ _ (by simp [RecordFields.items])
  · rw [CallRecord.ofEvent_defHash valid typed]
    exact emission.text _ _ (by simp [RecordFields.items])
  · rw [CallRecord.ofEvent_args valid typed]
    exact emission.reproduces _ _ (by simp [RecordFields.items])
  · exact Outcome.reproduced_ofEvent emission.loaded

theorem getElem?_concat_eq_some {α : Type} {front : List α} {last found : α} {position : Nat} :
    (front ++ [last])[position]? = some found ↔
      front[position]? = some found ∨ position = front.length ∧ last = found := by
  rw [List.getElem?_append]
  split
  · next inside => simp [Nat.ne_of_lt inside]
  · next outside =>
      rw [List.getElem?_eq_none (Nat.le_of_not_lt outside)]
      rcases Nat.lt_or_eq_of_le (Nat.le_of_not_lt outside) with beyond | same
      · rw [List.getElem?_eq_none (by simp; omega)]
        simp [Nat.ne_of_gt beyond]
      · simp [same]

/-- A call is one more record. -/
theorem Reflects.call (reflects : Reflects journal index) {args : PyValue}
    (emission : Emission settings recorder (.toolCall callId server name defHash args))
    (fresh : ∀ call ∈ journal.calls, call.callId ≠ callId) :
    Reflects { journal with
      calls := journal.calls ++ [{ callId, server, toolName := name, defHash, args }] }
      (indexEvent index emission.loaded) := by
  have counted : journal.calls.length = index.calls.length := reflects.calls.length_eq
  rcases emission.text "call_id" callId (by simp [RecordFields.items]) with ⟨idText, rfl, idFound⟩
  have reproduced := emission.call
  have valid := emission.loaded_valid
  have typed : getOrNone emission.loaded "type" = .str "tool_call" := emission.loaded_type
  generalize emission.loaded = event at *
  have identified : (CallRecord.ofEvent event).callId = .str idText :=
    (CallRecord.ofEvent_callId valid typed).trans idFound
  rw [indexEvent_call valid typed, identified, ← counted]
  refine ⟨reflects.tools, List.rel_append reflects.calls (.cons reproduced .nil), ?_⟩
  intro text position
  rw [Dict.get?_assign]
  simp only [getElem?_concat_eq_some, Json.str.injEq]
  split
  · next same =>
      rw [same, Option.some.injEq]
      constructor
      · intro last
        exact ⟨_, Or.inr ⟨last.symm, rfl⟩, rfl⟩
      · rintro ⟨call, earlier | last, named⟩
        · exact absurd named (fresh call (List.mem_of_getElem? earlier))
        · exact last.1.symm
  · next other =>
      rw [reflects.byId]
      constructor
      · rintro ⟨call, found, named⟩
        exact ⟨call, Or.inl found, named⟩
      · rintro ⟨call, earlier | last, named⟩
        · exact ⟨call, earlier, named⟩
        · rw [← last.2] at named
          exact absurd (codePoints_injective named).symm other

section Answers

variable {event : PyDict}

theorem Outcome.reproduced_result (record : CallRecord) {value : PyValue} {latencyMs : PyNumber}
    (ok : getOrNone event "ok" = .bool true) (result : Reproduces (getOrNone event "result") value)
    (error : getOrNone event "error" = .null)
    (latency : Reproduces (getOrNone event "latency_ms") (.num latencyMs)) :
    Outcome.Reproduced (record.answer event) (some (.result value latencyMs)) :=
  ⟨ok, result, error, latency⟩

theorem Outcome.reproduced_error (record : CallRecord) {code message : PyText}
    {latencyMs : PyNumber} (ok : getOrNone event "ok" = .bool false)
    (result : getOrNone event "result" = .null)
    (error : Reproduces (getOrNone event "error")
      (.dict ([("code", .str code), ("message", .str message)].map pyItem)))
    (latency : Reproduces (getOrNone event "latency_ms") (.num latencyMs)) :
    Outcome.Reproduced (record.answer event) (some (.error code message latencyMs)) :=
  ⟨ok, result, error, latency⟩

theorem JournalCall.Reproduced.answer {call : JournalCall} {record : CallRecord}
    (reproduced : call.Reproduced record) {outcome : Outcome}
    (answered : Outcome.Reproduced (record.answer event) (some outcome)) :
    JournalCall.Reproduced { call with outcome := some outcome } (record.answer event) :=
  ⟨reproduced.callId, reproduced.server, reproduced.toolName, reproduced.defHash, reproduced.args,
    answered⟩

/-- A response is read into the record of its call, and no other. -/
theorem Reflects.settle (reflects : Reflects journal index) (valid : validEvent event = true)
    (typed : getOrNone event "type" = .str "tool_response") {idText : String}
    (about : getOrNone event "call_id" = .str idText)
    (known : ∃ call ∈ journal.calls, call.callId = codePoints idText) {outcome : Outcome}
    (answered : ∀ record : CallRecord, Outcome.Reproduced (record.answer event) (some outcome)) :
    Reflects (journal.settle (codePoints idText) outcome) (indexEvent index event) := by
  rcases known with ⟨call, present, named⟩
  rcases List.mem_iff_getElem?.mp present with ⟨position, there⟩
  have led : index.callsById.get? (getOrNone event "call_id") = some position := by
    rw [about]
    exact (reflects.byId idText position).mpr ⟨call, there, named⟩
  rw [indexEvent_response valid typed led]
  rw [about] at led
  refine ⟨reflects.tools, ?_, ?_⟩
  · refine List.forall₂_map_left_iff.mpr (forall₂_modify reflects.calls ?_ ?_)
    · intro first record found reproduced
      have same : first = call := Option.some.inj (found.symm.trans there)
      rw [if_pos (same ▸ named)]
      exact reproduced.answer (answered record)
    · intro place first record found apart reproduced
      have other : first.callId ≠ codePoints idText := by
        intro same
        have also := (reflects.byId idText place).mpr ⟨first, found, same⟩
        rw [led] at also
        exact apart (Option.some.inj also).symm
      rw [if_neg other]
      exact reproduced
  · intro text place
    rw [reflects.byId, Journal.settle]
    simp only [List.getElem?_map, Option.map_eq_some_iff]
    constructor
    · rintro ⟨first, found, same⟩
      refine ⟨_, ⟨first, found, rfl⟩, ?_⟩
      split <;> exact same
    · rintro ⟨_, ⟨first, found, rfl⟩, same⟩
      refine ⟨first, found, ?_⟩
      split at same <;> exact same

end Answers

/-- What a response without an error says of its call. -/
theorem Emission.answer_result {result : PyValue} {latencyMs : PyNumber}
    (emission : Emission settings recorder (.okResponse callId result latencyMs))
    (record : CallRecord) :
    Outcome.Reproduced (record.answer emission.loaded) (some (.result result latencyMs)) := by
  apply Outcome.reproduced_result
  · exact emission.flag "ok" true (by simp [RecordFields.items])
  · exact emission.reproduces "result" result (by simp [RecordFields.items])
  · exact emission.absent (by simp) (by simp [RecordFields.items])
  · exact emission.reproduces "latency_ms" (.num latencyMs) (by simp [RecordFields.items])

/-- What a response with an error says of its call. -/
theorem Emission.answer_error {code message : PyText} {latencyMs : PyNumber}
    (emission : Emission settings recorder (.errorResponse callId code message latencyMs))
    (record : CallRecord) :
    Outcome.Reproduced (record.answer emission.loaded) (some (.error code message latencyMs)) := by
  apply Outcome.reproduced_error
  · exact emission.flag "ok" false (by simp [RecordFields.items])
  · exact emission.absent (by simp) (by simp [RecordFields.items])
  · exact emission.reproduces "error" _ (by simp [RecordFields.items])
  · exact emission.reproduces "latency_ms" (.num latencyMs) (by simp [RecordFields.items])

/-- What a decision says in the recording. -/
theorem Emission.decision {decision : JournalDecision}
    (emission : Emission settings recorder (.policyDecision decision.server decision.toolName
      decision.action decision.reason decision.callId decision.findings)) :
    decision.Reproduced emission.loaded := by
  rcases decision with ⟨server, toolName, action, reason, callId, findings⟩
  constructor
  · exact emission.text "server" server (by simp [RecordFields.items])
  · exact emission.text "tool_name" toolName (by simp [RecordFields.items])
  · exact emission.text "action" action (by simp [RecordFields.items])
  · exact emission.text "reason" reason (by simp [RecordFields.items])
  · cases callId with
    | none => exact emission.absent (by simp) (by cases findings <;> simp [RecordFields.items])
    | some callId => exact emission.text "call_id" callId (by simp [RecordFields.items])
  · cases findings with
    | none => exact emission.absent (by simp) (by cases callId <;> simp [RecordFields.items])
    | some findings =>
        exact emission.reproduces "findings" (.list findings) (by simp [RecordFields.items])

end Events

/-! ## Sessions that return -/

/-- The recorder and its file are in step with the journal. -/
structure Journaled (settings : RecorderSettings) (recorder : Recorder) (pending : List PyText)
    (journal : Journal) : Prop where
  table : ∀ server name, recorder.defs.get? (server, name) = journal.inForce server name
  counted : recorder.issued = journal.calls.length
  identified : ∀ position call, journal.calls[position]? = some call →
    call.callId = settings.ids position
  waiting : ∀ callId ∈ pending, ∃ call ∈ journal.calls, call.callId = callId
  reflects : Reflects journal (fileIndex settings recorder)
  decisions : List.Forall₂ JournalDecision.Reproduced journal.decisions
    (fileDecisions settings recorder)

section Steps

variable {settings : RecorderSettings} {recorder ahead next : Recorder} {pending : List PyText}
  {fields : RecordFields} {journal : Journal}

/-- What is emitted is one more step of the index, and one more decision if it is one. -/
theorem Holds.emission (holds : Holds settings recorder pending) (stamped : settings.Stamped)
    (sound : fields.Sound) (emitted : ahead.emit settings fields = (.ok (), next))
    (text : ahead.text = recorder.text) (link : ahead.prevHash = recorder.prevHash) :
    ∃ emission : Emission settings ahead fields, next = ahead.wrote emission.hash emission.line ∧
      fileIndex settings next = indexEvent (fileIndex settings recorder) emission.loaded ∧
      fileDecisions settings next = fileDecisions settings recorder ++
        if fields.type = "policy_decision" then [emission.loaded] else [] := by
  rcases holds with ⟨id, events, progress, kept⟩
  rcases emission_of_ok stamped (link ▸ kept.recorded.linked) sound.shaped sound.portable emitted
    with ⟨emission, rfl⟩
  exact ⟨emission, rfl, kept.recorded.fileIndex_wrote text emission rfl,
    kept.recorded.fileDecisions_wrote text emission rfl⟩

/-- What is emitted and is no decision leaves the decisions. -/
theorem Journaled.undecided (journaled : Journaled settings recorder pending journal)
    {event : PyDict} (other : fields.type ≠ "policy_decision")
    (decided : fileDecisions settings next = fileDecisions settings recorder ++
      if fields.type = "policy_decision" then [event] else []) :
    List.Forall₂ JournalDecision.Reproduced journal.decisions (fileDecisions settings next) := by
  rw [decided, if_neg other, List.append_nil]
  exact journaled.decisions

theorem Journal.inForce_concat (journal : Journal) (definition : JournalDefinition)
    (server name : PyText) :
    Journal.inForce { journal with definitions := journal.definitions ++ [definition] } server name =
      if (server, name) = (definition.server, definition.name) then some definition.hash
      else journal.inForce server name := by
  have same : decide (definition.server = server ∧ definition.name = name) =
      decide ((server, name) = (definition.server, definition.name)) := by
    rw [decide_eq_decide, Prod.mk.injEq]
    exact and_congr eq_comm eq_comm
  rw [Journal.inForce, List.filter_append, List.filter_singleton, same]
  split
  · next here => simp [here]
  · next other => simp [other, Journal.inForce]

/-- A definition that is recorded is in the journal, and was there before if it was in force. -/
theorem Journaled.recordDefinition (journaled : Journaled settings recorder pending journal)
    (holds : Holds settings recorder pending) (stamped : settings.Stamped) {server : PyText}
    {tool : Definition} (sound : recorder.SoundDefinition settings server tool)
    (done : recorder.recordDefinition settings server tool = (.ok (), next)) :
    Journaled settings next pending (journal.list settings.sha server tool) := by
  unfold Recorder.recordDefinition at done
  cases named : tool.name? with
  | none =>
      rw [named] at done
      cases done
  | some name =>
      cases hashed : definitionHash settings.sha tool.items with
      | error error =>
          rw [named, hashed] at done
          cases done
      | ok hash =>
          rw [named, hashed] at done
          rw [Journal.list, named, hashed]
          dsimp only at done ⊢
          rw [journaled.table] at done
          split at done
          · next known =>
              cases done
              rw [if_pos known]
              exact journaled
          · next other =>
              rw [if_neg other]
              have unlisted : recorder.defs.get? (server, name) ≠ some hash := by
                rw [journaled.table]
                exact other
              rcases sound.writable name hash named hashed unlisted with ⟨members, writable⟩
              rcases writable.name with ⟨nameText, nameRead, memberNamed⟩
              cases named.symm.trans nameRead
              have digest := digest_of_definitionHash stamped hashed
              have fields := writable.sound sound.origin digest
              rw [writable.items] at done
              rcases holds.emission stamped fields done rfl rfl with
                ⟨emission, rfl, indexed, decided⟩
              constructor
              · intro otherServer otherName
                rw [Journal.inForce_concat]
                change (recorder.defs.assign (server, codePoints nameText) hash).get? _ = _
                rw [Dict.get?_assign, journaled.table]
              · exact journaled.counted
              · exact journaled.identified
              · exact journaled.waiting
              · rw [indexed, writable.items]
                exact journaled.reflects.define emission memberNamed
              · rw [decided, if_neg (by simp [RecordFields.type]), List.append_nil]
                exact journaled.decisions

theorem Journaled.recordDefinitions (stamped : settings.Stamped) {server : PyText}
    {tools : List Definition} : ∀ {recorder : Recorder} {journal : Journal},
      Journaled settings recorder pending journal → Holds settings recorder pending →
        recorder.closed = false → recorder.SoundDefinitions settings server tools →
          recorder.recordDefinitions settings server tools = (.ok (), next) →
            Journaled settings next pending
              (tools.foldl (fun journal tool => journal.list settings.sha server tool) journal) := by
  induction tools with
  | nil =>
      intro recorder journal journaled _ _ _ done
      cases done
      exact journaled
  | cons tool tools ih =>
      intro recorder journal journaled holds going sound done
      have first := holds.recordDefinition stamped going sound.1
      have still := @recordDefinition_closed settings recorder server tool
      rw [Recorder.recordDefinitions] at done
      rcases recorded : recorder.recordDefinition settings server tool with ⟨outcome, after⟩
      rw [recorded] at done first still
      cases outcome with
      | error error => cases done
      | ok _ =>
          have listed := journaled.recordDefinition holds stamped sound.1 recorded
          exact ih listed first (still.trans going) (sound.2 after recorded) done

/-- The definition a call refers to is in the journal. -/
theorem Journaled.defHash (journaled : Journaled settings recorder pending journal)
    (holds : Holds settings recorder pending) (stamped : settings.Stamped)
    {server name : PyText} {tool : Option Definition} {hash : String}
    (sound : ∀ definition, tool = some definition → recorder.defs.get? (server, name) = none →
      recorder.SoundDefinition settings server definition)
    (found : recorder.defHash settings server name tool = (.ok hash, next)) :
    Journaled settings next pending (journal.ensure settings.sha server name tool) ∧
      (journal.ensure settings.sha server name tool).inForce server name = some hash := by
  have known := defHash_ok found
  suffices kept : Journaled settings next pending (journal.ensure settings.sha server name tool) from
    ⟨kept, (kept.table server name).symm.trans known⟩
  unfold Recorder.defHash at found
  unfold Journal.ensure
  rw [← journaled.table]
  cases held : recorder.defs.get? (server, name) with
  | some other =>
      rw [held] at found
      cases found
      exact journaled
  | none =>
      rw [held] at found
      cases tool with
      | none => cases found
      | some tool =>
          dsimp only at found
          rw [recordDefinitions_singleton] at found
          rcases recorded : recorder.recordDefinition settings server tool with ⟨outcome, after⟩
          rw [recorded] at found
          cases outcome with
          | error error => cases found
          | ok _ =>
              have listed := journaled.recordDefinition holds stamped (sound tool rfl held) recorded
              dsimp only at found
              split at found
              · cases found
                exact listed
              · cases found

/-- A call of a known definition can be recorded. -/
theorem SoundCall.recordable (sound : settings.Sound) {server name : PyText} {args : PyItems}
    (call : SoundCall settings server name args) {hash : String} (digest : matchesHash hash = true)
    (count : Nat) :
    (RecordFields.toolCall (settings.ids count) server name (codePoints hash)
      (settings.redact (.dict args))).Sound := by
  refine ⟨⟨?_, call.isDict⟩, ?_⟩
  · intro text same
    rw [← codePoints_injective same]
    exact digest
  · simp only [RecordFields.items, List.forall_mem_cons, List.not_mem_nil, false_implies,
      implies_true, and_true]
    exact ⟨sound.ids count, call.origin, call.named, portable_pyText (hash_whole digest),
      call.portable⟩

/-- A call that is recorded is in the journal. -/
theorem Journaled.emitCall (journaled : Journaled settings recorder pending journal)
    (sound : settings.Sound) {id : String} {events : List PyDict} {progress : Progress}
    (kept : Kept settings recorder pending id events progress) {server name defHash : PyText}
    {args : PyItems} (call : SoundCall settings server name args)
    (known : recorder.seq ≤ 2 ^ 53 → ∀ serverText nameText hash, server = codePoints serverText →
      name = codePoints nameText → defHash = codePoints hash →
        (.str serverText, .str nameText, .str hash) ∈ progress.definitions) {callId : PyText}
    (done : recorder.emitCall settings server name defHash args = (.ok callId, next)) :
    Journaled settings next (callId :: pending)
      (journal.call settings server name defHash args) := by
  unfold Recorder.emitCall at done
  dsimp only at done
  rcases emitted : Recorder.emit settings { recorder with issued := recorder.issued + 1 }
    (.toolCall (settings.ids recorder.issued) server name defHash (settings.redact (.dict args)))
    with ⟨outcome, after⟩
  rw [emitted] at done
  cases outcome with
  | error error => cases done
  | ok _ =>
      cases done
      rcases read_of_emitted emitted with ⟨small, rest, read, -⟩
      simp only [RecordFields.items, members?_cons, members?_nil, json?_text] at read
      rcases read with ⟨_, _, ⟨idText, identified, rfl⟩, ⟨_, _, ⟨serverText, rfl, rfl⟩,
        ⟨_, _, ⟨nameText, rfl, rfl⟩, ⟨_, _, ⟨hash, rfl, rfl⟩, -⟩, -⟩, -⟩, -⟩
      have digest := kept.hashes _ (known small serverText nameText hash rfl rfl rfl)
      have fields := call.recordable sound digest recorder.issued
      have holds : Holds settings recorder pending := ⟨id, events, progress, kept⟩
      rcases holds.emission sound.toStamped fields emitted rfl rfl with
        ⟨emission, wrote, indexed, decided⟩
      -- Identifiers are given once, so that this one is not of an earlier call.
      have fresh : ∀ call ∈ journal.calls, call.callId ≠ settings.ids recorder.issued := by
        intro other present same
        rcases List.mem_iff_getElem?.mp present with ⟨position, found⟩
        rw [journaled.identified position other found] at same
        have again := sound.fresh same
        rw [again, journaled.counted, List.getElem?_eq_none (Nat.le_refl _)] at found
        cases found
      have reflects := journaled.reflects.call emission fresh
      rw [← indexed] at reflects
      rw [journaled.counted] at reflects
      refine ⟨?_, ?_, ?_, ?_, reflects,
        journaled.undecided (by simp [RecordFields.type]) decided⟩
      · rw [wrote]
        exact journaled.table
      · rw [wrote, Journal.call, List.length_append, List.length_singleton, ← journaled.counted]
        rfl
      · intro position other found
        rcases getElem?_concat_eq_some.mp found with earlier | ⟨rfl, rfl⟩
        · exact journaled.identified position other earlier
        · rfl
      · refine List.forall_mem_cons.mpr ⟨?_, ?_⟩
        · refine ⟨_, List.mem_append_right _ List.mem_cons_self, ?_⟩
          rw [journaled.counted]
        · intro other waits
          rcases journaled.waiting other waits with ⟨earlier, present, same⟩
          exact ⟨earlier, List.mem_append_left _ present, same⟩

/-- A response that is recorded settles its call. -/
theorem Journaled.respond (journaled : Journaled settings recorder pending journal)
    (holds : Holds settings recorder pending) (stamped : settings.Stamped) {callId : PyText}
    (waits : callId ∈ pending) (sound : fields.Sound) (responds : fields.type = "tool_response")
    (about : ("call_id", .str callId) ∈ fields.items) {outcome : Outcome}
    (answered : ∀ (emission : Emission settings recorder fields) (record : CallRecord),
      Outcome.Reproduced (record.answer emission.loaded) (some outcome))
    (emitted : recorder.emit settings fields = (.ok (), next)) :
    Journaled settings next (pending.erase callId) (journal.settle callId outcome) := by
  rcases holds.emission stamped sound emitted rfl rfl with ⟨emission, wrote, indexed, decided⟩
  rcases emission.text "call_id" callId about with ⟨idText, rfl, idFound⟩
  have typed : getOrNone emission.loaded "type" = .str "tool_response" := by
    rw [← responds]
    exact emission.loaded_type
  have reflects := journaled.reflects.settle emission.loaded_valid typed idFound
    (journaled.waiting _ waits) (answered emission)
  rw [← indexed] at reflects
  have renamed (call : JournalCall) : (if call.callId = codePoints idText then
      { call with outcome := some outcome } else call).callId = call.callId := by
    split <;> rfl
  refine ⟨?_, ?_, ?_, ?_, reflects,
    journaled.undecided (by rw [responds]; decide) decided⟩
  · rw [wrote]
    exact journaled.table
  · rw [wrote, Journal.settle, List.length_map]
    exact journaled.counted
  · intro position call found
    rw [Journal.settle, List.getElem?_map, Option.map_eq_some_iff] at found
    rcases found with ⟨earlier, there, rfl⟩
    rw [renamed]
    exact journaled.identified position earlier there
  · intro other still
    rcases journaled.waiting other (List.mem_of_mem_erase still) with ⟨call, present, same⟩
    exact ⟨_, List.mem_map.mpr ⟨call, present, rfl⟩, (renamed call).trans same⟩

/-- The end of a session leaves the journal. -/
theorem Journaled.ended (journaled : Journaled settings recorder pending journal)
    (holds : Holds settings recorder pending) (stamped : settings.Stamped) {reason : String}
    (sound : (RecordFields.sessionEnd reason).Sound)
    (emitted : recorder.emit settings (.sessionEnd reason) = (.ok (), next)) :
    Journaled settings next pending journal := by
  rcases holds.emission stamped sound emitted rfl rfl with ⟨emission, wrote, indexed, decided⟩
  refine ⟨?_, ?_, journaled.identified, journaled.waiting, ?_,
    journaled.undecided (by simp [RecordFields.type]) decided⟩
  · rw [wrote]
    exact journaled.table
  · rw [wrote]
    exact journaled.counted
  · rw [indexed]
    apply journaled.reflects.other emission <;> simp [RecordFields.type]

/-- A decision that is recorded is in the journal. -/
theorem Journaled.decided (journaled : Journaled settings recorder pending journal)
    (holds : Holds settings recorder pending) (stamped : settings.Stamped)
    {decision : JournalDecision}
    (sound : (RecordFields.policyDecision decision.server decision.toolName decision.action
      decision.reason decision.callId decision.findings).Sound)
    (emitted : recorder.emit settings (.policyDecision decision.server decision.toolName
      decision.action decision.reason decision.callId decision.findings) = (.ok (), next)) :
    Journaled settings next pending
      { journal with decisions := journal.decisions ++ [decision] } := by
  rcases holds.emission stamped sound emitted rfl rfl with ⟨emission, wrote, indexed, decided⟩
  refine ⟨?_, ?_, journaled.identified, journaled.waiting, ?_, ?_⟩
  · rw [wrote]
    exact journaled.table
  · rw [wrote]
    exact journaled.counted
  · rw [indexed]
    have reflects := journaled.reflects.other emission (by simp [RecordFields.type])
      (by simp [RecordFields.type]) (by simp [RecordFields.type])
    exact ⟨reflects.tools, reflects.calls, reflects.byId⟩
  · rw [decided, RecordFields.type, if_pos rfl]
    exact List.rel_append journaled.decisions (.cons emission.decision .nil)

end Steps

/-- The operations that return. -/
def returningMachine (settings : RecorderSettings) : Machine Session Operation :=
  (soundMachine settings).restrict fun session operation =>
    (session.handle settings operation).1 = .ok ()

section Sessions

variable {settings : RecorderSettings} {session : Session} {journal : Journal}

/-- A session after a call that is recorded. -/
theorem Journaled.called {recorder : Recorder} (journaled : Journaled settings recorder session.pending journal)
    (sound : settings.Sound) {id : String} {events : List PyDict} {progress : Progress}
    (kept : Kept settings recorder session.pending id events progress) {server name defHash : PyText}
    {args : PyItems} (call : SoundCall settings server name args)
    (known : recorder.seq ≤ 2 ^ 53 → ∀ serverText nameText hash, server = codePoints serverText →
      name = codePoints nameText → defHash = codePoints hash →
        (.str serverText, .str nameText, .str hash) ∈ progress.definitions)
    (returned : (session.called (recorder.emitCall settings server name defHash args)).1 = .ok ()) :
    Journaled settings
      (session.called (recorder.emitCall settings server name defHash args)).2.recorder
      (session.called (recorder.emitCall settings server name defHash args)).2.pending
      (journal.call settings server name defHash args) := by
  rcases started : recorder.emitCall settings server name defHash args with ⟨outcome, next⟩
  rw [started] at returned
  cases outcome with
  | error error => cases returned
  | ok callId => exact journaled.emitCall sound kept call known started

/-- A session after a response that is recorded. -/
theorem Journaled.answered (journaled : Journaled settings session.recorder session.pending journal)
    (holds : Holds settings session.recorder session.pending) (stamped : settings.Stamped)
    {callId : PyText} {fields : RecordFields} (waits : callId ∈ session.pending)
    (sound : fields.Sound) (responds : fields.type = "tool_response")
    (about : ("call_id", .str callId) ∈ fields.items) {outcome : Outcome}
    (answers : ∀ (emission : Emission settings session.recorder fields) (record : CallRecord),
      Outcome.Reproduced (record.answer emission.loaded) (some outcome))
    (returned : (session.answered callId (session.recorder.emit settings fields)).1 = .ok ()) :
    Journaled settings
      (session.answered callId (session.recorder.emit settings fields)).2.recorder
      (session.answered callId (session.recorder.emit settings fields)).2.pending
      (journal.settle callId outcome) := by
  rcases emitted : session.recorder.emit settings fields with ⟨result, next⟩
  rw [emitted] at returned
  cases result with
  | error error => cases returned
  | ok _ => exact journaled.respond holds stamped waits sound responds about answers emitted

theorem sessionEnd_sound (failed : Bool) :
    (RecordFields.sessionEnd (if failed then "error" else "completed")).Sound := by
  generalize reasoned : (if failed then "error" else "completed") = reason
  have reasons : reason = "completed" ∨ reason = "error" := by
    cases failed <;> simp [← reasoned]
  refine ⟨?_, List.forall_mem_singleton.mpr (portable_pyText ?_)⟩
  · rcases reasons with rfl | rfl <;> simp [RecordFields.Shaped]
  · rcases reasons with rfl | rfl <;> simp [Whole]

/-- An operation that returns is in the journal. -/
theorem Journaled.handle (journaled : Journaled settings session.recorder session.pending journal)
    (holds : Holds settings session.recorder session.pending) (sound : settings.Sound)
    (going : session.recorder.closed = false) {operation : Operation}
    (allowed : operation.Sound settings session)
    (returned : (session.handle settings operation).1 = .ok ()) :
    Journaled settings (session.handle settings operation).2.recorder
      (session.handle settings operation).2.pending (journal.record settings operation) := by
  have stamped := sound.toStamped
  cases operation with
  | recordDefinitions server tools =>
      rw [Session.handle, Session.after] at returned ⊢
      rcases done : session.recorder.recordDefinitions settings server tools with ⟨outcome, next⟩
      rw [done] at returned
      cases returned
      exact journaled.recordDefinitions stamped holds going allowed done
  | wrap server tool =>
      rw [Session.handle, Session.after, Recorder.wrap] at returned ⊢
      rw [Journal.record]
      cases named : tool.name? with
      | none =>
          rw [named] at returned
          cases returned
      | some name =>
          have defines : ∀ definition, some tool = some definition →
              session.recorder.defs.get? (server, name) = none →
                session.recorder.SoundDefinition settings server definition := by
            intro definition same
            cases same
            exact allowed name named
          rw [named] at returned
          dsimp only at returned ⊢
          rcases found : session.recorder.defHash settings server name (some tool) with
            ⟨outcome, next⟩
          rw [found] at returned
          cases outcome with
          | error error => cases returned
          | ok hash => exact (journaled.defHash holds stamped defines found).1
  | startCall server name args tool =>
      rcases allowed with ⟨call, defines⟩
      have looked := (holds.defHash stamped going defines).1
      rw [Session.handle, Recorder.startCall] at returned ⊢
      rcases found : session.recorder.defHash settings server name tool with ⟨outcome, next⟩
      rw [found] at returned looked
      cases outcome with
      | error error => cases returned
      | ok hash =>
          rcases journaled.defHash holds stamped defines found with ⟨ensured, inForce⟩
          rcases looked with ⟨id, events, progress, kept⟩
          have known : next.seq ≤ 2 ^ 53 → ∀ serverText nameText text,
              server = codePoints serverText → name = codePoints nameText →
                codePoints hash = codePoints text →
                  (.str serverText, .str nameText, .str text) ∈ progress.definitions := by
            intro small serverText nameText text serverRead nameRead hashRead
            rw [← codePoints_injective hashRead]
            apply kept.defined small
            rw [← serverRead, ← nameRead]
            exact defHash_ok found
          rw [Journal.record]
          dsimp only at returned ⊢
          rw [inForce]
          exact ensured.called sound kept call known returned
  | emitCall server name defHash args =>
      rcases allowed with ⟨call, defined⟩
      rcases holds with ⟨id, events, progress, kept⟩
      rw [Session.handle] at returned ⊢
      rw [Journal.record]
      exact journaled.called sound kept call (fun _ => kept.definition_known defined) returned
  | emitOkResponse callId result latencyMs =>
      rw [Session.handle, Recorder.emitOkResponse] at returned ⊢
      rw [Journal.record]
      exact journaled.answered holds stamped allowed.1 allowed.2 rfl (by simp [RecordFields.items])
        (fun emission record => emission.answer_result record) returned
  | emitErrorResponse callId code message latencyMs =>
      rw [Session.handle, Recorder.emitErrorResponse] at returned ⊢
      rw [Journal.record]
      exact journaled.answered holds stamped allowed.1 allowed.2 rfl (by simp [RecordFields.items])
        (fun emission record => emission.answer_error record) returned
  | policyDecision server toolName action reason callId findings =>
      rw [Session.handle, Session.after, Recorder.policyDecision] at returned ⊢
      rcases emitted : session.recorder.emit settings
        (.policyDecision server toolName action reason callId findings) with ⟨outcome, next⟩
      rw [emitted] at returned
      cases returned
      exact journaled.decided holds stamped allowed emitted
  | exit failed =>
      rw [Session.handle, Session.after] at returned ⊢
      unfold Recorder.exit at returned ⊢
      rcases emitted : session.recorder.emit settings
        (.sessionEnd (if failed then "error" else "completed")) with ⟨outcome, next⟩
      rw [emitted] at returned
      cases outcome with
      | error error => cases returned
      | ok _ =>
          have sound := sessionEnd_sound failed
          have kept := journaled.ended holds stamped sound emitted
          exact ⟨kept.table, kept.counted, kept.identified, kept.waiting, kept.reflects,
            kept.decisions⟩

/-- A session that was entered has an empty journal. -/
theorem journaled_enter {recorder : Recorder} (sound : settings.Sound)
    (entered : Recorder.enter settings {} = (.ok (), recorder)) :
    Journaled settings recorder [] {} := by
  rcases recorded_enter sound entered with
    ⟨id, first, progress, recorded, -, -, -, defs, -, typed⟩
  rcases emit_ok entered with ⟨hash, line, -, wrote⟩
  have events : (load settings.sha (String.ofList recorder.text)).events = [restoredEvent first] := by
    rw [recorded.load.1]
    rfl
  have blank : fileIndex settings recorder = {} := by
    rw [fileIndex, events, indexEvents, List.foldl_cons, List.foldl_nil, indexEvent, typed]
    split <;> rfl
  constructor
  · intro server name
    rw [defs]
    rfl
  · rw [wrote]
    rfl
  · intro position call found
    cases found
  · exact fun callId absent => absurd absent List.not_mem_nil
  · rw [blank]
    refine ⟨fun key => .nil, .nil, ?_⟩
    intro text position
    simp
  · rw [fileDecisions, Recording.decisions, events, List.filter_singleton, typed]
    exact .nil

/-- The journal of a run is in step with its recorder. -/
theorem journaled_of_run (sound : settings.Sound) {operations : List Operation}
    (run : (returningMachine settings).Run operations session) :
    Journaled settings session.recorder session.pending (.ofOperations settings operations) := by
  induction run with
  | @start session begins =>
      rcases session with ⟨recorder, pending⟩
      rcases begins with ⟨rfl, entered⟩
      exact journaled_enter sound entered
  | @concat operations session next operation before step ih =>
      rcases step with ⟨returned, allowed, going, rfl⟩
      have holds := holds_of_run sound before.unrestricted
      rw [Journal.ofOperations, List.foldl_append, List.foldl_cons, List.foldl_nil]
      exact ih.handle holds sound going allowed returned

/-- The recording has no problem, and its tools, its calls and the decisions among its events are
those of the journal, in order. -/
structure Recording.Keeps (recording : Recording) (journal : Journal) : Prop where
  sound : recording.integrityProblems = []
  tools : ∀ key, List.Forall₂ JournalDefinition.Reproduced (journal.versions key)
    ((recording.tools.get? key).getD [])
  calls : List.Forall₂ JournalCall.Reproduced journal.calls recording.calls
  decisions : List.Forall₂ JournalDecision.Reproduced journal.decisions recording.decisions

theorem keeps_of_run (sound : settings.Sound) {operations : List Operation}
    (run : (returningMachine settings).Run operations session) :
    (load settings.sha (String.ofList session.recorder.text)).Keeps
      (.ofOperations settings operations) := by
  rcases holds_of_run sound run.unrestricted with ⟨id, events, progress, kept⟩
  have journaled := journaled_of_run sound run
  exact ⟨congrArg Recording.integrityProblems kept.recorded.load.1, journaled.reflects.tools,
    journaled.reflects.calls, journaled.decisions⟩

/-- **Recorder and loader agree**: `load` reads back the journal of a session whose operations
return. -/
theorem load_keeps_journal (settings : RecorderSettings) (sound : settings.Sound)
    (operations : List Operation) (session : Session)
    (run : (returningMachine settings).Run operations session) :
    (load settings.sha (String.ofList session.recorder.text)).Keeps
      (.ofOperations settings operations) :=
  keeps_of_run sound run

end Sessions

/-! ## A session with an answered call and a decision -/

/-- A definition, a call of it, its response, and a decision about it. -/
def answeredCall : List Operation :=
  [.recordDefinitions (codePoints "s") [plainTool],
    .startCall (codePoints "s") (codePoints "t") [] none,
    .emitOkResponse (codePoints "") .none (.int 0),
    .policyDecision (codePoints "s") (codePoints "t") (codePoints "allow") (codePoints "ok")
      (some (codePoints "")) none]

theorem answer_sound :
    (RecordFields.okResponse (codePoints "") (quietSettings.redact .none) (.int 0)).Sound := by
  refine ⟨?_, ?_⟩
  · intro value valued
    cases valued
    exact le_refl _
  · simp only [RecordFields.items, List.forall_mem_cons, List.not_mem_nil, false_implies,
      implies_true, and_true]
    refine ⟨portable_pyText (by simp [Whole]), ?_, ?_, ?_⟩
    · intro json read _
      cases read
      exact ⟨trivial, trivial, trivial⟩
    · intro json read _
      cases read
      exact ⟨trivial, trivial, trivial⟩
    · intro json read _
      cases (json?_num _).symm.trans read
      exact ⟨trivial, readable_int (by simp), trivial⟩

/-- The response is recorded. -/
theorem answer_returns {recorder : Recorder} (seq : recorder.seq = 3)
    (going : recorder.closed = false) :
    ∃ next : Recorder,
      Session.handle quietSettings { recorder, pending := [codePoints ""] }
        (.emitOkResponse (codePoints "") .none (.int 0)) = (.ok (), { recorder := next }) ∧
          next.seq = 4 ∧ next.closed = false := by
  have read : PyValue.members? ((RecordFields.okResponse (codePoints "")
      (quietSettings.redact .none) (.int 0)).items.map pyItem) =
      some [("call_id", .str ""), ("ok", .bool true), ("result", .null),
        ("latency_ms", .num (.int 0))] := by
    simp only [RecordFields.items, members?_cons, members?_nil, json?_text, json?_bool, json?_num]
    exact ⟨_, _, ⟨"", rfl, rfl⟩, ⟨_, _, rfl, ⟨_, _, rfl, ⟨_, _, rfl, rfl, rfl⟩, rfl⟩, rfl⟩, rfl⟩
  have small : recorder.seq ≤ 2 ^ 53 := by
    rw [seq]
    simp
  rcases quietSettings_emits small read (by
    simp only [List.forall_mem_cons, List.not_mem_nil, false_implies, implies_true, and_true]
    exact ⟨trivial, trivial, trivial, show (0 : Int).natAbs ≤ 2 ^ 53 by simp⟩) with
    ⟨next, emitted, nextSeq, -, nextClosed, -⟩
  refine ⟨next, ?_, ?_, ?_⟩
  · rw [Session.handle, Recorder.emitOkResponse, emitted, Session.answered]
    rfl
  · rw [nextSeq, seq]
  · rw [nextClosed]
    exact going

theorem decision_sound :
    (RecordFields.policyDecision (codePoints "s") (codePoints "t") (codePoints "allow")
      (codePoints "ok") (some (codePoints "")) none).Sound := by
  refine ⟨⟨?_, ?_⟩, ?_⟩
  · intro text same
    rw [← codePoints_injective same]
    simp
  · intro items found
    cases found
  · simp only [RecordFields.items, Option.map_some, Option.map_none, Option.toList_some,
      Option.toList_none, List.append_nil, List.cons_append, List.nil_append, List.forall_mem_cons,
      List.not_mem_nil, false_implies, implies_true, and_true]
    refine ⟨?_, ?_, ?_, ?_, ?_⟩ <;> exact portable_pyText (by simp [Whole])

/-- The decision is recorded. -/
theorem decision_returns {recorder : Recorder} (seq : recorder.seq = 4) :
    ∃ next : Recorder,
      Session.handle quietSettings { recorder } (.policyDecision (codePoints "s") (codePoints "t")
        (codePoints "allow") (codePoints "ok") (some (codePoints "")) none) =
          (.ok (), { recorder := next }) := by
  have read : PyValue.members? ((RecordFields.policyDecision (codePoints "s") (codePoints "t")
      (codePoints "allow") (codePoints "ok") (some (codePoints "")) none).items.map pyItem) =
      some [("server", .str "s"), ("tool_name", .str "t"), ("action", .str "allow"),
        ("reason", .str "ok"), ("call_id", .str "")] := by
    simp only [RecordFields.items, Option.map_some, Option.map_none, Option.toList_some,
      Option.toList_none, List.append_nil, List.cons_append, List.nil_append, members?_cons,
      members?_nil, json?_text]
    exact ⟨_, _, ⟨"s", rfl, rfl⟩, ⟨_, _, ⟨"t", rfl, rfl⟩, ⟨_, _, ⟨"allow", rfl, rfl⟩,
      ⟨_, _, ⟨"ok", rfl, rfl⟩, ⟨_, _, ⟨"", rfl, rfl⟩, rfl, rfl⟩, rfl⟩, rfl⟩, rfl⟩, rfl⟩
  have small : recorder.seq ≤ 2 ^ 53 := by
    rw [seq]
    simp
  rcases quietSettings_emits small read (by
    simp only [List.forall_mem_cons, List.not_mem_nil, false_implies, implies_true, and_true]
    exact ⟨trivial, trivial, trivial, trivial, trivial⟩) with ⟨next, emitted, -⟩
  refine ⟨next, ?_⟩
  rw [Session.handle, Recorder.policyDecision, emitted, Session.after]

theorem answeredCall_run :
    ∃ session, (returningMachine quietSettings).Run answeredCall session := by
  rcases quietSettings_enter with ⟨recorder, entered⟩
  rcases entered_fresh entered with ⟨seq, defs, issued⟩
  rcases listing_returns seq defs issued (entered_open entered) with
    ⟨listed, listing, known, seq, issued, going⟩
  rcases call_returns known seq issued going with ⟨called, call, nextSeq, still⟩
  rcases answer_returns nextSeq still with ⟨answered, answer, lastSeq, unclosed⟩
  rcases decision_returns lastSeq with ⟨decided, decision⟩
  have start : (returningMachine quietSettings).Run [] { recorder } := .start ⟨rfl, entered⟩
  have lists : (returningMachine quietSettings).step { recorder }
      (.recordDefinitions (codePoints "s") [plainTool]) { recorder := listed } :=
    ⟨congrArg Prod.fst listing, ⟨plainTool_sound _, fun _ _ => trivial⟩, entered_open entered,
      congrArg Prod.snd listing⟩
  have calls : (returningMachine quietSettings).step { recorder := listed } bareCall
      { recorder := called, pending := [codePoints ""] } :=
    ⟨congrArg Prod.fst call, bareCall_sound _, going, congrArg Prod.snd call⟩
  have answers : (returningMachine quietSettings).step
      { recorder := called, pending := [codePoints ""] }
      (.emitOkResponse (codePoints "") .none (.int 0)) { recorder := answered } :=
    ⟨congrArg Prod.fst answer, ⟨List.mem_cons_self, answer_sound⟩, still, congrArg Prod.snd answer⟩
  have decides : (returningMachine quietSettings).step { recorder := answered }
      (.policyDecision (codePoints "s") (codePoints "t") (codePoints "allow") (codePoints "ok")
        (some (codePoints "")) none) { recorder := decided } :=
    ⟨congrArg Prod.fst decision, decision_sound, unclosed, congrArg Prod.snd decision⟩
  exact ⟨_, (((start.concat lists).concat calls).concat answers).concat decides⟩

/-- The definition, the call with its answer and the decision are read back. -/
theorem load_keeps_journal_answeredCall :
    ∃ session : Session, (load quietSettings.sha (String.ofList session.recorder.text)).Keeps
      (.ofOperations quietSettings answeredCall) := by
  rcases answeredCall_run with ⟨session, run⟩
  exact ⟨session, load_keeps_journal quietSettings quietSettings_sound answeredCall session run⟩

end Harness
