import Anviq.Harness.Definitions
import Anviq.Harness.Portable

/-! # The file of a recorder

The events a recorder has written, as `load` reads them, and what `verify` carries past them.
Each emission the checks between events have nothing against is one more accepted event.
-/

namespace Harness

/-! ## Events as they are read -/

namespace Legible

variable {event : PyDict} {line : List Char} (legible : Legible event line)

include legible

theorem restored_encodable : (Json.obj (restoredEvent event)).AllNumbers PyNumber.Encodable := by
  have again := canonicalJson_restored legible.readable legible.written
  exact (canonicalJson_eq_ok.mp again).1

theorem restored_distinct : (Json.obj (restoredEvent event)).Distinct :=
  Harness.restored_distinct legible.distinct

theorem sameFinite : SameFinite (.obj event) (.obj (restoredEvent event)) :=
  legible.same.finite (canonicalJson_eq_ok.mp legible.written).1 legible.restored_encodable

end Legible

/-- What is read in events that are the same is the same. -/
theorem getOrNone_same {left right : PyDict} (same : SameFinite (.obj left) (.obj right))
    (name : String) : SameFinite (getOrNone left name) (getOrNone right name) := by
  unfold getOrNone
  cases same with
  | obj names values =>
      have both := names name
      cases leftFound : left.get? name <;> cases rightFound : right.get? name
      · exact .null
      · simp [leftFound, rightFound] at both
      · simp [leftFound, rightFound] at both
      · exact values name _ _ leftFound rightFound

theorem getOrNone_str {left right : PyDict} (same : SameFinite (.obj left) (.obj right))
    {name text : String} (found : getOrNone left name = .str text) :
    getOrNone right name = .str text := by
  have both := getOrNone_same same name
  rw [found] at both
  generalize getOrNone right name = other at both
  cases both
  rfl

theorem getOrNone_num {left right : PyDict} (same : SameFinite (.obj left) (.obj right))
    {name : String} {value : Int} (found : getOrNone left name = .num (.int value)) :
    ∃ number : PyNumber, getOrNone right name = .num number ∧ number.value? = some (value : ℚ) := by
  have both := getOrNone_same same name
  rw [found] at both
  generalize getOrNone right name = other at both
  cases both with
  | num numbers =>
      obtain ⟨read, first, second⟩ := numbers
      exact ⟨_, rfl, second.trans first.symm⟩

section Emissions

variable {settings : RecorderSettings} {recorder : Recorder} {fields : RecordFields}

namespace Emission

variable (emission : Emission settings recorder fields)

/-- The event as it is read. -/
def loaded : PyDict := restoredEvent emission.event

theorem sameFinite : SameFinite (.obj emission.event) (.obj emission.loaded) :=
  emission.legible.sameFinite

theorem loaded_valid : validEvent emission.loaded = true :=
  (validEvent_same emission.sameFinite).symm.trans emission.valid

theorem loaded_hashed : eventHash settings.sha emission.loaded = .ok emission.hash :=
  eventHash_same emission.sameFinite emission.legible.distinct emission.legible.restored_distinct
    emission.legible.restored_encodable emission.hashed

theorem loaded_type : getOrNone emission.loaded "type" = .str fields.type :=
  getOrNone_str emission.sameFinite (by simp [event, eventMembers, getOrNone, Json.Members.get?_cons])

theorem loaded_session : getOrNone emission.loaded "session_id" = .str emission.id :=
  getOrNone_str emission.sameFinite (by simp [event, eventMembers, getOrNone, Json.Members.get?_cons])

theorem get?_sealed : emission.rest.get? "event_hash" = none := by
  rw [Json.Members.get?_eq_none, names_read emission.read]
  intro named
  exact (List.nodup_append.mp (names_distinct fields)).2.2 "event_hash"
    (List.mem_append_right _ named) "event_hash" List.mem_cons_self rfl

theorem loaded_eventHash : getOrNone emission.loaded "event_hash" = .str emission.hash := by
  apply getOrNone_str emission.sameFinite
  simp [event, eventMembers, getOrNone, Json.Members.get?_cons, Json.Members.get?_append,
    emission.get?_sealed]

theorem loaded_prevHash : getOrNone emission.loaded "prev_hash" = linkJson recorder.prevHash := by
  have found : getOrNone emission.event "prev_hash" = linkJson recorder.prevHash := by
    simp [event, eventMembers, getOrNone, Json.Members.get?_cons]
  cases form : recorder.prevHash with
  | none =>
      have both := getOrNone_same emission.sameFinite "prev_hash"
      rw [found, form] at both
      generalize getOrNone emission.loaded "prev_hash" = other at both
      cases both
      rfl
  | some hash =>
      rw [form] at found
      exact getOrNone_str emission.sameFinite found

theorem loaded_seq : ∃ number : PyNumber, getOrNone emission.loaded "seq" = .num number ∧
    number.value? = some ((recorder.seq : Int) : ℚ) :=
  getOrNone_num emission.sameFinite (by simp [event, eventMembers, getOrNone, Json.Members.get?_cons])

/-- A field that is a string, as it is read. -/
theorem loaded_field {name text : String} (apart : name ∉ ["v", "seq", "ts", "session_id", "type",
    "prev_hash", "event_hash"]) (found : emission.rest.get? name = some (.str text)) :
    getOrNone emission.loaded name = .str text := by
  apply getOrNone_str emission.sameFinite
  rw [getOrNone, event, get?_field apart, found]
  rfl

/-- What is carried past the event when its number was expected. -/
theorem past {progress : Progress} (seq : progress.expectedSeq = recorder.seq) :
    progress.past emission.loaded =
      { progress with
        ended := progress.ended || decide (fields.type = "session_end")
        expectedSeq := recorder.seq + 1
        prevHash := .str emission.hash } := by
  obtain ⟨number, read, valued⟩ := emission.loaded_seq
  have typed : (Json.str fields.type == (.str "session_end" : PyJson)) =
      decide (fields.type = "session_end") := by
    rw [Bool.beq_eq_decide_eq]
    exact decide_eq_decide.mpr (by rw [Json.str.injEq])
  rw [Progress.past, emission.loaded_type, emission.loaded_eventHash, read, seq,
    (number_expected valued).2, typed]

/-- An event the checks between events have nothing against is accepted. -/
theorem accepted {index : Nat} {progress : Progress} (going : progress.ended = false)
    (once : index = 0 ∨ fields.type ≠ "session_start") (seq : progress.expectedSeq = recorder.seq)
    (link : progress.prevHash = linkJson recorder.prevHash)
    (semantic : (semanticProblems settings.sha index emission.loaded
      (progress.past emission.loaded)).1 = []) :
    Accepted settings.sha (.str emission.id) index emission.loaded progress where
  valid := emission.loaded_valid
  session := pyEq_str.mpr emission.loaded_session
  going := going
  once := by
    rw [emission.loaded_type]
    obtain first | other := once
    · simp [first]
    · simp [other]
  seq := by
    obtain ⟨number, read, valued⟩ := emission.loaded_seq
    rw [read, seq]
    exact (number_expected valued).1
  prevHash := by
    rw [emission.loaded_prevHash, link]
    cases recorder.prevHash with
    | none => exact pyEq_null.mpr rfl
    | some hash => exact pyEq_str.mpr rfl
  hash := by
    rw [hashProblems, emission.loaded_hashed]
    exact problemIf_eq_nil.mpr (by
      rw [Bool.not_eq_false']
      exact pyEq_str.mpr emission.loaded_eventHash)
  semantic := semantic

end Emission

/-! ## Files -/

/-- The text of a file of lines. -/
def fileText (lines : List (List Char)) : List Char := lines.flatMap fun line => line ++ ['\n']

/-- The file of a recorder is read as these events, `verify` has nothing against them, and what
it carries past them agrees with what the recorder keeps. -/
structure Recorded (settings : RecorderSettings) (id : String) (recorder : Recorder)
    (events : List PyDict) (progress : Progress) : Prop where
  lines : ∃ lines, List.Forall₂ Legible events lines ∧ recorder.text = fileText lines
  session : settings.sessionId = codePoints id
  begun : ∃ first rest, events.map restoredEvent = first :: rest ∧
    getOrNone first "type" = .str "session_start" ∧ getOrNone first "session_id" = .str id
  verified : verifyEvents settings.sha (.str id) 0 (events.map restoredEvent) {} = []
  progress_eq : progressAfter settings.sha (.str id) 0 (events.map restoredEvent) {} = progress
  ended : progress.ended = recorder.closed
  seq : progress.expectedSeq = recorder.seq
  link : progress.prevHash = linkJson recorder.prevHash
  linked : ∀ hash, recorder.prevHash = some hash → matchesHash hash = true

/-- Such a file is loaded without a problem. -/
theorem Recorded.load {id : String} {events : List PyDict} {progress : Progress}
    (recorded : Recorded settings id recorder events progress) :
    Harness.load settings.sha (String.ofList recorder.text) =
      { events := events.map restoredEvent, integrityProblems := [] } ∧
      CallsDefined (events.map restoredEvent) := by
  obtain ⟨lines, legible, text⟩ := recorded.lines
  obtain ⟨first, rest, begun, typed, identified⟩ := recorded.begun
  have sound : verify settings.sha (.str id) (events.map restoredEvent) = [] := by
    have verified := recorded.verified
    rw [begun] at verified ⊢
    exact List.append_eq_nil_iff.mpr ⟨problemIf_eq_nil.mpr (by simp [typed]), verified⟩
  have session : recordedSession (events.map restoredEvent) = .str id := by
    rw [begun, recordedSession]
    rw [getOrNone] at identified
    cases found : first.get? "session_id" with
    | none => simp [found] at identified
    | some value =>
        rw [found] at identified
        exact identified
  refine ⟨?_, callsDefined_of_verified sound⟩
  have index := indexProblems_of_verified recorded.verified
  rw [text, fileText, load_legible settings.sha legible, session, sound, index]
  rfl

/-- The file of one more accepted event. -/
theorem Recorded.emit {id : String} {events : List PyDict} {progress : Progress} {before : Recorder}
    (recorded : Recorded settings id before events progress) (going : before.closed = false)
    (text : recorder.text = before.text) (seq : recorder.seq = before.seq)
    (link : recorder.prevHash = before.prevHash) (emission : Emission settings recorder fields)
    (once : fields.type ≠ "session_start")
    (semantic : (semanticProblems settings.sha events.length emission.loaded
      (progress.past emission.loaded)).1 = []) {next : Recorder}
    (wrote : next.text = recorder.text ++ emission.line ++ ['\n'])
    (counted : next.seq = recorder.seq + 1) (named : next.prevHash = some emission.hash)
    (closed : next.closed = decide (fields.type = "session_end")) :
    Recorded settings id next (events ++ [emission.event])
      (semanticProblems settings.sha events.length emission.loaded
        (progress.past emission.loaded)).2 := by
  have same : emission.id = id :=
    codePoints_injective (emission.session.symm.trans recorded.session)
  have expected : progress.expectedSeq = recorder.seq := recorded.seq.trans (by rw [seq])
  have accepted := emission.accepted (recorded.ended.trans going) (Or.inr once) expected
    (recorded.link.trans (by rw [link])) semantic
  rw [same] at accepted
  obtain ⟨lines, legible, written⟩ := recorded.lines
  obtain ⟨first, rest, begun, typed, identified⟩ := recorded.begun
  have length : 0 + (events.map restoredEvent).length = events.length := by simp
  have loaded : ([emission.event].map restoredEvent) = [emission.loaded] := rfl
  obtain ⟨ended, expectedSeq, prevHash⟩ := @semanticProblems_keeps settings.sha events.length
    emission.loaded (progress.past emission.loaded)
  have past := emission.past expected
  constructor
  case lines =>
    refine ⟨lines ++ [emission.line],
      List.rel_append legible (.cons emission.legible .nil), ?_⟩
    rw [wrote, text, written]
    simp [fileText]
  case session => exact recorded.session
  case begun =>
    rw [List.map_append, begun]
    exact ⟨first, _, rfl, typed, identified⟩
  case verified =>
    rw [List.map_append, verifyEvents_append, recorded.verified, recorded.progress_eq, loaded,
      length, List.nil_append]
    exact verifyEvents_cons_eq_nil.mpr ⟨accepted, by rw [verifyEvents]⟩
  case progress_eq =>
    rw [List.map_append, progressAfter_append, recorded.progress_eq, loaded, length, progressAfter,
      progressAfter]
    exact verifyEvent_progress emission.loaded_valid
  case ended =>
    rw [ended, past, closed, recorded.ended, going, Bool.false_or]
  case seq =>
    rw [expectedSeq, past, counted]
    push_cast
    rfl
  case link =>
    rw [prevHash, past, named]
    rfl
  case linked =>
    intro hash stored
    rw [named] at stored
    obtain rfl := Option.some.inj stored
    exact emission.digest

/-- What is recorded is in the text, the number and the hash. -/
theorem Recorded.congr {id : String} {events : List PyDict} {progress : Progress} {other : Recorder}
    (recorded : Recorded settings id recorder events progress) (text : other.text = recorder.text)
    (seq : other.seq = recorder.seq) (link : other.prevHash = recorder.prevHash)
    (closed : other.closed = recorder.closed) : Recorded settings id other events progress where
  lines := text ▸ recorded.lines
  session := recorded.session
  begun := recorded.begun
  verified := recorded.verified
  progress_eq := recorded.progress_eq
  ended := closed ▸ recorded.ended
  seq := seq ▸ recorded.seq
  link := link ▸ recorded.link
  linked := link ▸ recorded.linked

/-- The file of one more event that neither starts nor ends the session. -/
theorem Recorded.wrote {id : String} {events : List PyDict} {progress : Progress} {before : Recorder}
    (recorded : Recorded settings id before events progress) (going : before.closed = false)
    (text : recorder.text = before.text) (seq : recorder.seq = before.seq)
    (link : recorder.prevHash = before.prevHash) (closed : recorder.closed = before.closed)
    (emission : Emission settings recorder fields) (begins : fields.type ≠ "session_start")
    (ends : fields.type ≠ "session_end")
    (semantic : (semanticProblems settings.sha events.length emission.loaded
      (progress.past emission.loaded)).1 = []) :
    Recorded settings id (recorder.wrote emission.hash emission.line) (events ++ [emission.event])
      (semanticProblems settings.sha events.length emission.loaded
        (progress.past emission.loaded)).2 := by
  refine recorded.emit going text seq link emission begins semantic rfl rfl rfl ?_
  rw [decide_eq_false ends]
  exact closed.trans going

end Emissions

/-! ## What the checks see -/

namespace Emission

variable {settings : RecorderSettings} {recorder : Recorder} {server : PyText} (index : Nat)
  (progress : Progress)

/-- A definition that is written whole is accepted, and known afterwards. -/
theorem semantic_definition {members : PyDict} {hash : String}
    (emission : Emission settings recorder (.toolDefinition server (PyValue.ofMembers members) hash))
    (hashed : toolHash settings.sha members = .ok hash) {name : String}
    (named : members.get? "name" = some (.str name)) :
    (semanticProblems settings.sha index emission.loaded progress).1 = [] ∧
      ∃ text, server = codePoints text ∧
        (semanticProblems settings.sha index emission.loaded progress).2 =
          { progress with
            definitions := (.str text, .str name, .str hash) :: progress.definitions } := by
  have read := emission.read
  simp only [RecordFields.items, members?_cons, members?_nil, json?_text, json?_dict, json?_pyText,
    Option.some.injEq] at read
  obtain ⟨_, _, ⟨text, rfl, rfl⟩, ⟨_, _, ⟨tool, defined, rfl⟩, ⟨_, _, rfl, rfl, rfl⟩, rfl⟩, rest⟩ := read
  have whole : tool = members := by
    have again := PyValue.json?_ofJson (.obj members)
    rw [PyValue.ofJson] at again
    obtain ⟨other, otherRead, same⟩ := json?_dict.mp again
    cases same
    exact Option.some.inj (defined.symm.trans otherRead)
  subst whole
  have typed : getOrNone emission.loaded "type" = .str "tool_definition" := emission.loaded_type
  have serverFound : getOrNone emission.loaded "server" = .str text :=
    emission.loaded_field (by simp) (by simp [rest, Json.Members.get?_cons])
  have hashFound : getOrNone emission.loaded "def_hash" = .str hash :=
    emission.loaded_field (by simp) (by simp [rest, Json.Members.get?_cons])
  have toolWritten : getOrNone emission.event "tool" = .obj tool := by
    rw [getOrNone, Emission.event, get?_field (by simp), rest]
    simp [Json.Members.get?_cons]
  have same := getOrNone_same emission.sameFinite "tool"
  rw [toolWritten] at same
  have distinct : (Json.obj tool).Distinct := by
    rw [← toolWritten]
    exact Json.getD_distinct emission.legible.distinct "tool" trivial
  have loadedDistinct : (getOrNone emission.loaded "tool").Distinct :=
    Json.getD_distinct emission.legible.restored_distinct "tool" trivial
  have loadedEncodable : (getOrNone emission.loaded "tool").AllNumbers PyNumber.Encodable :=
    Json.getD_allNumbers emission.legible.restored_encodable "tool" trivial
  cases loadedTool : getOrNone emission.loaded "tool" with
  | obj other =>
      rw [loadedTool] at same loadedDistinct loadedEncodable
      have again := toolHash_same same distinct loadedDistinct loadedEncodable hashed
      have named' : getOrNone other "name" = .str name :=
        getOrNone_str same (by rw [getOrNone, named]; rfl)
      have matching : pyEq (.str hash) (getOrNone emission.loaded "def_hash") = true := by
        rw [hashFound]
        exact pyEq_str.mpr rfl
      have hashedTool : toolHash settings.sha (getOrNone emission.loaded "tool").members = .ok hash := by
        rw [loadedTool]
        exact again
      have accepted : (semanticProblems settings.sha index emission.loaded progress).1 = [] :=
        (definition_eq_nil typed).mpr ⟨hash, hashedTool, matching⟩
      refine ⟨accepted, text, rfl, ?_⟩
      rw [semanticProblems_definition typed, serverFound, hashFound, loadedTool]
      simp only [Json.members, named']
  | _ =>
      rw [loadedTool] at same
      cases same

/-- A call of a known definition with a new identifier is accepted, and known afterwards. -/
theorem semantic_call {callId name defHash : PyText} {args : PyValue}
    (emission : Emission settings recorder (.toolCall callId server name defHash args))
    (defined : ∀ serverText nameText hash, server = codePoints serverText →
      name = codePoints nameText → defHash = codePoints hash →
        (.str serverText, .str nameText, .str hash) ∈ progress.definitions)
    (fresh : ∀ text, callId = codePoints text → .str text ∉ progress.calls) :
    (semanticProblems settings.sha index emission.loaded progress).1 = [] ∧
      ∃ text, callId = codePoints text ∧
        (semanticProblems settings.sha index emission.loaded progress).2 =
          { progress with calls := .str text :: progress.calls } := by
  have read := emission.read
  simp only [RecordFields.items, members?_cons, members?_nil, json?_text] at read
  obtain ⟨_, _, ⟨id, rfl, rfl⟩, ⟨_, _, ⟨serverText, rfl, rfl⟩, ⟨_, _, ⟨nameText, rfl, rfl⟩,
    ⟨_, _, ⟨hash, rfl, rfl⟩, ⟨argsJson, _, -, rfl, rfl⟩, rfl⟩, rfl⟩, rfl⟩, rest⟩ := read
  have typed := emission.loaded_type
  have idFound : getOrNone emission.loaded "call_id" = .str id :=
    emission.loaded_field (by simp) (by simp [rest, Json.Members.get?_cons])
  have serverFound : getOrNone emission.loaded "server" = .str serverText :=
    emission.loaded_field (by simp) (by simp [rest, Json.Members.get?_cons])
  have nameFound : getOrNone emission.loaded "tool_name" = .str nameText :=
    emission.loaded_field (by simp) (by simp [rest, Json.Members.get?_cons])
  have hashFound : getOrNone emission.loaded "def_hash" = .str hash :=
    emission.loaded_field (by simp) (by simp [rest, Json.Members.get?_cons])
  rw [semanticProblems_call typed, idFound, serverFound, nameFound, hashFound]
  refine ⟨?_, id, rfl, rfl⟩
  have known := defined serverText nameText hash rfl rfl rfl
  have unknown := fresh id rfl
  rw [List.append_eq_nil_iff, problemIf_eq_nil, problemIf_eq_nil]
  simpa using ⟨known, unknown⟩

/-- A response to a call that has none is accepted, and known afterwards. -/
theorem semantic_response {fields : RecordFields} {callId : PyText} {more : List (String × PyValue)}
    (emission : Emission settings recorder fields) (responds : fields.type = "tool_response")
    (about : fields.items = ("call_id", .str callId) :: more)
    (called : ∀ text, callId = codePoints text →
      .str text ∈ progress.calls ∧ .str text ∉ progress.responses) :
    (semanticProblems settings.sha index emission.loaded progress).1 = [] ∧
      ∃ text, callId = codePoints text ∧
        (semanticProblems settings.sha index emission.loaded progress).2 =
          { progress with responses := .str text :: progress.responses } := by
  have read := emission.read
  rw [about, members?_cons] at read
  obtain ⟨_, others, identified, -, rest⟩ := read
  obtain ⟨id, rfl, rfl⟩ := json?_text.mp identified
  have typed := emission.loaded_type
  rw [responds] at typed
  have idFound : getOrNone emission.loaded "call_id" = .str id :=
    emission.loaded_field (by simp) (by simp [rest, Json.Members.get?_cons])
  rw [semanticProblems_response typed, idFound]
  refine ⟨?_, id, rfl, rfl⟩
  obtain ⟨known, unanswered⟩ := called id rfl
  rw [List.append_eq_nil_iff, problemIf_eq_nil, problemIf_eq_nil]
  simpa using ⟨known, unanswered⟩

/-- Other events are accepted, and change nothing. -/
theorem semantic_other {fields : RecordFields} (emission : Emission settings recorder fields)
    (defines : fields.type ≠ "tool_definition") (calls : fields.type ≠ "tool_call")
    (responds : fields.type ≠ "tool_response") :
    semanticProblems settings.sha index emission.loaded progress = ([], progress) := by
  have typed := emission.loaded_type
  apply semanticProblems_other <;>
    · rw [typed]
      simpa

end Emission

end Harness
