import Anviq.Harness.Recorder
import Anviq.Harness.Restored
import Anviq.Harness.SameEvents
import Anviq.Harness.Verified

/-! # The events of a recorder

What `_emit` writes, if it writes: the event stands for a JSON object that satisfies the schema
and stores its own hash. If it raises, nothing is written.
-/

namespace Harness

/-! ## Items -/

section Items

variable {items : List (String × PyValue)} {members : PyDict}

theorem members?_pyItem :
    PyValue.members? (items.map pyItem) = some members ↔
      List.Forall₂ (fun item member => item.1 = member.1 ∧ item.2.json? = some member.2)
        items members := by
  have named (left right : String) :
      PyKey.str (codePoints left) = .str (codePoints right) ↔ left = right := by
    rw [PyKey.str.injEq, codePoints_injective.eq_iff]
  simp only [PyValue.members?_eq_some, List.forall₂_map_left_iff, pyItem, named]

theorem names_read (read : PyValue.members? (items.map pyItem) = some members) :
    members.map Prod.fst = items.map Prod.fst := by
  have related := members?_pyItem.mp read
  clear read
  induction related with
  | nil => rfl
  | cons head _ ih => rw [List.map_cons, List.map_cons, head.1, ih]

end Items

theorem json?_text {codes : PyText} {json : PyJson} :
    (PyValue.str codes).json? = some json ↔
      ∃ text, codes = codePoints text ∧ json = .str text := by
  rw [PyValue.json?, Option.map_eq_some_iff]
  exact exists_congr fun text => and_congr text?_eq_some eq_comm

theorem json?_num (value : PyNumber) : (PyValue.num value).json? = some (.num value) := by
  rw [PyValue.json?]

theorem json?_bool (value : Bool) : (PyValue.bool value).json? = some (.bool value) := by
  rw [PyValue.json?]

theorem json?_dict {items : List (PyKey × PyValue)} {json : PyJson} :
    (PyValue.dict items).json? = some json ↔
      ∃ members, PyValue.members? items = some members ∧ json = .obj members := by
  rw [PyValue.json?, Option.map_eq_some_iff]
  exact exists_congr fun members => and_congr Iff.rfl eq_comm

theorem json?_list {elements : List PyValue} {json : PyJson} :
    (PyValue.list elements).json? = some json ↔
      ∃ jsons, PyValue.jsons? elements = some jsons ∧ json = .arr jsons := by
  rw [PyValue.json?, Option.map_eq_some_iff]
  exact exists_congr fun jsons => and_congr Iff.rfl eq_comm

theorem json?_pyText (text : String) : (pyText text).json? = some (.str text) :=
  json?_text.mpr ⟨text, rfl, rfl⟩

/-! ## Emissions -/

section Emissions

variable {settings : RecorderSettings} {recorder next : Recorder} {fields : RecordFields}

/-- The recorder when an event has been asked for. -/
def Recorder.ticked (recorder : Recorder) : Recorder :=
  { recorder with ticks := recorder.ticks + 1 }

/-- The recorder when an event with this hash and text has been written. -/
def Recorder.wrote (recorder : Recorder) (hash : String) (line : List Char) : Recorder :=
  { recorder.ticked with
    text := recorder.text ++ line ++ ['\n'], seq := recorder.seq + 1, prevHash := some hash }

/-- An emission that fails writes nothing. -/
theorem emit_error {error : PyError} (failed : recorder.emit settings fields = (.error error, next)) :
    next = recorder.ticked := by
  unfold Recorder.emit at failed
  dsimp only at failed
  split at failed
  · exact (congrArg Prod.snd failed).symm
  · cases failed

theorem emit_ok (emitted : recorder.emit settings fields = (.ok (), next)) :
    ∃ hash line, Recorder.sealEvent settings (recorder.event settings fields) = .ok (hash, line) ∧
      next = recorder.wrote hash line := by
  unfold Recorder.emit at emitted
  cases sealed : Recorder.sealEvent settings (recorder.event settings fields) with
  | error error =>
      rw [sealed] at emitted
      cases emitted
  | ok written =>
      rw [sealed] at emitted
      exact ⟨written.1, written.2, rfl, (congrArg Prod.snd emitted).symm⟩

end Emissions

/-! ## Sealed events -/

/-- The texts of a `dict` are those of the objects it stands for. -/
theorem canonicalValue_dict {items : List (PyKey × PyValue)} {text : List Char} :
    canonicalValue (.dict items) = .ok text ↔
      ∃ members, PyValue.members? items = some members ∧ canonicalJson (.obj members) = .ok text := by
  rw [canonicalValue_eq_ok (.dict items) text]
  simp only [PyValue.json?, Option.map_eq_some_iff]
  constructor
  · intro written
    obtain ⟨_, ⟨members, read, rfl⟩, written⟩ := written
    exact ⟨members, read, written⟩
  · intro written
    obtain ⟨members, read, written⟩ := written
    exact ⟨_, ⟨members, read, rfl⟩, written⟩

section Seals

variable {settings : RecorderSettings} {event : List (String × PyValue)}

theorem members?_sealed {hash : String} {members : PyDict} :
    PyValue.members? ((event ++ [("event_hash", pyText hash)]).map pyItem) = some members ↔
      ∃ front, PyValue.members? (event.map pyItem) = some front ∧
        members = front ++ [("event_hash", Json.str hash)] := by
  simp only [members?_pyItem]
  constructor
  · intro related
    have last := List.forall₂_drop event.length related
    rw [List.drop_left] at last
    refine ⟨members.take event.length, ?_, ?_⟩
    · have first := List.forall₂_take event.length related
      rw [List.take_left] at first
      exact first
    · generalize back : members.drop event.length = rest at last
      cases last with
      | @cons _ member _ _ head tail =>
          cases tail
          have sealed : member = ("event_hash", .str hash) :=
            Prod.ext head.1.symm (Option.some.inj (head.2.symm.trans (json?_pyText hash)))
          rw [← sealed, ← back, List.take_append_drop]
  · intro sealed
    obtain ⟨front, first, rfl⟩ := sealed
    exact List.rel_append first (.cons ⟨rfl, json?_pyText hash⟩ .nil)

theorem unsealed_members {members : PyDict} (unsealed : "event_hash" ∉ event.map Prod.fst)
    (read : PyValue.members? (event.map pyItem) = some members) (hash : PyJson) :
    ((members ++ [("event_hash", hash)]).filter fun member => member.1 ≠ "event_hash") =
      members := by
  rw [← names_read read] at unsealed
  rw [List.filter_append]
  have kept : (members.filter fun member => member.1 ≠ "event_hash") = members := by
    apply List.filter_eq_self.mpr
    intro member present
    apply decide_eq_true
    intro named
    exact unsealed (named ▸ List.mem_map_of_mem present)
  rw [kept]
  simp

/-- An event is sealed when it stands for an object whose numbers can be written. -/
theorem sealEvent_eq_ok (unsealed : "event_hash" ∉ event.map Prod.fst) {hash : String}
    {line : List Char} :
    Recorder.sealEvent settings event = .ok (hash, line) ↔
      ∃ members : PyDict,
        PyValue.members? ((event ++ [("event_hash", pyText hash)]).map pyItem) = some members ∧
          eventHash settings.sha members = .ok hash ∧ canonicalJson (.obj members) = .ok line := by
  have whole : (event.filter fun item => item.1 ≠ "event_hash") = event := by
    apply List.filter_eq_self.mpr
    intro item present
    apply decide_eq_true
    intro named
    exact unsealed (named ▸ List.mem_map_of_mem present)
  have digest (members : PyDict) (read : PyValue.members? (event.map pyItem) = some members) :
      eventHash settings.sha (members ++ [("event_hash", Json.str hash)]) =
        sha256Hex settings.sha (.obj members) := by
    rw [eventHash, unsealed_members unsealed read]
  unfold Recorder.sealEvent
  dsimp only
  rw [whole]
  simp only [bind_eq_ok, valueHash, canonicalValue_dict, Except.ok.injEq, Prod.mk.injEq]
  constructor
  · intro steps
    obtain ⟨_, ⟨text, ⟨members, read, written⟩, hashed⟩, _, ⟨sealed, again, wrote⟩, rfl, rfl⟩ := steps
    obtain ⟨front, first, rfl⟩ := members?_sealed.mp again
    refine ⟨_, again, ?_, wrote⟩
    rw [digest front first]
    obtain rfl := Option.some.inj (read.symm.trans first)
    exact bind_eq_ok.mpr ⟨text, written, congrArg _ hashed⟩
  · intro sealed
    obtain ⟨members, read, hashed, wrote⟩ := sealed
    obtain ⟨front, first, rfl⟩ := members?_sealed.mp read
    rw [digest front first] at hashed
    obtain ⟨text, written, named⟩ := bind_eq_ok.mp hashed
    exact ⟨hash, ⟨text, ⟨front, first, written⟩, Except.ok.inj named⟩, line, ⟨_, read, wrote⟩, rfl, rfl⟩

end Seals

/-! ## The schema -/

/-- A latency of at least zero, if it has a value. -/
def PyNumber.Elapsed (number : PyNumber) : Prop := ∀ value, number.value? = some value → 0 ≤ value

/-- Fields the schema has nothing against. -/
def RecordFields.Shaped : RecordFields → Prop
  | .sessionStart .. => True
  | .toolDefinition _ tool defHash =>
      matchesHash defHash = true ∧
        ∀ members, PyValue.members? tool = some members → isTool (.obj members) = true
  | .toolCall _ _ _ defHash args =>
      (∀ text, defHash = codePoints text → matchesHash text = true) ∧ ∃ items, args = .dict items
  | .okResponse _ _ latencyMs => latencyMs.Elapsed
  | .errorResponse _ _ _ latencyMs => latencyMs.Elapsed
  | .policyDecision _ _ action _ _ findings =>
      (∀ text, action = codePoints text →
          text ∈ ["allow", "warn", "block", "quarantine"]) ∧
        ∀ elements, findings = some elements → ∀ jsons, PyValue.jsons? elements = some jsons →
          areFindings (.arr jsons) = true
  | .sessionEnd reason => reason ∈ ["completed", "error"]

/-- The previous hash as an event has it. -/
def linkJson (prevHash : Option String) : PyJson := (prevHash.map Json.str).getD .null

/-- The object an event stands for. -/
def eventMembers (seq : Nat) (time id type : String) (prevHash : Option String) (fields : PyDict)
    (hash : String) : PyDict :=
  [("v", .num (.int 1)), ("seq", .num (.int seq)), ("ts", .str time), ("session_id", .str id),
    ("type", .str type), ("prev_hash", linkJson prevHash)] ++ fields ++ [("event_hash", .str hash)]

section Shape

variable {settings : RecorderSettings} {recorder : Recorder} {fields : RecordFields}
  {members : PyDict} {hash : String}

theorem json?_link (prevHash : Option String) :
    ((prevHash.map pyText).getD .none).json? = some (linkJson prevHash) := by
  cases prevHash with
  | none => simp only [Option.map_none, Option.getD_none, PyValue.json?, linkJson]
  | some hash => exact json?_pyText hash

theorem members?_cons {name : String} {value : PyValue} {items : List (String × PyValue)} :
    PyValue.members? (((name, value) :: items).map pyItem) = some members ↔
      ∃ json rest, value.json? = some json ∧ PyValue.members? (items.map pyItem) = some rest ∧
        members = (name, json) :: rest := by
  simp only [members?_pyItem, List.forall₂_cons_left_iff]
  constructor
  · intro related
    obtain ⟨⟨_, json⟩, rest, ⟨rfl, valued⟩, others, rfl⟩ := related
    exact ⟨json, rest, valued, others, rfl⟩
  · intro read
    obtain ⟨json, rest, valued, others, rfl⟩ := read
    exact ⟨(name, json), rest, ⟨rfl, valued⟩, others, rfl⟩

theorem members?_nil : PyValue.members? (([] : List (String × PyValue)).map pyItem) = some members ↔
    members = [] := by
  simp [PyValue.members?, eq_comm]

/-- The object the event of some fields stands for. -/
theorem members?_event :
    PyValue.members?
        ((recorder.event settings fields ++ [("event_hash", pyText hash)]).map pyItem) =
          some members ↔
      ∃ time id rest, settings.clock recorder.ticks = codePoints time ∧
        settings.sessionId = codePoints id ∧
        PyValue.members? (fields.items.map pyItem) = some rest ∧
        members = eventMembers recorder.seq time id fields.type recorder.prevHash rest hash := by
  rw [members?_sealed, Recorder.event]
  simp only [List.cons_append, List.nil_append, members?_cons, json?_pyText, json?_link,
    json?_text, json?_num, Option.some.injEq]
  constructor
  · intro read
    obtain ⟨_, ⟨_, _, rfl, ⟨_, _, rfl, ⟨_, _, ⟨time, ticks, rfl⟩, ⟨_, _, ⟨id, identified, rfl⟩,
      ⟨_, _, rfl, ⟨_, rest, rfl, fieldsRead, rfl⟩, rfl⟩, rfl⟩, rfl⟩, rfl⟩, rfl⟩, rfl⟩ := read
    exact ⟨time, id, rest, ticks, identified, fieldsRead, rfl⟩
  · intro read
    obtain ⟨time, id, rest, ticks, identified, fieldsRead, rfl⟩ := read
    exact ⟨_, ⟨_, _, rfl, ⟨_, _, rfl, ⟨_, _, ⟨time, ticks, rfl⟩, ⟨_, _, ⟨id, identified, rfl⟩,
      ⟨_, _, rfl, ⟨_, rest, rfl, fieldsRead, rfl⟩, rfl⟩, rfl⟩, rfl⟩, rfl⟩, rfl⟩, rfl⟩

end Shape

section Valid

variable {settings : RecorderSettings} {fields : RecordFields} {rest : PyDict}

theorem isLatency_of_elapsed {number : PyNumber} (encodable : number.Encodable)
    (elapsed : number.Elapsed) : isLatency (.num number) = true := by
  cases number with
  | int value =>
      rw [isLatency_num rfl]
      exact decide_eq_true (elapsed _ rfl)
  | float value =>
      rw [isLatency_num rfl]
      exact decide_eq_true (elapsed _ rfl)
  | infinity negative => exact encodable.elim
  | nan => exact encodable.elim

section Members

variable {seq : Nat} {time id type : String} {prevHash : Option String} {hash : String}

/-- A member beside those every event has. -/
theorem get?_field {name : String} (apart : name ∉ ["v", "seq", "ts", "session_id", "type",
    "prev_hash", "event_hash"]) :
    (eventMembers seq time id type prevHash rest hash).get? name = rest.get? name := by
  simp only [List.mem_cons, List.not_mem_nil, or_false, not_or] at apart
  obtain ⟨v, seq, ts, session, type, link, sealed⟩ := apart
  simp [eventMembers, Json.Members.get?_cons, Json.Members.get?_append, Ne.symm v, Ne.symm seq,
    Ne.symm ts, Ne.symm session, Ne.symm type, Ne.symm link, Ne.symm sealed]

theorem hasType_eventMembers (other : String) :
    hasType (eventMembers seq time id type prevHash rest hash) other = decide (type = other) := by
  simp [hasType, property, eventMembers, Json.Members.get?_cons, isOneOf]

theorem validEvent_eventMembers (dated : isDateTime time.toList = true) (identified : id ≠ "")
    (typed : type ∈ eventTypes) (linked : ∀ hash, prevHash = some hash → matchesHash hash = true)
    (digest : matchesHash hash = true) (unsealed : rest.get? "event_hash" = none)
    (fields : matchesType (eventMembers seq time id type prevHash rest hash) = true) :
    validEvent (eventMembers seq time id type prevHash rest hash) = true := by
  have length : 1 ≤ id.length := by
    rw [Nat.one_le_iff_ne_zero, ← String.length_toList, Ne, List.length_eq_zero_iff]
    exact fun empty => identified (String.toList_inj.mp empty)
  rw [validEvent, fields]
  simp [required, property, eventMembers, Json.Members.get?_cons, Json.Members.get?_append, unsealed,
    isOne, isSequenceNumber, PyNumber.value?, dated, length, isOneOf, typed, isHash, digest]
  cases prevHash with
  | none => rfl
  | some hash => exact linked hash rfl

/-- What is written of shaped fields has the shape of its type. -/
theorem matchesType_of_shaped (shaped : fields.Shaped)
    (read : PyValue.members? (fields.items.map pyItem) = some rest)
    (encodable : ∀ member ∈ rest, member.2.AllNumbers PyNumber.Encodable) :
    matchesType (eventMembers seq time id fields.type prevHash rest hash) = true := by
  cases fields with
  | sessionStart agent metaItems =>
      cases metaItems with
      | none =>
          simp only [RecordFields.items, Option.map_none, Option.toList_none, members?_cons,
            members?_nil, json?_text] at read
          obtain ⟨_, _, ⟨agent, -, rfl⟩, rfl, rfl⟩ := read
          simp [matchesType, hasType_eventMembers, RecordFields.type, required, property, get?_field,
            Json.Members.get?_cons, isString]
      | some items =>
          simp only [RecordFields.items, Option.map_some, Option.toList_some, members?_cons,
            members?_nil, json?_text, json?_dict] at read
          obtain ⟨_, _, ⟨agent, -, rfl⟩, ⟨_, _, ⟨others, -, rfl⟩, rfl, rfl⟩, rfl⟩ := read
          simp [matchesType, hasType_eventMembers, RecordFields.type, required, property, get?_field,
            Json.Members.get?_cons, isString, isObject]
  | toolDefinition server tool defHash =>
      simp only [RecordFields.items, members?_cons, members?_nil, json?_text, json?_dict,
        json?_pyText, Option.some.injEq] at read
      obtain ⟨_, _, ⟨server, -, rfl⟩, ⟨_, _, ⟨definition, defined, rfl⟩, ⟨_, _, rfl, rfl, rfl⟩, rfl⟩,
        rfl⟩ := read
      simp [matchesType, hasType_eventMembers, RecordFields.type, required, property, get?_field,
        Json.Members.get?_cons, isString, isHash, shaped.1, shaped.2 definition defined]
  | toolCall callId server toolName defHash args =>
      obtain ⟨digest, items, rfl⟩ := shaped
      simp only [RecordFields.items, members?_cons, members?_nil, json?_text, json?_dict] at read
      obtain ⟨_, _, ⟨callId, -, rfl⟩, ⟨_, _, ⟨server, -, rfl⟩, ⟨_, _, ⟨toolName, -, rfl⟩,
        ⟨_, _, ⟨defHash, named, rfl⟩, ⟨_, _, ⟨members, -, rfl⟩, rfl, rfl⟩, rfl⟩, rfl⟩, rfl⟩, rfl⟩ := read
      simp [matchesType, hasType_eventMembers, RecordFields.type, required, property, get?_field,
        Json.Members.get?_cons, isString, isObject, isHash, digest defHash named]
  | okResponse callId result latencyMs =>
      simp only [RecordFields.items, members?_cons, members?_nil, json?_text, json?_num, json?_bool,
        Option.some.injEq] at read
      obtain ⟨_, _, ⟨callId, -, rfl⟩, ⟨_, _, rfl, ⟨_, _, resulted, ⟨_, _, rfl, rfl, rfl⟩, rfl⟩, rfl⟩,
        rfl⟩ := read
      have elapsed := isLatency_of_elapsed (encodable ("latency_ms", .num latencyMs) (by simp)) shaped
      simp [matchesType, hasType_eventMembers, RecordFields.type, required, property, get?_field,
        Json.Members.get?_cons, isString, elapsed]
  | errorResponse callId code message latencyMs =>
      simp only [RecordFields.items, members?_cons, members?_nil, json?_text, json?_num, json?_bool,
        json?_dict, Option.some.injEq] at read
      obtain ⟨_, _, ⟨callId, -, rfl⟩, ⟨_, _, rfl, ⟨_, _, ⟨_, ⟨_, _, ⟨code, -, rfl⟩,
        ⟨_, _, ⟨message, -, rfl⟩, rfl, rfl⟩, rfl⟩, rfl⟩, ⟨_, _, rfl, rfl, rfl⟩, rfl⟩, rfl⟩,
        rfl⟩ := read
      have elapsed := isLatency_of_elapsed (encodable ("latency_ms", .num latencyMs) (by simp)) shaped
      simp [matchesType, hasType_eventMembers, RecordFields.type, required, property, get?_field,
        Json.Members.get?_cons, isString, elapsed, isResponseError]
  | policyDecision server toolName action reason callId findings =>
      obtain ⟨decided, found⟩ := shaped
      have named {text : String} (named : action = codePoints text) :
          isOneOf ["allow", "warn", "block", "quarantine"] (.str text) = true := by
        simpa [isOneOf] using decided text named
      simp only [RecordFields.items, List.cons_append, List.nil_append, members?_cons,
        json?_text] at read
      obtain ⟨_, _, ⟨server, -, rfl⟩, ⟨_, _, ⟨toolName, -, rfl⟩, ⟨_, _, ⟨action, acted, rfl⟩,
        ⟨_, more, ⟨reason, -, rfl⟩, optional, rfl⟩, rfl⟩, rfl⟩, rfl⟩ := read
      have extra : property more "call_id" isString = true ∧
          property more "findings" areFindings = true := by
        cases callId with
        | none =>
            cases findings with
            | none =>
                simp only [Option.map_none, Option.toList_none, List.nil_append,
                  members?_nil] at optional
                simp [optional, property]
            | some elements =>
                simp only [Option.map_none, Option.toList_none, List.nil_append, Option.map_some,
                  Option.toList_some, members?_cons, members?_nil, json?_list] at optional
                obtain ⟨_, _, ⟨jsons, listed, rfl⟩, rfl, rfl⟩ := optional
                simp [property, Json.Members.get?_cons, found elements rfl jsons listed]
        | some id =>
            cases findings with
            | none =>
                simp only [Option.map_none, Option.toList_none, List.append_nil, Option.map_some,
                  Option.toList_some, members?_cons, members?_nil, json?_text] at optional
                obtain ⟨_, _, ⟨id, -, rfl⟩, rfl, rfl⟩ := optional
                simp [property, Json.Members.get?_cons, isString]
            | some elements =>
                simp only [Option.map_some, Option.toList_some, List.cons_append, List.nil_append,
                  members?_cons, members?_nil, json?_text, json?_list] at optional
                obtain ⟨_, _, ⟨id, -, rfl⟩, ⟨_, _, ⟨jsons, listed, rfl⟩, rfl, rfl⟩, rfl⟩ := optional
                simp [property, Json.Members.get?_cons, isString, found elements rfl jsons listed]
      unfold property at extra
      simp [matchesType, hasType_eventMembers, RecordFields.type, required, property, get?_field,
        Json.Members.get?_cons, isString, named acted, extra]
  | sessionEnd reason =>
      simp only [RecordFields.items, members?_cons, members?_nil, json?_pyText,
        Option.some.injEq] at read
      obtain ⟨_, _, rfl, rfl, rfl⟩ := read
      have ended : reason = "completed" ∨ reason = "error" := by
        simpa [RecordFields.Shaped] using shaped
      obtain rfl | rfl := ended <;>
        simp [matchesType, hasType_eventMembers, RecordFields.type, required, property, get?_field,
          Json.Members.get?_cons, isOneOf]

end Members

end Valid

end Harness
