import Anviq.Harness.Emission

/-! # Events that come back

What a recorder writes is read back as it was, when its strings have none of the three
characters `str.splitlines` breaks an unescaped line at, and its numbers can be written again.
-/

namespace Harness

/-! ## Values -/

/-- A value that comes back as it was from a line of a file. -/
structure Portable (json : PyJson) : Prop where
  distinct : json.Distinct
  readable : json.AllNumbers PyNumber.Readable
  whole : json.AllStrings Whole

/-- What `canonical_json` accepts of a value comes back as it was. -/
def PyValue.Portable (value : PyValue) : Prop :=
  ∀ json, value.json? = some json → json.AllNumbers PyNumber.Encodable → Harness.Portable json

theorem portable_str {text : String} (whole : Whole text) : Portable (.str text) :=
  ⟨trivial, trivial, whole⟩

theorem portable_pyText {text : String} (whole : Whole text) : (pyText text).Portable := by
  intro json read _
  cases read.symm.trans (json?_pyText text)
  exact portable_str whole

/-! ## Texts the recorder brings in -/

/-- A character of a hash or of a time. -/
theorem plain_of_ascii {char : Char} (ascii : char.toNat < 0x80) :
    char ≠ '\u0085' ∧ char ≠ '\u2028' ∧ char ≠ '\u2029' := by
  refine ⟨?_, ?_, ?_⟩ <;>
    · intro same
      rw [same] at ascii
      exact absurd ascii (by decide)

theorem hash_whole {hash : String} (digest : matchesHash hash = true) : Whole hash := by
  simp only [matchesHash, Bool.and_eq_true, Bool.or_eq_true, beq_iff_eq, List.all_eq_true] at digest
  obtain ⟨⟨⟨front, -⟩, digits⟩, ending⟩ := digest
  intro char present
  rw [← List.take_append_drop 7 hash.toList, front,
    ← List.take_append_drop 64 (hash.toList.drop 7), List.mem_append, List.mem_append] at present
  apply plain_of_ascii
  obtain named | hex | last := present
  · simp only [List.mem_cons, List.not_mem_nil, or_false] at named
    obtain rfl | rfl | rfl | rfl | rfl | rfl | rfl := named <;> decide
  · have hex := digits char hex
    simp only [isHexDigit, Bool.or_eq_true, Bool.and_eq_true, decide_eq_true_eq] at hex
    obtain ⟨-, high⟩ | ⟨-, high⟩ := hex
    · exact lt_of_le_of_lt (Char.le_def.mp high) (by decide)
    · exact lt_of_le_of_lt (Char.le_def.mp high) (by decide)
  · obtain none | newline := ending
    · rw [none] at last
      exact absurd last List.not_mem_nil
    · rw [newline, List.mem_singleton] at last
      rw [last]
      decide

theorem digit_ascii {char : Char} (digit : char.isDigit = true) : char.toNat < 0x80 := by
  simp only [Char.isDigit, Bool.and_eq_true, decide_eq_true_eq] at digit
  exact lt_of_le_of_lt digit.2 (by decide)

theorem decimalField_ascii {text : List Char} {value : Nat} (read : decimalField text = some value) :
    ∀ char ∈ text, char.toNat < 0x80 := by
  unfold decimalField at read
  split at read
  · next digits => exact fun char present => digit_ascii (List.all_eq_true.mp digits char present)
  · cases read

theorem isOffset_ascii {text : List Char} (offset : isOffset text = true) :
    ∀ char ∈ text, char.toNat < 0x80 := by
  unfold isOffset at offset
  split at offset
  · intro char present
    rw [List.mem_singleton.mp present]
    decide
  · next sign h1 h2 m1 m2 =>
      simp only [Bool.and_eq_true, Bool.or_eq_true, decide_eq_true_eq] at offset
      obtain ⟨signs, fields⟩ := offset
      split at fields
      · next hours minutes =>
          have hour := decimalField_ascii hours
          have minute := decimalField_ascii minutes
          simp only [List.forall_mem_cons, List.not_mem_nil, false_implies, implies_true,
            and_true] at hour minute ⊢
          refine ⟨?_, hour.1, hour.2, by decide, minute.1, minute.2⟩
          obtain rfl | rfl := signs <;> decide
      · cases fields
  · cases offset

theorem isSecondFraction_ascii {text : List Char} (fraction : isSecondFraction text = true) :
    ∀ char ∈ text, char.toNat < 0x80 := by
  unfold isSecondFraction at fraction
  split at fraction
  · next rest =>
      simp only [Bool.and_eq_true] at fraction
      rw [List.forall_mem_cons, ← List.takeWhile_append_dropWhile (p := Char.isDigit) (l := rest),
        List.forall_mem_append]
      exact ⟨by decide, fun char digit => digit_ascii (List.mem_takeWhile_imp digit),
        isOffset_ascii fraction.2⟩
  · exact isOffset_ascii fraction

/-- A time has no characters but those of its format. -/
theorem time_whole {time : String} (dated : isDateTime time.toList = true) : Whole time := by
  intro char present
  apply plain_of_ascii
  generalize time.toList = text at dated present
  revert char
  unfold isDateTime at dated
  split at dated
  · split at dated
    · next years months days hours minutes seconds =>
        simp only [Bool.and_eq_true] at dated
        have year := decimalField_ascii years
        have month := decimalField_ascii months
        have day := decimalField_ascii days
        have hour := decimalField_ascii hours
        have minute := decimalField_ascii minutes
        have second := decimalField_ascii seconds
        simp only [List.forall_mem_cons, List.not_mem_nil, false_implies, implies_true,
          and_true] at year month day hour minute second ⊢
        exact ⟨year.1, year.2.1, year.2.2.1, year.2.2.2, by decide, month.1, month.2, by decide,
          day.1, day.2, by decide, hour.1, hour.2, by decide, minute.1, minute.2, by decide,
          second.1, second.2, isSecondFraction_ascii dated.2⟩
    · cases dated
  · cases dated

/-! ## Events -/

/-- What an event of the recorder needs of the settings: `hashlib` writes 64 hexadecimal digits,
the clock RFC 3339 times, and the session has an identifier that does not break lines. -/
structure RecorderSettings.Stamped (settings : RecorderSettings) : Prop where
  digest : ∀ text, matchesHash ("sha256:" ++ settings.sha text) = true
  clock : ∀ tick, ∃ time, settings.clock tick = codePoints time ∧ isDateTime time.toList = true
  identified : settings.sessionId ≠ []
  session : ∀ id, settings.sessionId = codePoints id → Whole id

section Events

variable {settings : RecorderSettings} {recorder : Recorder} {fields : RecordFields}

/-- The names of an event's members. -/
theorem names_distinct (fields : RecordFields) :
    (["v", "seq", "ts", "session_id", "type", "prev_hash"] ++ fields.items.map Prod.fst ++
      ["event_hash"]).Nodup := by
  cases fields with
  | sessionStart agent metaItems => cases metaItems <;> simp [RecordFields.items]
  | policyDecision server toolName action reason callId findings =>
      cases callId <;> cases findings <;> simp [RecordFields.items]
  | _ => simp [RecordFields.items]

/-- No event has a hash before it is sealed. -/
theorem event_unsealed (settings : RecorderSettings) (recorder : Recorder) (fields : RecordFields) :
    "event_hash" ∉ (recorder.event settings fields).map Prod.fst := by
  have apart := (List.nodup_append.mp (names_distinct fields)).2.2
  intro named
  simp only [Recorder.event, List.map_append] at named
  exact apart "event_hash" named "event_hash" List.mem_cons_self rfl

theorem names_whole (fields : RecordFields) : ∀ name ∈ fields.items.map Prod.fst, Whole name := by
  cases fields with
  | sessionStart agent metaItems => cases metaItems <;> simp [RecordFields.items, Whole]
  | policyDecision server toolName action reason callId findings =>
      cases callId <;> cases findings <;> simp [RecordFields.items, Whole]
  | _ => simp [RecordFields.items, Whole]

/-- What `_emit` has written: an event that satisfies the schema, stores its own hash, and comes
back as it was. -/
structure Emission (settings : RecorderSettings) (recorder : Recorder) (fields : RecordFields) where
  time : String
  id : String
  rest : PyDict
  hash : String
  line : List Char
  session : settings.sessionId = codePoints id
  read : PyValue.members? (fields.items.map pyItem) = some rest
  digest : matchesHash hash = true
  hashed : eventHash settings.sha
    (eventMembers recorder.seq time id fields.type recorder.prevHash rest hash) = .ok hash
  valid : validEvent
    (eventMembers recorder.seq time id fields.type recorder.prevHash rest hash) = true
  legible : Legible
    (eventMembers recorder.seq time id fields.type recorder.prevHash rest hash) line

/-- The object that was written. -/
def Emission.event (emission : Emission settings recorder fields) : PyDict :=
  eventMembers recorder.seq emission.time emission.id fields.type recorder.prevHash emission.rest
    emission.hash

theorem type_listed (fields : RecordFields) : fields.type ∈ eventTypes := by
  cases fields <;> simp [RecordFields.type, eventTypes]

section Members

variable {time id hash : String} {rest : PyDict}

/-- The object of an event comes back as it was if its fields do. -/
theorem portable_eventMembers (linked : ∀ hash, recorder.prevHash = some hash → matchesHash hash = true)
    (dated : isDateTime time.toList = true) (identified : Whole id) (digest : matchesHash hash = true)
    (portable : ∀ item ∈ fields.items, item.2.Portable)
    (read : PyValue.members? (fields.items.map pyItem) = some rest)
    (encodable : (Json.obj (eventMembers recorder.seq time id fields.type recorder.prevHash rest
      hash)).AllNumbers PyNumber.Encodable) :
    Portable (.obj (eventMembers recorder.seq time id fields.type recorder.prevHash rest hash)) := by
  have names := names_read read
  have encodable := Json.allNumbers_obj.mp encodable
  have fieldsPortable : ∀ member ∈ rest, Portable member.2 := by
    intro member present
    obtain ⟨item, among, related⟩ := forall₂_exists_left (members?_pyItem.mp read) present
    refine portable item among member.2 related.2 (encodable member ?_)
    exact List.mem_append_left _ (List.mem_append_right _ present)
  have seqSmall : (recorder.seq : Int).natAbs ≤ 2 ^ 53 :=
    encodable ("seq", .num (.int recorder.seq)) (by simp [eventMembers])
  have link : Portable (linkJson recorder.prevHash) := by
    cases form : recorder.prevHash with
    | none => exact ⟨trivial, trivial, trivial⟩
    | some previous => exact portable_str (hash_whole (linked previous form))
  have typeWhole : Whole fields.type := by
    cases fields <;> simp [RecordFields.type, Whole]
  have each : ∀ member ∈ eventMembers recorder.seq time id fields.type recorder.prevHash rest hash,
      Whole member.1 ∧ Portable member.2 := by
    refine List.forall_mem_append.mpr ⟨List.forall_mem_append.mpr ⟨?_, ?_⟩,
      List.forall_mem_singleton.mpr ⟨by simp [Whole], portable_str (hash_whole digest)⟩⟩
    · simp only [List.forall_mem_cons, List.not_mem_nil, false_implies, implies_true, and_true]
      exact ⟨⟨by simp [Whole], trivial, readable_int (by decide), trivial⟩,
        ⟨by simp [Whole], trivial, readable_int seqSmall, trivial⟩,
        ⟨by simp [Whole], portable_str (time_whole dated)⟩,
        ⟨by simp [Whole], portable_str identified⟩, ⟨by simp [Whole], portable_str typeWhole⟩,
        by simp [Whole], link⟩
    · intro member present
      exact ⟨names_whole fields _ (names ▸ List.mem_map_of_mem present), fieldsPortable member present⟩
  refine ⟨?_, ?_, ?_⟩
  · rw [Json.Distinct, Json.namesPairwise_obj]
    refine ⟨?_, fun member present => (each member present).2.distinct⟩
    have distinct := names_distinct fields
    rw [← names] at distinct
    simp only [eventMembers, List.map_append, List.map_cons, List.map_nil]
    exact distinct
  · exact Json.allNumbers_obj.mpr fun member present => (each member present).2.readable
  · exact Json.allStrings_obj.mpr fun member present =>
      ⟨(each member present).1, (each member present).2.whole⟩

end Members

/-- An emission that does not raise has written an event. -/
theorem emission_of_ok (stamped : settings.Stamped)
    (linked : ∀ hash, recorder.prevHash = some hash → matchesHash hash = true)
    (shaped : fields.Shaped) (portable : ∀ item ∈ fields.items, item.2.Portable) {next : Recorder}
    (emitted : recorder.emit settings fields = (.ok (), next)) :
    ∃ emission : Emission settings recorder fields,
      next = recorder.wrote emission.hash emission.line := by
  have distinct := names_distinct fields
  obtain ⟨hash, line, sealed, rfl⟩ := emit_ok emitted
  obtain ⟨members, read, hashed, written⟩ :=
    (sealEvent_eq_ok (event_unsealed settings recorder fields)).mp sealed
  obtain ⟨time, id, rest, ticks, session, fieldsRead, rfl⟩ := members?_event.mp read
  have encodable := (canonicalJson_eq_ok.mp written).1
  have digest : matchesHash hash = true := by
    obtain ⟨text, -, named⟩ := bind_eq_ok.mp hashed
    rw [← Except.ok.inj named]
    exact stamped.digest _
  have dated : isDateTime time.toList = true := by
    obtain ⟨other, same, dated⟩ := stamped.clock recorder.ticks
    rw [codePoints_injective (ticks.symm.trans same)]
    exact dated
  have absent : rest.get? "event_hash" = none := by
    rw [Json.Members.get?_eq_none, names_read fieldsRead]
    intro named
    have apart := (List.nodup_append.mp distinct).2.2
    exact apart "event_hash" (List.mem_append_right _ named) "event_hash" List.mem_cons_self rfl
  have identified : id ≠ "" := by
    intro empty
    rw [empty] at session
    exact stamped.identified session
  have fieldsEncodable : ∀ member ∈ rest, member.2.AllNumbers PyNumber.Encodable :=
    fun member present => Json.allNumbers_obj.mp encodable member
      (List.mem_append_left _ (List.mem_append_right _ present))
  have portable := portable_eventMembers linked dated (stamped.session id session) digest portable
    fieldsRead encodable
  exact ⟨{
    time, id, rest, hash, line, session, digest, hashed
    read := fieldsRead
    valid := validEvent_eventMembers dated identified (type_listed fields) linked digest absent
      (matchesType_of_shaped shaped fieldsRead fieldsEncodable)
    legible := ⟨portable.distinct, portable.readable, portable.whole, written⟩ }, rfl⟩

/-- An emission raises nothing if what it is asked to write can be written. -/
theorem emit_ok_of_encodable {time id : String} {rest : PyDict}
    (ticks : settings.clock recorder.ticks = codePoints time)
    (identified : settings.sessionId = codePoints id) (small : recorder.seq ≤ 2 ^ 53)
    (read : PyValue.members? (fields.items.map pyItem) = some rest)
    (encodable : ∀ member ∈ rest, member.2.AllNumbers PyNumber.Encodable) :
    ∃ next, recorder.emit settings fields = (.ok (), next) := by
  have unsealed := event_unsealed settings recorder fields
  have whole (hash : String) : (Json.obj (eventMembers recorder.seq time id fields.type
      recorder.prevHash rest hash)).AllNumbers PyNumber.Encodable := by
    rw [Json.allNumbers_obj, eventMembers, List.forall_mem_append, List.forall_mem_append]
    refine ⟨⟨?_, encodable⟩, List.forall_mem_singleton.mpr trivial⟩
    have link : (linkJson recorder.prevHash).AllNumbers PyNumber.Encodable := by
      cases recorder.prevHash <;> trivial
    have first : (PyNumber.int 1).Encodable := show (1 : Int).natAbs ≤ 2 ^ 53 by decide
    have number : (PyNumber.int recorder.seq).Encodable := small
    simp only [List.forall_mem_cons, List.not_mem_nil, false_implies, implies_true, and_true]
    exact ⟨first, number, trivial, trivial, trivial, link⟩
  have members (hash : String) : PyValue.members?
      ((recorder.event settings fields ++ [("event_hash", pyText hash)]).map pyItem) =
        some (eventMembers recorder.seq time id fields.type recorder.prevHash rest hash) :=
    members?_event.mpr ⟨time, id, rest, ticks, identified, read, rfl⟩
  have hashed : ∃ hash, ∀ other, eventHash settings.sha
      (eventMembers recorder.seq time id fields.type recorder.prevHash rest other) = .ok hash := by
    obtain ⟨front, frontRead, same⟩ := members?_sealed.mp (members "")
    have fronts (other : String) : eventMembers recorder.seq time id fields.type recorder.prevHash
        rest other = front ++ [("event_hash", .str other)] := by
      have first := List.append_inj_left' same rfl
      rw [eventMembers, first]
    have frontEncodable : (Json.obj front).AllNumbers PyNumber.Encodable := by
      have all := whole ""
      rw [fronts, Json.allNumbers_obj, List.forall_mem_append] at all
      exact Json.allNumbers_obj.mpr all.1
    have digest : ∃ hash, sha256Hex settings.sha (.obj front) = .ok hash :=
      ⟨_, bind_eq_ok.mpr ⟨_, canonicalJson_eq_ok.mpr ⟨frontEncodable, rfl⟩, rfl⟩⟩
    obtain ⟨hash, digest⟩ := digest
    refine ⟨hash, fun other => ?_⟩
    rw [fronts, eventHash, unsealed_members unsealed frontRead]
    exact digest
  obtain ⟨hash, hashed⟩ := hashed
  have sealed : Recorder.sealEvent settings (recorder.event settings fields) = .ok (hash, _) :=
    (sealEvent_eq_ok unsealed).mpr ⟨_, members hash, hashed hash,
      canonicalJson_eq_ok.mpr ⟨whole hash, rfl⟩⟩
  unfold Recorder.emit
  rw [sealed]
  exact ⟨_, rfl⟩

/-- What can be written is written, and only the number of the next event changes with it. -/
theorem emits_of_encodable {time id : String} {rest : PyDict}
    (ticks : settings.clock recorder.ticks = codePoints time)
    (identified : settings.sessionId = codePoints id) (small : recorder.seq ≤ 2 ^ 53)
    (read : PyValue.members? (fields.items.map pyItem) = some rest)
    (encodable : ∀ member ∈ rest, member.2.AllNumbers PyNumber.Encodable) :
    ∃ next, recorder.emit settings fields = (.ok (), next) ∧ next.seq = recorder.seq + 1 ∧
      next.defs = recorder.defs ∧ next.closed = recorder.closed ∧
        next.issued = recorder.issued := by
  rcases emit_ok_of_encodable ticks identified small read encodable with ⟨next, emitted⟩
  refine ⟨next, emitted, ?_⟩
  rcases emit_ok emitted with ⟨hash, line, -, rfl⟩
  exact ⟨rfl, rfl, rfl, rfl⟩

/-- What is written has a number that can be written, and fields that stand for JSON values. -/
theorem read_of_emitted {next : Recorder} (emitted : recorder.emit settings fields = (.ok (), next)) :
    recorder.seq ≤ 2 ^ 53 ∧ ∃ rest, PyValue.members? (fields.items.map pyItem) = some rest ∧
      ∀ member ∈ rest, member.2.AllNumbers PyNumber.Encodable := by
  obtain ⟨hash, line, sealed, -⟩ := emit_ok emitted
  obtain ⟨members, read, hashed, written⟩ :=
    (sealEvent_eq_ok (event_unsealed settings recorder fields)).mp sealed
  obtain ⟨time, id, rest, -, -, fieldsRead, rfl⟩ := members?_event.mp read
  have encodable := Json.allNumbers_obj.mp (canonicalJson_eq_ok.mp written).1
  exact ⟨encodable ("seq", .num (.int recorder.seq)) (by simp [eventMembers]), rest, fieldsRead,
    fun member among => encodable member (List.mem_append_left _ (List.mem_append_right _ among))⟩

theorem emit_closed : (recorder.emit settings fields).2.closed = recorder.closed := by
  unfold Recorder.emit
  dsimp only
  split <;> rfl

end Events

end Harness
