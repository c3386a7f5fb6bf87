import Anviq.Harness.Transcript

/-! # Recorders in step with their files

What a recorder keeps of definitions and calls is in its file, as long as what it is given can be
recorded: of the schema's shape, read back as it was, and about a definition or a call of the
session. Every operation keeps it so, whether it raises or not.
-/

namespace Harness

/-! ## Sound operations -/

/-- Settings whose own texts come back as they were, and that give no identifier twice. -/
structure RecorderSettings.Sound (settings : RecorderSettings) : Prop
    extends settings.Stamped where
  fresh : Function.Injective settings.ids
  ids : ∀ count, (PyValue.str (settings.ids count)).Portable
  started : ∀ item ∈ (RecordFields.sessionStart settings.agent settings.metaItems).items,
    item.2.Portable

/-- The definition can be written whole: it is a JSON value of the schema's shape that comes back
as it was. -/
structure Definition.Writable (tool : Definition) (members : PyDict) : Prop where
  items : tool.items = PyValue.ofMembers members
  shaped : isTool (.obj members) = true
  encodable : (Json.obj members).AllNumbers PyNumber.Encodable
  portable : Portable (.obj members)

namespace Recorder

variable (settings : RecorderSettings) (recorder : Recorder)

/-- A definition with a hash that is not the one in force can be written whole. -/
structure SoundDefinition (server : PyText) (tool : Definition) : Prop where
  origin : (PyValue.str server).Portable
  writable : ∀ name hash, tool.name? = some name → definitionHash settings.sha tool.items = .ok hash →
    recorder.defs.get? (server, name) ≠ some hash → ∃ members, tool.Writable members

/-- Each definition of a list is sound when its turn comes. -/
def SoundDefinitions (recorder : Recorder) (server : PyText) : List Definition → Prop
  | [] => True
  | tool :: tools => recorder.SoundDefinition settings server tool ∧
      ∀ next, recorder.recordDefinition settings server tool = (.ok (), next) →
        next.SoundDefinitions server tools

/-- The file has the definition. -/
def Defined (server name defHash : PyText) : Prop :=
  ∀ serverText nameText hash, server = codePoints serverText → name = codePoints nameText →
    defHash = codePoints hash →
      ∃ event ∈ (load settings.sha (String.ofList recorder.text)).events,
        Defines event (.str serverText, .str nameText, .str hash)

end Recorder

/-- What is recorded of a call comes back as it was, and its arguments are still a `dict`. -/
structure SoundCall (settings : RecorderSettings) (server name : PyText) (args : PyItems) : Prop where
  origin : (PyValue.str server).Portable
  named : (PyValue.str name).Portable
  isDict : ∃ items, settings.redact (.dict args) = .dict items
  portable : (settings.redact (.dict args)).Portable

/-- Fields of the schema's shape that come back as they were. -/
structure RecordFields.Sound (fields : RecordFields) : Prop where
  shaped : fields.Shaped
  portable : ∀ item ∈ fields.items, item.2.Portable

/-- The operation can be recorded: what it is given has the schema's shape and comes back as it
was, a definition that has a hash can be written, and it is about a definition or a call of the
session. -/
def Operation.Sound (settings : RecorderSettings) (session : Session) : Operation → Prop
  | .recordDefinitions server tools => session.recorder.SoundDefinitions settings server tools
  | .wrap server tool => ∀ name, tool.name? = some name →
      session.recorder.defs.get? (server, name) = none →
        session.recorder.SoundDefinition settings server tool
  | .startCall server name args tool => SoundCall settings server name args ∧
      ∀ definition, tool = some definition → session.recorder.defs.get? (server, name) = none →
        session.recorder.SoundDefinition settings server definition
  | .emitCall server name defHash args => SoundCall settings server name args ∧
      session.recorder.Defined settings server name defHash
  | .emitOkResponse callId result latencyMs => callId ∈ session.pending ∧
      (RecordFields.okResponse callId (settings.redact result) latencyMs).Sound
  | .emitErrorResponse callId code message latencyMs => callId ∈ session.pending ∧
      (RecordFields.errorResponse callId code message latencyMs).Sound
  | .policyDecision server toolName action reason callId findings =>
      (RecordFields.policyDecision server toolName action reason callId findings).Sound
  | .exit _ => True

/-! ## What is kept -/

/-- The recorder agrees with its file: so far as it can go on, its definitions are there, and the
calls it waits for are there without a response. -/
structure Kept (settings : RecorderSettings) (recorder : Recorder) (pending : List PyText) (id : String)
    (events : List PyDict) (progress : Progress) : Prop where
  recorded : Recorded settings id recorder events progress
  defined : recorder.seq ≤ 2 ^ 53 → ∀ server name hash,
    recorder.defs.get? (codePoints server, codePoints name) = some hash →
      (.str server, .str name, .str hash) ∈ progress.definitions
  hashes : ∀ definition ∈ progress.definitions, isHash definition.2.2 = true
  issued : ∀ call ∈ progress.calls, ∃ count < recorder.issued, ∃ text,
    settings.ids count = codePoints text ∧ call = .str text
  answered : progress.responses ⊆ progress.calls
  once : pending.Nodup
  waiting : ∀ callId ∈ pending, ∃ text, callId = codePoints text ∧
    .str text ∈ progress.calls ∧ .str text ∉ progress.responses

/-- The recorder has kept something. -/
def Holds (settings : RecorderSettings) (recorder : Recorder) (pending : List PyText) : Prop :=
  ∃ id events progress, Kept settings recorder pending id events progress

section Steps

variable {settings : RecorderSettings} {recorder next : Recorder} {pending : List PyText}
  {fields : RecordFields} {id : String} {events : List PyDict} {progress : Progress}

/-- An emission that raises leaves what is kept. -/
theorem Kept.failed (kept : Kept settings recorder pending id events progress) {error : PyError}
    (failed : recorder.emit settings fields = (.error error, next)) :
    Kept settings next pending id events progress := by
  rw [emit_error failed]
  exact ⟨kept.recorded.congr rfl rfl rfl rfl, kept.defined, kept.hashes, kept.issued,
    kept.answered, kept.once, kept.waiting⟩

/-- An event between start and end that changes nothing the checks keep. -/
theorem Kept.plain (kept : Kept settings recorder pending id events progress)
    (stamped : settings.Stamped) (going : recorder.closed = false) (sound : fields.Sound)
    (begins : fields.type ≠ "session_start") (ends : fields.type ≠ "session_end")
    (defines : fields.type ≠ "tool_definition") (calls : fields.type ≠ "tool_call")
    (responds : fields.type ≠ "tool_response")
    (emitted : recorder.emit settings fields = (.ok (), next)) :
    Holds settings next pending := by
  obtain ⟨emission, rfl⟩ := emission_of_ok stamped kept.recorded.linked sound.shaped sound.portable
    emitted
  have semantic := emission.semantic_other events.length (progress.past emission.loaded) defines
    calls responds
  have recorded := kept.recorded.wrote going rfl rfl rfl rfl emission begins ends
    (congrArg Prod.fst semantic)
  rw [semantic] at recorded
  refine ⟨id, _, _, recorded, ?_, kept.hashes, kept.issued, kept.answered, kept.once, kept.waiting⟩
  intro small
  exact kept.defined (Nat.le_of_succ_le small)

/-- A hash of a definition has the form of one. -/
theorem digest_of_definitionHash (stamped : settings.Stamped) {items : PyItems} {hash : String}
    (hashed : definitionHash settings.sha items = .ok hash) : matchesHash hash = true := by
  obtain ⟨normalized, -, digest⟩ := bind_eq_ok.mp hashed
  obtain ⟨text, -, named⟩ := bind_eq_ok.mp digest
  rw [← Except.ok.inj named]
  exact stamped.digest _

theorem Definition.Writable.name {tool : Definition} {members : PyDict}
    (writable : tool.Writable members) :
    ∃ text, tool.name? = some (codePoints text) ∧ members.get? "name" = some (.str text) := by
  have shaped := writable.shaped
  simp only [isTool, Bool.and_eq_true] at shaped
  obtain ⟨⟨⟨⟨⟨complete, isName⟩, -⟩, -⟩, -⟩, -⟩ := shaped
  have present := List.all_eq_true.mp complete "name" (by simp)
  obtain ⟨value, found⟩ := Option.isSome_iff_exists.mp present
  rw [property, found] at isName
  have named := tool.named
  rw [writable.items, get?_ofMembers, found] at named
  cases value with
  | str text =>
      refine ⟨text, ?_, found⟩
      cases form : tool.name? with
      | none =>
          rw [form] at named
          cases named
      | some name =>
          rw [form] at named
          cases named
          rfl
  | _ => cases isName

/-- A definition that can be written whole has the fields of a definition event. -/
theorem Definition.Writable.sound {tool : Definition} {members : PyDict} {server : PyText}
    {hash : String} (writable : tool.Writable members) (origin : (PyValue.str server).Portable)
    (digest : matchesHash hash = true) :
    (RecordFields.toolDefinition server (PyValue.ofMembers members) hash).Sound := by
  refine ⟨⟨digest, ?_⟩, ?_⟩
  · intro other read
    cases read.symm.trans (members?_ofMembers members)
    exact writable.shaped
  · simp only [RecordFields.items, List.forall_mem_cons, List.not_mem_nil, false_implies,
      implies_true, and_true]
    refine ⟨origin, ?_, ?_⟩
    · intro json read _
      cases read.symm.trans (PyValue.json?_ofJson (.obj members))
      exact writable.portable
    · exact portable_pyText (hash_whole digest)

/-- A definition that can be written whole is in the table and in the file, or the recorder
cannot go on. -/
theorem Kept.define (kept : Kept settings recorder pending id events progress)
    (stamped : settings.Stamped) (going : recorder.closed = false) {server name : PyText}
    {tool : Definition} {members : PyDict} {hash : String} (writable : tool.Writable members)
    (origin : (PyValue.str server).Portable) (named : tool.name? = some name)
    (hashed : definitionHash settings.sha tool.items = .ok hash) {ahead : Recorder}
    (table : ahead = { recorder with defs := recorder.defs.assign (server, name) hash })
    {outcome : Except PyError Unit}
    (emitted : ahead.emit settings (.toolDefinition server tool.items hash) = (outcome, next)) :
    Holds settings next pending := by
  obtain ⟨nameText, nameRead, memberNamed⟩ := writable.name
  cases named.symm.trans nameRead
  rw [writable.items] at hashed emitted
  have digest := digest_of_definitionHash stamped hashed
  have text : ahead.text = recorder.text := by rw [table]
  have seq : ahead.seq = recorder.seq := by rw [table]
  have link : ahead.prevHash = recorder.prevHash := by rw [table]
  have closed : ahead.closed = recorder.closed := by rw [table]
  have issued : ahead.issued = recorder.issued := by rw [table]
  have defs : ahead.defs = recorder.defs.assign (server, codePoints nameText) hash := by rw [table]
  clear table
  cases outcome with
  | error error =>
      rw [emit_error emitted]
      refine ⟨id, events, progress, kept.recorded.congr text seq link closed, ?_, kept.hashes, ?_,
        kept.answered, kept.once, kept.waiting⟩
      · intro small serverText other otherHash found
        change ahead.defs.get? _ = _ at found
        rw [defs, Dict.get?_assign] at found
        split at found
        · next same =>
            -- The server is a text, so that nothing is refused.
            obtain ⟨rfl, -⟩ := Prod.mk.inj same
            obtain ⟨time, ticks, -⟩ := stamped.clock ahead.ticks
            have read : PyValue.members? ((RecordFields.toolDefinition (codePoints serverText)
                (PyValue.ofMembers members) hash).items.map pyItem) =
                some [("server", .str serverText), ("tool", .obj members), ("def_hash", .str hash)] := by
              simp only [RecordFields.items, members?_cons, members?_nil, json?_text, json?_pyText,
                json?_dict]
              exact ⟨_, _, ⟨serverText, rfl, rfl⟩, ⟨_, _, ⟨members, members?_ofMembers members, rfl⟩,
                ⟨_, _, rfl, rfl, rfl⟩, rfl⟩, rfl⟩
            obtain ⟨done, written⟩ := emit_ok_of_encodable ticks kept.recorded.session small read (by
              simp only [List.forall_mem_cons, List.not_mem_nil, false_implies, implies_true, and_true]
              exact ⟨trivial, writable.encodable, trivial⟩)
            rw [written] at emitted
            cases emitted
        · exact kept.defined (seq ▸ small) serverText other otherHash found
      · intro call among
        change ∃ count < ahead.issued, _
        rw [issued]
        exact kept.issued call among
  | ok done =>
      have sound := writable.sound origin digest
      obtain ⟨emission, rfl⟩ := emission_of_ok stamped (link ▸ kept.recorded.linked) sound.shaped
        sound.portable emitted
      obtain ⟨accepted, serverText, rfl, known⟩ := emission.semantic_definition events.length
        (progress.past emission.loaded) (definitionHash_ofMembers hashed) memberNamed
      have recorded := kept.recorded.wrote going text seq link closed emission (by simp [RecordFields.type])
        (by simp [RecordFields.type]) accepted
      rw [known] at recorded
      refine ⟨id, _, _, recorded, ?_, ?_, ?_, kept.answered, kept.once, kept.waiting⟩
      · intro small other another otherHash found
        change ahead.defs.get? _ = _ at found
        rw [defs, Dict.get?_assign] at found
        split at found
        · next same =>
            obtain ⟨first, second⟩ := Prod.mk.inj same
            cases found
            rw [codePoints_injective first, codePoints_injective second]
            exact List.mem_cons_self
        · have before : recorder.seq ≤ 2 ^ 53 := seq ▸ Nat.le_of_succ_le small
          exact List.mem_cons_of_mem _ (kept.defined before other another otherHash found)
      · exact List.forall_mem_cons.mpr ⟨digest, kept.hashes⟩
      · intro call among
        change ∃ count < ahead.issued, _
        rw [issued]
        exact kept.issued call among

/-! ## Operations -/

theorem recordDefinition_closed {server : PyText} {tool : Definition} :
    (recorder.recordDefinition settings server tool).2.closed = recorder.closed := by
  unfold Recorder.recordDefinition
  split
  · rfl
  · split
    · rfl
    · split
      · rfl
      · exact emit_closed

theorem Holds.recordDefinition (holds : Holds settings recorder pending) (stamped : settings.Stamped)
    (going : recorder.closed = false) {server : PyText} {tool : Definition}
    (sound : recorder.SoundDefinition settings server tool) :
    Holds settings (recorder.recordDefinition settings server tool).2 pending := by
  obtain ⟨id, events, progress, kept⟩ := holds
  unfold Recorder.recordDefinition
  split
  · exact ⟨id, events, progress, kept⟩
  · next name named =>
      split
      · exact ⟨id, events, progress, kept⟩
      · next hash hashed =>
          split
          · exact ⟨id, events, progress, kept⟩
          · next other =>
              obtain ⟨members, writable⟩ := sound.writable name hash named hashed other
              exact kept.define stamped going writable sound.origin named hashed rfl rfl

theorem Holds.recordDefinitions (stamped : settings.Stamped) {server : PyText}
    {tools : List Definition} : ∀ {recorder : Recorder}, Holds settings recorder pending →
      recorder.closed = false → recorder.SoundDefinitions settings server tools →
        Holds settings (recorder.recordDefinitions settings server tools).2 pending := by
  induction tools with
  | nil => exact fun holds _ _ => holds
  | cons tool tools ih =>
      intro recorder holds going sound
      have first := holds.recordDefinition stamped going sound.1
      rw [Recorder.recordDefinitions]
      rcases recorded : recorder.recordDefinition settings server tool with ⟨outcome, next⟩
      rw [recorded] at first
      cases outcome with
      | error error => exact first
      | ok done =>
          have open' : next.closed = false := by
            have same := @recordDefinition_closed settings recorder server tool
            rw [recorded] at same
            exact same.trans going
          exact ih first open' (sound.2 next recorded)

theorem recordDefinitions_singleton {server : PyText} {tool : Definition} :
    recorder.recordDefinitions settings server [tool] =
      recorder.recordDefinition settings server tool := by
  rw [Recorder.recordDefinitions]
  rcases recorder.recordDefinition settings server tool with ⟨outcome, next⟩
  cases outcome <;> rfl

/-- The hash that is in force is in the table. -/
theorem defHash_ok {server name : PyText} {tool : Option Definition} {hash : String}
    (found : recorder.defHash settings server name tool = (.ok hash, next)) :
    next.defs.get? (server, name) = some hash := by
  unfold Recorder.defHash at found
  split at found
  · next known =>
      cases found
      exact known
  · split at found
    · cases found
    · split at found
      · cases found
      · split at found
        · next known =>
            cases found
            exact known
        · cases found

theorem Holds.defHash (holds : Holds settings recorder pending) (stamped : settings.Stamped)
    (going : recorder.closed = false) {server name : PyText} {tool : Option Definition}
    (sound : ∀ definition, tool = some definition → recorder.defs.get? (server, name) = none →
      recorder.SoundDefinition settings server definition) :
    Holds settings (recorder.defHash settings server name tool).2 pending ∧
      (recorder.defHash settings server name tool).2.closed = false := by
  unfold Recorder.defHash
  split
  · exact ⟨holds, going⟩
  · next unknown =>
      cases tool with
      | none => exact ⟨holds, going⟩
      | some tool =>
          have first := holds.recordDefinition stamped going (sound tool rfl unknown)
          have open' := (@recordDefinition_closed settings recorder server tool).trans going
          dsimp only
          rw [recordDefinitions_singleton]
          rcases recorded : recorder.recordDefinition settings server tool with ⟨outcome, next⟩
          rw [recorded] at first open'
          cases outcome with
          | error error => exact ⟨first, open'⟩
          | ok done =>
              dsimp only
              split <;> exact ⟨first, open'⟩

/-- A call that is recorded is of a definition in the file, and waits for its response. -/
theorem Kept.emitCall (kept : Kept settings recorder pending id events progress)
    (sound : settings.Sound) (going : recorder.closed = false) {server name defHash : PyText}
    {args : PyItems} (call : SoundCall settings server name args)
    (known : recorder.seq ≤ 2 ^ 53 → ∀ serverText nameText hash, server = codePoints serverText →
      name = codePoints nameText → defHash = codePoints hash →
        (.str serverText, .str nameText, .str hash) ∈ progress.definitions) :
    (∀ error, recorder.emitCall settings server name defHash args = (.error error, next) →
        Holds settings next pending) ∧
      ∀ callId, recorder.emitCall settings server name defHash args = (.ok callId, next) →
        Holds settings next (callId :: pending) := by
  obtain ⟨items, redacted⟩ := call.isDict
  have counted : Kept settings { recorder with issued := recorder.issued + 1 } pending id events
      progress := by
    refine ⟨kept.recorded.congr rfl rfl rfl rfl, kept.defined, kept.hashes, ?_, kept.answered,
      kept.once, kept.waiting⟩
    intro other among
    obtain ⟨count, before, text, same⟩ := kept.issued other among
    exact ⟨count, Nat.lt_succ_of_lt before, text, same⟩
  unfold Recorder.emitCall
  dsimp only
  rcases emitted : Recorder.emit settings { recorder with issued := recorder.issued + 1 }
    (.toolCall (settings.ids recorder.issued) server name defHash (settings.redact (.dict args)))
    with ⟨outcome, after⟩
  cases outcome with
  | error error =>
      refine ⟨?_, ?_⟩
      · intro other same
        cases same
        exact ⟨id, events, progress, counted.failed emitted⟩
      · intro callId same
        cases same
  | ok done =>
      refine ⟨?_, ?_⟩
      · intro error same
        cases same
      intro callId same
      cases same
      obtain ⟨small, rest, read, -⟩ := read_of_emitted emitted
      simp only [RecordFields.items, members?_cons, members?_nil, json?_text] at read
      obtain ⟨_, _, ⟨idText, identified, rfl⟩, ⟨_, _, ⟨serverText, rfl, rfl⟩,
        ⟨_, _, ⟨nameText, rfl, rfl⟩, ⟨_, _, ⟨hash, rfl, rfl⟩, -⟩, -⟩, -⟩, -⟩ := read
      have defined := known small
      have triple := defined serverText nameText hash rfl rfl rfl
      have digest : (PyValue.str (codePoints hash)).Portable :=
        portable_pyText (hash_whole (kept.hashes _ triple))
      have fieldsSound : (RecordFields.toolCall (settings.ids recorder.issued) (codePoints serverText)
          (codePoints nameText) (codePoints hash) (settings.redact (.dict args))).Sound := by
        refine ⟨⟨?_, items, redacted⟩, ?_⟩
        · intro text same
          rw [← codePoints_injective same]
          exact kept.hashes _ triple
        · simp only [RecordFields.items, List.forall_mem_cons, List.not_mem_nil, false_implies,
            implies_true, and_true]
          exact ⟨sound.ids _, call.origin, call.named, digest, call.portable⟩
      obtain ⟨emission, rfl⟩ := emission_of_ok sound.toStamped counted.recorded.linked
        fieldsSound.shaped fieldsSound.portable emitted
      -- Identifiers are given once, so that this one is not of an earlier call.
      have fresh : ∀ text, settings.ids recorder.issued = codePoints text →
          .str text ∉ progress.calls := by
        intro text same among
        obtain ⟨count, before, other, issued, equal⟩ := kept.issued _ among
        cases equal
        have again := sound.fresh (issued.trans same.symm)
        exact absurd again (Nat.ne_of_lt before)
      obtain ⟨accepted, text, named, after⟩ := emission.semantic_call events.length
        (progress.past emission.loaded) defined fresh
      have recorded := counted.recorded.wrote going rfl rfl rfl rfl emission
        (by simp [RecordFields.type]) (by simp [RecordFields.type]) accepted
      rw [after] at recorded
      refine ⟨id, _, _, recorded, ?_, kept.hashes, ?_, ?_, ?_, ?_⟩
      · intro within
        exact kept.defined (Nat.le_of_succ_le within)
      · refine List.forall_mem_cons.mpr ⟨⟨recorder.issued, Nat.lt_succ_self _, text, named, rfl⟩, ?_⟩
        exact counted.issued
      · exact fun response among => List.mem_cons_of_mem _ (kept.answered among)
      · refine List.nodup_cons.mpr ⟨?_, kept.once⟩
        intro waits
        obtain ⟨other, same, among, -⟩ := kept.waiting _ waits
        exact fresh other same among
      · refine List.forall_mem_cons.mpr ⟨⟨text, named, List.mem_cons_self, ?_⟩, ?_⟩
        · exact fun among => fresh text named (kept.answered among)
        · intro other waits
          obtain ⟨otherText, same, among, unanswered⟩ := kept.waiting other waits
          exact ⟨otherText, same, List.mem_cons_of_mem _ among, unanswered⟩

/-- A response that is recorded is of a call that waits for it. -/
theorem Kept.respond (kept : Kept settings recorder pending id events progress)
    (stamped : settings.Stamped) (going : recorder.closed = false) {callId : PyText}
    {more : List (String × PyValue)} (waits : callId ∈ pending) (sound : fields.Sound)
    (responds : fields.type = "tool_response")
    (about : fields.items = ("call_id", .str callId) :: more)
    (emitted : recorder.emit settings fields = (.ok (), next)) :
    Holds settings next (pending.erase callId) := by
  obtain ⟨emission, rfl⟩ := emission_of_ok stamped kept.recorded.linked sound.shaped sound.portable
    emitted
  have called : ∀ text, callId = codePoints text →
      .str text ∈ progress.calls ∧ .str text ∉ progress.responses := by
    intro text same
    obtain ⟨other, named, known⟩ := kept.waiting callId waits
    rw [codePoints_injective (same.symm.trans named)]
    exact known
  obtain ⟨accepted, text, named, after⟩ := emission.semantic_response events.length
    (progress.past emission.loaded) responds about called
  have recorded := kept.recorded.wrote going rfl rfl rfl rfl emission (by simp [responds])
    (by simp [responds]) accepted
  rw [after] at recorded
  refine ⟨id, _, _, recorded, ?_, kept.hashes, kept.issued, ?_, kept.once.erase callId, ?_⟩
  · intro small
    exact kept.defined (Nat.le_of_succ_le small)
  · exact List.cons_subset.mpr ⟨(called text named).1, kept.answered⟩
  · intro other still
    obtain ⟨apart, waits'⟩ := (kept.once.mem_erase_iff).mp still
    obtain ⟨otherText, same, known, unanswered⟩ := kept.waiting other waits'
    refine ⟨otherText, same, known, ?_⟩
    rw [List.mem_cons, not_or]
    refine ⟨?_, unanswered⟩
    intro equal
    cases equal
    exact apart (same.trans named.symm)

theorem Kept.exit (kept : Kept settings recorder pending id events progress)
    (stamped : settings.Stamped) (going : recorder.closed = false) (failed : Bool) :
    Holds settings (recorder.exit settings failed).2 pending := by
  unfold Recorder.exit
  generalize reasoned : (if failed then "error" else "completed") = reason
  have sound : (RecordFields.sessionEnd reason).Sound := by
    have reasons : reason ∈ ["completed", "error"] := by
      cases failed <;> simp [← reasoned]
    refine ⟨reasons, List.forall_mem_singleton.mpr (portable_pyText ?_)⟩
    simp only [List.mem_cons, List.not_mem_nil, or_false] at reasons
    obtain rfl | rfl := reasons <;> simp [Whole]
  rcases emitted : recorder.emit settings (.sessionEnd reason) with ⟨outcome, after⟩
  cases outcome with
  | error error => exact ⟨id, events, progress, kept.failed emitted⟩
  | ok done =>
      obtain ⟨emission, rfl⟩ := emission_of_ok stamped kept.recorded.linked sound.shaped
        sound.portable emitted
      have semantic := emission.semantic_other events.length (progress.past emission.loaded)
        (by simp [RecordFields.type]) (by simp [RecordFields.type]) (by simp [RecordFields.type])
      have recorded : Recorded settings id
          { recorder.wrote emission.hash emission.line with closed := true } _ _ :=
        kept.recorded.emit going rfl rfl rfl emission (by simp [RecordFields.type])
          (congrArg Prod.fst semantic) rfl rfl rfl (by simp [RecordFields.type])
      rw [semantic] at recorded
      refine ⟨id, _, _, recorded, ?_, kept.hashes, kept.issued, kept.answered, kept.once,
        kept.waiting⟩
      intro small
      exact kept.defined (Nat.le_of_succ_le small)

/-- A session that was entered has its first event in its file. -/
theorem recorded_enter (sound : settings.Sound)
    (entered : Recorder.enter settings {} = (.ok (), recorder)) :
    ∃ (id : String) (first : PyDict) (progress : Progress),
      Recorded settings id recorder [first] progress ∧ progress.definitions = [] ∧
        progress.calls = [] ∧ progress.responses = [] ∧ recorder.defs = .empty ∧
          recorder.seq = 1 ∧ getOrNone (restoredEvent first) "type" = .str "session_start" := by
  have shaped : (RecordFields.sessionStart settings.agent settings.metaItems).Shaped := trivial
  have unlinked : ∀ hash, ({} : Recorder).prevHash = some hash → matchesHash hash = true :=
    fun hash absent => by cases absent
  obtain ⟨emission, rfl⟩ := emission_of_ok sound.toStamped unlinked shaped sound.started entered
  have semantic := emission.semantic_other 0 (({} : Progress).past emission.loaded)
    (by simp [RecordFields.type]) (by simp [RecordFields.type]) (by simp [RecordFields.type])
  have accepted : Accepted settings.sha (.str emission.id) 0 emission.loaded {} :=
    emission.accepted rfl (Or.inl rfl) rfl rfl (congrArg Prod.fst semantic)
  have past := @Emission.past settings {} _ emission {} rfl
  have after : progressAfter settings.sha (.str emission.id) 0 [emission.loaded] {} =
      ({} : Progress).past emission.loaded := by
    rw [progressAfter, progressAfter, verifyEvent_progress emission.loaded_valid, semantic]
  refine ⟨emission.id, emission.event, ({} : Progress).past emission.loaded, ?_, rfl, rfl, rfl, rfl,
    rfl, emission.loaded_type⟩
  exact {
    lines := ⟨[emission.line], .cons emission.legible .nil, by
      simp [Recorder.wrote, fileText, Recorder.ticked]⟩
    session := emission.session
    begun := ⟨emission.loaded, [], rfl, emission.loaded_type, emission.loaded_session⟩
    verified := verifyEvents_cons_eq_nil.mpr ⟨accepted, rfl⟩
    progress_eq := after
    ended := by
      rw [past]
      rfl
    seq := by
      rw [past]
      rfl
    link := by
      rw [past]
      rfl
    linked := by
      intro hash stored
      cases stored
      exact emission.digest }

theorem holds_enter (sound : settings.Sound)
    (entered : Recorder.enter settings {} = (.ok (), recorder)) : Holds settings recorder [] := by
  obtain ⟨id, first, progress, recorded, definitions, calls, responses, defs, -⟩ :=
    recorded_enter sound entered
  refine ⟨id, [first], progress, recorded, ?_, ?_, ?_, ?_, .nil, ?_⟩
  · intro small server name hash found
    rw [defs] at found
    cases found
  · rw [definitions]
    exact fun definition absent => absurd absent List.not_mem_nil
  · rw [calls]
    exact fun call absent => absurd absent List.not_mem_nil
  · rw [responses]
    exact List.nil_subset _
  · exact fun callId absent => absurd absent List.not_mem_nil

end Steps

/-! ## Sessions -/

section Sessions

variable {settings : RecorderSettings} {session : Session}

/-- A definition that is in the file is one of those `verify` carries. -/
theorem Kept.definition_known {recorder : Recorder} {pending : List PyText} {id : String}
    {events : List PyDict} {progress : Progress}
    (kept : Kept settings recorder pending id events progress) {server name defHash : PyText}
    (defined : recorder.Defined settings server name defHash) (serverText nameText hash : String)
    (serverRead : server = codePoints serverText) (nameRead : name = codePoints nameText)
    (hashRead : defHash = codePoints hash) :
    (.str serverText, .str nameText, .str hash) ∈ progress.definitions := by
  obtain ⟨event, present, defines⟩ := defined serverText nameText hash serverRead nameRead hashRead
  rw [kept.recorded.load.1] at present
  rw [← kept.recorded.progress_eq]
  exact (mem_definitions kept.recorded.verified).mpr (Or.inr ⟨event, present, defines⟩)

/-- A session after a call that was asked for. -/
theorem Kept.called {recorder : Recorder} {pending : List PyText} {id : String}
    {events : List PyDict} {progress : Progress}
    (kept : Kept settings recorder pending id events progress) (sound : settings.Sound)
    (going : recorder.closed = false) {server name defHash : PyText} {args : PyItems}
    (call : SoundCall settings server name args)
    (known : recorder.seq ≤ 2 ^ 53 → ∀ serverText nameText hash, server = codePoints serverText →
      name = codePoints nameText → defHash = codePoints hash →
        (.str serverText, .str nameText, .str hash) ∈ progress.definitions)
    (waits : session.pending = pending) :
    Holds settings (session.called (recorder.emitCall settings server name defHash args)).2.recorder
      (session.called (recorder.emitCall settings server name defHash args)).2.pending := by
  subst waits
  rcases started : recorder.emitCall settings server name defHash args with ⟨outcome, next⟩
  obtain ⟨failed, done⟩ := kept.emitCall sound going call known
  cases outcome with
  | error error => exact failed error started
  | ok callId => exact done callId started

/-- A session after a response. -/
theorem Kept.answeredBy {id : String} {events : List PyDict} {progress : Progress}
    (kept : Kept settings session.recorder session.pending id events progress)
    (stamped : settings.Stamped) (going : session.recorder.closed = false) {callId : PyText}
    {fields : RecordFields} {more : List (String × PyValue)} (waits : callId ∈ session.pending)
    (sound : fields.Sound) (responds : fields.type = "tool_response")
    (about : fields.items = ("call_id", .str callId) :: more) :
    Holds settings (session.answered callId (session.recorder.emit settings fields)).2.recorder
      (session.answered callId (session.recorder.emit settings fields)).2.pending := by
  rcases emitted : session.recorder.emit settings fields with ⟨outcome, next⟩
  cases outcome with
  | error error => exact ⟨id, events, progress, kept.failed emitted⟩
  | ok done => exact kept.respond stamped going waits sound responds about emitted

/-- A sound operation leaves a recorder that agrees with its file, whether it raises or not. -/
theorem Holds.handle (holds : Holds settings session.recorder session.pending)
    (sound : settings.Sound) (going : session.recorder.closed = false) {operation : Operation}
    (allowed : operation.Sound settings session) :
    Holds settings (session.handle settings operation).2.recorder
      (session.handle settings operation).2.pending := by
  have stamped := sound.toStamped
  cases operation with
  | recordDefinitions server tools => exact Holds.recordDefinitions stamped holds going allowed
  | wrap server tool =>
      rw [Session.handle, Session.after, Recorder.wrap]
      cases named : tool.name? with
      | none => exact holds
      | some name =>
          have defines : ∀ definition, some tool = some definition →
              session.recorder.defs.get? (server, name) = none →
                session.recorder.SoundDefinition settings server definition := by
            intro definition same
            cases same
            exact allowed name named
          have looked := (holds.defHash stamped going defines).1
          dsimp only
          rcases found : session.recorder.defHash settings server name (some tool) with
            ⟨outcome, next⟩
          rw [found] at looked
          cases outcome <;> exact looked
  | startCall server name args tool =>
      obtain ⟨call, defines⟩ := allowed
      obtain ⟨looked, open'⟩ := holds.defHash stamped going defines
      rw [Session.handle, Recorder.startCall]
      rcases found : session.recorder.defHash settings server name tool with ⟨outcome, next⟩
      rw [found] at looked open'
      cases outcome with
      | error error => exact looked
      | ok hash =>
          obtain ⟨id, events, progress, kept⟩ := looked
          refine kept.called sound open' call ?_ rfl
          intro small serverText nameText text serverRead nameRead hashRead
          rw [← codePoints_injective hashRead]
          apply kept.defined small
          rw [← serverRead, ← nameRead]
          exact defHash_ok found
  | emitCall server name defHash args =>
      obtain ⟨call, defined⟩ := allowed
      obtain ⟨id, events, progress, kept⟩ := holds
      exact kept.called sound going call (fun _ => kept.definition_known defined) rfl
  | emitOkResponse callId result latencyMs =>
      obtain ⟨id, events, progress, kept⟩ := holds
      exact kept.answeredBy stamped going allowed.1 allowed.2 rfl rfl
  | emitErrorResponse callId code message latencyMs =>
      obtain ⟨id, events, progress, kept⟩ := holds
      exact kept.answeredBy stamped going allowed.1 allowed.2 rfl rfl
  | policyDecision server toolName action reason callId findings =>
      obtain ⟨id, events, progress, kept⟩ := holds
      rw [Session.handle, Session.after, Recorder.policyDecision]
      rcases emitted : session.recorder.emit settings
        (.policyDecision server toolName action reason callId findings) with ⟨outcome, next⟩
      cases outcome with
      | error error => exact ⟨id, events, progress, kept.failed emitted⟩
      | ok done =>
          refine kept.plain stamped going allowed ?_ ?_ ?_ ?_ ?_ emitted <;> simp [RecordFields.type]
  | exit failed =>
      obtain ⟨id, events, progress, kept⟩ := holds
      exact kept.exit stamped going failed

end Sessions

end Harness
