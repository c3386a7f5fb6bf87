import Anviq.Harness.InStep

/-! # Failed steps leave no trace

An emission that raises writes nothing and keeps the number and the hash of the next event; the
file of a recorder that is given what it can record is loaded without a problem after every
operation, whatever was raised before. The table of definitions gets ahead of the file with the
first definition that `tool_hash` accepts and `canonical_json` refuses.
-/

namespace Harness

section Sessions

variable {settings : RecorderSettings} {session : Session}

/-- The steps a recorder can record. -/
def soundMachine (settings : RecorderSettings) : Machine Session Operation :=
  (recorderMachine settings).restrict fun session operation => operation.Sound settings session

theorem holds_of_run (sound : settings.Sound) {operations : List Operation}
    (run : (soundMachine settings).Run operations session) :
    Holds settings session.recorder session.pending := by
  refine Machine.Reachable.invariant (P := fun session =>
    Holds settings session.recorder session.pending) ?_ ?_ ⟨operations, run⟩
  · rintro ⟨recorder, pending⟩ ⟨rfl, entered⟩
    exact holds_enter sound entered
  · rintro session operation next holds ⟨allowed, going, rfl⟩
    exact holds.handle sound going allowed

/-- The file is loaded without a problem, and every call in it has its definition before it. -/
def LoadsClean (settings : RecorderSettings) (recorder : Recorder) : Prop :=
  ∃ events, load settings.sha (String.ofList recorder.text) =
    { events, integrityProblems := [] } ∧ CallsDefined events

/-- An emission that raises has left the text, the number and the last hash. -/
def LeavesNoTrace (settings : RecorderSettings) : Prop :=
  ∀ (recorder next : Recorder) (fields : RecordFields) (error : PyError),
    recorder.emit settings fields = (.error error, next) →
      next.text = recorder.text ∧ next.seq = recorder.seq ∧ next.prevHash = recorder.prevHash

/-- **A failed step leaves no trace**: an emission that raises writes nothing, and after every
sound operation, raised or not, the file is loaded without a problem. -/
theorem failed_step_leaves_no_trace (settings : RecorderSettings) (sound : settings.Sound) :
    LeavesNoTrace settings ∧
      ∀ (operations : List Operation) (session : Session),
        (soundMachine settings).Run operations session → LoadsClean settings session.recorder := by
  refine ⟨?_, ?_⟩
  · intro recorder next fields error failed
    rw [emit_error failed]
    exact ⟨rfl, rfl, rfl⟩
  · intro operations session run
    obtain ⟨id, events, progress, kept⟩ := holds_of_run sound run
    exact ⟨_, kept.recorded.load⟩

end Sessions

/-! ## Failing and going on -/

/-- A recorder for examples: each hash is of the right form, and each identifier one longer than
the last. -/
def quietSettings : RecorderSettings where
  sha _ := String.ofList (List.replicate 64 '0')
  sessionId := codePoints "s"
  agent := codePoints "agent"
  metaItems := none
  redact value := value
  clock _ := codePoints "2026-01-01T00:00:00Z"
  ids count := codePoints (String.ofList (List.replicate count 'c'))
  reprKey _ := ""

theorem quietSettings_sound : quietSettings.Sound where
  digest text := by
    change matchesHash ("sha256:" ++ String.ofList (List.replicate 64 '0')) = true
    decide +kernel
  clock _ := ⟨_, rfl, by decide +kernel⟩
  identified := by decide
  session := by
    intro id same
    rw [← codePoints_injective same]
    simp [Whole]
  fresh := by
    intro left right same
    have lengths := congrArg (fun text => text.toList.length) (codePoints_injective same)
    simpa using lengths
  ids count := by
    apply portable_pyText
    intro char present
    rw [String.toList_ofList] at present
    rw [List.eq_of_mem_replicate present]
    simp
  started := by
    intro item present
    obtain rfl := List.mem_singleton.mp present
    exact portable_pyText (by simp [Whole])

/-- A call of the tool `t`. -/
def bareCall : Operation := .startCall (codePoints "s") (codePoints "t") [] none

theorem bareCall_sound (session : Session) : bareCall.Sound quietSettings session := by
  refine ⟨⟨portable_pyText (by simp [Whole]), portable_pyText (by simp [Whole]), ⟨[], rfl⟩, ?_⟩, ?_⟩
  · intro json read _
    cases read
    exact ⟨⟨.nil, trivial⟩, trivial, trivial⟩
  · intro definition none
    cases none

/-- The hash `quietSettings` gives. -/
def wideHash : String := "sha256:" ++ String.ofList (List.replicate 64 '0')

/-- A definition of the tool `t`. -/
def plainMembers : PyDict := [("name", .str "t"), ("inputSchema", .obj [])]

def plainTool : Definition where
  items := PyValue.ofMembers plainMembers
  name? := some (codePoints "t")
  named := rfl

theorem plainTool_hashed : definitionHash quietSettings.sha plainTool.items = .ok wideHash := by
  decide +kernel

theorem plainTool_writable : plainTool.Writable plainMembers := by
  refine ⟨rfl, rfl, ⟨trivial, trivial, trivial⟩, ⟨?_, ⟨trivial, trivial, trivial⟩, ?_⟩⟩
  · rw [Json.Distinct, Json.namesPairwise_obj]
    refine ⟨by simp [plainMembers], ?_⟩
    intro member among
    simp only [plainMembers, List.mem_cons, List.not_mem_nil, or_false] at among
    rcases among with rfl | rfl
    · trivial
    · exact ⟨.nil, trivial⟩
  · rw [Json.allStrings_obj]
    intro member among
    simp only [plainMembers, List.mem_cons, List.not_mem_nil, or_false] at among
    rcases among with rfl | rfl
    · exact ⟨by simp [Whole], show Whole "t" by simp [Whole]⟩
    · exact ⟨by simp [Whole], trivial⟩

theorem plainTool_sound (recorder : Recorder) :
    recorder.SoundDefinition quietSettings (codePoints "s") plainTool :=
  ⟨portable_pyText (by simp [Whole]), fun _ _ _ _ _ => ⟨plainMembers, plainTool_writable⟩⟩

theorem quietSettings_enter : ∃ recorder, Recorder.enter quietSettings {} = (.ok (), recorder) := by
  have read : PyValue.members? ((RecordFields.sessionStart quietSettings.agent
      quietSettings.metaItems).items.map pyItem) = some [("agent", .str "agent")] :=
    members?_cons.mpr ⟨_, [], json?_text.mpr ⟨"agent", rfl, rfl⟩, rfl, rfl⟩
  have encodable : ∀ member ∈ [("agent", (Json.str "agent" : PyJson))],
      member.2.AllNumbers PyNumber.Encodable := List.forall_mem_singleton.mpr trivial
  exact @emit_ok_of_encodable quietSettings {} _ "2026-01-01T00:00:00Z" "s" _ rfl rfl
    (Nat.zero_le _) read encodable

/-- What can be written is written. -/
theorem quietSettings_emits {recorder : Recorder} {fields : RecordFields} {rest : PyDict}
    (small : recorder.seq ≤ 2 ^ 53)
    (read : PyValue.members? (fields.items.map pyItem) = some rest)
    (encodable : ∀ member ∈ rest, member.2.AllNumbers PyNumber.Encodable) :
    ∃ next, recorder.emit quietSettings fields = (.ok (), next) ∧ next.seq = recorder.seq + 1 ∧
      next.defs = recorder.defs ∧ next.closed = recorder.closed ∧
        next.issued = recorder.issued :=
  @emits_of_encodable quietSettings recorder fields "2026-01-01T00:00:00Z" "s" rest rfl rfl small
    read encodable

section Entered

variable {recorder : Recorder} (entered : Recorder.enter quietSettings {} = (.ok (), recorder))

include entered

theorem entered_open : recorder.closed = false := by
  have same := @emit_closed quietSettings {} (.sessionStart quietSettings.agent quietSettings.metaItems)
  rw [← Recorder.enter, entered] at same
  exact same

theorem entered_fresh : recorder.seq = 1 ∧ recorder.defs = .empty ∧ recorder.issued = 0 := by
  rcases recorded_enter quietSettings_sound entered with ⟨_, _, _, _, _, _, _, defs, seq, _⟩
  rcases emit_ok entered with ⟨hash, line, _, wrote⟩
  refine ⟨seq, defs, ?_⟩
  rw [wrote]
  rfl

end Entered

/-- The definition is recorded. -/
theorem listing_returns {recorder : Recorder} (seq : recorder.seq = 1)
    (defs : recorder.defs = .empty) (issued : recorder.issued = 0)
    (going : recorder.closed = false) :
    ∃ next : Recorder,
    Session.handle quietSettings { recorder } (.recordDefinitions (codePoints "s") [plainTool]) =
      (.ok (), { recorder := next }) ∧
      next.defs.get? (codePoints "s", codePoints "t") = some wideHash ∧ next.seq = 2 ∧
        next.issued = 0 ∧ next.closed = false := by
  have other : recorder.defs.get? (codePoints "s", codePoints "t") ≠ some wideHash := by
    rw [defs]
    exact fun found => by cases found
  generalize assigned : { recorder with
    defs := recorder.defs.assign (codePoints "s", codePoints "t") wideHash } = ahead
  have read : PyValue.members? ((RecordFields.toolDefinition (codePoints "s") plainTool.items
      wideHash).items.map pyItem) =
      some [("server", .str "s"), ("tool", .obj plainMembers), ("def_hash", .str wideHash)] := by
    simp only [RecordFields.items, members?_cons, members?_nil, json?_text, json?_pyText, json?_dict]
    exact ⟨_, _, ⟨"s", rfl, rfl⟩, ⟨_, _, ⟨plainMembers, members?_ofMembers plainMembers, rfl⟩,
      ⟨_, _, rfl, rfl, rfl⟩, rfl⟩, rfl⟩
  have small : ahead.seq ≤ 2 ^ 53 := by
    rw [← assigned]
    change recorder.seq ≤ 2 ^ 53
    rw [seq]
    simp
  rcases quietSettings_emits small read (by
    simp only [List.forall_mem_cons, List.not_mem_nil, false_implies, implies_true, and_true]
    exact ⟨trivial, plainTool_writable.encodable, trivial⟩) with
    ⟨next, emitted, nextSeq, nextDefs, nextClosed, nextIssued⟩
  have recorded : recorder.recordDefinition quietSettings (codePoints "s") plainTool =
      (.ok (), next) := by
    rw [← emitted, ← assigned]
    unfold Recorder.recordDefinition
    rw [show plainTool.name? = some (codePoints "t") from rfl]
    dsimp only
    rw [plainTool_hashed]
    exact if_neg other
  refine ⟨next, ?_, ?_, ?_, ?_, ?_⟩
  · rw [Session.handle, Session.after, recordDefinitions_singleton, recorded]
  · rw [nextDefs, ← assigned]
    exact Dict.get?_assign.trans (if_pos rfl)
  · rw [nextSeq, ← assigned]
    exact congrArg (· + 1) seq
  · rw [nextIssued, ← assigned]
    exact issued
  · rw [nextClosed, ← assigned]
    exact going

/-- The call of the tool is recorded. -/
theorem call_returns {recorder : Recorder}
    (known : recorder.defs.get? (codePoints "s", codePoints "t") = some wideHash)
    (seq : recorder.seq = 2) (issued : recorder.issued = 0) (going : recorder.closed = false) :
    ∃ next : Recorder,
      Session.handle quietSettings { recorder } bareCall =
        (.ok (), { recorder := next, pending := [codePoints ""] }) ∧ next.seq = 3 ∧
          next.closed = false := by
  generalize counted : { recorder with issued := recorder.issued + 1 } = ahead
  have first : quietSettings.ids recorder.issued = codePoints "" := by
    rw [issued]
    rfl
  have read : PyValue.members? ((RecordFields.toolCall (codePoints "") (codePoints "s")
      (codePoints "t") (codePoints wideHash) (.dict [])).items.map pyItem) =
      some [("call_id", .str ""), ("server", .str "s"), ("tool_name", .str "t"),
        ("def_hash", .str wideHash), ("args", .obj [])] := by
    simp only [RecordFields.items, members?_cons, members?_nil, json?_text]
    exact ⟨_, _, ⟨"", rfl, rfl⟩, ⟨_, _, ⟨"s", rfl, rfl⟩, ⟨_, _, ⟨"t", rfl, rfl⟩,
      ⟨_, _, ⟨wideHash, rfl, rfl⟩, ⟨_, _, rfl, rfl, rfl⟩, rfl⟩, rfl⟩, rfl⟩, rfl⟩
  have small : ahead.seq ≤ 2 ^ 53 := by
    rw [← counted]
    change recorder.seq ≤ 2 ^ 53
    rw [seq]
    simp
  rcases quietSettings_emits small read (by
    simp only [List.forall_mem_cons, List.not_mem_nil, false_implies, implies_true, and_true]
    exact ⟨trivial, trivial, trivial, trivial, trivial⟩) with
    ⟨next, emitted, nextSeq, -, nextClosed, -⟩
  refine ⟨next, ?_, ?_, ?_⟩
  · rw [bareCall, Session.handle, Recorder.startCall, Recorder.defHash, known]
    dsimp only
    unfold Recorder.emitCall
    dsimp only
    rw [first, counted, show quietSettings.redact (.dict []) = .dict [] from rfl, emitted]
    rfl
  · rw [nextSeq, ← counted]
    exact congrArg (· + 1) seq
  · rw [nextClosed, ← counted]
    exact going

/-- A finding with a default that JSON allows and `canonical_json` refuses. -/
def wideFinding : PyDict :=
  [("severity", .str "BREAKING"), ("rule_id", .str "DEFAULT_CHANGED"),
    ("path", .str "/inputSchema/properties/id/default"), ("message", .str "default changed"),
    ("before", .num (.int 9007199254740993))]

/-- A decision with the finding. -/
def wideDecision : Operation :=
  .policyDecision (codePoints "s") (codePoints "t") (codePoints "block") (codePoints "changed") none
    (some [.dict (PyValue.ofMembers wideFinding)])

theorem wideFinding_read {json : PyJson}
    (read : (PyValue.list [.dict (PyValue.ofMembers wideFinding)]).json? = some json) :
    json = .arr [.obj wideFinding] := by
  rcases json?_list.mp read with ⟨jsons, elements, rfl⟩
  cases PyValue.jsons?_eq_some.mp elements with
  | cons finding rest =>
      cases rest
      rcases json?_dict.mp finding with ⟨members, defined, rfl⟩
      cases defined.symm.trans (members?_ofMembers wideFinding)
      rfl

theorem wideFinding_wide : ¬ (Json.arr [.obj wideFinding]).AllNumbers PyNumber.Encodable := by
  intro encodable
  have wide : (PyNumber.int 9007199254740993).Encodable :=
    Json.allNumbers_obj.mp (Json.allNumbers_arr.mp encodable (.obj wideFinding) List.mem_cons_self)
      ("before", .num (.int 9007199254740993)) (by simp [wideFinding])
  exact absurd (show (9007199254740993 : Int).natAbs ≤ 2 ^ 53 from wide) (by decide)

theorem wideDecision_sound (session : Session) : wideDecision.Sound quietSettings session := by
  refine ⟨⟨?_, ?_⟩, ?_⟩
  · intro text same
    rw [← codePoints_injective same]
    simp
  · rintro _ ⟨⟩ jsons read
    cases wideFinding_read (json?_list.mpr ⟨jsons, read, rfl⟩)
    decide
  · simp only [RecordFields.items, Option.map_some, Option.map_none, Option.toList_some,
      Option.toList_none, List.append_nil, List.cons_append, List.nil_append, List.forall_mem_cons,
      List.not_mem_nil, false_implies, implies_true, and_true]
    refine ⟨portable_pyText (by simp [Whole]), portable_pyText (by simp [Whole]),
      portable_pyText (by simp [Whole]), portable_pyText (by simp [Whole]), ?_⟩
    intro json read encodable
    cases wideFinding_read read
    exact absurd encodable wideFinding_wide

/-- The decision is not recorded. -/
theorem wideDecision_refused (recorder : Recorder) :
    ∃ error, Session.handle quietSettings { recorder } wideDecision =
      (.error error, { recorder := recorder.ticked }) := by
  rw [wideDecision, Session.handle, Recorder.policyDecision]
  rcases emitted : recorder.emit quietSettings (.policyDecision (codePoints "s") (codePoints "t")
    (codePoints "block") (codePoints "changed") none
    (some [.dict (PyValue.ofMembers wideFinding)])) with ⟨outcome, next⟩
  cases outcome with
  | error error =>
      cases emit_error emitted
      exact ⟨error, rfl⟩
  | ok done =>
      rcases read_of_emitted emitted with ⟨-, rest, read, encodable⟩
      simp only [RecordFields.items, Option.map_some, Option.map_none, Option.toList_some,
        Option.toList_none, List.append_nil, List.cons_append, List.nil_append, members?_cons,
        members?_nil, json?_text] at read
      rcases read with ⟨_, _, -, ⟨_, _, -, ⟨_, _, -, ⟨_, _, -, ⟨findings, _, shown, rfl, rfl⟩,
        rfl⟩, rfl⟩, rfl⟩, rfl⟩
      cases wideFinding_read shown
      exact absurd (encodable ("findings", .arr [.obj wideFinding]) (by simp)) wideFinding_wide

/-- After a decision that `canonical_json` refuses a definition and a call of it are recorded. -/
theorem failed_step_leaves_no_trace_refused :
    ∃ (recorder : Recorder) (session : Session) (error : PyError),
      Recorder.enter quietSettings {} = (.ok (), recorder) ∧
        (Session.handle quietSettings { recorder } wideDecision).1 = .error error ∧
          session.recorder.seq = 3 ∧ session.pending = [codePoints ""] ∧
            LoadsClean quietSettings session.recorder := by
  rcases quietSettings_enter with ⟨recorder, entered⟩
  rcases entered_fresh entered with ⟨seq, defs, issued⟩
  rcases wideDecision_refused recorder with ⟨error, refused⟩
  have going := entered_open entered
  rcases @listing_returns recorder.ticked seq defs issued going with
    ⟨listed, listing, known, nextSeq, nextIssued, still⟩
  rcases call_returns known nextSeq nextIssued still with ⟨called, call, lastSeq, -⟩
  have start : (soundMachine quietSettings).Run [] { recorder } := .start ⟨rfl, entered⟩
  have refuses : (soundMachine quietSettings).step { recorder } wideDecision
      { recorder := recorder.ticked } :=
    ⟨wideDecision_sound _, going, congrArg Prod.snd refused⟩
  have lists : (soundMachine quietSettings).step { recorder := recorder.ticked }
      (.recordDefinitions (codePoints "s") [plainTool]) { recorder := listed } :=
    ⟨⟨plainTool_sound _, fun _ _ => trivial⟩, going, congrArg Prod.snd listing⟩
  have calls : (soundMachine quietSettings).step { recorder := listed } bareCall
      { recorder := called, pending := [codePoints ""] } :=
    ⟨bareCall_sound _, still, congrArg Prod.snd call⟩
  exact ⟨recorder, _, error, entered, congrArg Prod.fst refused, lastSeq, rfl,
    (failed_step_leaves_no_trace quietSettings quietSettings_sound).2 _ _
      (((start.concat refuses).concat lists).concat calls)⟩

/-! ## A table ahead of its file -/

/-- A call in a file without definitions is one too many. -/
theorem not_loadsClean_of_call {settings : RecorderSettings} {id : String} {recorder ahead : Recorder}
    {events : List PyDict} {progress : Progress}
    (recorded : Recorded settings id recorder events progress) (text : ahead.text = recorder.text)
    (undefined : ∀ event ∈ events, getOrNone (restoredEvent event) "type" ≠ .str "tool_definition")
    {callId server name defHash : PyText} {args : PyValue}
    (emission : Emission settings ahead (.toolCall callId server name defHash args)) :
    ¬ LoadsClean settings (ahead.wrote emission.hash emission.line) := by
  rintro ⟨read, loaded, defined⟩
  obtain ⟨lines, legible, written⟩ := recorded.lines
  have whole := load_legible settings.sha (List.rel_append legible (.cons emission.legible .nil))
  have same : (ahead.wrote emission.hash emission.line).text =
      (lines ++ [emission.line]).flatMap fun line => line ++ ['\n'] := by
    simp [Recorder.wrote, text, written, fileText]
  rw [same] at loaded
  obtain rfl : (events ++ [emission.event]).map restoredEvent = read :=
    congrArg Recording.events (whole.symm.trans loaded)
  rw [List.map_append] at defined
  obtain ⟨definition, among, defines, -⟩ := defined _ _ [] rfl emission.loaded_type
  obtain ⟨event, present, rfl⟩ := List.mem_map.mp among
  exact undefined event present defines

/-- A call with a hash that is in the table and not in the file is written all the same. -/
theorem not_loadsClean_of_table {settings : RecorderSettings} (sound : settings.Sound) {id : String}
    {recorder ahead : Recorder} {events : List PyDict} {progress : Progress}
    (recorded : Recorded settings id recorder events progress) (text : ahead.text = recorder.text)
    (link : ahead.prevHash = recorder.prevHash) (small : ahead.seq ≤ 2 ^ 53)
    (undefined : ∀ event ∈ events, getOrNone (restoredEvent event) "type" ≠ .str "tool_definition")
    {server name hash callId : String} (digest : matchesHash hash = true)
    (known : ahead.defs.get? (codePoints server, codePoints name) = some hash)
    (identified : settings.ids ahead.issued = codePoints callId) {args : PyItems} {json : PyJson}
    (call : SoundCall settings (codePoints server) (codePoints name) args)
    (read : (settings.redact (.dict args)).json? = some json)
    (encodable : json.AllNumbers PyNumber.Encodable) {pending : List PyText} :
    ¬ LoadsClean settings (Session.handle settings { recorder := ahead, pending }
      (.startCall (codePoints server) (codePoints name) args none)).2.recorder := by
  obtain ⟨items, redacted⟩ := call.isDict
  have fields : (RecordFields.toolCall (codePoints callId) (codePoints server) (codePoints name)
      (codePoints hash) (settings.redact (.dict args))).Sound := by
    refine ⟨⟨?_, items, redacted⟩, ?_⟩
    · intro other same
      rw [← codePoints_injective same]
      exact digest
    · have issued := sound.ids ahead.issued
      rw [identified] at issued
      simp only [RecordFields.items, List.forall_mem_cons, List.not_mem_nil, false_implies,
        implies_true, and_true]
      exact ⟨issued, call.origin, call.named, portable_pyText (hash_whole digest), call.portable⟩
  have fieldsRead : PyValue.members? ((RecordFields.toolCall (codePoints callId) (codePoints server)
      (codePoints name) (codePoints hash) (settings.redact (.dict args))).items.map pyItem) =
      some [("call_id", .str callId), ("server", .str server), ("tool_name", .str name),
        ("def_hash", .str hash), ("args", json)] := by
    simp only [RecordFields.items, members?_cons, members?_nil, json?_text, read]
    exact ⟨_, _, ⟨callId, rfl, rfl⟩, ⟨_, _, ⟨server, rfl, rfl⟩, ⟨_, _, ⟨name, rfl, rfl⟩,
      ⟨_, _, ⟨hash, rfl, rfl⟩, ⟨_, _, rfl, rfl, rfl⟩, rfl⟩, rfl⟩, rfl⟩, rfl⟩
  have fieldsEncodable : ∀ member ∈ [("call_id", (Json.str callId : PyJson)), ("server", .str server),
      ("tool_name", .str name), ("def_hash", .str hash), ("args", json)],
      member.2.AllNumbers PyNumber.Encodable := by
    simp only [List.forall_mem_cons, List.not_mem_nil, false_implies, implies_true, and_true]
    exact ⟨trivial, trivial, trivial, trivial, encodable⟩
  obtain ⟨time, ticks, -⟩ := sound.clock ahead.ticks
  generalize counted : { ahead with issued := ahead.issued + 1 } = next
  have textNext : next.text = recorder.text := by rw [← counted]; exact text
  have linkNext : next.prevHash = recorder.prevHash := by rw [← counted]; exact link
  obtain ⟨after, emitted⟩ := @emit_ok_of_encodable settings next _ time id _
    (by rw [← counted]; exact ticks) recorded.session (by rw [← counted]; exact small) fieldsRead
    fieldsEncodable
  obtain ⟨emission, rfl⟩ := emission_of_ok sound.toStamped (linkNext ▸ recorded.linked)
    fields.shaped fields.portable emitted
  have written : (Session.handle settings { recorder := ahead, pending }
      (.startCall (codePoints server) (codePoints name) args none)).2.recorder =
      next.wrote emission.hash emission.line := by
    rw [Session.handle, Recorder.startCall, Recorder.defHash, known]
    dsimp only
    unfold Recorder.emitCall
    dsimp only
    rw [identified, counted, emitted]
    rfl
  rw [written]
  exact not_loadsClean_of_call recorded textNext undefined emission

/-- A definition with an identifier that JSON allows and `canonical_json` refuses. -/
def wideMembers : PyDict :=
  [("name", .str "t"), ("inputSchema", .obj []),
    ("_meta", .obj [("id", .num (.int 9007199254740993))])]

def wideTool : Definition where
  items := PyValue.ofMembers wideMembers
  name? := some (codePoints "t")
  named := rfl

theorem wideTool_hashed : definitionHash quietSettings.sha wideTool.items = .ok wideHash := by
  decide +kernel

/-- The definition is hashed, but not written. -/
theorem wideTool_refused {ahead : Recorder} {server : PyText} :
    ∃ error, ahead.emit quietSettings (.toolDefinition server wideTool.items wideHash) =
      (.error error, ahead.ticked) := by
  rcases emitted : ahead.emit quietSettings (.toolDefinition server wideTool.items wideHash)
    with ⟨outcome, next⟩
  cases outcome with
  | error error => exact ⟨error, by rw [emit_error emitted]⟩
  | ok done =>
      obtain ⟨-, rest, read, encodable⟩ := read_of_emitted emitted
      simp only [RecordFields.items, members?_cons, members?_nil, json?_text, json?_dict] at read
      obtain ⟨_, _, ⟨text, -, rfl⟩, ⟨_, _, ⟨tool, defined, rfl⟩, -, rfl⟩, rfl⟩ := read
      cases defined.symm.trans (members?_ofMembers wideMembers)
      have all := encodable ("tool", .obj wideMembers) (by simp)
      have wide : (PyNumber.int 9007199254740993).Encodable :=
        Json.allNumbers_obj.mp (Json.allNumbers_obj.mp all
          ("_meta", .obj [("id", .num (.int 9007199254740993))]) (by simp [wideMembers]))
          ("id", .num (.int 9007199254740993)) List.mem_cons_self
      exact absurd (show (9007199254740993 : Int).natAbs ≤ 2 ^ 53 from wide) (by decide)

/-- The listing of the definition. -/
def wideListing : Operation := .recordDefinitions (codePoints "s") [wideTool]

/-- The table when the listing has been refused. -/
theorem wideListing_table {recorder : Recorder} (defs : recorder.defs = .empty) :
    (Session.handle quietSettings { recorder } wideListing).2 =
      { recorder := Recorder.ticked { recorder with
          defs := recorder.defs.assign (codePoints "s", codePoints "t") wideHash } } := by
  have other : recorder.defs.get? (codePoints "s", codePoints "t") ≠ some wideHash := by
    rw [defs]
    exact fun found => by cases found
  obtain ⟨error, refused⟩ := @wideTool_refused { recorder with
    defs := recorder.defs.assign (codePoints "s", codePoints "t") wideHash } (codePoints "s")
  have result : recorder.recordDefinition quietSettings (codePoints "s") wideTool =
      (.error error, Recorder.ticked { recorder with
        defs := recorder.defs.assign (codePoints "s", codePoints "t") wideHash }) := by
    rw [← refused]
    unfold Recorder.recordDefinition
    rw [show wideTool.name? = some (codePoints "t") from rfl]
    dsimp only
    rw [wideTool_hashed]
    exact if_neg other
  rw [wideListing, Session.handle, Session.after, recordDefinitions_singleton, result]

/-- A listing that is refused, and a call of the tool: the file has a call without a definition. -/
theorem failed_step_leaves_trace :
    ¬ ∀ settings : RecorderSettings, settings.Sound → LeavesNoTrace settings ∧
      ∀ (operations : List Operation) (session : Session),
        (recorderMachine settings).Run operations session →
          LoadsClean settings session.recorder := by
  intro leavesNoTrace
  obtain ⟨recorder, entered⟩ := quietSettings_enter
  obtain ⟨id, first, progress, recorded, -, -, -, defs, first', typed⟩ :=
    recorded_enter quietSettings_sound entered
  have listed := wideListing_table defs
  generalize table : Recorder.ticked { recorder with
    defs := recorder.defs.assign (codePoints "s", codePoints "t") wideHash } = ahead at listed
  have text : ahead.text = recorder.text := by rw [← table]; rfl
  have link : ahead.prevHash = recorder.prevHash := by rw [← table]; rfl
  have seq : ahead.seq = recorder.seq := by rw [← table]; rfl
  have closed : ahead.closed = recorder.closed := by rw [← table]; rfl
  have known : ahead.defs.get? (codePoints "s", codePoints "t") = some wideHash := by
    rw [← table]
    exact Dict.get?_assign.trans (if_pos rfl)
  have start : (recorderMachine quietSettings).Run [] { recorder } := .start ⟨rfl, entered⟩
  have listing := start.concat ⟨entered_open entered, listed⟩
  have run := @Machine.Run.concat _ _ _ _ _ _ bareCall listing
    ⟨closed.trans (entered_open entered), rfl⟩
  have clean := (leavesNoTrace quietSettings quietSettings_sound).2 _ _ run
  have small : ahead.seq ≤ 2 ^ 53 := by
    rw [seq, first']
    decide
  have digest := digest_of_definitionHash quietSettings_sound.toStamped wideTool_hashed
  refine not_loadsClean_of_table quietSettings_sound recorded text link small ?_ digest known rfl
    (bareCall_sound { recorder }).1 rfl trivial clean
  intro event present
  rw [List.mem_singleton.mp present, typed]
  simp

end Harness
