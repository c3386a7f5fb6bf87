import Anviq.Harness.Indexing
import Anviq.Harness.PyValue
import Anviq.Diff.Python

/-! # Replaying a recording

`replay.py`: a fake tool server that answers a call with what the recording has of the first call
with the same server, name and canonical arguments. What it answers is what was recorded exactly
if that first call was answered, or none of them was.
-/

namespace Dict

variable {Key : Type} [DecidableEq Key]

/-- `dict.fromkeys(keys)`. -/
def fromKeys (keys : List Key) : Dict Key Unit := keys.foldl (fun dict key => dict.assign key ()) .empty

end Dict

namespace Harness

/-! ## The server -/

/-- `ReplayResult`. -/
structure ReplayResult where
  ok : Bool
  result : PyJson
  error : PyJson
  latencyMs : PyJson
deriving DecidableEq

/-- What `call` raises: `UnrecordedCallError` with one of two messages, or what `canonical_json`
raises. -/
inductive ReplayError where
  | noRecordedCall (name : String) (args : PyValue)
  | neverCalled (name : String)
  | canonical (error : PyError)

/-- What is returned of a record. -/
def ReplayResult.ofRecord (record : CallRecord) : ReplayResult where
  ok := Diff.truthy record.ok
  result := record.result
  error := record.error
  latencyMs := record.latencyMs

/-- `ReplayServer`. -/
structure ReplayServer where
  byArgs : Dict (PyJson × PyJson × List Char) CallRecord := .empty
  firstByTool : Dict (PyJson × PyJson) CallRecord := .empty

namespace ReplayServer

/-- The body of the loop of `__init__`. -/
def indexCall (self : ReplayServer) (call : CallRecord) : Except PyError ReplayServer := do
  let text ← canonicalJson call.args
  .ok
    { byArgs := self.byArgs.setdefault (call.server, call.toolName, text) call
      firstByTool := self.firstByTool.setdefault (call.server, call.toolName) call }

/-- `ReplayServer(recording)`. -/
def ofCalls (calls : List CallRecord) : Except PyError ReplayServer := calls.foldlM indexCall {}

/-- The servers a call may be to: the one that is named, or those with a tool of the name. -/
def candidates (self : ReplayServer) (name : String) (server : Option String) : List PyJson :=
  match server with
  | some server => [.str server]
  | none =>
      let named := self.firstByTool.keys.filter fun key => key.2 == .str name
      (Dict.fromKeys (named.map Prod.fst)).keys

/-- The record of the first server with one of these arguments. -/
def recordedCall (self : ReplayServer) (name : String) (args : PyValue) :
    List PyJson → Except PyError (Option CallRecord)
  | [] => .ok none
  | server :: servers => do
      let text ← canonicalValue args
      match self.byArgs.get? (server, .str name, text) with
      | some record => .ok (some record)
      | none => self.recordedCall name args servers

/-- `ReplayServer.call`. -/
def call (self : ReplayServer) (name : String) (args : PyValue) (server : Option String)
    (strict : Bool) : Except ReplayError ReplayResult :=
  let servers := self.candidates name server
  match self.recordedCall name args servers with
  | .error error => .error (.canonical error)
  | .ok (some record) => .ok (.ofRecord record)
  | .ok none =>
      if strict then .error (.noRecordedCall name args)
      else
        match servers.findSome? fun server => self.firstByTool.get? (server, .str name) with
        | some record => .ok (.ofRecord record)
        | none => .error (.neverCalled name)

end ReplayServer

/-! ## What was recorded -/

/-- The event is a call to this server, of this name and with these canonical arguments. -/
def isCallOf (server : PyJson) (name : String) (text : List Char) (event : PyDict) : Bool :=
  isCall event && getOrNone event "server" == server && getOrNone event "tool_name" == .str name &&
    decide (canonicalJson (getOrNone event "args") = .ok text)

/-- The ok flag, result, error and latency of a response. -/
def ReplayResult.ofResponse (response : PyDict) : ReplayResult where
  ok := getOrNone response "ok" == .bool true
  result := getOrNone response "result"
  error := getOrNone response "error"
  latencyMs := getOrNone response "latency_ms"

/-- What was recorded of a call is what strict mode returns, and it raises for what was not. -/
structure Serves (recording : Recording) (fake : ReplayServer) (server name : String)
    (args : PyValue) : Prop where
  recorded : ∀ text, canonicalValue args = .ok text →
    (∃ call ∈ recording.events, isCallOf (.str server) name text call = true ∧
      ∃ response ∈ recording.events, Responds response call) →
    ∃ call ∈ recording.events, isCallOf (.str server) name text call = true ∧
      ∃ response ∈ recording.events, Responds response call ∧
        fake.call name args (some server) true = .ok (.ofResponse response)
  unrecorded :
    (∀ text, canonicalValue args = .ok text →
      ∀ call ∈ recording.events, isCallOf (.str server) name text call = false) →
    fake.call name args (some server) true = .error (.noRecordedCall name args)
  unrecordedAnywhere :
    (∀ text, canonicalValue args = .ok text →
      ∀ server, ∀ call ∈ recording.events, isCallOf server name text call = false) →
    fake.call name args none true = .error (.noRecordedCall name args)

/-- `canonical_json` writes the arguments, and the first call with them was answered, or none
was. -/
def FirstAnswered (recording : Recording) (server name : String) (args : PyValue) : Prop :=
  ∃ text, canonicalValue args = .ok text ∧
    ∀ first, recording.events.find? (isCallOf (.str server) name text) = some first →
      (∃ response ∈ recording.events, Responds response first) ∨
        ∀ call ∈ recording.events, isCallOf (.str server) name text call = true →
          ∀ response ∈ recording.events, ¬ Responds response call

/-! ## Records -/

/-- Related lists are searched alike. -/
theorem find?_related {α β : Type} {related : α → β → Prop} {holds : α → Bool} {holds' : β → Bool}
    {left : List α} {right : List β} (both : List.Forall₂ related left right)
    (alike : ∀ first second, related first second → holds' second = holds first) :
    (left.find? holds = none ∧ right.find? holds' = none) ∨
      ∃ first second, left.find? holds = some first ∧ right.find? holds' = some second ∧
        related first second := by
  induction both with
  | nil => exact Or.inl ⟨rfl, rfl⟩
  | @cons first second left right here rest ih =>
      have same := alike first second here
      cases held : holds first with
      | true =>
          refine Or.inr ⟨first, second, ?_, ?_, here⟩
          · rw [List.find?_cons_of_pos held]
          · rw [List.find?_cons_of_pos (same.trans held)]
      | false =>
          rw [List.find?_cons_of_neg (by simp [held]),
            List.find?_cons_of_neg (by simp [same, held])]
          exact ih

section Recorded

variable {events : List PyDict} {call : PyDict} {record : CallRecord}

/-- The record is one of a call to this server, of this name and with these arguments. -/
def CallRecord.isOf (server : PyJson) (name : PyJson) (text : List Char) (record : CallRecord) :
    Bool :=
  decide (record.server = server ∧ record.toolName = name ∧ canonicalJson record.args = .ok text)

theorem RecordedAs.isOf (recorded : RecordedAs events call record) (server : PyJson)
    (name : String) (text : List Char) :
    record.isOf server (.str name) text = isCallOf server name text call := by
  have fields : record.server = (CallRecord.ofEvent call).server ∧
      record.toolName = (CallRecord.ofEvent call).toolName ∧
      record.args = (CallRecord.ofEvent call).args := by
    obtain ⟨same, -⟩ | ⟨response, -, -, -, same⟩ := recorded.outcome
    · rw [same]
      exact ⟨rfl, rfl, rfl⟩
    · rw [same]
      exact ⟨rfl, rfl, rfl⟩
  obtain ⟨servers, names, args⟩ := fields
  rw [CallRecord.isOf, servers, names, args,
    CallRecord.ofEvent_server recorded.valid recorded.typed,
    CallRecord.ofEvent_toolName recorded.valid recorded.typed,
    CallRecord.ofEvent_args recorded.valid recorded.typed, isCallOf, isCall, recorded.typed]
  rw [Bool.eq_iff_iff]
  simp [and_assoc]

theorem RecordedAs.args (recorded : RecordedAs events call record) :
    record.args = getOrNone call "args" := by
  rw [← CallRecord.ofEvent_args recorded.valid recorded.typed]
  obtain ⟨same, -⟩ | ⟨response, -, -, -, same⟩ := recorded.outcome
  · rw [same]
  · rw [same]
    rfl

/-- What is returned of the record of an answered call is what its response says. -/
theorem RecordedAs.answered (recorded : RecordedAs events call record)
    (answered : ∃ response ∈ events, Responds response call) :
    ∃ response ∈ events, Responds response call ∧
      ReplayResult.ofRecord record = .ofResponse response := by
  obtain ⟨-, silent⟩ | ⟨response, present, responds, valid, same⟩ := recorded.outcome
  · obtain ⟨response, present, responds⟩ := answered
    exact absurd responds (silent response present)
  · refine ⟨response, present, responds, ?_⟩
    obtain ⟨complete, flag, -⟩ := response_of_valid valid responds.typed
    have flagged := schema_of_required complete (by simp) flag
    simp only [Bool.or_eq_true, beq_iff_eq] at flagged
    rw [same]
    unfold ReplayResult.ofRecord ReplayResult.ofResponse CallRecord.answer
    obtain ok | ok := flagged
    · rw [ok]
      rfl
    · rw [ok]
      rfl

/-- What is returned of the record of another call has no latency. -/
theorem RecordedAs.unanswered (recorded : RecordedAs events call record)
    (silent : ∀ response ∈ events, ¬ Responds response call) :
    (ReplayResult.ofRecord record).latencyMs = .null := by
  obtain ⟨same, -⟩ | ⟨response, present, responds, -⟩ := recorded.outcome
  · rw [same]
    rfl
  · exact absurd responds (silent response present)

end Recorded

/-- A valid response has a latency. -/
theorem latency_of_valid {response : PyDict} (valid : validEvent response = true)
    (typed : getOrNone response "type" = .str "tool_response") :
    getOrNone response "latency_ms" ≠ .null := by
  obtain ⟨complete, -, latency⟩ := response_of_valid valid typed
  have measured := schema_of_required complete (by simp) latency
  intro absent
  rw [absent] at measured
  cases measured

/-! ## The index of a server -/

theorem ReplayServer.foldlM_indexCall {calls : List CallRecord} (self : ReplayServer)
    (written : ∀ call ∈ calls, ∃ text, canonicalJson call.args = .ok text) :
    ∃ next, calls.foldlM indexCall self = .ok next ∧
      ∀ server name text, next.byArgs.get? (server, name, text) =
        (self.byArgs.get? (server, name, text)).or
          (calls.find? (CallRecord.isOf server name text)) := by
  induction calls generalizing self with
  | nil => exact ⟨self, rfl, fun server name text => by simp⟩
  | cons call calls ih =>
      rw [List.forall_mem_cons] at written
      obtain ⟨⟨own, wrote⟩, written⟩ := written
      have indexed : self.indexCall call = .ok
          { byArgs := self.byArgs.setdefault (call.server, call.toolName, own) call
            firstByTool := self.firstByTool.setdefault (call.server, call.toolName) call } := by
        rw [indexCall, wrote]
        rfl
      obtain ⟨next, folded, finds⟩ := ih _ written
      refine ⟨next, ?_, ?_⟩
      · rw [List.foldlM_cons, indexed]
        exact folded
      · intro server name text
        rw [finds, Dict.get?_setdefault, Option.or_assoc, List.find?_cons]
        have matched : CallRecord.isOf server name text call =
            decide ((server, name, text) = (call.server, call.toolName, own)) := by
          rw [CallRecord.isOf, wrote]
          simp only [Except.ok.injEq, Prod.mk.injEq, eq_comm]
        rw [matched]
        by_cases same : (server, name, text) = (call.server, call.toolName, own)
        · simp [same]
        · simp [same]

/-- What an event that stores its hash holds under another name can be written. -/
theorem written_of_stored {sha : String → String} {event : PyDict} (stored : HashStored sha event)
    {name : String} (other : name ≠ "event_hash") :
    ∃ text, canonicalJson (getOrNone event name) = .ok text := by
  obtain ⟨text, written, -⟩ := stored
  have numbers := (canonicalJson_eq_ok.mp written).1
  rw [Json.allNumbers_obj] at numbers
  cases found : event.get? name with
  | none => exact ⟨_, by rw [getOrNone, found]; rfl⟩
  | some value =>
      have kept : (unhashed event).get? name = some value := by
        rw [unhashed, Json.Members.get?_filter_ne, if_neg other, found]
      have own := numbers _ (Json.Members.mem_of_get? kept)
      rw [getOrNone, found]
      exact ⟨_, canonicalJson_eq_ok.mpr ⟨own, rfl⟩⟩

section Verified

variable {sha : String → String} {recording : Recording}

/-- The first record of a call is found by its server, name and canonical arguments. -/
theorem ReplayServer.of_verified (verified : recording.verify sha = []) :
    ∃ self, ofCalls recording.calls = .ok self ∧
      ∀ server name text, self.byArgs.get? (server, name, text) =
        recording.calls.find? (CallRecord.isOf server name text) := by
  have written : ∀ record ∈ recording.calls, ∃ text, canonicalJson record.args = .ok text := by
    intro record present
    obtain ⟨call, among, recorded⟩ :=
      forall₂_exists_left (Recording.records verified) present
    have member := List.mem_of_mem_filter among
    obtain ⟨-, entries⟩ := verify_sound (List.ne_nil_of_mem member) verified
    rw [recorded.args]
    exact written_of_stored (entries call member).2 (by simp)
  obtain ⟨self, folded, finds⟩ := foldlM_indexCall {} written
  refine ⟨self, folded, ?_⟩
  intro server name text
  rw [finds]
  exact Option.none_or

/-- The first call is recorded, if there is one. -/
theorem Recording.find?_calls (verified : recording.verify sha = []) (server : PyJson)
    (name : String) (text : List Char) :
    (recording.events.find? (isCallOf server name text) = none ∧
        recording.calls.find? (CallRecord.isOf server (.str name) text) = none) ∨
      ∃ call record, recording.events.find? (isCallOf server name text) = some call ∧
        recording.calls.find? (CallRecord.isOf server (.str name) text) = some record ∧
        RecordedAs recording.events call record := by
  have searched : (recording.events.filter isCall).find? (isCallOf server name text) =
      recording.events.find? (isCallOf server name text) := by
    rw [List.find?_filter]
    congr 1
    funext event
    cases called : isCall event with
    | true => simp
    | false => simp [isCallOf, called]
  rw [← searched]
  exact find?_related (Recording.records verified) fun call record recorded =>
    recorded.isOf server name text

end Verified

/-! ## Calls -/

section Calls

variable {self : ReplayServer} {name server : String} {args : PyValue} {text : List Char}

theorem ReplayServer.call_unwritten {error : PyError} (refused : canonicalValue args = .error error)
    (strict : Bool) : self.call name args (some server) strict = .error (.canonical error) := by
  rw [call, candidates, recordedCall, refused]
  rfl

theorem ReplayServer.call_found {record : CallRecord} (written : canonicalValue args = .ok text)
    (found : self.byArgs.get? (.str server, .str name, text) = some record) (strict : Bool) :
    self.call name args (some server) strict = .ok (.ofRecord record) := by
  have first : self.recordedCall name args [.str server] = .ok (some record) := by
    rw [recordedCall, written, bind_eq_ok]
    exact ⟨text, rfl, by rw [found]⟩
  rw [call, candidates, first]

theorem ReplayServer.recordedCall_none {servers : List PyJson}
    (written : canonicalValue args = .ok text)
    (absent : ∀ server ∈ servers, self.byArgs.get? (server, .str name, text) = none) :
    self.recordedCall name args servers = .ok none := by
  induction servers with
  | nil => rfl
  | cons server servers ih =>
      rw [List.forall_mem_cons] at absent
      rw [recordedCall, written, bind_eq_ok]
      exact ⟨text, rfl, by rw [absent.1]; exact ih absent.2⟩

theorem ReplayServer.call_unrecorded {server : Option String}
    (written : canonicalValue args = .ok text)
    (absent : ∀ other ∈ self.candidates name server,
      self.byArgs.get? (other, .str name, text) = none) :
    self.call name args server true = .error (.noRecordedCall name args) := by
  rw [call, recordedCall_none written absent]
  rfl

end Calls

/-- **Replay serves what was recorded.** For a recording `verify` has nothing against, the server
can be made, and it serves what was recorded exactly if `canonical_json` writes the arguments and
the first call with them was answered, or none was. -/
theorem replay_serves_iff {sha : String → String} {recording : Recording}
    (verified : recording.verify sha = []) (server name : String) (args : PyValue) :
    ∃ self, ReplayServer.ofCalls recording.calls = .ok self ∧
      (Serves recording self server name args ↔ FirstAnswered recording server name args) := by
  obtain ⟨self, made, finds⟩ := ReplayServer.of_verified verified
  refine ⟨self, made, ?_, ?_⟩
  · intro serves
    cases written : canonicalValue args with
    | error error =>
        have raised := serves.unrecorded fun text other => by
          rw [written] at other
          cases other
        rw [ReplayServer.call_unwritten written] at raised
        cases raised
    | ok text =>
        refine ⟨text, written, ?_⟩
        intro first found
        by_contra unserved
        rw [not_or] at unserved
        obtain ⟨unanswered, others⟩ := unserved
        push Not at unanswered others
        obtain ⟨call, present, called, answered⟩ := others
        obtain ⟨other, among, -, response, known, responds, returned⟩ :=
          serves.recorded text written ⟨call, present, called, answered⟩
        obtain ⟨none, -⟩ | ⟨_, record, same, recordFound, recorded⟩ :=
          Recording.find?_calls verified (.str server) name text
        · rw [none] at found
          cases found
        · obtain rfl := Option.some.inj (same.symm.trans found)
          rw [← finds] at recordFound
          rw [ReplayServer.call_found written recordFound] at returned
          have blank := recorded.unanswered unanswered
          rw [Except.ok.inj returned] at blank
          have valid := valid_of_verified (verifyEvents_of_verify verified) response known
          exact latency_of_valid valid responds.typed blank
  · intro condition
    obtain ⟨text, written, first⟩ := condition
    have absent (server : PyJson)
        (unrecorded : ∀ call ∈ recording.events, isCallOf server name text call = false) :
        self.byArgs.get? (server, .str name, text) = none := by
      rw [finds]
      obtain ⟨-, none⟩ | ⟨call, -, found, -⟩ := Recording.find?_calls verified server name text
      · exact none
      · have called := List.find?_some found
        rw [unrecorded call (List.mem_of_find?_eq_some found)] at called
        cases called
    refine ⟨?_, ?_, ?_⟩
    · intro other otherWritten recorded
      obtain rfl := Except.ok.inj (otherWritten.symm.trans written)
      obtain ⟨call, present, called, response, known, responds⟩ := recorded
      obtain ⟨none, -⟩ | ⟨leader, record, found, recordFound, recorded⟩ :=
        Recording.find?_calls verified (.str server) name other
      · rw [List.find?_eq_none] at none
        exact absurd called (none call present)
      · rw [← finds] at recordFound
        have returned := ReplayServer.call_found written recordFound true
        obtain answered | silent := first leader found
        · obtain ⟨response, known, responds, same⟩ := recorded.answered answered
          exact ⟨leader, List.mem_of_find?_eq_some found, List.find?_some found, response, known,
            responds, same ▸ returned⟩
        · exact absurd responds (silent call present called response known)
    · intro unrecorded
      apply ReplayServer.call_unrecorded written
      intro other named
      rw [List.mem_singleton.mp named]
      exact absent _ (unrecorded text written)
    · intro unrecorded
      apply ReplayServer.call_unrecorded written
      intro other named
      exact absent other (unrecorded text written other)

/-! ## A retried call -/

/-- An event of a session whose hashes are all the same. -/
def plainEvent (seq : Nat) (type : String) (fields : PyDict) : PyDict :=
  [("v", .num (.int 1)), ("seq", .num (.int seq)), ("ts", .str "2024-01-01T00:00:00Z"),
    ("session_id", .str "s"), ("type", .str type)] ++ fields ++
    [("prev_hash", if seq = 0 then .null else .str ("sha256:" ++ plainDigest)),
      ("event_hash", .str ("sha256:" ++ plainDigest))]

/-- A session with a tool. -/
def plainStart : List PyDict :=
  [plainEvent 0 "session_start" [("agent", .str "a")],
    plainEvent 1 "tool_definition"
      [("server", .str "local"), ("tool", .obj [("name", .str "f"), ("inputSchema", .obj [])]),
        ("def_hash", .str ("sha256:" ++ plainDigest))]]

/-- A call of the tool, without arguments. -/
def plainCall (seq : Nat) (callId : String) : PyDict :=
  plainEvent seq "tool_call"
    [("call_id", .str callId), ("server", .str "local"), ("tool_name", .str "f"),
      ("def_hash", .str ("sha256:" ++ plainDigest)), ("args", .obj [])]

/-- A response of the tool. -/
def plainResponse (seq : Nat) (callId : String) : PyDict :=
  plainEvent seq "tool_response"
    [("call_id", .str callId), ("ok", .bool true), ("result", .num (.int 7)),
      ("latency_ms", .num (.int 5))]

/-- A call that was answered. -/
def answeredOnce : Recording where
  events := plainStart ++ [plainCall 2 "1", plainResponse 3 "1"]
  integrityProblems := []

/-- A call that was not answered, and its second attempt, which was. -/
def retried : Recording where
  events := plainStart ++ [plainCall 2 "1", plainCall 3 "2", plainResponse 4 "2"]
  integrityProblems := []

/-- What is returned of a call that was answered on its second attempt is a failure that was not
recorded. -/
theorem replay_serves_retried :
    ¬ ∀ (sha : String → String) (recording : Recording), recording.verify sha = [] →
      ∀ (server name : String) (args : PyValue), ∃ self,
        ReplayServer.ofCalls recording.calls = .ok self ∧
          Serves recording self server name args := by
  intro alwaysServes
  have verified : retried.verify (fun _ => plainDigest) = [] := by decide +kernel
  obtain ⟨self, made, serves⟩ := alwaysServes _ retried verified "local" "f" (.dict [])
  have blank : (ReplayServer.ofCalls retried.calls).toOption.bind (fun self =>
      (self.call "f" (.dict []) (some "local") true).toOption.map ReplayResult.latencyMs) =
        some .null := by decide +kernel
  have timed : ∀ response ∈ retried.events, getOrNone response "type" = .str "tool_response" →
      getOrNone response "latency_ms" ≠ .null := by decide +kernel
  have second : plainCall 3 "2" ∈ retried.events ∧ plainResponse 4 "2" ∈ retried.events := by
    decide +kernel
  have called : isCallOf (.str "local") "f" ['\x7b', '\x7d'] (plainCall 3 "2") = true := by
    decide +kernel
  obtain ⟨call, -, -, response, known, responds, returned⟩ :=
    serves.recorded _ rfl ⟨_, second.1, called, _, second.2, ⟨rfl, rfl⟩⟩
  rw [made] at blank
  change (self.call "f" (.dict []) (some "local") true).toOption.map ReplayResult.latencyMs =
    some .null at blank
  rw [returned] at blank
  exact timed response known responds.typed (Option.some.inj blank)

/-- A call that was answered once is served. -/
theorem replay_serves_iff_answeredOnce :
    ∃ self, ReplayServer.ofCalls answeredOnce.calls = .ok self ∧
      Serves answeredOnce self "local" "f" (.dict []) := by
  have verified : answeredOnce.verify (fun _ => plainDigest) = [] := by decide +kernel
  obtain ⟨self, made, condition⟩ := replay_serves_iff verified "local" "f" (.dict [])
  refine ⟨self, made, condition.mpr ⟨['\x7b', '\x7d'], rfl, ?_⟩⟩
  intro first found
  have known : answeredOnce.events.find? (isCallOf (.str "local") "f" ['\x7b', '\x7d']) =
      some (plainCall 2 "1") := by decide +kernel
  obtain rfl := Option.some.inj (known.symm.trans found)
  exact Or.inl ⟨plainResponse 3 "1", by simp [answeredOnce], ⟨rfl, rfl⟩⟩

end Harness
