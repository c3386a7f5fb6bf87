import Anviq.Harness.Verified
import Anviq.Machine.Dict

/-! # What `load` indexes

`load` keeps the calls of a recording, each with the response that names its identifier. In a
recording `verify` has nothing against, the records are those of the calls, in order, and a
record is answered exactly if its call is.
-/

/-! ## Dictionaries -/

namespace Dict

variable {Key Value : Type} [DecidableEq Key]

/-- `dict.setdefault(key, value)`. -/
def setdefault (dict : Dict Key Value) (key : Key) (value : Value) : Dict Key Value :=
  if key ∈ dict.keys then dict else dict.assign key value

theorem get?_setdefault (dict : Dict Key Value) (key other : Key) (value : Value) :
    (dict.setdefault key value).get? other =
      (dict.get? other).or (if other = key then some value else none) := by
  unfold setdefault
  split
  · next held =>
      obtain ⟨old, found⟩ := mem_keys.mp held
      by_cases same : other = key
      · rw [same, found]
        rfl
      · rw [if_neg same, Option.or_none]
  · next absent =>
      rw [get?_assign]
      by_cases same : other = key
      · rw [if_pos same, if_pos same, same, get?_eq_none.mpr absent, Option.none_or]
      · rw [if_neg same, if_neg same, Option.or_none]

end Dict

namespace Harness

/-! ## The index -/

/-- `ToolVersion`. -/
structure ToolVersion where
  server : PyJson
  name : PyJson
  tool : PyDict
  defHash : PyJson
  seq : PyJson

/-- `CallRecord`. -/
structure CallRecord where
  callId : PyJson
  server : PyJson
  toolName : PyJson
  defHash : PyJson
  args : PyJson
  callSeq : PyJson
  ok : PyJson := .null
  result : PyJson := .null
  error : PyJson := .null
  latencyMs : PyJson := .null
  responseSeq : PyJson := .null

/-- `dict.get(name, default)`. -/
def getOr (dict : PyDict) (name : String) (default : PyJson) : PyJson :=
  (dict.get? name).getD default

/-- The record of a call without its response. -/
def CallRecord.ofEvent (event : PyDict) : CallRecord where
  callId := getOr event "call_id" (.str "")
  server := getOr event "server" (.str "")
  toolName := getOr event "tool_name" (.str "")
  defHash := getOr event "def_hash" (.str "")
  args := getOr event "args" (.obj [])
  callSeq := getOrNone event "seq"

/-- The record with what a response says. -/
def CallRecord.answer (record : CallRecord) (event : PyDict) : CallRecord :=
  { record with
    ok := getOrNone event "ok"
    result := getOrNone event "result"
    error := getOrNone event "error"
    latencyMs := getOrNone event "latency_ms"
    responseSeq := getOrNone event "seq" }

/-- What `load` keeps of the events. `callsById` says where in `calls` the record of an
identifier is. -/
structure Index where
  tools : Dict (PyJson × PyJson) (List ToolVersion) := .empty
  callsById : Dict PyJson Nat := .empty
  calls : List CallRecord := []

/-- The body of the loop of `load` that indexes the events. -/
def indexEvent (index : Index) (event : PyDict) : Index :=
  if validEvent event then
    match getOrNone event "type" with
    | .str "tool_definition" =>
        let server := getOr event "server" (.str "")
        let tool := (getOr event "tool" (.obj [])).members
        let name := getOr tool "name" (.str "")
        let version : ToolVersion :=
          { server, name, tool, defHash := getOr event "def_hash" (.str "")
            seq := getOrNone event "seq" }
        let versions := (index.tools.get? (server, name)).getD []
        { index with tools := index.tools.assign (server, name) (versions ++ [version]) }
    | .str "tool_call" =>
        let record := CallRecord.ofEvent event
        { index with
          callsById := index.callsById.assign record.callId index.calls.length
          calls := index.calls ++ [record] }
    | .str "tool_response" =>
        match index.callsById.get? (getOr event "call_id" (.str "")) with
        | some position =>
            { index with calls := index.calls.modify position fun record => record.answer event }
        | none => index
    | _ => index
  else index

/-- The loop of `load` that indexes the events. -/
def indexEvents (events : List PyDict) : Index := events.foldl indexEvent {}

/-- `recording.calls`. -/
def Recording.calls (recording : Recording) : List CallRecord :=
  (indexEvents recording.events).calls

/-! ## Valid events -/

/-- The event is a call. -/
def isCall (event : PyDict) : Bool := getOrNone event "type" == .str "tool_call"

theorem isCall_iff {event : PyDict} :
    isCall event = true ↔ getOrNone event "type" = .str "tool_call" :=
  beq_iff_eq

/-- The event is a response to the call. -/
structure Responds (event call : PyDict) : Prop where
  typed : getOrNone event "type" = .str "tool_response"
  callId : getOrNone event "call_id" = getOrNone call "call_id"

theorem getOr_of_required {event : PyDict} {names : List String} {name : String}
    (complete : required event names = true) (among : name ∈ names) (default : PyJson) :
    getOr event name default = getOrNone event name := by
  have present := List.all_eq_true.mp complete name among
  obtain ⟨value, found⟩ := Option.isSome_iff_exists.mp present
  rw [getOr, getOrNone, found]
  rfl

/-- A valid event satisfies the branch of its type. -/
theorem hasType_of_typed {event : PyDict} {type : String}
    (typed : getOrNone event "type" = .str type) : hasType event type = true := by
  unfold hasType property
  unfold getOrNone at typed
  cases found : event.get? "type" with
  | none => rfl
  | some value =>
      rw [found, Option.getD_some] at typed
      rw [typed]
      simp [isOneOf]

theorem matchesType_of_valid {event : PyDict} (valid : validEvent event = true) :
    matchesType event = true := by
  unfold validEvent at valid
  exact (Bool.and_eq_true _ _ ▸ valid).2

theorem required_of_call {event : PyDict} (valid : validEvent event = true)
    (typed : getOrNone event "type" = .str "tool_call") :
    required event ["call_id", "server", "tool_name", "def_hash", "args"] = true := by
  have branches := matchesType_of_valid valid
  simp only [matchesType, hasType_of_typed typed, Bool.and_eq_true, Bool.not_true,
    Bool.false_or] at branches
  obtain ⟨⟨⟨⟨-, call⟩, -⟩, -⟩, -⟩ := branches
  exact call.1.1.1.1.1

/-- What the schema says of a response. -/
theorem response_of_valid {event : PyDict} (valid : validEvent event = true)
    (typed : getOrNone event "type" = .str "tool_response") :
    required event ["call_id", "ok", "latency_ms"] = true ∧
      property event "ok" (fun value => value == .bool true || value == .bool false) = true ∧
      property event "latency_ms" isLatency = true := by
  have branches := matchesType_of_valid valid
  simp only [matchesType, hasType_of_typed typed, Bool.and_eq_true, Bool.not_true,
    Bool.false_or] at branches
  obtain ⟨⟨⟨-, response⟩, -⟩, -⟩ := branches
  exact ⟨response.1.1.1.1, response.1.1.2, response.2⟩

/-- A property that has to be present satisfies its schema. -/
theorem schema_of_required {event : PyDict} {names : List String} {name : String}
    {schema : PyJson → Bool} (complete : required event names = true) (among : name ∈ names)
    (satisfied : property event name schema = true) : schema (getOrNone event name) = true := by
  have present := List.all_eq_true.mp complete name among
  obtain ⟨value, found⟩ := Option.isSome_iff_exists.mp present
  rw [property, found] at satisfied
  rw [getOrNone, found]
  exact satisfied

theorem CallRecord.ofEvent_server {event : PyDict} (valid : validEvent event = true)
    (typed : getOrNone event "type" = .str "tool_call") :
    (CallRecord.ofEvent event).server = getOrNone event "server" :=
  getOr_of_required (required_of_call valid typed) (by simp) _

theorem CallRecord.ofEvent_toolName {event : PyDict} (valid : validEvent event = true)
    (typed : getOrNone event "type" = .str "tool_call") :
    (CallRecord.ofEvent event).toolName = getOrNone event "tool_name" :=
  getOr_of_required (required_of_call valid typed) (by simp) _

theorem CallRecord.ofEvent_callId {event : PyDict} (valid : validEvent event = true)
    (typed : getOrNone event "type" = .str "tool_call") :
    (CallRecord.ofEvent event).callId = getOrNone event "call_id" :=
  getOr_of_required (required_of_call valid typed) (by simp) _

theorem CallRecord.ofEvent_args {event : PyDict} (valid : validEvent event = true)
    (typed : getOrNone event "type" = .str "tool_call") :
    (CallRecord.ofEvent event).args = getOrNone event "args" :=
  getOr_of_required (required_of_call valid typed) (by simp) _

/-! ## Records -/

/-- The record is that of the call: with a response of the events, or with none if they have
none. -/
structure RecordedAs (events : List PyDict) (call : PyDict) (record : CallRecord) : Prop where
  valid : validEvent call = true
  typed : getOrNone call "type" = .str "tool_call"
  outcome : (record = .ofEvent call ∧ ∀ response ∈ events, ¬ Responds response call) ∨
    ∃ response ∈ events, Responds response call ∧ validEvent response = true ∧
      record = (CallRecord.ofEvent call).answer response

section Records

variable {events : List PyDict} {call event : PyDict} {record : CallRecord}

/-- An event that does not answer the call leaves its record. -/
theorem RecordedAs.extend (recorded : RecordedAs events call record)
    (other : ¬ Responds event call) : RecordedAs (events ++ [event]) call record := by
  refine ⟨recorded.valid, recorded.typed, ?_⟩
  obtain ⟨same, silent⟩ | ⟨response, present, responds, valid, same⟩ := recorded.outcome
  · refine Or.inl ⟨same, ?_⟩
    intro response present
    obtain earlier | last := List.mem_append.mp present
    · exact silent response earlier
    · rw [List.mem_singleton.mp last]
      exact other
  · exact Or.inr ⟨response, List.mem_append_left _ present, responds, valid, same⟩

theorem RecordedAs.answer (recorded : RecordedAs events call record)
    (responds : Responds event call) (valid : validEvent event = true) :
    RecordedAs (events ++ [event]) call (record.answer event) := by
  refine ⟨recorded.valid, recorded.typed, Or.inr ⟨event, by simp, responds, valid, ?_⟩⟩
  obtain ⟨same, -⟩ | ⟨response, -, -, -, same⟩ := recorded.outcome
  · rw [same]
  · rw [same]
    rfl

end Records

/-- The records are those of the calls, and the identifier of a call leads to its record. -/
structure Indexed (done : List PyDict) (index : Index) : Prop where
  records : List.Forall₂ (RecordedAs done) (done.filter isCall) index.calls
  byId : ∀ id position, index.callsById.get? id = some position ↔
    ∃ call, (done.filter isCall)[position]? = some call ∧ getOrNone call "call_id" = id

/-- What `verify` carries knows the calls, and the responses are to calls. -/
structure KnowsCalls (done : List PyDict) (progress : Progress) : Prop where
  calls : ∀ id, id ∈ progress.calls ↔
    ∃ call ∈ done.filter isCall, getOrNone call "call_id" = id
  responses : ∀ response ∈ done, getOrNone response "type" = .str "tool_response" →
    getOrNone response "call_id" ∈ progress.calls

/-- A list changed at one place is related where it was, if it is there too. -/
theorem forall₂_modify {α β : Type} {related related' : α → β → Prop} {change : β → β}
    {left : List α} {right : List β} {position : Nat} (before : List.Forall₂ related left right)
    (there : ∀ first second, left[position]? = some first → related first second →
      related' first (change second))
    (elsewhere : ∀ place first second, left[place]? = some first → place ≠ position →
      related first second → related' first second) :
    List.Forall₂ related' left (right.modify position change) := by
  induction before generalizing position with
  | nil => rw [List.modify_nil]; exact .nil
  | @cons first second left right here rest ih =>
      cases position with
      | zero =>
          rw [List.modify_zero_cons]
          refine .cons (there first second rfl here) ?_
          have unchanged := @ih left.length
          rw [List.modify_eq_self (by rw [rest.length_eq])] at unchanged
          apply unchanged
          · intro other _ found
            rw [List.getElem?_eq_none (Nat.le_refl _)] at found
            cases found
          · intro place other another found _ held
            exact elsewhere (place + 1) other another found (Nat.succ_ne_zero place) held
      | succ position =>
          rw [List.modify_succ_cons]
          refine .cons (elsewhere 0 first second rfl (Nat.succ_ne_zero position).symm here) ?_
          apply ih
          · intro other another found held
            exact there other another found held
          · intro place other another found apart held
            exact elsewhere (place + 1) other another found
              (fun same => apart (Nat.succ.inj same)) held

/-! ## Runs -/

section Runs

variable {sha : String → String} {sessionId : PyJson} {number : Nat} {done : List PyDict}
  {event : PyDict} {progress : Progress} {index : Index}

theorem filter_isCall_concat (call : isCall event = true) :
    (done ++ [event]).filter isCall = done.filter isCall ++ [event] := by
  rw [List.filter_append, List.filter_singleton, call]
  rfl

theorem filter_isCall_other (other : isCall event = false) :
    (done ++ [event]).filter isCall = done.filter isCall := by
  rw [List.filter_append, List.filter_singleton, other]
  exact List.append_nil _

theorem knowsCalls_step (knows : KnowsCalls done progress)
    (accepted : Accepted sha sessionId number event progress) :
    KnowsCalls (done ++ [event]) (verifyEvent sha sessionId number event progress).2 := by
  have semantic := accepted.semantic
  rw [verifyEvent_progress accepted.valid]
  by_cases calls : getOrNone event "type" = .str "tool_call"
  · rw [semanticProblems_call calls]
    refine ⟨?_, ?_⟩
    · intro id
      rw [filter_isCall_concat (isCall_iff.mpr calls)]
      simp only [List.mem_cons, List.mem_append, List.not_mem_nil, or_false, or_and_right,
        exists_or, exists_eq_left]
      rw [or_comm, ← knows.calls id]
      exact or_congr Iff.rfl eq_comm
    · intro response present typed
      obtain earlier | last := List.mem_append.mp present
      · exact List.mem_cons_of_mem _ (knows.responses response earlier typed)
      · rw [List.mem_singleton.mp last, calls] at typed
        exact absurd typed (by simp)
  have other : isCall event = false := Bool.eq_false_iff.mpr fun call => calls (isCall_iff.mp call)
  by_cases responds : getOrNone event "type" = .str "tool_response"
  · rw [semanticProblems_response responds] at semantic ⊢
    refine ⟨?_, ?_⟩
    · intro id
      rw [filter_isCall_other other]
      exact knows.calls id
    · intro response present typed
      obtain earlier | last := List.mem_append.mp present
      · exact knows.responses response earlier typed
      · rw [List.mem_singleton.mp last]
        have known := (List.append_eq_nil_iff.mp semantic).1
        rw [problemIf_eq_nil, Bool.not_eq_false', List.contains_iff_mem] at known
        exact known
  have kept : (semanticProblems sha number event (progress.past event)).2.calls =
      progress.calls := by
    by_cases defines : getOrNone event "type" = .str "tool_definition"
    · rw [semanticProblems_definition defines]
      rfl
    · rw [semanticProblems_other defines calls responds]
      rfl
  refine ⟨?_, ?_⟩
  · intro id
    rw [kept, filter_isCall_other other]
    exact knows.calls id
  · intro response present typed
    rw [kept]
    obtain earlier | last := List.mem_append.mp present
    · exact knows.responses response earlier typed
    · rw [List.mem_singleton.mp last] at typed
      exact absurd typed responds

theorem indexEvent_call (valid : validEvent event = true)
    (typed : getOrNone event "type" = .str "tool_call") :
    indexEvent index event =
      { index with
        callsById := index.callsById.assign (CallRecord.ofEvent event).callId index.calls.length
        calls := index.calls ++ [.ofEvent event] } := by
  simp only [indexEvent, valid, typed, if_true]

theorem indexEvent_response {position : Nat} (valid : validEvent event = true)
    (typed : getOrNone event "type" = .str "tool_response")
    (led : index.callsById.get? (getOrNone event "call_id") = some position) :
    indexEvent index event =
      { index with calls := index.calls.modify position fun record => record.answer event } := by
  have complete := (response_of_valid valid typed).1
  have named : getOr event "call_id" (.str "") = getOrNone event "call_id" :=
    getOr_of_required complete (by simp) _
  simp only [indexEvent, valid, typed, if_true, named, led]

/-- A call that is accepted is the only one of its identifier, and has no response yet. -/
theorem indexed_call (indexed : Indexed done index) (knows : KnowsCalls done progress)
    (accepted : Accepted sha sessionId number event progress)
    (typed : getOrNone event "type" = .str "tool_call") :
    Indexed (done ++ [event]) (indexEvent index event) := by
  have semantic := accepted.semantic
  rw [semanticProblems_call typed] at semantic
  have fresh := problemIf_eq_nil.mp (List.append_eq_nil_iff.mp semantic).2
  rw [List.contains_eq_mem, decide_eq_false_iff_not] at fresh
  have unknown : getOrNone event "call_id" ∉ progress.calls := fresh
  have counted : (done.filter isCall).length = index.calls.length := indexed.records.length_eq
  have unresponsive (call : PyDict) : ¬ Responds event call := by
    intro responds
    have both := responds.typed
    rw [typed] at both
    exact absurd both (by simp)
  rw [indexEvent_call accepted.valid typed]
  refine ⟨?_, ?_⟩
  · rw [filter_isCall_concat (isCall_iff.mpr typed)]
    refine List.rel_append ?_ ?_
    · exact indexed.records.imp fun call record recorded => recorded.extend (unresponsive call)
    · refine .cons ⟨accepted.valid, typed, Or.inl ⟨rfl, ?_⟩⟩ .nil
      intro response present responds
      obtain earlier | last := List.mem_append.mp present
      · exact unknown (responds.callId ▸ knows.responses response earlier responds.typed)
      · rw [List.mem_singleton.mp last] at responds
        exact unresponsive event responds
  · intro id position
    rw [filter_isCall_concat (isCall_iff.mpr typed), Dict.get?_assign,
      CallRecord.ofEvent_callId accepted.valid typed]
    by_cases same : id = getOrNone event "call_id"
    · rw [if_pos same, Option.some.injEq]
      constructor
      · intro last
        refine ⟨event, ?_, same.symm⟩
        rw [← last, ← counted, List.getElem?_concat_length]
      · intro found
        obtain ⟨call, found, named⟩ := found
        by_cases earlier : position < (done.filter isCall).length
        · rw [List.getElem?_append_left earlier] at found
          have known := (knows.calls id).mpr ⟨call, List.mem_of_getElem? found, named⟩
          exact absurd (same ▸ known) unknown
        · have bounded := (List.getElem?_eq_some_iff.mp found).1
          rw [List.length_append, List.length_singleton] at bounded
          omega
    · rw [if_neg same, indexed.byId]
      constructor
      · intro found
        obtain ⟨call, found, named⟩ := found
        refine ⟨call, ?_, named⟩
        rw [List.getElem?_append_left (List.getElem?_eq_some_iff.mp found).1]
        exact found
      · intro found
        obtain ⟨call, found, named⟩ := found
        by_cases earlier : position < (done.filter isCall).length
        · rw [List.getElem?_append_left earlier] at found
          exact ⟨call, found, named⟩
        · rw [List.getElem?_append_right (Nat.le_of_not_lt earlier)] at found
          have last := List.mem_singleton.mp (List.mem_of_getElem? found)
          exact absurd (last ▸ named).symm same

/-- A response that is accepted changes the record of its call, and no other. -/
theorem indexed_response (indexed : Indexed done index) (knows : KnowsCalls done progress)
    (accepted : Accepted sha sessionId number event progress)
    (typed : getOrNone event "type" = .str "tool_response") :
    Indexed (done ++ [event]) (indexEvent index event) := by
  have semantic := accepted.semantic
  rw [semanticProblems_response typed] at semantic
  have known := problemIf_eq_nil.mp (List.append_eq_nil_iff.mp semantic).1
  rw [Bool.not_eq_false', List.contains_iff_mem] at known
  obtain ⟨call, among, named⟩ := (knows.calls _).mp known
  obtain ⟨position, found⟩ := List.mem_iff_getElem?.mp among
  have led : index.callsById.get? (getOrNone event "call_id") = some position :=
    (indexed.byId _ _).mpr ⟨call, found, named⟩
  have other : isCall event = false := by
    rw [isCall, typed]
    rfl
  rw [indexEvent_response accepted.valid typed led]
  refine ⟨?_, ?_⟩
  · rw [filter_isCall_other other]
    refine forall₂_modify indexed.records ?_ ?_
    · intro first second there recorded
      rw [found, Option.some.injEq] at there
      exact recorded.answer ⟨typed, there ▸ named.symm⟩ accepted.valid
    · intro place first second there apart recorded
      refine recorded.extend ?_
      intro responds
      have also := (indexed.byId (getOrNone event "call_id") place).mpr
        ⟨first, there, responds.callId.symm⟩
      rw [led, Option.some.injEq] at also
      exact apart also.symm
  · rw [filter_isCall_other other]
    exact indexed.byId

theorem indexed_other (indexed : Indexed done index) (valid : validEvent event = true)
    (calls : getOrNone event "type" ≠ .str "tool_call")
    (responds : getOrNone event "type" ≠ .str "tool_response") :
    Indexed (done ++ [event]) (indexEvent index event) := by
  have same : (indexEvent index event).calls = index.calls ∧
      (indexEvent index event).callsById = index.callsById := by
    rw [indexEvent, if_pos valid]
    split
    · exact ⟨rfl, rfl⟩
    · next typed => exact absurd typed calls
    · next typed => exact absurd typed responds
    · exact ⟨rfl, rfl⟩
  have other : isCall event = false := Bool.eq_false_iff.mpr fun call => calls (isCall_iff.mp call)
  refine ⟨?_, ?_⟩
  · rw [filter_isCall_other other, same.1]
    exact indexed.records.imp fun call record recorded =>
      recorded.extend fun answers => responds answers.typed
  · rw [filter_isCall_other other, same.2]
    exact indexed.byId

theorem indexed_of_verified {events : List PyDict}
    (verified : verifyEvents sha sessionId number events progress = [])
    (indexed : Indexed done index) (knows : KnowsCalls done progress) :
    Indexed (done ++ events) (events.foldl indexEvent index) := by
  induction events generalizing number done progress index with
  | nil => rw [List.append_nil]; exact indexed
  | cons event events ih =>
      obtain ⟨accepted, rest⟩ := verifyEvents_cons_eq_nil.mp verified
      rw [List.append_cons, List.foldl_cons]
      refine ih rest ?_ (knowsCalls_step knows accepted)
      by_cases calls : getOrNone event "type" = .str "tool_call"
      · exact indexed_call indexed knows accepted calls
      by_cases responds : getOrNone event "type" = .str "tool_response"
      · exact indexed_response indexed knows accepted responds
      · exact indexed_other indexed accepted.valid calls responds

end Runs

/-- The records of a recording `verify` has nothing against are those of its calls. -/
theorem Recording.records {sha : String → String} {recording : Recording}
    (verified : recording.verify sha = []) :
    List.Forall₂ (RecordedAs recording.events) (recording.events.filter isCall)
      recording.calls := by
  have initial : Indexed [] {} := by
    refine ⟨.nil, ?_⟩
    intro id position
    simp
  have unknown : KnowsCalls [] {} := by
    refine ⟨?_, ?_⟩
    · intro id
      simp
    · intro response present
      exact absurd present List.not_mem_nil
  exact (indexed_of_verified (verifyEvents_of_verify verified) initial unknown).records

end Harness
