import Anviq.Harness.Canonical

/-! # Recordings

`recording.py`: a recording is a JSONL file of events. `load` splits it into lines,
decodes each, and `Recording.verify` checks every event against
`recording.schema.json`, the continuity of `seq`, the hash chain, and the
references between events. A problem carries the data its message shows.
-/

namespace Harness

/-! ## Equality and numbers -/

/-- `==` on numbers. -/
def PyNumber.eq (left right : PyNumber) : Bool :=
  match left, right with
  | .infinity leftSign, .infinity rightSign => leftSign == rightSign
  | left, right =>
      match left.value?, right.value? with
      | some leftValue, some rightValue => leftValue = rightValue
      | _, _ => false

/-- A value as a number; a `bool` is an `int`. -/
def number? : PyJson → Option PyNumber
  | .bool value => some (.int (if value then 1 else 0))
  | .num value => some value
  | _ => none

mutual

/-- `==` on values. -/
def pyEq : PyJson → PyJson → Bool
  | .null, .null => true
  | .str left, .str right => left == right
  | .arr left, .arr right => pyEqElements left right
  | .obj left, .obj right => left.length == right.length && pyEqMembers left right
  | left, right =>
      match number? left, number? right with
      | some left, some right => left.eq right
      | _, _ => false

def pyEqElements : List PyJson → List PyJson → Bool
  | [], [] => true
  | left :: lefts, right :: rights => pyEq left right && pyEqElements lefts rights
  | _, _ => false

def pyEqMembers : PyDict → PyDict → Bool
  | [], _ => true
  | (name, value) :: members, right =>
      (match right.get? name with
        | some other => pyEq value other
        | none => false) &&
        pyEqMembers members right

end

/-- `dict.get(name)`. -/
def getOrNone (dict : PyDict) (name : String) : PyJson := (dict.get? name).getD .null

/-! ## The event schema -/

/-- A property, if it is present, satisfies its schema. -/
def property (event : PyDict) (name : String) (schema : PyJson → Bool) : Bool :=
  (event.get? name).all schema

/-- Every name is present. -/
def required (event : PyDict) (names : List String) : Bool :=
  names.all fun name => (event.get? name).isSome

/-- `"type": "string"`. -/
def isString : PyJson → Bool
  | .str _ => true
  | _ => false

/-- `"type": "object"`. -/
def isObject : PyJson → Bool
  | .obj _ => true
  | _ => false

/-- `"enum"` of strings. -/
def isOneOf (allowed : List String) : PyJson → Bool
  | .str value => allowed.contains value
  | _ => false

/-- A lowercase hexadecimal digit. -/
def isHexDigit (char : Char) : Bool := ('0' ≤ char && char ≤ '9') || ('a' ≤ char && char ≤ 'f')

/-- The pattern of a hash; `$` also matches before a final newline. -/
def matchesHash (text : String) : Bool :=
  let digits := text.toList.drop 7
  text.toList.take 7 == ['s', 'h', 'a', '2', '5', '6', ':'] &&
    (digits.take 64).length == 64 && (digits.take 64).all isHexDigit &&
    (digits.drop 64 == [] || digits.drop 64 == ['\n'])

/-- `"$ref": "#/$defs/hash"`. -/
def isHash : PyJson → Bool
  | .str value => matchesHash value
  | _ => false

/-- A number that is an integer and at least zero. -/
def isSequenceNumber : PyJson → Bool
  | .num number =>
      match number.value? with
      | some value => value.den == 1 && 0 ≤ value
      | none => false
  | _ => false

/-- The number of days of a month. -/
def daysInMonth (year month : Nat) : Nat :=
  if month = 2 then
    if year % 4 = 0 ∧ (year % 100 ≠ 0 ∨ year % 400 = 0) then 29 else 28
  else if month = 4 ∨ month = 6 ∨ month = 9 ∨ month = 11 then 30
  else 31

/-- The number of a run of decimal digits. -/
def decimalField (text : List Char) : Option Nat :=
  if text.all Char.isDigit then some (digitsValue (text.map digitOf)) else none

/-- The offset of a date-time from UTC. -/
def isOffset : List Char → Bool
  | ['Z'] => true
  | sign :: h1 :: h2 :: ':' :: [m1, m2] =>
      (sign = '+' || sign = '-') &&
        match decimalField [h1, h2], decimalField [m1, m2] with
        | some hour, some minute => decide (hour < 24) && decide (minute < 60)
        | _, _ => false
  | _ => false

/-- The fraction of a second and the offset of a date-time. -/
def isSecondFraction : List Char → Bool
  | '.' :: rest =>
      let digits := rest.takeWhile Char.isDigit
      !digits.isEmpty && isOffset (rest.dropWhile Char.isDigit)
  | rest => isOffset rest

/-- `_is_rfc3339_date_time`. -/
def isDateTime : List Char → Bool
  | y1 :: y2 :: y3 :: y4 :: '-' :: o1 :: o2 :: '-' :: d1 :: d2 :: 'T' :: h1 :: h2 :: ':' :: m1 ::
      m2 :: ':' :: s1 :: s2 :: rest =>
      match decimalField [y1, y2, y3, y4], decimalField [o1, o2], decimalField [d1, d2],
        decimalField [h1, h2], decimalField [m1, m2], decimalField [s1, s2] with
      | some year, some month, some day, some hour, some minute, some second =>
          decide (1 ≤ year) && decide (1 ≤ month) && decide (month ≤ 12) && decide (1 ≤ day) &&
            decide (day ≤ daysInMonth year month) && decide (hour < 24) && decide (minute < 60) &&
            decide (second < 60) && isSecondFraction rest
      | _, _, _, _, _, _ => false
  | _ => false

/-- The schema of `v`: the constant one, which is neither `True` nor a string. -/
def isOne : PyJson → Bool
  | .num number => number.value? == some 1
  | _ => false

/-- `"$ref": "#/$defs/tool"`. -/
def isTool : PyJson → Bool
  | .obj tool =>
      required tool ["name", "inputSchema"] && property tool "name" isString &&
        property tool "description" isString && property tool "inputSchema" isObject &&
        property tool "outputSchema" isObject && property tool "annotations" isObject
  | _ => false

/-- The schema of a response's `error`. -/
def isResponseError : PyJson → Bool
  | .obj error => required error ["message"] && property error "message" isString
  | _ => false

/-- The schema of `latency_ms`. -/
def isLatency : PyJson → Bool
  | .num (.infinity negative) => !negative
  | .num .nan => true
  | .num number => (number.value?).all fun value => decide (0 ≤ value)
  | _ => false

/-- `"$ref": "#/$defs/finding"`. -/
def isFinding : PyJson → Bool
  | .obj finding =>
      required finding ["severity", "rule_id", "path", "message"] &&
        property finding "severity" (isOneOf ["BREAKING", "SECURITY", "WARN", "INFO"]) &&
        property finding "rule_id" isString && property finding "tool" isString &&
        property finding "path" isString && property finding "message" isString
  | _ => false

/-- An array of findings. -/
def areFindings : PyJson → Bool
  | .arr findings => findings.all isFinding
  | _ => false

/-- The types of events. -/
def eventTypes : List String :=
  ["session_start", "tool_definition", "tool_call", "tool_response", "policy_decision",
    "session_end"]

/-- The condition of a branch of `allOf`: the type, if there is one, is `type`. -/
def hasType (event : PyDict) (type : String) : Bool :=
  property event "type" (isOneOf [type])

/-- The branches of `allOf`. -/
def matchesType (event : PyDict) : Bool :=
  (!hasType event "session_start" ||
      required event ["agent"] && property event "agent" isString &&
        property event "meta" isObject) &&
    (!hasType event "tool_definition" ||
      required event ["server", "tool", "def_hash"] && property event "server" isString &&
        property event "tool" isTool && property event "def_hash" isHash) &&
    (!hasType event "tool_call" ||
      required event ["call_id", "server", "tool_name", "def_hash", "args"] &&
        property event "call_id" isString && property event "server" isString &&
        property event "tool_name" isString && property event "def_hash" isHash &&
        property event "args" isObject) &&
    (!hasType event "tool_response" ||
      required event ["call_id", "ok", "latency_ms"] && property event "call_id" isString &&
        property event "ok" (fun value => value == .bool true || value == .bool false) &&
        property event "error" isResponseError && property event "latency_ms" isLatency) &&
    (!hasType event "policy_decision" ||
      required event ["server", "tool_name", "action", "reason"] &&
        property event "server" isString && property event "tool_name" isString &&
        property event "call_id" isString &&
        property event "action" (isOneOf ["allow", "warn", "block", "quarantine"]) &&
        property event "reason" isString && property event "findings" areFindings) &&
    (!hasType event "session_end" ||
      required event ["reason"] &&
        property event "reason" (isOneOf ["completed", "aborted", "error", "policy"]))

/-- The event satisfies `recording.schema.json`. -/
def validEvent (event : PyDict) : Bool :=
  required event ["v", "seq", "ts", "session_id", "type"] && property event "v" isOne &&
    property event "seq" isSequenceNumber &&
    property event "ts" (fun
      | .str text => isDateTime text.toList
      | _ => false) &&
    property event "session_id" (fun
      | .str text => decide (1 ≤ text.length)
      | _ => false) &&
    property event "type" (isOneOf eventTypes) &&
    property event "prev_hash" (fun
      | .null => true
      | hash => isHash hash) &&
    property event "event_hash" isHash && matchesType event

/-! ## Verification -/

/-- An integrity problem. `index` is the position of the event it is about; one
`schemaViolation` stands for all violations of an event. -/
inductive Problem where
  | invalidJson (line : Nat)
  | notAnObject (line : Nat)
  | empty
  | noSessionStart
  | schemaViolation (index : Nat)
  | otherSession (index : Nat)
  | afterEnd (index : Nat)
  | duplicateStart (index : Nat)
  | seq (index : Nat) (expected : Int) (got : PyJson)
  | prevHash (index : Nat) (stored expected : PyJson)
  | eventHash (index : Nat)
  | unhashableEvent (index : Nat) (error : PyError)
  | defHash (index : Nat)
  | unhashableTool (index : Nat) (error : PyError)
  | unknownDefinition (index : Nat)
  | duplicateCallId (index : Nat)
  | unknownCall (index : Nat)
  | duplicateResponse (index : Nat)
  | unknownCallId (callId : PyJson)
deriving DecidableEq

/-- What `verify` carries from one event to the next. -/
structure Progress where
  definitions : List (PyJson × PyJson × PyJson) := []
  calls : List PyJson := []
  responses : List PyJson := []
  ended : Bool := false
  prevHash : PyJson := .null
  expectedSeq : Int := 0

/-- `seq if isinstance(seq, int) else expected_seq`. -/
def nextSeq (seq : PyJson) (expected : Int) : Int :=
  match seq with
  | .num (.int value) => value
  | .bool value => if value then 1 else 0
  | _ => expected

/-- A problem if a condition holds. -/
def problemIf (condition : Bool) (problem : Problem) : List Problem :=
  if condition then [problem] else []

section Verify

variable (sha : String → String)

/-- The checks of an event's own hash. -/
def hashProblems (index : Nat) (event : PyDict) : List Problem :=
  match eventHash sha event with
  | .error error => [.unhashableEvent index error]
  | .ok recomputed => problemIf (!pyEq (getOrNone event "event_hash") (.str recomputed))
      (.eventHash index)

/-- The checks between events, of an event that satisfies the schema. -/
def semanticProblems (index : Nat) (event : PyDict) (progress : Progress) :
    List Problem × Progress :=
  let defHash := getOrNone event "def_hash"
  let callId := getOrNone event "call_id"
  match getOrNone event "type" with
  | .str "tool_definition" =>
      let tool := (getOrNone event "tool").members
      (match toolHash sha tool with
        | .error error => [.unhashableTool index error]
        | .ok hash => problemIf (!pyEq (.str hash) defHash) (.defHash index),
        { progress with
          definitions :=
            (getOrNone event "server", getOrNone tool "name", defHash) :: progress.definitions })
  | .str "tool_call" =>
      (problemIf
          (!progress.definitions.contains
            (getOrNone event "server", getOrNone event "tool_name", defHash))
          (.unknownDefinition index) ++
          problemIf (progress.calls.contains callId) (.duplicateCallId index),
        { progress with calls := callId :: progress.calls })
  | .str "tool_response" =>
      (problemIf (!progress.calls.contains callId) (.unknownCall index) ++
          problemIf (progress.responses.contains callId) (.duplicateResponse index),
        { progress with responses := callId :: progress.responses })
  | _ => ([], progress)

/-- The body of the loop of `verify`. -/
def verifyEvent (sessionId : PyJson) (index : Nat) (event : PyDict) (progress : Progress) :
    List Problem × Progress :=
  let valid := validEvent event
  let type := getOrNone event "type"
  let seq := getOrNone event "seq"
  let storedPrev := getOrNone event "prev_hash"
  let problems :=
    problemIf (!valid) (.schemaViolation index) ++
      problemIf (!pyEq (getOrNone event "session_id") sessionId) (.otherSession index) ++
      problemIf progress.ended (.afterEnd index) ++
      problemIf (decide (index ≠ 0) && type == .str "session_start") (.duplicateStart index) ++
      problemIf (!pyEq seq (.num (.int progress.expectedSeq)))
        (.seq index progress.expectedSeq seq) ++
      problemIf (!pyEq storedPrev progress.prevHash)
        (.prevHash index storedPrev progress.prevHash) ++
      hashProblems sha index event
  let progress :=
    { progress with
      ended := progress.ended || type == .str "session_end"
      expectedSeq := nextSeq seq progress.expectedSeq + 1
      prevHash := getOrNone event "event_hash" }
  if valid then
    let (semantic, progress) := semanticProblems sha index event progress
    (problems ++ semantic, progress)
  else (problems, progress)

/-- The loop of `verify`. -/
def verifyEvents (sessionId : PyJson) : Nat → List PyDict → Progress → List Problem
  | _, [], _ => []
  | index, event :: events, progress =>
      let (problems, progress) := verifyEvent sha sessionId index event progress
      problems ++ verifyEvents sessionId (index + 1) events progress

/-- `Recording.verify`. -/
def verify (sessionId : PyJson) (events : List PyDict) : List Problem :=
  match events with
  | [] => [.empty]
  | first :: _ =>
      problemIf (!(getOrNone first "type" == .str "session_start")) .noSessionStart ++
        verifyEvents sha sessionId 0 events {}

end Verify

/-! ## Loading -/

/-- A line boundary of `str.splitlines`. -/
def isLineBoundary (char : Char) : Bool :=
  char = '\n' || char = '\r' || char = '\x0b' || char = '\x0c' || char = '\x1c' || char = '\x1d' ||
    char = '\x1e' || char = '\u0085' || char = '\u2028' || char = '\u2029'

/-- The lines of a text, after the characters of `line` in reverse. A carriage
return and the newline after it are one boundary. -/
def splitAfter (line : List Char) : List Char → List (List Char)
  | [] => if line.isEmpty then [] else [line.reverse]
  | '\r' :: '\n' :: rest => line.reverse :: splitAfter [] rest
  | char :: rest =>
      if isLineBoundary char then line.reverse :: splitAfter [] rest
      else splitAfter (char :: line) rest

/-- `str.splitlines`. -/
def splitlines (text : List Char) : List (List Char) := splitAfter [] text

/-- A character `str.strip` removes. -/
def isSpace (char : Char) : Bool :=
  ('\t' ≤ char && char ≤ '\r') || ('\x1c' ≤ char && char ≤ ' ') || char = '\u0085' ||
    char = '\u00a0' || char = '\u1680' || ('\u2000' ≤ char && char ≤ '\u200a') ||
    char = '\u2028' || char = '\u2029' || char = '\u202f' || char = '\u205f' || char = '\u3000'

/-- The loop of `load` over the lines of a file: blank ones are skipped. -/
def readLines : Nat → List (List Char) → List Problem × List PyDict
  | _, [] => ([], [])
  | line, raw :: lines =>
      let (problems, events) := readLines (line + 1) lines
      if raw.all isSpace then (problems, events)
      else
        match loads (String.ofList raw) with
        | none => (.invalidJson line :: problems, events)
        | some (.obj event) => (problems, event :: events)
        | some _ => (.notAnObject line :: problems, events)

/-- The loop of `load` that indexes the events: a response without its call is a
problem. Events that violate the schema are left out. -/
def indexProblems (calls : List PyJson) : List PyDict → List Problem
  | [] => []
  | event :: events =>
      if validEvent event then
        let callId := (event.get? "call_id").getD (.str "")
        match getOrNone event "type" with
        | .str "tool_call" => indexProblems (callId :: calls) events
        | .str "tool_response" =>
            problemIf (!calls.contains callId) (.unknownCallId callId) ++ indexProblems calls events
        | _ => indexProblems calls events
      else indexProblems calls events

/-- The session a recording is of: that of its first event. -/
def recordedSession (events : List PyDict) : PyJson :=
  match events with
  | [] => .str ""
  | first :: _ => (first.get? "session_id").getD (.str "")

/-- A recording: its events, and its integrity problems. -/
structure Recording where
  events : List PyDict
  integrityProblems : List Problem

/-- `Recording.verify` of a loaded recording. -/
def Recording.verify (sha : String → String) (recording : Recording) : List Problem :=
  Harness.verify sha (recordedSession recording.events) recording.events

/-- `load`. -/
def load (sha : String → String) (text : String) : Recording :=
  let (problems, events) := readLines 1 (splitlines text.toList)
  let recording : Recording := { events, integrityProblems := problems ++ indexProblems [] events }
  { recording with
    integrityProblems := recording.integrityProblems ++ recording.verify sha }

/-! ## Lines -/

/-- A text without boundaries is a line up to the boundary after it. -/
theorem splitAfter_line {text : List Char} (whole : ∀ char ∈ text, isLineBoundary char = false)
    {boundary : Char} (ends : isLineBoundary boundary = true) (single : boundary ≠ '\r')
    (line rest : List Char) :
    splitAfter line (text ++ boundary :: rest) = (line.reverse ++ text) :: splitAfter [] rest := by
  induction text generalizing line with
  | nil =>
      rw [List.nil_append, splitAfter, if_pos ends, List.append_nil]
      exact fun rest returned => absurd returned single
  | cons char text ih =>
      rw [List.forall_mem_cons] at whole
      have unreturned : char ≠ '\r' := by
        rintro rfl
        exact absurd whole.1 (by decide)
      rw [List.cons_append, splitAfter, if_neg (by simp [whole.1]), ih whole.2 (char :: line),
        List.reverse_cons, List.append_assoc]
      · rfl
      · intro rest returned
        exact absurd returned unreturned

end Harness
