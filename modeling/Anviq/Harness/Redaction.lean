import Anviq.Harness.Definitions
import Anviq.Harness.Portable

/-! # Recordings do not depend on secrets

`redact.py`: the default redaction replaces what is stored under the keys of a secret,
at any depth. Two sessions that differ only there are recorded alike, to the last hash.
-/

namespace Harness

/-! ## The default redaction -/

/-- `re.IGNORECASE` takes the code point for this small letter. -/
def ignoresCase (letter : Char) (code : CodePoint) : Bool :=
  code.val = letter.toNat || code.val = letter.toUpper.toNat ||
    (letter = 'i' && (code.val = 0x130 || code.val = 0x131)) ||
    (letter = 's' && code.val = 0x17F) || (letter = 'k' && code.val = 0x212A)

/-- The words `DEFAULT_SECRET_KEY_PATTERN` stands for. -/
def secretWords : List String :=
  ["password", "token", "secret", "apikey", "api_key", "api-key", "authorization"]

/-- The text begins with the word. -/
def beginsWith : List Char → PyText → Bool
  | [], _ => true
  | _ :: _, [] => false
  | letter :: letters, code :: codes => ignoresCase letter code && beginsWith letters codes

/-- `DEFAULT_SECRET_KEY_PATTERN.search` finds something. -/
def defaultSecretKeyPattern (key : PyText) : Bool :=
  key.tails.any fun rest => secretWords.any fun word => beginsWith word.toList rest

/-- `REDACTED`. -/
def redacted : PyValue := pyText "***REDACTED***"

/-- `isinstance(k, str) and key_pattern.search(k)`. -/
def PyKey.isSecret (keyPattern : PyText → Bool) : PyKey → Bool
  | .str text => keyPattern text
  | .other _ => false

section Redact

variable (keyPattern : PyText → Bool)

mutual

/-- `default_redact`. -/
def defaultRedact : PyValue → PyValue
  | .dict items => .dict (redactItems items)
  | .list elements => .list (redactAll elements)
  | .tuple elements => .tuple (redactAll elements)
  | value => value

def redactAll : List PyValue → List PyValue
  | [] => []
  | element :: elements => defaultRedact element :: redactAll elements

def redactItems : List (PyKey × PyValue) → List (PyKey × PyValue)
  | [] => []
  | (key, value) :: items =>
      (key, if key.isSecret keyPattern then redacted else defaultRedact value) ::
        redactItems items

end

/-! ## Values alike but for their secrets -/

mutual

/-- The values differ only in what is stored under the keys of a secret. -/
inductive Agree : PyValue → PyValue → Prop
  | none : Agree .none .none
  | bool (value : Bool) : Agree (.bool value) (.bool value)
  | num (value : PyNumber) : Agree (.num value) (.num value)
  | str (text : PyText) : Agree (.str text) (.str text)
  | other (typeName : String) : Agree (.other typeName) (.other typeName)
  | list {left right : List PyValue} : AgreeAll left right → Agree (.list left) (.list right)
  | tuple {left right : List PyValue} : AgreeAll left right → Agree (.tuple left) (.tuple right)
  | dict {left right : List (PyKey × PyValue)} :
      AgreeItems left right → Agree (.dict left) (.dict right)

inductive AgreeAll : List PyValue → List PyValue → Prop
  | nil : AgreeAll [] []
  | cons {first second : PyValue} {left right : List PyValue} :
      Agree first second → AgreeAll left right → AgreeAll (first :: left) (second :: right)

inductive AgreeItems : List (PyKey × PyValue) → List (PyKey × PyValue) → Prop
  | nil : AgreeItems [] []
  | hidden {key : PyKey} {left right : List (PyKey × PyValue)} (first second : PyValue) :
      key.isSecret keyPattern = true → AgreeItems left right →
        AgreeItems ((key, first) :: left) ((key, second) :: right)
  | shown {key : PyKey} {first second : PyValue} {left right : List (PyKey × PyValue)} :
      Agree first second → AgreeItems left right →
        AgreeItems ((key, first) :: left) ((key, second) :: right)

end

variable {keyPattern}

mutual

/-- Values alike but for their secrets are redacted to the same value. -/
theorem Agree.redact_eq {left right : PyValue} (agree : Agree keyPattern left right) :
    defaultRedact keyPattern left = defaultRedact keyPattern right := by
  cases agree with
  | none | bool | num | str | other => rfl
  | list elements => rw [defaultRedact, defaultRedact, elements.redact_eq]
  | tuple elements => rw [defaultRedact, defaultRedact, elements.redact_eq]
  | dict items => rw [defaultRedact, defaultRedact, items.redact_eq]

theorem AgreeAll.redact_eq {left right : List PyValue} (agree : AgreeAll keyPattern left right) :
    redactAll keyPattern left = redactAll keyPattern right := by
  cases agree with
  | nil => rfl
  | cons first rest => rw [redactAll, redactAll, first.redact_eq, rest.redact_eq]

theorem AgreeItems.redact_eq {left right : List (PyKey × PyValue)}
    (agree : AgreeItems keyPattern left right) :
    redactItems keyPattern left = redactItems keyPattern right := by
  cases agree with
  | nil => rfl
  | hidden first second secret rest =>
      rw [redactItems, redactItems, if_pos secret, if_pos secret, rest.redact_eq]
  | shown first rest => rw [redactItems, redactItems, first.redact_eq, rest.redact_eq]

end

mutual

/-- Redaction changes nothing but what is stored under the keys of a secret. -/
theorem agree_redact (value : PyValue) : Agree keyPattern value (defaultRedact keyPattern value) := by
  cases value with
  | none => exact .none
  | bool value => exact .bool value
  | num value => exact .num value
  | str text => exact .str text
  | other typeName => exact .other typeName
  | list elements => exact .list (agree_redactAll elements)
  | tuple elements => exact .tuple (agree_redactAll elements)
  | dict items => exact .dict (agree_redactItems items)

theorem agree_redactAll (elements : List PyValue) :
    AgreeAll keyPattern elements (redactAll keyPattern elements) := by
  cases elements with
  | nil => exact .nil
  | cons element elements => exact .cons (agree_redact element) (agree_redactAll elements)

theorem agree_redactItems (items : List (PyKey × PyValue)) :
    AgreeItems keyPattern items (redactItems keyPattern items) := by
  cases items with
  | nil => exact .nil
  | cons item items =>
      obtain ⟨key, value⟩ := item
      by_cases secret : key.isSecret keyPattern = true
      · rw [redactItems, if_pos secret]
        exact .hidden value redacted secret (agree_redactItems items)
      · rw [redactItems, if_neg secret]
        exact .shown (agree_redact value) (agree_redactItems items)

end

/-- What is redacted stays as it is. -/
theorem defaultRedact_idempotent (value : PyValue) :
    defaultRedact keyPattern (defaultRedact keyPattern value) = defaultRedact keyPattern value :=
  (agree_redact value).redact_eq.symm

end Redact

/-! ## Sessions alike but for their secrets -/

/-- The operations differ only in the secrets of arguments and of results. -/
inductive Operation.Alike (keyPattern : PyText → Bool) : Operation → Operation → Prop
  | same (operation : Operation) : Alike keyPattern operation operation
  | startCall {args args' : PyItems} (server name : PyText) (tool : Option Definition) :
      Agree keyPattern (.dict args) (.dict args') →
        Alike keyPattern (.startCall server name args tool) (.startCall server name args' tool)
  | emitCall {args args' : PyItems} (server name defHash : PyText) :
      Agree keyPattern (.dict args) (.dict args') →
        Alike keyPattern (.emitCall server name defHash args) (.emitCall server name defHash args')
  | emitOkResponse {result result' : PyValue} (callId : PyText) (latencyMs : PyNumber) :
      Agree keyPattern result result' →
        Alike keyPattern (.emitOkResponse callId result latencyMs)
          (.emitOkResponse callId result' latencyMs)

/-- The settings of a recorder made with no `redact` of its own. -/
def RecorderSettings.redacting (settings : RecorderSettings) (keyPattern : PyText → Bool) :
    RecorderSettings :=
  { settings with redact := defaultRedact keyPattern }

variable {settings : RecorderSettings} {keyPattern : PyText → Bool} {operation operation' : Operation}
  {operations operations' : List Operation} {session session' : Session}

/-- Of the arguments of a call, only the redacted ones count. -/
theorem emitCall_congr {recorder : Recorder} {server name defHash : PyText} {args args' : PyItems}
    (same : settings.redact (.dict args) = settings.redact (.dict args')) :
    recorder.emitCall settings server name defHash args =
      recorder.emitCall settings server name defHash args' := by
  unfold Recorder.emitCall
  rw [same]

theorem startCall_congr {recorder : Recorder} {server name : PyText} {args args' : PyItems}
    {tool : Option Definition}
    (same : settings.redact (.dict args) = settings.redact (.dict args')) :
    recorder.startCall settings server name args tool =
      recorder.startCall settings server name args' tool := by
  rw [Recorder.startCall, Recorder.startCall]
  split
  · exact emitCall_congr same
  · rfl

/-- Operations alike raise the same and are recorded the same. -/
theorem Operation.Alike.handle_eq (alike : operation.Alike keyPattern operation') :
    session.handle (settings.redacting keyPattern) operation =
      session.handle (settings.redacting keyPattern) operation' := by
  cases alike with
  | same => rfl
  | startCall server name tool agree =>
      rw [Session.handle, Session.handle, startCall_congr agree.redact_eq]
  | emitCall server name defHash agree =>
      rw [Session.handle, Session.handle, emitCall_congr agree.redact_eq]
  | @emitOkResponse result result' callId latencyMs agree =>
      have same : (settings.redacting keyPattern).redact result =
          (settings.redacting keyPattern).redact result' := agree.redact_eq
      rw [Session.handle, Session.handle, Recorder.emitOkResponse, Recorder.emitOkResponse, same]

/-- Sessions that have recorded the same go on alike. -/
theorem recorderMachine_deterministic {left right : Session}
    (run : (recorderMachine settings).Run operations left)
    (other : (recorderMachine settings).Run operations right) : left = right := by
  refine run.deterministic ?_ ?_ other
  · rintro ⟨recorder, pending⟩ ⟨recorder', pending'⟩ ⟨rfl, entered⟩ ⟨rfl, entered'⟩
    obtain rfl : recorder = recorder' := congrArg Prod.snd (entered.symm.trans entered')
    rfl
  · rintro state operation left right ⟨-, rfl⟩ ⟨-, rfl⟩
    rfl

/-- What one session comes to, the other does too. -/
theorem recorderMachine_alike
    (alike : List.Forall₂ (Operation.Alike keyPattern) operations operations')
    (run : (recorderMachine (settings.redacting keyPattern)).Run operations session) :
    (recorderMachine (settings.redacting keyPattern)).Run operations' session := by
  refine run.relabel ?_ alike
  intro state operation operation' next same step
  refine ⟨step.1, ?_⟩
  rw [← same.handle_eq]
  exact step.2

/-- **Recordings do not depend on secrets.** Two sessions whose arguments and results differ
only in what is stored under keys of the secret pattern have the same file, sequence number
and last hash after every step; and the default redaction changes nothing outside of such
values, and nothing when it is applied again. -/
theorem recording_independent_of_secrets (settings : RecorderSettings) (keyPattern : PyText → Bool) :
    (∀ (operations operations' : List Operation) (session session' : Session),
        List.Forall₂ (Operation.Alike keyPattern) operations operations' →
        (recorderMachine (settings.redacting keyPattern)).Run operations session →
        (recorderMachine (settings.redacting keyPattern)).Run operations' session' →
          session = session') ∧
      (∀ operation operation' session, Operation.Alike keyPattern operation operation' →
        Session.handle (settings.redacting keyPattern) session operation =
          Session.handle (settings.redacting keyPattern) session operation') ∧
      ∀ value, Agree keyPattern value (defaultRedact keyPattern value) ∧
        defaultRedact keyPattern (defaultRedact keyPattern value) = defaultRedact keyPattern value := by
  refine ⟨?_, ?_, ?_⟩
  · intro operations operations' session session' alike run run'
    exact recorderMachine_deterministic (recorderMachine_alike alike run) run'
  · intro operation operation' session alike
    exact alike.handle_eq
  · intro value
    exact ⟨agree_redact value, defaultRedact_idempotent value⟩

/-- A recorder for an example, whose hashes are all empty. -/
def plainSettings : RecorderSettings where
  sha _ := ""
  sessionId := codePoints "s"
  agent := codePoints "agent"
  metaItems := none
  redact value := value
  clock _ := codePoints "now"
  ids _ := codePoints "c1"
  reprKey _ := ""

/-- An item whose key `DEFAULT_SECRET_KEY_PATTERN` finds. -/
def passwordItem (password : String) : PyKey × PyValue :=
  (.str (codePoints "db_PassWord"), pyText password)

/-- A call with a password, and a result that gives it back. -/
def passwordCall (password : String) : List Operation :=
  [.emitCall (codePoints "s") (codePoints "t") (codePoints "h") [passwordItem password],
    .emitOkResponse (codePoints "c1") (.dict [passwordItem password]) (.int 0)]

/-- What is recorded of a password. -/
def starred : PyDict := [("db_PassWord", .str "***REDACTED***")]

/-- The recorder of the example, made with no `redact` of its own. -/
def hidingSettings : RecorderSettings := plainSettings.redacting defaultSecretKeyPattern

theorem passwordItem_redacted (password : String) :
    hidingSettings.redact (.dict [passwordItem password]) =
      .dict (PyValue.ofMembers starred) := by
  have secret : (PyKey.str (codePoints "db_PassWord")).isSecret defaultSecretKeyPattern = true := by
    decide
  change PyValue.dict (redactItems defaultSecretKeyPattern [passwordItem password]) = _
  rw [passwordItem, redactItems, if_pos secret]
  rfl

theorem starred_read : (PyValue.dict (PyValue.ofMembers starred)).json? = some (.obj starred) :=
  json?_dict.mpr ⟨starred, members?_ofMembers starred, rfl⟩

/-- What is recorded of a call with a password. -/
theorem passwordCall_read (password : String) :
    PyValue.members? ((RecordFields.toolCall (codePoints "c1") (codePoints "s") (codePoints "t")
      (codePoints "h") (hidingSettings.redact (.dict [passwordItem password]))).items.map pyItem) =
        some [("call_id", .str "c1"), ("server", .str "s"), ("tool_name", .str "t"),
          ("def_hash", .str "h"), ("args", .obj starred)] := by
  rw [passwordItem_redacted]
  simp only [RecordFields.items, members?_cons, members?_nil, json?_text, starred_read]
  exact ⟨_, _, ⟨"c1", rfl, rfl⟩, ⟨_, _, ⟨"s", rfl, rfl⟩, ⟨_, _, ⟨"t", rfl, rfl⟩,
    ⟨_, _, ⟨"h", rfl, rfl⟩, ⟨_, _, rfl, rfl, rfl⟩, rfl⟩, rfl⟩, rfl⟩, rfl⟩

/-- What is recorded of a result with a password. -/
theorem passwordAnswer_read (password : String) :
    PyValue.members? ((RecordFields.okResponse (codePoints "c1")
      (hidingSettings.redact (.dict [passwordItem password])) (.int 0)).items.map pyItem) =
        some [("call_id", .str "c1"), ("ok", .bool true), ("result", .obj starred),
          ("latency_ms", .num (.int 0))] := by
  rw [passwordItem_redacted]
  simp only [RecordFields.items, members?_cons, members?_nil, json?_text, json?_bool, json?_num,
    starred_read]
  exact ⟨_, _, ⟨"c1", rfl, rfl⟩, ⟨_, _, rfl, ⟨_, _, rfl, ⟨_, _, rfl, rfl, rfl⟩, rfl⟩, rfl⟩, rfl⟩

/-- What can be written is written. -/
theorem hidingSettings_emits {recorder : Recorder} {fields : RecordFields} {rest : PyDict}
    (small : recorder.seq ≤ 2 ^ 53)
    (read : PyValue.members? (fields.items.map pyItem) = some rest)
    (encodable : ∀ member ∈ rest, member.2.AllNumbers PyNumber.Encodable) :
    ∃ next, recorder.emit hidingSettings fields = (.ok (), next) ∧
      next.seq = recorder.seq + 1 ∧ next.closed = recorder.closed := by
  rcases @emits_of_encodable hidingSettings recorder fields "now" "s" rest rfl rfl small read
    encodable with ⟨next, emitted, seq, -, closed, -⟩
  exact ⟨next, emitted, seq, closed⟩

/-- The call and its response are recorded. -/
theorem passwordCall_run (password : String) :
    ∃ session, (recorderMachine hidingSettings).Run (passwordCall password) session ∧
      session.recorder.seq = 3 ∧ session.pending = [] := by
  have begun : PyValue.members? ((RecordFields.sessionStart hidingSettings.agent
      hidingSettings.metaItems).items.map pyItem) = some [("agent", .str "agent")] :=
    members?_cons.mpr ⟨_, [], json?_text.mpr ⟨"agent", rfl, rfl⟩, rfl, rfl⟩
  have number : (PyNumber.int 0).Encodable := show (0 : Int).natAbs ≤ 2 ^ 53 by simp
  rcases @hidingSettings_emits {} _ _ (Nat.zero_le _) begun (by simp [Json.AllNumbers]) with
    ⟨recorder, entered, seq, going⟩
  rcases @hidingSettings_emits { recorder with issued := recorder.issued + 1 } _ _
    (by simp [seq]) (passwordCall_read password)
    (by simp [Json.AllNumbers, Json.AllMembers, starred]) with ⟨next, emitted, nextSeq, still⟩
  rcases @hidingSettings_emits next _ _ (by simp [nextSeq, seq]) (passwordAnswer_read password)
    (by simp [Json.AllNumbers, Json.AllMembers, starred, number]) with
    ⟨last, responded, lastSeq, -⟩
  have start : (recorderMachine hidingSettings).Run [] { recorder } := .start ⟨rfl, entered⟩
  have calls : (recorderMachine hidingSettings).step { recorder }
      (.emitCall (codePoints "s") (codePoints "t") (codePoints "h") [passwordItem password])
      { recorder := next, pending := [codePoints "c1"] } := by
    refine ⟨going, ?_⟩
    rw [Session.handle]
    unfold Recorder.emitCall
    dsimp only
    rw [show hidingSettings.ids recorder.issued = codePoints "c1" from rfl, emitted]
    rfl
  have answers : (recorderMachine hidingSettings).step
      { recorder := next, pending := [codePoints "c1"] }
      (.emitOkResponse (codePoints "c1") (.dict [passwordItem password]) (.int 0))
      { recorder := last } := by
    refine ⟨still.trans going, ?_⟩
    rw [Session.handle, Recorder.emitOkResponse, responded, Session.answered]
    rfl
  exact ⟨_, (start.concat calls).concat answers, by rw [lastSeq, nextSeq, seq], rfl⟩

/-- Which of two passwords a call is given and gives back is not recorded. -/
theorem recording_independent_of_secrets_passwords :
    ∃ session session',
      (recorderMachine hidingSettings).Run (passwordCall "hunter2") session ∧
      (recorderMachine hidingSettings).Run (passwordCall "swordfish") session' ∧
      session.recorder.seq = 3 ∧ session = session' := by
  rcases passwordCall_run "hunter2" with ⟨session, run, seq, -⟩
  rcases passwordCall_run "swordfish" with ⟨session', run', -⟩
  have hidden : Agree defaultSecretKeyPattern (.dict [passwordItem "hunter2"])
      (.dict [passwordItem "swordfish"]) := .dict (.hidden _ _ (by decide) .nil)
  have alike : List.Forall₂ (Operation.Alike defaultSecretKeyPattern) (passwordCall "hunter2")
      (passwordCall "swordfish") := .cons (.emitCall _ _ _ hidden)
    (.cons (.emitOkResponse _ _ hidden) .nil)
  exact ⟨session, session', run, run', seq,
    (recording_independent_of_secrets plainSettings defaultSecretKeyPattern).1 _ _ session session'
      alike run run'⟩

end Harness
