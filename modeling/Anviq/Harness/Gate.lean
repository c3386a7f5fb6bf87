import Anviq.Harness.Emission
import Anviq.Diff.Schema
import Anviq.Json.Indented

/-! # The gate

`gate.py`: a report passes if no finding of a severity that fails is left after the accept file.
The file names a finding by its tool, rule and path and by a hash of its `after`, so that an
accepted finding is reported again once the change moves. Accepting a report makes it pass exactly
if every `after` can be hashed.
-/

namespace Harness

/-! ## Values without numbers -/

/-- `json.dumps(value, indent=2)`. -/
def dumpsIndented (value : Json Empty) : List Char := value.indented 2 0

/-- What is read of an indented text. -/
theorem loads_dumpsIndented {value : Json Empty} (distinct : value.Distinct) :
    loads (String.ofList (dumpsIndented value ++ ['\n'])) = some (value.map Empty.elim) := by
  have white : Json.Blank ['\n'] := by simp [Json.Blank, Json.isWhitespace]
  have kept : (value.map (Empty.elim : Empty → PyNumber)).Distinct :=
    Json.namesPairwise_map.mpr distinct
  rw [loads, dumpsIndented, Json.parse_indented value white, Option.map_some, Json.map_map]
  rw [show ((fun token : String => PyNumber.ofText token.toList) ∘ Empty.elim) = Empty.elim from
    funext fun number => number.elim, Json.collapse_of_distinct kept]

namespace Gate

open Diff (Severity iterated typeName truthy)

/-! ## Findings -/

/-- `Finding`, of any Python values. -/
structure Finding where
  severity : Severity
  ruleId : String
  path : String
  message : String
  tool : Option String := none
  before : PyValue := .none
  after : PyValue := .none

/-- `DEFAULT_FAIL_ON`. -/
def defaultFailOn : List Severity := [.security, .breaking]

/-- What the gate takes from outside: SHA-256, `repr`, and the number of the day an ISO date
names. -/
structure Library where
  sha : String → String
  repr : PyValue → String
  fromIsoFormat : PyJson → Except PyError Nat

section Hashes

variable (lib : Library)

/-- `finding_after_hash`. -/
def findingAfterHash (finding : Finding) : Except PyError String :=
  match valueHash lib.sha finding.after with
  | .error (.typeError _) => valueHash lib.sha (pyText (lib.repr finding.after))
  | hash => hash

end Hashes

/-! ## Accept files -/

/-- `AcceptEntry`. What a file holds may be of any type. -/
structure AcceptEntry where
  tool : PyJson
  ruleId : PyJson
  path : PyJson
  afterHash : PyJson
  reason : PyJson := .str ""
  expires : PyJson := .null

/-- The parameters of `AcceptEntry`. -/
def acceptFields : List String := ["tool", "rule_id", "path", "after_hash", "reason", "expires"]

/-- Names in a message, each in quotes. -/
def quotedNames : List String → String
  | [] => ""
  | [name] => s!"'{name}'"
  | [first, second] => s!"'{first}' and '{second}'"
  | names =>
      let last := names.getLastD ""
      ", ".intercalate (names.dropLast.map fun name => s!"'{name}'") ++ s!", and '{last}'"

/-- `AcceptEntry(**members)`. -/
def AcceptEntry.ofMembers (members : PyDict) : Except PyError AcceptEntry :=
  match members.find? fun member => !acceptFields.contains member.1 with
  | some member => .error (.typeError
      s!"AcceptEntry.__init__() got an unexpected keyword argument '{member.1}'")
  | none =>
      match members.get? "tool", members.get? "rule_id", members.get? "path",
        members.get? "after_hash" with
      | some tool, some ruleId, some path, some afterHash =>
          .ok { tool, ruleId, path, afterHash
                reason := (members.get? "reason").getD (.str "")
                expires := (members.get? "expires").getD .null }
      | _, _, _, _ =>
          let missing := (acceptFields.take 4).filter fun name => (Json.Members.get? members name).isNone
          let plural := if missing.length = 1 then "" else "s"
          .error (.typeError (s!"AcceptEntry.__init__() missing {missing.length} required " ++
            s!"positional argument{plural}: {quotedNames missing}"))

/-- `AcceptEntry(**item)`. -/
def AcceptEntry.ofItem : PyJson → Except PyError AcceptEntry
  | .obj members => ofMembers members
  | other => .error (.typeError
      ("harness.gate.AcceptEntry() argument after ** must be a mapping, not " ++ typeName other))

/-- `load_accept_file` of a text. -/
def loadAcceptFile (text : List Char) : Except PyError (List AcceptEntry) :=
  match loads (String.ofList text) with
  | none => .error (.valueError "the text is not JSON")
  | some data => do
      let items ← iterated
        (match data with
          | .obj members => (Json.Members.get? members "accepted").getD data
          | other => other)
      items.mapM AcceptEntry.ofItem

section Gate

variable (lib : Library)

/-- What `save_accept_file` writes of a finding. -/
def acceptItem (reason : String) (finding : Finding) : Except PyError (Json Empty) := do
  let hash ← findingAfterHash lib finding
  .ok (.obj
    [("tool", .str (finding.tool.getD "")), ("rule_id", .str finding.ruleId),
      ("path", .str finding.path), ("after_hash", .str hash), ("reason", .str reason),
      ("expires", .null)])

/-- The text `save_accept_file` writes. -/
def saveAcceptFile (findings : List Finding) (reason : String) : Except PyError (List Char) := do
  let entries ← findings.mapM (acceptItem lib reason)
  .ok (dumpsIndented (.obj [("accepted", .arr entries)]) ++ ['\n'])

/-! ## Evaluation -/

/-- `AcceptEntry.matches`. -/
def AcceptEntry.matchesFinding (entry : AcceptEntry) (finding : Finding) (today : Nat) :
    Except PyError Bool :=
  if (Json.str (finding.tool.getD ""), Json.str finding.ruleId, Json.str finding.path) ≠
      (entry.tool, entry.ruleId, entry.path) then .ok false
  else do
    let hash ← findingAfterHash lib finding
    if Json.str hash ≠ entry.afterHash then .ok false
    else if truthy entry.expires then do
      let expires ← lib.fromIsoFormat entry.expires
      .ok (!decide (expires < today))
    else .ok true

/-- The first entry that matches a finding. -/
def firstMatching (finding : Finding) (today : Nat) :
    List AcceptEntry → Except PyError (Option AcceptEntry)
  | [] => .ok none
  | entry :: entries => do
      if ← entry.matchesFinding lib finding today then .ok (some entry)
      else firstMatching finding today entries

/-- `GateResult`. -/
structure GateResult where
  passed : Bool
  blocking : List Finding
  accepted : List Finding
  allFindings : List Finding

/-- The loop of `evaluate`: the findings that block, and those that are accepted. -/
def separate (failOn : List Severity) (entries : List AcceptEntry) (today : Nat) :
    List Finding → Except PyError (List Finding × List Finding)
  | [] => .ok ([], [])
  | finding :: findings =>
      if finding.severity ∉ failOn then separate failOn entries today findings
      else do
        let entry ← firstMatching lib finding today entries
        let (blocking, accepted) ← separate failOn entries today findings
        match entry with
        | some _ => .ok (blocking, finding :: accepted)
        | none => .ok (finding :: blocking, accepted)

/-- `evaluate`. -/
def evaluate (findings : List Finding) (failOn : List Severity) (entries : List AcceptEntry)
    (today : Nat) : Except PyError GateResult := do
  let (blocking, accepted) ← separate lib failOn entries today findings
  .ok { passed := blocking.isEmpty, blocking, accepted, allFindings := findings }

end Gate

/-! ## Hashes -/

section Accepting

variable {lib : Library} {finding : Finding} {findings : List Finding} {reason : String}

/-- `canonical_json` writes the value, or raises a `TypeError`. -/
def Hashable (value : PyValue) : Prop :=
  (∃ text, canonicalValue value = .ok text) ∨
    ∃ message, canonicalValue value = .error (.typeError message)

theorem valueHash_of_written {value : PyValue} {text : List Char}
    (written : canonicalValue value = .ok text) :
    valueHash lib.sha value = .ok ("sha256:" ++ lib.sha (String.ofList text)) := by
  rw [valueHash, written]
  rfl

theorem valueHash_of_refused {value : PyValue} {error : PyError}
    (refused : canonicalValue value = .error error) : valueHash lib.sha value = .error error := by
  rw [valueHash, refused]
  rfl

/-- A text always has a hash. -/
theorem valueHash_pyText (text : String) : ∃ hash, valueHash lib.sha (pyText text) = .ok hash := by
  have written : canonicalValue (pyText text) = .ok (encodeString text) :=
    (canonicalValue_eq_ok _ _).mpr ⟨_, json?_pyText text, rfl⟩
  exact ⟨_, valueHash_of_written written⟩

/-- A finding can be hashed exactly if its `after` can. -/
theorem findingAfterHash_ok_iff :
    (∃ hash, findingAfterHash lib finding = .ok hash) ↔ Hashable finding.after := by
  unfold findingAfterHash Hashable
  cases written : canonicalValue finding.after with
  | ok text =>
      rw [valueHash_of_written written]
      exact iff_of_true ⟨_, rfl⟩ (Or.inl ⟨_, rfl⟩)
  | error error =>
      rw [valueHash_of_refused written]
      cases error with
      | typeError message =>
          exact iff_of_true (valueHash_pyText _) (Or.inr ⟨_, rfl⟩)
      | _ => simp

/-- Where a list of computations fails, one of them does. -/
theorem mapM_error {α β : Type} {f : α → Except PyError β} {items : List α} {error : PyError}
    (failed : items.mapM f = .error error) : ∃ item ∈ items, f item = .error error := by
  induction items with
  | nil => cases failed
  | cons item items ih =>
      rw [List.mapM_cons] at failed
      cases first : f item with
      | error raised =>
          rw [first] at failed
          cases failed
          exact ⟨item, List.mem_cons_self, first⟩
      | ok value =>
          rw [first] at failed
          cases rest : items.mapM f with
          | error raised =>
              rw [rest] at failed
              cases failed
              obtain ⟨other, present, raises⟩ := ih rest
              exact ⟨other, List.mem_cons_of_mem _ present, raises⟩
          | ok values =>
              rw [rest] at failed
              cases failed

theorem canonicalValues_error {elements : List PyValue} {error : PyError}
    (refused : canonicalValues elements = .error error) :
    ∃ element ∈ elements, canonicalValue element = .error error := by
  apply mapM_error
  rw [← refused]
  clear refused
  induction elements with
  | nil => rfl
  | cons element elements ih =>
      rw [canonicalValues, List.mapM_cons, ih]
      rfl

/-- A `dict` whose keys are texts is refused for one of its values. -/
theorem encodeDict_error {items : List (PyKey × Except PyError (List Char))} {error : PyError}
    (named : ∀ item ∈ items, ∃ name, item.1 = .str (codePoints name))
    (refused : encodeDict items = .error error) : ∃ item ∈ items, item.2 = .error error := by
  have sortable : ∃ keyed, List.Forall₂ (fun item sorted => ∃ name,
      item.1 = .str (codePoints name) ∧
        sorted = { bytes := utf16be name, key := codePoints name, value := item.2 })
        items (keyed : List SortItem) := by
    apply exists_forall₂
    intro item present
    obtain ⟨name, keyed⟩ := named item present
    exact ⟨_, name, keyed, rfl⟩
  obtain ⟨keyed, related⟩ := sortable
  obtain ⟨keys, keysOk, keyedOk⟩ := keyed_eq_ok.mpr related
  rw [encodeDict, keysOk] at refused
  change ((keys.zip (items.map Prod.snd)).mapM fun item => SortItem.of item.1 item.2) >>= _ =
    _ at refused
  rw [keyedOk] at refused
  change (List.mapM SortItem.text _) >>= _ = _ at refused
  cases texts : (keyed.insertionSort fun left right =>
      !decide (right.bytes < left.bytes)).mapM SortItem.text with
  | ok written =>
      rw [texts] at refused
      cases refused
  | error raised =>
      rw [texts] at refused
      cases refused
      obtain ⟨item, among, raises⟩ := mapM_error texts
      obtain ⟨original, present, name, -, rfl⟩ :=
        forall₂_exists_left related ((List.mem_insertionSort _).mp among)
      refine ⟨original, present, ?_⟩
      rw [SortItem.text, encodeText_eq_ok.mpr ⟨name, rfl, rfl⟩] at raises
      change (original.2 >>= _) = _ at raises
      cases value : original.2 with
      | error inner =>
          rw [value] at raises
          exact raises
      | ok text =>
          rw [value] at raises
          cases raises

/-- What stands for a JSON value is refused with a `ValueError`, for one of its numbers. -/
theorem valueError_of_json {value : PyValue} {json : PyJson} (read : value.json? = some json)
    {error : PyError} (refused : canonicalValue value = .error error) :
    ∃ message, error = .valueError message := by
  induction value using PyValue.induction generalizing json error with
  | none => cases refused
  | bool value => cases value <;> cases refused
  | num value =>
      rw [canonicalValue] at refused
      unfold encodeNumber at refused
      split at refused
      · split at refused
        · exact ⟨_, (Except.error.inj refused).symm⟩
        · cases refused
      · cases refused
      · cases refused
      · exact ⟨_, (Except.error.inj refused).symm⟩
      · exact ⟨_, (Except.error.inj refused).symm⟩
  | str codes =>
      obtain ⟨text, rfl, -⟩ := json?_text.mp read
      rw [canonicalValue, encodeText_eq_ok.mpr ⟨text, rfl, rfl⟩] at refused
      cases refused
  | list elements ih | tuple elements ih =>
      obtain ⟨jsons, members, -⟩ := Option.map_eq_some_iff.mp read
      cases written : canonicalValues elements with
      | ok texts =>
          rw [canonicalValue, written] at refused
          cases refused
      | error raised =>
          rw [canonicalValue, written] at refused
          cases refused
          obtain ⟨element, present, raises⟩ := canonicalValues_error written
          obtain ⟨other, -, readElement⟩ :=
            forall₂_exists_right (PyValue.jsons?_eq_some.mp members) present
          exact ih element present readElement raises
  | dict items ih =>
      obtain ⟨members, related, -⟩ := json?_dict.mp read
      have related := PyValue.members?_eq_some.mp related
      rw [canonicalValue, encodedItems_eq] at refused
      have named : ∀ item ∈ items.map fun item => (item.1, canonicalValue item.2),
          ∃ name, item.1 = .str (codePoints name) := by
        intro item present
        obtain ⟨original, among, rfl⟩ := List.mem_map.mp present
        obtain ⟨member, -, keyed, -⟩ := forall₂_exists_right related among
        exact ⟨_, keyed⟩
      obtain ⟨item, present, raises⟩ := encodeDict_error named refused
      obtain ⟨original, among, rfl⟩ := List.mem_map.mp present
      obtain ⟨member, -, -, readItem⟩ := forall₂_exists_right related among
      exact ih original among readItem raises
  | other typeName => cases read

/-- A value that stands for a JSON value can be hashed exactly if its numbers can be written: it
has no `NaN`, no infinity and no int beyond 2^53. -/
theorem hashable_iff_encodable {value : PyValue} {json : PyJson} (read : value.json? = some json) :
    Hashable value ↔ json.AllNumbers PyNumber.Encodable := by
  constructor
  · intro hashable
    obtain ⟨text, written⟩ | ⟨message, refused⟩ := hashable
    · obtain ⟨other, again, wrote⟩ := (canonicalValue_eq_ok value text).mp written
      rw [← Option.some.inj (again.symm.trans read)]
      exact (canonicalJson_eq_ok.mp wrote).1
    · obtain ⟨other, wrong⟩ := valueError_of_json read refused
      cases wrong
  · intro encodable
    exact Or.inl ⟨_, (canonicalValue_eq_ok value _).mpr
      ⟨json, read, canonicalJson_eq_ok.mpr ⟨encodable, rfl⟩⟩⟩

/-! ## The file -/

/-- The entry of a finding with this hash. -/
def AcceptEntry.ofFinding (finding : Finding) (hash reason : String) : AcceptEntry where
  tool := .str (finding.tool.getD "")
  ruleId := .str finding.ruleId
  path := .str finding.path
  afterHash := .str hash
  reason := .str reason

/-- The entry is the one that is written for the finding. -/
def WrittenFor (lib : Library) (reason : String) (finding : Finding) (entry : AcceptEntry) : Prop :=
  ∃ hash, findingAfterHash lib finding = .ok hash ∧ entry = .ofFinding finding hash reason

theorem acceptItem_eq_ok {item : Json Empty} :
    acceptItem lib reason finding = .ok item ↔
      ∃ hash, findingAfterHash lib finding = .ok hash ∧
        item = .obj
          [("tool", .str (finding.tool.getD "")), ("rule_id", .str finding.ruleId),
            ("path", .str finding.path), ("after_hash", .str hash), ("reason", .str reason),
            ("expires", .null)] := by
  rw [acceptItem, bind_eq_ok]
  refine exists_congr fun hash => and_congr Iff.rfl ?_
  rw [Except.ok.injEq, eq_comm]

/-- What is read of the item of a finding is its entry. -/
theorem ofItem_acceptItem {item : Json Empty} (written : acceptItem lib reason finding = .ok item) :
    ∃ entry, AcceptEntry.ofItem (item.map Empty.elim) = .ok entry ∧
      WrittenFor lib reason finding entry := by
  obtain ⟨hash, hashed, rfl⟩ := acceptItem_eq_ok.mp written
  exact ⟨_, rfl, hash, hashed, rfl⟩

theorem ofItem_acceptItems {items : List (Json Empty)}
    (written : List.Forall₂ (fun finding item => acceptItem lib reason finding = .ok item) findings
      items) :
    ∃ entries, (items.map fun item => item.map Empty.elim).mapM AcceptEntry.ofItem = .ok entries ∧
      List.Forall₂ (WrittenFor lib reason) findings entries := by
  induction written with
  | nil => exact ⟨[], rfl, .nil⟩
  | cons wrote _ ih =>
      obtain ⟨entry, taken, writtenFor⟩ := ofItem_acceptItem wrote
      obtain ⟨entries, others, related⟩ := ih
      rw [mapM_eq_ok] at others
      exact ⟨entry :: entries, mapM_eq_ok.mpr (.cons taken others), .cons writtenFor related⟩

theorem acceptItem_distinct {item : Json Empty} (written : acceptItem lib reason finding = .ok item) :
    item.Distinct := by
  obtain ⟨hash, -, rfl⟩ := acceptItem_eq_ok.mp written
  rw [Json.Distinct, Json.namesPairwise_obj]
  refine ⟨by simp, ?_⟩
  intro member present
  simp only [List.mem_cons, List.not_mem_nil, or_false] at present
  obtain rfl | rfl | rfl | rfl | rfl | rfl := present <;> trivial

/-- A file holds the entries of the findings it was saved for. -/
theorem load_saved {text : List Char} (saved : saveAcceptFile lib findings reason = .ok text) :
    ∃ entries, loadAcceptFile text = .ok entries ∧
      List.Forall₂ (WrittenFor lib reason) findings entries := by
  obtain ⟨items, written, saved⟩ := bind_eq_ok.mp saved
  rw [mapM_eq_ok] at written
  have distinct : (Json.obj [("accepted", Json.arr items)]).Distinct := by
    rw [Json.Distinct, Json.namesPairwise_obj]
    refine ⟨by simp, ?_⟩
    intro member present
    rw [List.mem_singleton.mp present, Json.namesPairwise_arr]
    intro item among
    obtain ⟨finding, -, wrote⟩ := forall₂_exists_left written among
    exact acceptItem_distinct wrote
  obtain ⟨entries, read, related⟩ := ofItem_acceptItems written
  refine ⟨entries, ?_, related⟩
  rw [loadAcceptFile, ← Except.ok.inj saved, loads_dumpsIndented distinct]
  simp only [Json.map, Json.mapMembers, Json.mapElements_eq]
  exact read

theorem saveAcceptFile_ok_iff :
    (∃ text, saveAcceptFile lib findings reason = .ok text) ↔
      ∀ finding ∈ findings, Hashable finding.after := by
  constructor
  · intro saved finding present
    obtain ⟨text, saved⟩ := saved
    obtain ⟨entries, -, related⟩ := load_saved saved
    obtain ⟨entry, -, hash, hashed, -⟩ := forall₂_exists_right related present
    exact findingAfterHash_ok_iff.mp ⟨hash, hashed⟩
  · intro hashable
    have written : ∃ items, List.Forall₂ (fun finding item =>
        acceptItem lib reason finding = .ok item) findings items := by
      apply exists_forall₂
      intro finding present
      obtain ⟨hash, hashed⟩ := findingAfterHash_ok_iff.mpr (hashable finding present)
      exact ⟨_, acceptItem_eq_ok.mpr ⟨hash, hashed, rfl⟩⟩
    obtain ⟨items, written⟩ := written
    exact ⟨_, bind_eq_ok.mpr ⟨items, mapM_eq_ok.mpr written, rfl⟩⟩

/-! ## Matching -/

/-- An entry that was saved matches what has its tool, rule, path and hash. -/
theorem matchesFinding_written {other : Finding} {entry : AcceptEntry} {hash : String}
    (writtenFor : WrittenFor lib reason finding entry)
    (hashed : findingAfterHash lib other = .ok hash) (today : Nat) :
    entry.matchesFinding lib other today = .ok (decide
      (other.tool.getD "" = finding.tool.getD "" ∧ other.ruleId = finding.ruleId ∧
        other.path = finding.path ∧ findingAfterHash lib finding = .ok hash)) := by
  obtain ⟨own, ownHashed, rfl⟩ := writtenFor
  rw [AcceptEntry.matchesFinding, AcceptEntry.ofFinding, ownHashed, hashed]
  by_cases named : other.tool.getD "" = finding.tool.getD "" ∧ other.ruleId = finding.ruleId ∧
      other.path = finding.path
  · obtain ⟨tool, rule, path⟩ := named
    rw [tool, rule, path, if_neg (not_not_intro rfl), bind_eq_ok]
    refine ⟨hash, rfl, ?_⟩
    by_cases same : own = hash
    · simp [same, truthy]
    · simp [same, Ne.symm same]
  · have apart : (Json.str (other.tool.getD ""), Json.str other.ruleId, Json.str other.path) ≠
        ((Json.str (finding.tool.getD ""), Json.str finding.ruleId, Json.str finding.path) :
          PyJson × PyJson × PyJson) := by
      simpa using named
    rw [if_pos apart, Except.ok.injEq, eq_comm, decide_eq_false_iff_not]
    intro all
    exact named ⟨all.1, all.2.1, all.2.2.1⟩

/-- Where all entries can be compared and one matches, there is a first one that does. -/
theorem firstMatching_some {today : Nat} {entries : List AcceptEntry}
    (compared : ∀ entry ∈ entries, ∃ answer, entry.matchesFinding lib finding today = .ok answer)
    (found : ∃ entry ∈ entries, entry.matchesFinding lib finding today = .ok true) :
    ∃ entry, firstMatching lib finding today entries = .ok (some entry) := by
  induction entries with
  | nil =>
      obtain ⟨entry, absent, -⟩ := found
      exact absurd absent List.not_mem_nil
  | cons entry entries ih =>
      rw [List.forall_mem_cons] at compared
      obtain ⟨⟨answer, answered⟩, compared⟩ := compared
      rw [firstMatching, answered]
      cases answer with
      | true => exact ⟨entry, rfl⟩
      | false =>
          refine ih compared ?_
          obtain ⟨other, present, matched⟩ := found
          obtain same | later := List.mem_cons.mp present
          · rw [same, answered] at matched
            cases matched
          · exact ⟨other, later, matched⟩

/-- Where every finding that fails has an entry, all of them are accepted. -/
theorem separate_accepted {failOn : List Severity} {entries : List AcceptEntry} {today : Nat}
    (found : ∀ finding ∈ findings,
      ∃ entry, firstMatching lib finding today entries = .ok (some entry)) :
    separate lib failOn entries today findings =
      .ok ([], findings.filter fun finding => finding.severity ∈ failOn) := by
  induction findings with
  | nil => rfl
  | cons finding findings ih =>
      rw [List.forall_mem_cons] at found
      obtain ⟨⟨entry, first⟩, found⟩ := found
      by_cases fails : finding.severity ∈ failOn
      · rw [separate, if_neg (not_not_intro fails), first, ih found,
          List.filter_cons_of_pos (by simpa using fails)]
        rfl
      · rw [separate, if_pos fails, ih found, List.filter_cons_of_neg (by simpa using fails)]

end Accepting

/-! ## Accepting a report -/

/-- Saving the findings, loading the file and evaluating them raises nothing; the report passes,
nothing blocks and the findings that fail are accepted, in order. -/
def AcceptingPasses (lib : Library) (findings : List Finding) (reason : String)
    (failOn : List Severity) (today : Nat) : Prop :=
  ∃ text entries result, saveAcceptFile lib findings reason = .ok text ∧
    loadAcceptFile text = .ok entries ∧ evaluate lib findings failOn entries today = .ok result ∧
    result.passed = true ∧ result.blocking = [] ∧
    result.accepted = findings.filter fun finding => finding.severity ∈ failOn

/-- **Accepting a report makes it pass** exactly if `canonical_json` writes every `after`, or
raises a `TypeError` for it. -/
theorem accepting_passes_iff (lib : Library) (findings : List Finding) (reason : String)
    (failOn : List Severity) (today : Nat) :
    AcceptingPasses lib findings reason failOn today ↔
      ∀ finding ∈ findings, Hashable finding.after := by
  constructor
  · intro passes
    obtain ⟨text, entries, result, saved, -⟩ := passes
    exact saveAcceptFile_ok_iff.mp ⟨text, saved⟩
  · intro hashable
    obtain ⟨text, saved⟩ := saveAcceptFile_ok_iff.mpr hashable
    obtain ⟨entries, loaded, related⟩ := load_saved saved
    have found : ∀ finding ∈ findings,
        ∃ entry, firstMatching lib finding today entries = .ok (some entry) := by
      intro finding present
      obtain ⟨hash, hashed⟩ := findingAfterHash_ok_iff.mpr (hashable finding present)
      apply firstMatching_some
      · intro entry among
        obtain ⟨other, -, writtenFor⟩ := forall₂_exists_left related among
        exact ⟨_, matchesFinding_written writtenFor hashed today⟩
      · obtain ⟨entry, among, writtenFor⟩ := forall₂_exists_right related present
        refine ⟨entry, among, ?_⟩
        rw [matchesFinding_written writtenFor hashed today]
        simpa using hashed
    refine ⟨text, entries, _, saved, loaded, bind_eq_ok.mpr ⟨_, separate_accepted found, rfl⟩, rfl,
      rfl, rfl⟩

/-- A library that hashes every text alike. -/
def plainLibrary : Library where
  sha _ := "0"
  repr _ := "nan"
  fromIsoFormat _ := .error (.valueError "Invalid isoformat string")

/-- A default that is `NaN`, as `json.loads` reads one. -/
def defaultedToNan : Finding where
  severity := .warn
  ruleId := "DEFAULT_CHANGED"
  path := "/inputSchema/properties/x/default"
  message := "default changed from None to nan"
  tool := some "t"
  after := .num .nan

/-- The entry of a finding whose `after` is `NaN` cannot be saved. -/
theorem accepting_raises :
    ¬ ∀ (lib : Library) (findings : List Finding) (reason : String) (failOn : List Severity)
      (today : Nat), failOn ≠ [] → AcceptingPasses lib findings reason failOn today := by
  intro passes
  obtain ⟨text, -, -, saved, -⟩ :=
    passes plainLibrary [defaultedToNan] "" defaultFailOn 0 (List.cons_ne_nil _ _)
  cases saved

end Gate

end Harness
