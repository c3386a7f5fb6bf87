import Anviq.Diff.Report
import Anviq.Harness.Definitions
import Anviq.Harness.Gate

/-! # What an acceptance covers

An entry of an accept file keeps the tool, the rule and the path of a finding and a hash of its
`after`. A finding it suppresses agrees with the one it was written for in all of these, and is
about the same place of a definition unless the name of a property has a `/` in it. The server is
not kept: an entry covers the same change to a tool of that name on another server.
-/

namespace Harness

/-! ## Distinct names -/

/-- What `json.loads` reads repeats no name. -/
theorem loads_distinct {text : String} {value : PyJson} (read : loads text = some value) :
    value.Distinct := by
  obtain ⟨tree, -, rfl⟩ := Option.map_eq_some_iff.mp read
  exact Json.collapse_distinct _

/-- No event repeats a name. -/
def Recording.Distinct (recording : Recording) : Prop :=
  ∀ event ∈ recording.events, (Json.obj event).Distinct

theorem readLines_distinct (line : Nat) (lines : List (List Char)) :
    ∀ event ∈ (readLines line lines).2, (Json.obj event).Distinct := by
  induction lines generalizing line with
  | nil =>
      intro event absent
      exact absurd absent List.not_mem_nil
  | cons raw lines ih =>
      intro event present
      have rest := ih (line + 1)
      rcases found : readLines (line + 1) lines with ⟨problems, events⟩
      rw [found] at rest
      rw [readLines, found] at present
      dsimp only at present
      split at present
      · exact rest event present
      · split at present
        · exact rest event present
        · next read =>
            obtain rfl | later := List.mem_cons.mp present
            · exact loads_distinct read
            · exact rest event later
        · exact rest event present

/-- The events `load` reads repeat no name, which a report takes for granted. -/
theorem load_distinct (sha : String → String) (text : String) : (load sha text).Distinct :=
  readLines_distinct 1 (splitlines text.toList)

namespace Diff

theorem indexEvent_distinct {index : Index} {event : PyDict} (distinct : (Json.obj event).Distinct)
    (tools : DistinctTools index) : DistinctTools (indexEvent index event) := by
  unfold indexEvent
  split
  · split
    · intro key version seen
      dsimp only at seen
      rw [Dict.get?_assign] at seen
      split at seen
      · obtain old | new := List.mem_append.mp seen
        · exact tools _ version old
        · rw [List.mem_singleton.mp new]
          exact members_distinct (Json.getD_distinct distinct _ empty_distinct)
      · exact tools key version seen
    · exact tools
    · split
      · exact tools
      · exact tools
    · exact tools
  · exact tools

/-- No definition of a recording repeats a name. -/
theorem distinctTools_of_distinct {recording : Recording} (distinct : recording.Distinct) :
    DistinctTools recording.index := by
  have step (events : List PyDict) : ∀ {index : Index},
      (∀ event ∈ events, (Json.obj event).Distinct) → DistinctTools index →
        DistinctTools (events.foldl indexEvent index) := by
    induction events with
    | nil => exact fun _ tools => tools
    | cons event events ih =>
        intro index distinct tools
        rw [List.forall_mem_cons] at distinct
        exact ih distinct.2 (indexEvent_distinct distinct.1 tools)
  exact step recording.events distinct fun key version absent => absurd absent List.not_mem_nil

end Diff

namespace Gate

open Diff (Location Arises Severity)

/-! ## Reports -/

/-- A finding of the differ as the gate takes it. -/
def Finding.ofReport (finding : Diff.Finding) : Finding where
  severity := finding.severity
  ruleId := finding.ruleId
  path := finding.path
  message := finding.message
  tool := finding.tool
  before := .ofJson finding.before
  after := .ofJson finding.after

/-- A report `diff_recordings` produced. -/
structure Report where
  lib : Diff.Stdlib
  floats : Diff.Floats
  options : Diff.BehaviorOptions
  baseline : Recording
  current : Recording
  distinct : current.Distinct
  findings : List Diff.Finding
  produced : Diff.diffRecordings lib floats options baseline current = .ok findings

/-- The finding of the report is about this place of the tool of the server. -/
def Report.Concerns (report : Report) (key : String × String) (location : Location)
    (finding : Diff.Finding) : Prop :=
  ∃ keys, Diff.allKeys report.baseline.index report.current.index = .ok keys ∧ key ∈ keys ∧
    Arises report.lib report.floats report.options report.baseline.index report.current.index keys
      key location finding

section Concerns

variable {report : Report} {key : String × String} {location : Location} {finding : Diff.Finding}

/-- Every finding of a report is about a place. -/
theorem Report.concerns (among : finding ∈ report.findings) :
    ∃ key location, report.Concerns key location finding := by
  obtain ⟨keys, key, keysOk, present, foundFor⟩ := Diff.mem_diffRecordings report.produced among
  obtain ⟨location, arises⟩ := foundFor.arises
  exact ⟨key, location, keys, keysOk, present, arises⟩

theorem Report.Concerns.about (concerns : report.Concerns key location finding) :
    Diff.About key.2 location finding := by
  obtain ⟨keys, -, -, arises⟩ := concerns
  exact arises.about

theorem Report.Concerns.distinct (concerns : report.Concerns key location finding) :
    finding.after.Distinct := by
  obtain ⟨keys, -, -, arises⟩ := concerns
  exact arises.distinct (Diff.distinctTools_of_distinct report.distinct)

end Concerns

/-! ## Entries -/

/-- The entry was loaded from a file that was saved, where it stands for the finding. -/
def Written (lib : Library) (finding : Finding) (entry : AcceptEntry) : Prop :=
  ∃ (saved : List Finding) (reason : String) (text : List Char) (entries : List AcceptEntry)
    (position : Nat), saveAcceptFile lib saved reason = .ok text ∧
    loadAcceptFile text = .ok entries ∧ saved[position]? = some finding ∧
    entries[position]? = some entry

/-- `evaluate` finds a finding that fails accepted by the entry. -/
structure Suppresses (lib : Library) (failOn : List Severity) (entries : List AcceptEntry)
    (today : Nat) (entry : AcceptEntry) (finding : Finding) : Prop where
  fails : finding.severity ∈ failOn
  first : firstMatching lib finding today entries = .ok (some entry)

section Entries

variable {lib : Library} {finding other : Finding} {entry : AcceptEntry}

theorem Written.writtenFor (written : Written lib finding entry) :
    ∃ reason, WrittenFor lib reason finding entry := by
  obtain ⟨saved, reason, text, entries, position, savedOk, loaded, there, read⟩ := written
  obtain ⟨others, loaded', related⟩ := load_saved savedOk
  cases loaded.symm.trans loaded'
  obtain ⟨inside, rfl⟩ := List.getElem?_eq_some_iff.mp there
  obtain ⟨inside', rfl⟩ := List.getElem?_eq_some_iff.mp read
  exact ⟨reason, related.get inside inside'⟩

/-- The first entry that matches does match. -/
theorem matches_of_firstMatching {today : Nat} {entries : List AcceptEntry}
    (first : firstMatching lib finding today entries = .ok (some entry)) :
    entry.matchesFinding lib finding today = .ok true := by
  induction entries with
  | nil => cases first
  | cons head entries ih =>
      obtain ⟨answer, answered, next⟩ := bind_eq_ok.mp first
      cases answer with
      | true =>
          cases next
          exact answered
      | false => exact ih next

/-- The hash of a JSON value is that of its canonical text. -/
theorem findingAfterHash_ofReport {finding : Diff.Finding} {hash : String}
    (hashed : findingAfterHash lib (.ofReport finding) = .ok hash) :
    ∃ text, canonicalJson finding.after = .ok text ∧
      hash = "sha256:" ++ lib.sha (String.ofList text) := by
  have read := PyValue.json?_ofJson finding.after
  cases written : canonicalValue (PyValue.ofJson finding.after) with
  | error error =>
      obtain ⟨message, rfl⟩ := valueError_of_json read written
      rw [findingAfterHash, Finding.ofReport, valueHash_of_refused written] at hashed
      cases hashed
  | ok text =>
      rw [findingAfterHash, Finding.ofReport, valueHash_of_written written] at hashed
      cases hashed
      obtain ⟨json, again, wrote⟩ := (canonicalValue_eq_ok _ _).mp written
      cases again.symm.trans read
      exact ⟨text, wrote, rfl⟩

/-- The entry of a finding is in the file that is saved for it. -/
theorem written_of_hashed {hash : String} (hashed : findingAfterHash lib finding = .ok hash)
    (reason : String) : Written lib finding (.ofFinding finding hash reason) := by
  have saved : ∃ text, saveAcceptFile lib [finding] reason = .ok text := by
    rw [saveAcceptFile_ok_iff, List.forall_mem_singleton]
    exact findingAfterHash_ok_iff.mp ⟨hash, hashed⟩
  obtain ⟨text, saved⟩ := saved
  obtain ⟨entries, loaded, related⟩ := load_saved saved
  cases related with
  | cons writtenFor rest =>
      obtain ⟨own, ownHashed, rfl⟩ := writtenFor
      cases hashed.symm.trans ownHashed
      exact ⟨_, reason, text, _, 0, saved, loaded, rfl, rfl⟩

/-- An entry suppresses every finding that has what it keeps. -/
theorem suppresses_of_alike {failOn : List Severity} {hash reason : String} (today : Nat)
    (fails : other.severity ∈ failOn) (hashed : findingAfterHash lib finding = .ok hash)
    (hashed' : findingAfterHash lib other = .ok hash) (tool : other.tool = finding.tool)
    (rule : other.ruleId = finding.ruleId) (path : other.path = finding.path) :
    Suppresses lib failOn [.ofFinding finding hash reason] today (.ofFinding finding hash reason)
      other := by
  refine ⟨fails, ?_⟩
  have writtenFor : WrittenFor lib reason finding (.ofFinding finding hash reason) :=
    ⟨hash, hashed, rfl⟩
  rw [firstMatching, matchesFinding_written writtenFor hashed' today, tool, rule, path, hashed,
    decide_eq_true ⟨rfl, rfl, rfl, rfl⟩]
  rfl

end Entries

/-! ## Coverage -/

/-- What a suppressed finding has in common with the accepted one. -/
structure Covers (earlier later : Report) (accepted suppressed : Diff.Finding) : Prop where
  rule : accepted.ruleId = suppressed.ruleId
  path : accepted.path = suppressed.path
  after : SameJson accepted.after suppressed.after
  placed : (∃ key location, earlier.Concerns key location accepted) ∧
    ∃ key location, later.Concerns key location suppressed
  place : ∀ key location other elsewhere, earlier.Concerns key location accepted →
    later.Concerns other elsewhere suppressed → key.2 = other.2 ∧
      (location.Plain → elsewhere.Plain → location = elsewhere)

/-- **An acceptance covers the change that was accepted**: what an entry suppresses is about the
same tool, rule and path and has the same `after`, and is about the same place unless a name on
the way to it has a `/`. -/
theorem acceptance_covers (lib : Library) (injective : Function.Injective lib.sha)
    (earlier later : Report) (accepted suppressed : Diff.Finding) (failOn : List Severity)
    (entries : List AcceptEntry) (today : Nat) (entry : AcceptEntry)
    (found : accepted ∈ earlier.findings) (again : suppressed ∈ later.findings)
    (written : Written lib (.ofReport accepted) entry)
    (suppresses : Suppresses lib failOn entries today entry (.ofReport suppressed)) :
    Covers earlier later accepted suppressed := by
  obtain ⟨key, location, concerns⟩ := Report.concerns found
  obtain ⟨other, elsewhere, concerns'⟩ := Report.concerns again
  obtain ⟨reason, writtenFor⟩ := written.writtenFor
  obtain ⟨hash, hashed, -⟩ := id writtenFor
  have matched := matches_of_firstMatching suppresses.first
  cases hashed' : findingAfterHash lib (.ofReport suppressed) with
  | error error =>
      unfold AcceptEntry.matchesFinding at matched
      rw [hashed'] at matched
      split at matched
      · cases matched
      · cases matched
  | ok hash' =>
      rw [matchesFinding_written writtenFor hashed' today, Except.ok.injEq, decide_eq_true_eq]
        at matched
      obtain ⟨tool, rule, path, same⟩ := matched
      cases hashed.symm.trans same
      obtain ⟨text, wrote, rfl⟩ := findingAfterHash_ofReport hashed
      obtain ⟨text', wrote', alike⟩ := findingAfterHash_ofReport hashed'
      have texts : text = text' := by
        have chars := congrArg String.toList alike
        rw [String.toList_append, String.toList_append, List.append_cancel_left_eq] at chars
        exact String.ofList_injective (injective (String.toList_injective chars))
      refine ⟨rule.symm, path.symm, ?_, ⟨⟨key, location, concerns⟩, other, elsewhere, concerns'⟩, ?_⟩
      · exact (canonicalJson_eq_iff concerns.distinct concerns'.distinct wrote wrote').mp texts
      · intro key location other elsewhere concerns concerns'
        have about := concerns.about
        have about' := concerns'.about
        refine ⟨?_, ?_⟩
        · have tool : suppressed.tool.getD "" = accepted.tool.getD "" := tool
          rw [about.tool, about'.tool] at tool
          exact tool.symm
        · intro plain plain'
          have path : suppressed.path = accepted.path := path
          rw [about.path, about'.path] at path
          exact Location.path_injective plain plain' path.symm

/-! ## Two servers -/

/-- A hash of the right form. -/
def plainHash : String := "sha256:" ++ String.ofList (List.replicate 64 '0')

/-- A server offers the tool `t`. -/
def offer (server : String) : PyDict :=
  [("v", .num (.int 1)), ("seq", .num (.int 0)), ("ts", .str "2026-01-01T00:00:00Z"),
    ("session_id", .str "s"), ("type", .str "tool_definition"), ("prev_hash", .null),
    ("event_hash", .str plainHash), ("server", .str server),
    ("tool", .obj [("name", .str "t"), ("inputSchema", .obj [])]), ("def_hash", .str plainHash)]

/-- A recording in which these servers offer the tool `t`. -/
def offered (servers : List String) : Recording where
  events := servers.map offer
  integrityProblems := []

/-- The arithmetic of reports without calls. -/
def plainFloats : Diff.Floats where
  quotient _ _ := .zero false
  gap _ _ := .zero false
  percent _ := "0%"

/-- The version of `t` that a server offers. -/
def offeredVersion (server : String) : ToolVersion where
  server := .str server
  name := .str "t"
  tool := [("name", .str "t"), ("inputSchema", .obj [])]
  defHash := .str plainHash
  seq := .num (.int 0)

/-- The finding that the server no longer offers `t`. -/
def lostTool (server : String) : Diff.Finding :=
  Diff.removedTool Diff.plainLib server "t" (offeredVersion server)

/-- A report that the server `a` no longer offers `t`: nothing is in the newer file. -/
def lostFirst : Report where
  lib := Diff.plainLib
  floats := plainFloats
  options := {}
  baseline := offered ["a"]
  current := load id ""
  distinct := load_distinct id ""
  findings := [lostTool "a"]
  produced := by decide +kernel

/-- A report that the server `b` no longer offers `t`. -/
def lostSecond : Report where
  lib := Diff.plainLib
  floats := plainFloats
  options := {}
  baseline := offered ["b"]
  current := load id ""
  distinct := load_distinct id ""
  findings := [lostTool "b"]
  produced := by decide +kernel

theorem lostFirst_concerns : lostFirst.Concerns ("a", "t") .tool (lostTool "a") :=
  ⟨[("a", "t")], by decide +kernel, by simp, .removed rfl⟩

theorem lostSecond_concerns : lostSecond.Concerns ("b", "t") .tool (lostTool "b") :=
  ⟨[("b", "t")], by decide +kernel, by simp, .removed rfl⟩

/-- A library whose hashes are the texts. -/
def openLibrary : Library := { plainLibrary with sha := id }

/-- The entry for the loss of `t` on the server `a`. -/
def lostEntry : AcceptEntry := .ofFinding (.ofReport (lostTool "a")) "sha256:null" ""

theorem lostTool_hash (server : String) :
    findingAfterHash openLibrary (.ofReport (lostTool server)) = .ok "sha256:null" := rfl

theorem lostEntry_written : Written openLibrary (.ofReport (lostTool "a")) lostEntry :=
  written_of_hashed (lostTool_hash "a") ""

theorem lostEntry_suppresses (server : String) :
    Suppresses openLibrary defaultFailOn [lostEntry] 0 lostEntry
      (.ofReport (lostTool server)) := by
  have fails : (Finding.ofReport (lostTool server)).severity ∈ defaultFailOn :=
    List.mem_cons_of_mem _ List.mem_cons_self
  unfold lostEntry
  apply suppresses_of_alike 0 fails (lostTool_hash "a") (lostTool_hash server)
  · simp only [Finding.ofReport, lostTool, Diff.removedTool]
  · simp only [Finding.ofReport, lostTool, Diff.removedTool]
  · simp only [Finding.ofReport, lostTool, Diff.removedTool]

/-- What is accepted of one server covers the same loss on another. -/
theorem acceptance_covers_lost : Covers lostFirst lostSecond (lostTool "a") (lostTool "b") :=
  acceptance_covers openLibrary Function.injective_id lostFirst lostSecond _ _ defaultFailOn
    [lostEntry] 0 lostEntry (List.mem_singleton_self _) (List.mem_singleton_self _)
    lostEntry_written (lostEntry_suppresses "b")

/-- The loss of a tool on one server is accepted with that of its namesake on another. -/
theorem acceptance_other_server :
    ¬ ∀ (lib : Library) (earlier later : Report) (accepted suppressed : Diff.Finding)
      (failOn : List Severity) (entries : List AcceptEntry) (today : Nat) (entry : AcceptEntry),
      Function.Injective lib.sha → accepted ∈ earlier.findings → suppressed ∈ later.findings →
      Written lib (.ofReport accepted) entry →
      Suppresses lib failOn entries today entry (.ofReport suppressed) →
      ∀ key location other elsewhere, earlier.Concerns key location accepted →
        later.Concerns other elsewhere suppressed → key = other ∧
          accepted.ruleId = suppressed.ruleId ∧ location = elsewhere ∧
            SameJson accepted.after suppressed.after := by
  intro sameConcern
  have same := (sameConcern openLibrary lostFirst lostSecond (lostTool "a") (lostTool "b")
    defaultFailOn [lostEntry] 0 lostEntry Function.injective_id (List.mem_singleton_self _)
    (List.mem_singleton_self _) lostEntry_written (lostEntry_suppresses "b") _ _ _ _
    lostFirst_concerns lostSecond_concerns).1
  exact absurd same (by simp)

end Gate

end Harness
