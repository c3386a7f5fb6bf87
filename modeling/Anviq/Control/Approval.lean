import Anviq.Control.Steps

/-! # Approval and quarantine

The quarantine set holds what the last locked sections about a tool made of it: a verdict on
a hash that is not the approved one puts the tool in, an approval takes it out, and a call for
the approved hash that comes late does not put it back.
-/

namespace Control

open Harness (PyError PyJson)

variable {Call : Type} [DecidableEq Call] {settings : Settings} {requests : Call → ChangeRequest}
  {service next : ControlService Call} {event : Event Call} {key : ToolKey}

/-- The tool an event approves a hash of, and the hash. -/
def Event.approval? : Event Call → Option (ToolKey × String)
  | .approve payload _ =>
      (parseApproval payload).toOption.map fun approval => (approval.key, approval.defHash)
  | _ => none

/-- A call about the tool enters its second locked section with the verdict to quarantine it,
and the hash it recomputed is not the approved one. -/
def Quarantines (settings : Settings) (requests : Call → ChangeRequest)
    (service : ControlService Call) (call : Call) (key : ToolKey) : Prop :=
  ∃ hashes analysis cacheHit, service.stage call = .analysed hashes analysis cacheHit ∧
    computeHashes settings.lib settings.sha (requests call) = .ok hashes ∧
    (requests call).key = key ∧ verdictOn settings (requests call) analysis = .quarantine ∧
    service.isApproved key hashes.2 = false

/-- The hash approved for a tool. -/
def ControlService.approvedHash? (service : ControlService Call) (key : ToolKey) : Option String :=
  (service.approved.get? key).map Baseline.approvedHash

omit [DecidableEq Call] in
theorem isApproved_eq_true {newHash : String} :
    service.isApproved key newHash = true ↔ service.approvedHash? key = some newHash := by
  unfold ControlService.isApproved ControlService.approvedHash?
  cases service.approved.get? key with
  | none => simp
  | some baseline => simp

/-! ## One step -/

/-- The event lets a call put the tool in quarantine. -/
def Enters (settings : Settings) (requests : Call → ChangeRequest)
    (service : ControlService Call) (event : Event Call) (key : ToolKey) : Prop :=
  ∃ call, event = .turn call ∧ Quarantines settings requests service call key

omit [DecidableEq Call] in
/-- A call that is not at its second locked section puts nothing in quarantine. -/
theorem not_enters {call : Call} {stage : Stage} (at' : service.stage call = stage)
    (elsewhere : ∀ hashes analysis cacheHit, stage ≠ .analysed hashes analysis cacheHit) :
    ¬ Enters settings requests service (.turn call) key := by
  intro enters
  obtain ⟨other, same, hashes, analysis, cacheHit, analysed, -⟩ := enters
  cases same
  exact elsewhere hashes analysis cacheHit (at'.symm.trans analysed)

omit [DecidableEq Call] in
/-- A step that is no approval and puts the tool nowhere leaves it where it is. -/
theorem quarantine_kept (unapproving : event.approval? = none)
    (outside : ¬ Enters settings requests service event key)
    (same : next.quarantine = service.quarantine) :
    key ∈ next.quarantine ↔ (∀ hash, event.approval? ≠ some (key, hash)) ∧
      (key ∈ service.quarantine ∨ Enters settings requests service event key) := by
  simp [unapproving, outside, same]

/-- What a step makes of the quarantine of a tool. -/
theorem quarantine_step (honest : Honest settings requests service)
    (handled : service.handle settings requests event = some next) :
    key ∈ next.quarantine ↔ (∀ hash, event.approval? ≠ some (key, hash)) ∧
      (key ∈ service.quarantine ∨ Enters settings requests service event key) := by
  cases handle_move handled with
  | unhashed at' _ => exact quarantine_kept rfl (not_enters at' (by simp)) rfl
  | approvedFirst _ at' _ _ => exact quarantine_kept rfl (not_enters at' (by simp)) rfl
  | unapproved _ at' _ _ => exact quarantine_kept rfl (not_enters at' (by simp)) rfl
  | owns _ at' _ _ => exact quarantine_kept rfl (not_enters at' (by simp)) rfl
  | breaks _ at' _ _ => exact quarantine_kept rfl (not_enters at' (by simp)) rfl
  | joins _ at' _ => exact quarantine_kept rfl (not_enters at' (by simp)) rfl
  | succeeds at' _ => exact quarantine_kept rfl (not_enters at' (by simp)) rfl
  | fails at' about =>
      obtain rfl | rfl := about
      · exact quarantine_kept rfl (not_enters at' (by simp)) rfl
      · exact quarantine_kept rfl (by simp [Enters]) rfl
  | reports at' => exact quarantine_kept rfl (not_enters at' (by simp)) rfl
  | shares at' _ => exact quarantine_kept rfl (not_enters at' (by simp)) rfl
  | sharesError at' _ => exact quarantine_kept rfl (not_enters at' (by simp)) rfl
  | @approvedSince call hashes analysis cacheHit _ at' approved =>
      refine quarantine_kept rfl ?_ rfl
      intro enters
      obtain ⟨other, same, hashes', analysis', cacheHit', analysed, -, about, -, apart⟩ := enters
      cases same
      cases at'.symm.trans analysed
      rw [← about, approved] at apart
      cases apart
  | @answers call hashes analysis cacheHit at' approved =>
      have hashed : computeHashes settings.lib settings.sha (requests call) = .ok hashes := by
        apply honest
        rw [at']
        rfl
      have enters : Enters settings requests service (.turn call) key ↔
          (requests call).key = key ∧
            verdictOn settings (requests call) analysis = .quarantine := by
        constructor
        · intro enters
          obtain ⟨other, same, _, _, _, analysed, -, about, verdict, -⟩ := enters
          cases same
          cases at'.symm.trans analysed
          exact ⟨about, verdict⟩
        · intro entered
          obtain ⟨rfl, verdict⟩ := entered
          exact ⟨call, rfl, hashes, analysis, cacheHit, at', hashed, rfl, verdict, approved⟩
      rw [enters]
      simp only [ControlService.goto_quarantine, Event.approval?, reduceCtorEq, ne_eq,
        not_false_eq_true, implies_true, true_and]
      split
      · next verdict =>
          rw [List.mem_insert_iff]
          simp [verdict, or_comm, eq_comm]
      · next verdict => simp [verdict]
  | @refused payload now error parsed =>
      have unapproving : (Event.approve payload now : Event Call).approval? = none := by
        simp [Event.approval?, parsed, Except.toOption]
      exact quarantine_kept unapproving (by simp [Enters]) rfl
  | @approves payload now approval parsed =>
      have approval? : (Event.approve payload now : Event Call).approval? =
          some (approval.key, approval.defHash) := by
        simp [Event.approval?, parsed, Except.toOption]
      rw [approval?]
      simp only [ControlService.setBaseline, List.mem_filter, Enters, reduceCtorEq, false_and,
        exists_false, or_false, decide_eq_true_eq]
      constructor
      · intro present
        exact ⟨by simpa [eq_comm] using present.2, present.1⟩
      · intro present
        exact ⟨present.2, by simpa [eq_comm] using present.1⟩

/-- A call whose hash is not the approved one is answered with its verdict. -/
theorem turn_unapproved {call : Call} {hashes : HashPair} {analysis : Analysis} {cacheHit : Bool}
    (at' : service.stage call = .analysed hashes analysis cacheHit)
    (unapproved : service.isApproved (requests call).key hashes.2 = false) :
    ∃ next body, service.turn settings requests call = some next ∧
      next.stage call = .returned body ∧
      body.verdict = verdictOn settings (requests call) analysis := by
  have turn : service.turn settings requests call =
      some (service.secondSection settings requests call hashes analysis cacheHit) := by
    unfold ControlService.turn
    rw [at']
  let risk := settings.policy.riskClass (requests call).server (requests call).tool
    (requests call).newDef
  refine ⟨_, body (verdictOn settings (requests call) analysis) (reason analysis risk)
    analysis.findings (some analysis.severity) (some risk) cacheHit
    (checkHashes (requests call) hashes), turn, ?_, rfl⟩
  unfold ControlService.secondSection
  dsimp only
  rw [if_neg (by rw [unapproved]; exact Bool.false_ne_true)]
  exact ControlService.goto_stage ..

/-- Only an approval approves. -/
theorem approved_kept (handled : service.handle settings requests event = some next)
    (unapproving : ∀ payload now, event ≠ .approve payload now) :
    next.approved = service.approved := by
  cases handle_move handled with
  | refused _ => rfl
  | approves _ => exact absurd rfl (unapproving _ _)
  | _ => rfl

/-- What a step makes of the hash approved for a tool. -/
theorem approved_step (key : ToolKey)
    (handled : service.handle settings requests event = some next) :
    (∃ hash, event.approval? = some (key, hash) ∧ next.approvedHash? key = some hash) ∨
      ((∀ hash, event.approval? ≠ some (key, hash)) ∧
        next.approvedHash? key = service.approvedHash? key) := by
  have kept (unapproving : ∀ payload now, event ≠ .approve payload now) :
      next.approvedHash? key = service.approvedHash? key := by
    unfold ControlService.approvedHash?
    rw [approved_kept handled unapproving]
  cases event with
  | turn call => exact Or.inr ⟨by simp [Event.approval?], kept (by simp)⟩
  | failure call error => exact Or.inr ⟨by simp [Event.approval?], kept (by simp)⟩
  | approve payload now =>
      cases handle_move handled with
      | fails _ about => simp at about
      | refused parsed =>
          exact Or.inr ⟨by simp [Event.approval?, parsed, Except.toOption], rfl⟩
      | @approves _ _ approval parsed =>
          by_cases same : approval.key = key
          · refine Or.inl ⟨approval.defHash, ?_, ?_⟩
            · simp [Event.approval?, parsed, Except.toOption, same]
            · simp [ControlService.approvedHash?, ControlService.setBaseline, Dict.get?_assign, same]
          · refine Or.inr ⟨?_, ?_⟩
            · simp [Event.approval?, parsed, Except.toOption, same]
            · simp [ControlService.approvedHash?, ControlService.setBaseline, Dict.get?_assign,
                Ne.symm same]

/-! ## Runs -/

/-- An approval of the tool came and none of another hash since. -/
def ApprovedIn (events : List (Event Call)) (key : ToolKey) (hash : String) : Prop :=
  ∃ earlier approval later, events = earlier ++ approval :: later ∧
    approval.approval? = some (key, hash) ∧
    ∀ event ∈ later, ∀ other, event.approval? = some (key, other) → other = hash

/-- The approved hash is the one of the last approval. -/
theorem approved_run {events : List (Event Call)} {hash : String}
    (run : (controlMachine settings requests).Run events service)
    (approved : ApprovedIn events key hash) : service.approvedHash? key = some hash := by
  refine run.invariant (P := fun events service => ApprovedIn events key hash →
    service.approvedHash? key = some hash) ?_ ?_ approved
  · intro service _ approved
    obtain ⟨earlier, approval, later, none, -⟩ := approved
    simp at none
  · intro events service event next ih handled approved
    obtain ⟨earlier, approval, later, split, approves, since⟩ := approved
    obtain ⟨rfl, rfl, rfl⟩ | ⟨between, rfl, rfl⟩ := concat_eq_append_cons.mp split
    · obtain ⟨other, approval?, same⟩ | ⟨unapproving, -⟩ := approved_step key handled
      · rw [approves] at approval?
        cases approval?
        exact same
      · exact absurd approves (unapproving hash)
    · have before : service.approvedHash? key = some hash := by
        apply ih
        refine ⟨earlier, approval, between, rfl, approves, ?_⟩
        intro event present
        exact since event (List.mem_append_left _ present)
      obtain ⟨other, approval?, same⟩ | ⟨-, same⟩ := approved_step key handled
      · rw [same, since event (by simp) other approval?]
      · rw [same, before]

/-- What a run makes of the quarantine of a tool. -/
theorem quarantine_run {events : List (Event Call)}
    (run : (controlMachine settings requests).Run events service) :
    key ∈ service.quarantine ↔ ∃ earlier call later moment,
      events = earlier ++ .turn call :: later ∧
      (controlMachine settings requests).Run earlier moment ∧
      Quarantines settings requests moment call key ∧
      ∀ event ∈ later, ∀ hash, event.approval? ≠ some (key, hash) := by
  induction run with
  | @start service begins =>
      rw [begins]
      simp
  | @concat events service next event run handled ih =>
      rw [quarantine_step (run_honest run) handled, ih]
      constructor
      · intro entered
        obtain ⟨unapproving, ⟨earlier, call, later, moment, split, before, quarantines, since⟩ |
          ⟨call, about, quarantines⟩⟩ := entered
        · refine ⟨earlier, call, later ++ [event], moment, ?_, before, quarantines, ?_⟩
          · rw [split, List.append_assoc, List.cons_append]
          · intro other present
            obtain earlier | last := List.mem_append.mp present
            · exact since other earlier
            · rw [List.mem_singleton.mp last]
              exact unapproving
        · exact ⟨events, call, [], service, by rw [about], run, quarantines, by simp⟩
      · intro entered
        obtain ⟨earlier, call, later, moment, split, before, quarantines, since⟩ := entered
        obtain ⟨rfl, rfl, rfl⟩ | ⟨between, rfl, rfl⟩ := concat_eq_append_cons.mp split
        · have same : moment = service := run_deterministic before run
          subst same
          exact ⟨by simp [Event.approval?], Or.inr ⟨call, rfl, quarantines⟩⟩
        · refine ⟨since event (by simp), Or.inl ⟨earlier, call, between, moment, rfl, before,
            quarantines, ?_⟩⟩
          intro other present
          exact since other (List.mem_append_left _ present)

/-- **Approval and quarantine linearise.** A tool is in quarantine exactly when a call about it
reached its second locked section with that verdict and a hash that was not the approved one,
and no approval came since. After an approval, and until one of another hash, no call for the
approved hash that reaches its second locked section adds to the quarantine or answers
anything but `resume`. -/
theorem approval_linearises {events : List (Event Call)}
    (run : (controlMachine settings requests).Run events service) (key : ToolKey) :
    (key ∈ service.quarantine ↔ ∃ earlier call later moment,
      events = earlier ++ .turn call :: later ∧
      (controlMachine settings requests).Run earlier moment ∧
      Quarantines settings requests moment call key ∧
      ∀ event ∈ later, ∀ hash, event.approval? ≠ some (key, hash)) ∧
    ∀ hash, ApprovedIn events key hash → ∀ call hashes analysis cacheHit,
      (requests call).key = key →
      computeHashes settings.lib settings.sha (requests call) = .ok hashes → hashes.2 = hash →
      ∀ carried, service.stage call = .analysed carried analysis cacheHit →
        ∃ next body, service.turn settings requests call = some next ∧
          next.quarantine = service.quarantine ∧ next.stage call = .returned body ∧
          body.verdict = .resume := by
  refine ⟨quarantine_run run, ?_⟩
  intro hash approvedIn call hashes analysis cacheHit about hashed same carried at'
  have honest : computeHashes settings.lib settings.sha (requests call) = .ok carried :=
    run_honest run call carried (by rw [at']; rfl)
  rw [hashed] at honest
  cases honest
  have approved : service.isApproved (requests call).key hashes.2 = true := by
    rw [isApproved_eq_true, about, same]
    exact approved_run run approvedIn
  refine ⟨service.secondSection settings requests call hashes analysis cacheHit,
    approvedBody (checkHashes (requests call) hashes), ?_, ?_, ?_, rfl⟩
  · unfold ControlService.turn
    rw [at']
  · unfold ControlService.secondSection
    dsimp only
    rw [if_pos approved]
    rfl
  · unfold ControlService.secondSection
    dsimp only
    rw [if_pos approved]
    exact ControlService.goto_stage ..

/-- A service whose differ finds a change of description suspicious. -/
def drill : Settings where
  lib := Harness.Diff.plainLib
  sha := fun text => String.ofList (List.replicate 64 (Nat.digitChar (text.length % 16)))
  policy := .default
  diffFn := fun tool _ _ => .ok [
    { severity := .security, ruleId := "DESC_CHANGED", path := "/description"
      message := "changed", tool := some tool }]
  cacheSize := 4096

/-- A new description of a tool. -/
def drillRequest : ChangeRequest where
  server := "fs"
  tool := "read_file"
  sessionId := ""
  oldHash := ""
  newHash := ""
  oldDef := [("name", .str "read_file"), ("description", .str "Reads a file.")]
  newDef := [("name", .str "read_file"), ("description", .str "Reads any file.")]

/-- An operator approves the new definition while its report is being analysed. -/
def drillEvents : List (Event Unit) :=
  [.turn (), .turn (), .turn (),
    .approve (.obj [("server", .str "fs"), ("tool", .str "read_file"),
      ("def_hash", .str ("sha256:" ++ String.ofList (List.replicate 64 '5')))]) "now"]

/-- A report that is judged after the approval of its hash is answered with `resume`. -/
theorem approval_linearises_lateReport :
    ∃ service, (controlMachine drill fun _ => drillRequest).Run drillEvents service ∧
      ∃ next body, service.turn drill (fun _ => drillRequest) () = some next ∧
        next.quarantine = service.quarantine ∧ next.stage () = .returned body ∧
        body.verdict = .resume := by
  have hashed : computeHashes drill.lib drill.sha drillRequest =
      .ok ("sha256:" ++ String.ofList (List.replicate 64 '3'),
        "sha256:" ++ String.ofList (List.replicate 64 '5')) := by decide +kernel
  have waits : (Machine.follow (ControlService.handle drill fun _ => drillRequest) drillEvents
      {}).map (fun service => service.stage ()) = some (.analysed
        ("sha256:" ++ String.ofList (List.replicate 64 '3'),
          "sha256:" ++ String.ofList (List.replicate 64 '5'))
        { findings := [
            { severity := .security, ruleId := "DESC_CHANGED", path := "/description"
              message := "changed", tool := some "read_file" }]
          severity := .security } false) := by decide +kernel
  obtain ⟨service, leads, at'⟩ := Option.map_eq_some_iff.mp waits
  have run : (controlMachine drill fun _ => drillRequest).Run drillEvents service :=
    Machine.Run.follow (fun _ _ _ => id) (.start rfl) leads
  have approvedIn : ApprovedIn drillEvents ("fs", "read_file")
      ("sha256:" ++ String.ofList (List.replicate 64 '5')) :=
    ⟨[.turn (), .turn (), .turn ()], _, [], rfl, by decide +kernel, by simp⟩
  exact ⟨service, run, (approval_linearises run ("fs", "read_file")).2 _ approvedIn () _ _ _ rfl
    hashed rfl _ at'⟩

end Control
