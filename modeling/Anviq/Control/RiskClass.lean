import Anviq.Control.VerdictCache
import Anviq.Diff.Annotations
import Anviq.Harness.CanonicalForm
import Anviq.Harness.SameEvents

/-! # Risk classes of waved-through changes

Under the default policy an answer of `resume` raises the risk class of a tool only through a
hint that stops, or starts, being a boolean. A shared answer comes from definitions with the
same hashes, and these have the same hints.
-/

namespace Control

open Canonical (normalizeMember normalizeMembers_eq normalizeOptional normalizeSchema)
open Harness (PyDict PyError PyJson SameJson bind_eq_ok canonicalJson_eq_iff getOrNone
  normalizeTool normalizedTool_distinct sha256Hex toolHash)
open Harness.Diff

/-! ## Hints -/

/-- The value of a boolean. -/
def bool? : PyJson → Option Bool
  | .bool value => some value
  | _ => none

/-- The value of a hint of a definition, if it is a boolean. -/
def hint? (toolDef : PyDict) (hint : String) : Option Bool :=
  match toolDef.get? "annotations" with
  | some (.obj annotations) => (Json.Members.get? annotations hint).bind bool?
  | _ => none

/-- How far the classes are from `read_only`. -/
def RiskClass.rank : RiskClass → Nat
  | .readOnly => 0
  | .sideEffecting => 1
  | .destructive => 2

theorem bool?_eq_some {value : PyJson} {flag : Bool} : bool? value = some flag ↔ value = .bool flag := by
  cases value <;> simp [bool?]

theorem hinted_iff {toolDef annotations : PyDict}
    (annotated : toolDef.get? "annotations" = some (.obj annotations)) (hint : String) :
    hinted annotations hint = true ↔ hint? toolDef hint = some true := by
  simp [hinted, hint?, annotated, Option.bind_eq_some_iff, bool?_eq_some]

/-- The class comes from the two hints. -/
theorem deriveRiskClass_eq (toolDef : PyDict) :
    deriveRiskClass toolDef =
      if hint? toolDef "readOnlyHint" = some true then .readOnly
      else if hint? toolDef "destructiveHint" = some true then .destructive
      else .sideEffecting := by
  unfold deriveRiskClass
  split
  · next annotations annotated => simp only [hinted_iff annotated]
  · next plain =>
      have none : ∀ hint, hint? toolDef hint = Option.none := by
        intro hint
        unfold hint?
        split
        · next annotations annotated => exact absurd annotated (plain annotations)
        · rfl
      simp [none]

/-- A hint that decides the class was a boolean on one side only: the differ takes this for a
change like any other annotation's. -/
def HintUnsettled (oldDef newDef : PyDict) : Prop :=
  hint? oldDef "readOnlyHint" = some true ∧ hint? newDef "readOnlyHint" = none ∨
    hint? oldDef "destructiveHint" = none ∧ hint? newDef "destructiveHint" = some true

/-- The class rises by a flip of a hint, or by one that was a boolean on one side only. -/
theorem flipped_of_riskier {oldDef newDef : PyDict} (settled : ¬ HintUnsettled oldDef newDef)
    (riskier : (deriveRiskClass oldDef).rank < (deriveRiskClass newDef).rank) :
    hint? oldDef "readOnlyHint" = some true ∧ hint? newDef "readOnlyHint" = some false ∨
      hint? oldDef "destructiveHint" = some false ∧ hint? newDef "destructiveHint" = some true := by
  unfold HintUnsettled at settled
  push Not at settled
  obtain ⟨readSettled, destructiveSettled⟩ := settled
  rw [deriveRiskClass_eq, deriveRiskClass_eq] at riskier
  by_cases wasRead : hint? oldDef "readOnlyHint" = some true
  · cases now : hint? newDef "readOnlyHint" with
    | none => exact absurd now (readSettled wasRead)
    | some flag =>
        cases flag with
        | false => exact Or.inl ⟨wasRead, rfl⟩
        | true => simp [wasRead, now, RiskClass.rank] at riskier
  · by_cases isDestructive : hint? newDef "destructiveHint" = some true
    · cases before : hint? oldDef "destructiveHint" with
      | none => exact absurd isDestructive (destructiveSettled before)
      | some flag =>
          cases flag with
          | false => exact Or.inr ⟨rfl, isDestructive⟩
          | true =>
              simp only [wasRead, before, ↓reduceIte] at riskier
              split_ifs at riskier <;> simp [RiskClass.rank] at riskier
    · simp only [wasRead, isDestructive, ↓reduceIte] at riskier
      split_ifs at riskier <;> simp [RiskClass.rank] at riskier

/-- The annotations of a definition with a boolean hint. -/
theorem annotations_of_hint {toolDef : PyDict} {hint : String} {flag : Bool}
    (hinted : hint? toolDef hint = some flag) : ∃ annotations,
      getOrNone toolDef "annotations" = .obj annotations ∧
        Json.Members.get? annotations hint = some (.bool flag) := by
  unfold hint? at hinted
  split at hinted
  · next annotations annotated =>
      obtain ⟨value, found, isBool⟩ := Option.bind_eq_some_iff.mp hinted
      rw [bool?_eq_some.mp isBool] at found
      exact ⟨annotations, by rw [getOrNone, annotated]; rfl, found⟩
  · cases hinted

/-! ## The verdict on a flip -/

theorem highestSeverity_security {findings : List Finding} {finding : Finding}
    (among : finding ∈ findings) (severe : finding.severity = .security) :
    highestSeverity (sortFindings findings) = .security := by
  have present : (sortFindings findings).any (fun other => other.severity = .security) = true := by
    rw [List.any_eq_true]
    exact ⟨finding, (List.mem_insertionSort _).mpr among, by simpa using severe⟩
  simp only [highestSeverity, severityOrder, List.find?_cons, present]
  rfl

/-- A hint that flips to the riskier value is what the differ has a `SECURITY` finding for. -/
theorem security_of_flipped {lib : Stdlib} {tool hint : String} {flag : Bool}
    {oldDef newDef : PyDict} {findings : List Finding}
    (severe : (annotationFinding lib tool (.str hint) (.bool flag) (.bool !flag)).severity =
      .security)
    (was : hint? oldDef hint = some flag) (is : hint? newDef hint = some !flag)
    (found : diffDefinitions lib tool oldDef newDef = .ok findings) :
    highestSeverity (sortFindings findings) = .security := by
  obtain ⟨before, annotated, named⟩ := annotations_of_hint was
  obtain ⟨after, annotated', named'⟩ := annotations_of_hint is
  obtain ⟨aboutTool, diffed, found⟩ := bind_eq_ok.mp found
  obtain ⟨described, -, same⟩ := bind_eq_ok.mp found
  cases same
  obtain ⟨schemas, annotations, about, rfl⟩ := diffTool_annotations diffed
  rw [annotated, annotated'] at about
  have among := diffAnnotations_flipped named named' about
  exact highestSeverity_security
    (List.mem_append_left _ (List.mem_append_right _ among)) severe

/-- Where the class rises and the hints are settled, the differ finds a `SECURITY` change. -/
theorem security_of_riskier {lib : Stdlib} {tool : String} {oldDef newDef : PyDict}
    {analysis : Analysis} (settled : ¬ HintUnsettled oldDef newDef)
    (riskier : (deriveRiskClass oldDef).rank < (deriveRiskClass newDef).rank)
    (analysed : analyse (diffDefinitions lib) tool oldDef newDef = .ok analysis) :
    analysis.severity = .security := by
  obtain ⟨findings, found, same⟩ := bind_eq_ok.mp analysed
  cases same
  obtain ⟨was, is⟩ | ⟨was, is⟩ := flipped_of_riskier settled riskier
  · exact security_of_flipped (by simp [annotationFinding]) was is found
  · exact security_of_flipped (by simp [annotationFinding]) was is found

/-! ## Definitions with the same hash -/

/-- The annotations in a normalised definition. -/
theorem normalizeTool_annotations {tool normalized : PyDict}
    (normalizes : normalizeTool tool = .ok normalized) :
    normalized.get? "annotations" = (tool.get? "annotations").map normalizeSchema := by
  unfold normalizeTool at normalizes
  split at normalizes
  · cases normalizes
  · cases normalizes
    unfold normalizeOptional
    cases tool.get? "outputSchema" <;> cases tool.get? "annotations" <;>
      simp [Json.Members.get?_cons]

theorem bool?_normalizeSchema (value : PyJson) : bool? (normalizeSchema value) = bool? value := by
  cases value <;> rfl

/-- Normalising keeps the hints. -/
theorem hint?_normalized {tool normalized : PyDict} {hint : String}
    (normalizes : normalizeTool tool = .ok normalized) (kept : hint ≠ "$comment")
    (kept' : hint ≠ "required") : hint? normalized hint = hint? tool hint := by
  have member : ∀ members : PyDict, (Json.Members.get? (members.map normalizeMember) hint).bind bool? =
      (members.get? hint).bind bool? := by
    intro members
    induction members with
    | nil => rfl
    | cons member members ih =>
        rw [List.map_cons, Json.Members.get?_cons, Json.Members.get?_cons]
        by_cases named : member.1 = hint
        · have other : member.1 ≠ "required" := by
            rw [named]
            exact kept'
          simp [normalizeMember, named, kept', bool?_normalizeSchema]
        · simp only [normalizeMember, named, ↓reduceIte, ih]
  unfold hint?
  rw [normalizeTool_annotations normalizes]
  cases tool.get? "annotations" with
  | none => rfl
  | some annotations =>
      cases annotations with
      | obj members =>
          simp only [Option.map_some, normalizeSchema, normalizeMembers_eq, member]
          rw [Json.Members.get?_filter_ne, if_neg kept]
      | _ => rfl

/-- A hint of annotations. -/
def hintOf? (hint : String) : PyJson → Option Bool
  | .obj annotations => (Json.Members.get? annotations hint).bind bool?
  | _ => none

theorem hint?_eq (toolDef : PyDict) (hint : String) :
    hint? toolDef hint = (toolDef.get? "annotations").bind (hintOf? hint) := by
  unfold hint?
  cases toolDef.get? "annotations" with
  | none => rfl
  | some annotations => cases annotations <;> rfl

/-- Definitions that are the same have the same hints. -/
theorem hint?_same {left right : PyDict} (same : SameJson (.obj left) (.obj right))
    (hint : String) : hint? left hint = hint? right hint := by
  rw [hint?_eq, hint?_eq]
  refine Json.Same.get?_bind ?_ same "annotations"
  intro left right same
  cases same with
  | obj names values =>
      refine Json.Same.get?_bind ?_ (.obj names values) hint
      intro left right same
      cases same <;> rfl
  | _ => rfl

/-- Definitions with one hash are the same once they are normalised, if no two texts share a
digest. -/
theorem same_of_toolHash {sha : String → String} (collisionFree : Function.Injective sha)
    {left right : PyDict} (leftDistinct : (Json.obj left).Distinct)
    (rightDistinct : (Json.obj right).Distinct) {hash : String}
    (leftHashed : toolHash sha left = .ok hash) (rightHashed : toolHash sha right = .ok hash) :
    ∃ leftNormal rightNormal, normalizeTool left = .ok leftNormal ∧
      normalizeTool right = .ok rightNormal ∧ SameJson (.obj leftNormal) (.obj rightNormal) := by
  obtain ⟨leftNormal, leftNormalizes, leftHashed⟩ := bind_eq_ok.mp leftHashed
  obtain ⟨rightNormal, rightNormalizes, rightHashed⟩ := bind_eq_ok.mp rightHashed
  obtain ⟨leftText, leftWritten, leftDigest⟩ := bind_eq_ok.mp leftHashed
  obtain ⟨rightText, rightWritten, rightDigest⟩ := bind_eq_ok.mp rightHashed
  refine ⟨leftNormal, rightNormal, leftNormalizes, rightNormalizes, ?_⟩
  rw [← canonicalJson_eq_iff (normalizedTool_distinct leftDistinct leftNormalizes)
    (normalizedTool_distinct rightDistinct rightNormalizes) leftWritten rightWritten]
  have digests : "sha256:" ++ sha (String.ofList leftText) =
      "sha256:" ++ sha (String.ofList rightText) := by
    rw [Except.ok.inj leftDigest, Except.ok.inj rightDigest]
  exact String.ofList_injective (collisionFree (String.append_right_inj .. |>.mp digests))

/-- Definitions with one hash have the same hints. -/
theorem hint?_of_toolHash {sha : String → String} (collisionFree : Function.Injective sha)
    {left right : PyDict} (leftDistinct : (Json.obj left).Distinct)
    (rightDistinct : (Json.obj right).Distinct) {hash : String}
    (leftHashed : toolHash sha left = .ok hash) (rightHashed : toolHash sha right = .ok hash)
    {hint : String} (kept : hint ≠ "$comment") (kept' : hint ≠ "required") :
    hint? left hint = hint? right hint := by
  obtain ⟨leftNormal, rightNormal, leftNormalizes, rightNormalizes, same⟩ :=
    same_of_toolHash collisionFree leftDistinct rightDistinct leftHashed rightHashed
  rw [← hint?_normalized leftNormalizes kept kept', ← hint?_normalized rightNormalizes kept kept']
  exact hint?_same same hint

/-! ## Answers of `resume` -/

/-- A service with the default policy and the differ of the harness. -/
def defaultService (lib : Stdlib) (sha : String → String) (cacheSize : Int) : Settings where
  lib := lib
  sha := sha
  policy := .default
  diffFn := diffDefinitions lib
  cacheSize := cacheSize

variable {Call : Type} [DecidableEq Call] {lib : Stdlib} {sha : String → String} {cacheSize : Int}

omit [DecidableEq Call] in
/-- The default policy resumes no `SECURITY` change. -/
theorem answer_security {request : ChangeRequest} {hashes : HashPair} {analysis : Analysis}
    {cacheHit : Bool} (severe : analysis.severity = .security) :
    (answer (defaultService lib sha cacheSize) request hashes analysis cacheHit).verdict ≠
      .resume := by
  simp [answer, body, verdictOn, defaultService, PolicyTable.decide, PolicyTable.default, severe]

/-- An answer made of the analysis of definitions with these hints. -/
theorem rank_le_of_resume {tool : String} {oldDef newDef : PyDict} {request : ChangeRequest}
    {hashes : HashPair} {analysis : Analysis} {cacheHit : Bool}
    (analysed : analyse (diffDefinitions lib) tool oldDef newDef = .ok analysis)
    (resumes : (answer (defaultService lib sha cacheSize) request hashes analysis cacheHit).verdict =
      .resume) (settled : ¬ HintUnsettled oldDef newDef) :
    (deriveRiskClass newDef).rank ≤ (deriveRiskClass oldDef).rank := by
  by_contra riskier
  exact answer_security (security_of_riskier settled (by omega) analysed) resumes

/-- A fresh service answers with the analysis of the request's own definitions. -/
theorem freshBody_analysed {settings : Settings} {request : ChangeRequest} {body : Body}
    (fresh : freshBody settings request = some body) : ∃ hashes analysis,
      analysisOf settings request = .ok analysis ∧
        body = answer settings request hashes analysis false := by
  cases hashed : computeHashes settings.lib settings.sha request with
  | error error =>
      simp [freshBody, Machine.follow, ControlService.handle, ControlService.turn, hashed] at fresh
  | ok hashes =>
      cases analysed : analysisOf settings request with
      | error error =>
          have open' : ({} : ControlService Unit).isApproved request.key hashes.2 = false := rfl
          have missing : ∀ stats, ((({ stats } : ControlService Unit).goto ()
              (.unapproved hashes)).cache.get? hashes) = none := fun _ => rfl
          have size : (0 : Int) ≤ defaultCacheSize := by simp [defaultCacheSize]
          obtain ⟨counted, entered⟩ : ∃ stats, ControlService.firstSection (fun _ => request) {} ()
              hashes = ({ stats } : ControlService Unit).goto () (.unapproved hashes) :=
            firstSection_unapproved open'
          obtain ⟨stats, added⟩ := cachedAnalysis_missing
            { settings with cacheSize := defaultCacheSize } _ () (missing counted) size
          unfold analysisOf at analysed
          simp [freshBody, Machine.follow, ControlService.handle, ControlService.turn, hashed, entered,
            added, ControlService.analysed, analysed, ControlService.failed, Stage.body?] at fresh
      | ok analysis =>
          rw [freshBody_eq hashed analysed] at fresh
          exact ⟨hashes, analysis, rfl, (Option.some.inj fresh).symm⟩

omit [DecidableEq Call] in
/-- The hashes of a request are those of its definitions. -/
theorem computeHashes_ok {request : ChangeRequest} {hashes : HashPair}
    (hashed : computeHashes lib sha request = .ok hashes) :
    toolHash sha request.oldDef = .ok hashes.1 ∧ toolHash sha request.newDef = .ok hashes.2 := by
  unfold computeHashes at hashed
  cases old : toolHash sha request.oldDef with
  | error error => simp [old, bind, Except.bind, Except.mapError] at hashed
  | ok oldHash =>
      cases new : toolHash sha request.newDef with
      | error error => simp [old, new, bind, Except.bind, Except.mapError] at hashed
      | ok newHash =>
          simp only [old, new, bind, Except.bind, Except.mapError, Except.ok.injEq] at hashed
          rw [← hashed]
          exact ⟨rfl, rfl⟩

omit [DecidableEq Call] in
theorem deriveRiskClass_congr {left right : PyDict}
    (same : ∀ hint, hint ≠ "$comment" → hint ≠ "required" → hint? left hint = hint? right hint) :
    deriveRiskClass left = deriveRiskClass right := by
  rw [deriveRiskClass_eq, deriveRiskClass_eq, same "readOnlyHint" (by simp) (by simp),
    same "destructiveHint" (by simp) (by simp)]

/-- **Resuming raises no risk class**, as long as no hint that decides the class was a boolean
on one side only. A request of its own needs nothing else; where answers are shared, the texts
hashed must have different digests. -/
theorem resume_keeps_riskClass (lib : Stdlib) (sha : String → String) (cacheSize : Int) :
    (∀ request body, freshBody (defaultService lib sha cacheSize) request = some body →
      body.verdict = .resume → ¬ HintUnsettled request.oldDef request.newDef →
        (deriveRiskClass request.newDef).rank ≤ (deriveRiskClass request.oldDef).rank) ∧
    (Function.Injective sha → ∀ (requests : Call → ChangeRequest),
      (∀ call, (Json.obj (requests call).oldDef).Distinct ∧
        (Json.obj (requests call).newDef).Distinct) →
      ∀ events service,
        (controlMachine (defaultService lib sha cacheSize) requests).Run events service →
      ∀ call body, service.stage call = .returned body → body.severity ≠ none →
        body.verdict = .resume →
        ¬ HintUnsettled (requests call).oldDef (requests call).newDef →
          (deriveRiskClass (requests call).newDef).rank ≤
            (deriveRiskClass (requests call).oldDef).rank) := by
  refine ⟨?_, ?_⟩
  · intro request body fresh resumes settled
    obtain ⟨hashes, analysis, analysed, rfl⟩ := freshBody_analysed fresh
    exact rank_le_of_resume analysed resumes settled
  · intro collisionFree requests distinct events service run call body at' severe resumes settled
    have traced := (run_shared run).traced call
    rw [at'] at traced
    obtain none | ⟨hashes, analysis, cacheHit, hashed, rfl, owner, hashed', analysed⟩ := traced
    · exact absurd none severe
    obtain ⟨oldHashed, newHashed⟩ := computeHashes_ok hashed
    obtain ⟨oldHashed', newHashed'⟩ := computeHashes_ok hashed'
    have sameOld : ∀ hint, hint ≠ "$comment" → hint ≠ "required" →
        hint? (requests owner).oldDef hint = hint? (requests call).oldDef hint :=
      fun _ => hint?_of_toolHash collisionFree (distinct owner).1 (distinct call).1 oldHashed'
        oldHashed
    have sameNew : ∀ hint, hint ≠ "$comment" → hint ≠ "required" →
        hint? (requests owner).newDef hint = hint? (requests call).newDef hint :=
      fun _ => hint?_of_toolHash collisionFree (distinct owner).2 (distinct call).2 newHashed'
        newHashed
    rw [← deriveRiskClass_congr sameOld, ← deriveRiskClass_congr sameNew]
    refine rank_le_of_resume analysed resumes ?_
    intro unsettled
    apply settled
    unfold HintUnsettled at unsettled ⊢
    rw [← sameOld "readOnlyHint" (by simp) (by simp), ← sameNew "readOnlyHint" (by simp) (by simp),
      ← sameOld "destructiveHint" (by simp) (by simp),
      ← sameNew "destructiveHint" (by simp) (by simp)]
    exact unsettled

/-- A report about a tool without parameters whose annotations changed. -/
def reannotated (before after : PyDict) : ChangeRequest where
  server := "fs"
  tool := "read_file"
  sessionId := ""
  oldHash := ""
  newHash := ""
  oldDef := [("name", .str "read_file"), ("annotations", .obj before)]
  newDef := [("name", .str "read_file"), ("annotations", .obj after)]

/-- A tool that is no longer read-only is resumed, as its hint is gone. -/
theorem resume_keeps_riskClass_dropped :
    ∃ body, freshBody (defaultService plainLib id 4096)
        (reannotated [("readOnlyHint", .bool true)] []) = some body ∧ body.verdict = .resume ∧
      deriveRiskClass (reannotated [("readOnlyHint", .bool true)] []).oldDef = .readOnly ∧
      deriveRiskClass (reannotated [("readOnlyHint", .bool true)] []).newDef = .sideEffecting := by
  have resumed : (freshBody (defaultService plainLib id 4096)
      (reannotated [("readOnlyHint", .bool true)] [])).map Body.verdict = some .resume := by
    decide +kernel
  obtain ⟨body, fresh, resumes⟩ := Option.map_eq_some_iff.mp resumed
  exact ⟨body, fresh, resumes, rfl, rfl⟩

/-- A tool that is no longer destructive. -/
def softened : ChangeRequest :=
  reannotated [("destructiveHint", .bool true)] [("destructiveHint", .bool false)]

/-- A definition that is made read-only is resumed. -/
theorem resume_keeps_riskClass_softened :
    ∃ service body,
      (controlMachine (defaultService plainLib id 4096) fun _ : Unit => softened).Run
        [.turn (), .turn (), .turn (), .turn ()] service ∧
      service.stage () = .returned body ∧
      (deriveRiskClass softened.newDef).rank ≤ (deriveRiskClass softened.oldDef).rank := by
  have resumed : ((Machine.follow (ControlService.handle (defaultService plainLib id 4096)
      fun _ : Unit => softened) [.turn (), .turn (), .turn (), .turn ()] {}).map fun service =>
        (service.stage ()).body?.map fun body => (body.verdict, body.severity)) =
          some (some (.resume, some .info)) := by decide +kernel
  obtain ⟨service, leads, through⟩ := Option.map_eq_some_iff.mp resumed
  obtain ⟨body, answered, shown⟩ := Option.map_eq_some_iff.mp through
  obtain ⟨resumes, severity⟩ := Prod.mk.inj shown
  have run : (controlMachine (defaultService plainLib id 4096) fun _ : Unit => softened).Run _
      service := Machine.Run.follow (fun _ _ _ => id) (.start rfl) leads
  refine ⟨service, body, run, stage_of_body answered, ?_⟩
  refine (resume_keeps_riskClass plainLib id 4096).2 Function.injective_id _ ?_ _ service run ()
    body (stage_of_body answered) (by simp [severity]) resumes ?_
  · intro _
    simp [softened, reannotated, Json.Distinct, Json.NamesPairwise]
  · simp [HintUnsettled, softened, reannotated, hint?, Json.Members.get?_cons, bool?]

end Control
