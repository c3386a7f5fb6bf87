import Anviq.Control.DifferRuns

/-! # Shared analyses

An answer that is no approval is made of an analysis of definitions with the same hashes,
whoever had them analysed. It is what a fresh service would answer as long as the differ
gives definitions with the same hashes the same highest severity.
-/

namespace Control

open Harness (PyError PyJson toOption_eq_some)
open Harness.Diff (Finding)

variable {Call : Type} [DecidableEq Call] {settings : Settings} {requests : Call → ChangeRequest}
  {service next : ControlService Call} {event : Event Call} {call : Call} {hashes : HashPair}
  {future : Nat} {analysis : Analysis}

/-- The analysis of the definitions of a request. -/
def analysisOf (settings : Settings) (request : ChangeRequest) : Except PyError Analysis :=
  analyse settings.diffFn request.tool request.oldDef request.newDef

/-! ## Where analyses come from -/

/-- The analysis is that of a request whose definitions have these hashes. -/
def Sourced (settings : Settings) (requests : Call → ChangeRequest) (hashes : HashPair)
    (analysis : Analysis) : Prop :=
  ∃ owner, computeHashes settings.lib settings.sha (requests owner) = .ok hashes ∧
    analysisOf settings (requests owner) = .ok analysis

/-- The future a call reads or writes, and for which hashes. -/
def Stage.future? : Stage → Option (HashPair × Nat)
  | .analysing hashes future => some (hashes, future)
  | .failing hashes future _ => some (hashes, future)
  | .waiting hashes future => some (hashes, future)
  | _ => none

/-- The analysis a call has, and the answer made of it, come from a request with its hashes. -/
def Stage.Traced (settings : Settings) (requests : Call → ChangeRequest) (call : Call) :
    Stage → Prop
  | .analysed hashes analysis _ => Sourced settings requests hashes analysis
  | .returned body => body.severity = none ∨ ∃ hashes analysis cacheHit,
      computeHashes settings.lib settings.sha (requests call) = .ok hashes ∧
        body = answer settings (requests call) hashes analysis cacheHit ∧
        Sourced settings requests hashes analysis
  | _ => True

/-- The future is, or was, the entry of these hashes. -/
def Serves (service : ControlService Call) (hashes : HashPair) (future : Nat) : Prop :=
  service.cache.get? hashes = some future ∨
    ∃ call, (service.stage call).future? = some (hashes, future)

/-- Every future belongs to one pair of hashes and has an analysis of theirs. -/
structure Shared (settings : Settings) (requests : Call → ChangeRequest)
    (service : ControlService Call) : Prop where
  created : ∀ hashes future, Serves service hashes future → future < service.created
  unset : ∀ future, service.created ≤ future → service.futures future = none
  belongs : ∀ hashes other future, Serves service hashes future → Serves service other future →
    hashes = other
  results : ∀ hashes future analysis, Serves service hashes future →
    service.futures future = some (.ok analysis) → Sourced settings requests hashes analysis
  traced : ∀ call, (service.stage call).Traced settings requests call

/-- A call goes on with a future that is there, and no entry is added. -/
theorem Shared.goto {other : ControlService Call} {stage : Stage}
    (shared : Shared settings requests service)
    (cache : ∀ hashes future, other.cache.get? hashes = some future →
      service.cache.get? hashes = some future)
    (futures : other.futures = service.futures) (created : other.created = service.created)
    (stages : other.stage = service.stage)
    (served : ∀ hashes future, stage.future? = some (hashes, future) →
      Serves service hashes future)
    (traced : stage.Traced settings requests call) :
    Shared settings requests (other.goto call stage) := by
  have serves : ∀ {hashes : HashPair} {future : Nat},
      Serves (other.goto call stage) hashes future → Serves service hashes future := by
    intro hashes future serving
    obtain found | ⟨anyone, carried⟩ := serving
    · exact Or.inl (cache hashes future found)
    · by_cases self : anyone = call
      · rw [self, ControlService.goto_stage] at carried
        exact served hashes future carried
      · rw [ControlService.goto_stage_of_ne _ _ _ self, stages] at carried
        exact Or.inr ⟨anyone, carried⟩
  refine ⟨?_, ?_, ?_, ?_, ?_⟩
  · intro hashes future serving
    rw [ControlService.goto_created, created]
    exact shared.created hashes future (serves serving)
  · intro future beyond
    rw [ControlService.goto_created, created] at beyond
    rw [ControlService.goto_futures, futures]
    exact shared.unset future beyond
  · intro hashes other future serving serving'
    exact shared.belongs hashes other future (serves serving) (serves serving')
  · intro hashes future analysis serving set
    rw [ControlService.goto_futures, futures] at set
    exact shared.results hashes future analysis (serves serving) set
  · intro anyone
    by_cases self : anyone = call
    · rw [self, ControlService.goto_stage]
      exact traced
    · rw [ControlService.goto_stage_of_ne _ _ _ self, stages]
      exact shared.traced anyone

/-- A call goes on without a future, and no entry is added. -/
theorem Shared.settle {other : ControlService Call} {stage : Stage}
    (shared : Shared settings requests service)
    (cache : ∀ hashes future, other.cache.get? hashes = some future →
      service.cache.get? hashes = some future)
    (futures : other.futures = service.futures) (created : other.created = service.created)
    (stages : other.stage = service.stage) (idle : stage.future? = none)
    (traced : stage.Traced settings requests call) :
    Shared settings requests (other.goto call stage) := by
  refine shared.goto cache futures created stages ?_ traced
  intro hashes future carried
  rw [idle] at carried
  cases carried

omit [DecidableEq Call] in
/-- A future gets a result of its hashes. -/
theorem Shared.set (shared : Shared settings requests service)
    (serving : Serves service hashes future) (result : Except PyError Analysis)
    (sourced : ∀ analysis, result = .ok analysis → Sourced settings requests hashes analysis) :
    Shared settings requests (service.setFuture future result) := by
  refine ⟨shared.created, ?_, shared.belongs, ?_, shared.traced⟩
  · intro other beyond
    have apart : other ≠ future := by
      have early : future < service.created := shared.created hashes future serving
      have late : service.created ≤ other := beyond
      omega
    rw [ControlService.setFuture_futures_of_ne _ _ apart]
    exact shared.unset other beyond
  · intro hashes' other analysis serving' set
    by_cases same : other = future
    · rw [same, ControlService.setFuture_futures] at set
      rw [same] at serving'
      rw [shared.belongs hashes' hashes future serving' serving]
      exact sourced analysis (Option.some.inj set)
    · rw [ControlService.setFuture_futures_of_ne _ _ same] at set
      exact shared.results hashes' other analysis serving' set

omit [DecidableEq Call] in
/-- A new future is the entry of some hashes. -/
theorem Shared.add (shared : Shared settings requests service) (hashes : HashPair) :
    Shared settings requests { service with
      cache := service.cache.assign hashes service.created
      created := service.created + 1 } := by
  -- What is served is what was served, or the new entry.
  have serves : ∀ {other : HashPair} {future : Nat}, Serves { service with
      cache := service.cache.assign hashes service.created
      created := service.created + 1 } other future →
        (other = hashes ∧ future = service.created) ∨ Serves service other future := by
    intro other future serving
    obtain found | carried := serving
    · rw [Dict.get?_assign] at found
      split at found
      · next same => exact Or.inl ⟨same, (Option.some.inj found).symm⟩
      · exact Or.inr (Or.inl found)
    · exact Or.inr (Or.inr carried)
  refine ⟨?_, ?_, ?_, ?_, shared.traced⟩
  · intro other future serving
    obtain ⟨-, rfl⟩ | before := serves serving
    · exact Nat.lt_succ_self _
    · exact Nat.lt_succ_of_lt (shared.created other future before)
  · intro future beyond
    exact shared.unset future (Nat.le_of_succ_le beyond)
  · intro left right future serving serving'
    obtain ⟨rfl, rfl⟩ | before := serves serving
    · obtain ⟨rfl, -⟩ | before' := serves serving'
      · rfl
      · exact absurd (shared.created right _ before') (lt_irrefl _)
    · obtain ⟨rfl, rfl⟩ | before' := serves serving'
      · exact absurd (shared.created left _ before) (lt_irrefl _)
      · exact shared.belongs left right future before before'
  · intro other future analysis serving set
    have unset : service.futures service.created = none := shared.unset _ (le_refl _)
    obtain ⟨-, rfl⟩ | before := serves serving
    · rw [unset] at set
      cases set
    · exact shared.results other future analysis before set

theorem Shared.step (shared : Shared settings requests service)
    (honest : Honest settings requests service)
    (handled : service.handle settings requests event = some next) :
    Shared settings requests next := by
  cases handle_move handled with
  | unhashed _ _ => exact shared.settle (fun _ _ => id) rfl rfl rfl rfl trivial
  | approvedFirst _ _ _ _ => exact shared.settle (fun _ _ => id) rfl rfl rfl rfl (Or.inl rfl)
  | unapproved _ _ _ _ => exact shared.settle (fun _ _ => id) rfl rfl rfl rfl trivial
  | @owns call hashes _ _ _ _ =>
      refine (shared.add hashes).goto (fun _ _ => evict_get?) rfl rfl rfl ?_ trivial
      intro other future carried
      cases carried
      exact Or.inl (by rw [Dict.get?_assign, if_pos rfl])
  | @breaks call hashes _ _ _ _ =>
      exact (shared.add hashes).settle (fun _ _ => evict_get?) rfl rfl rfl rfl trivial
  | joins _ _ found =>
      refine shared.goto ?_ rfl rfl rfl ?_ trivial
      · intro hashes future moved
        rw [← moved]
        exact Dict.get?_moveToEnd.symm
      · intro other future carried
        cases carried
        exact Or.inl found
  | @succeeds call hashes future analysis at' found =>
      have sourced : Sourced settings requests hashes analysis :=
        ⟨call, honest call hashes (by rw [at']; rfl), found⟩
      have serving : Serves service hashes future := Or.inr ⟨call, by rw [at']; rfl⟩
      refine (shared.set serving (.ok analysis) ?_).settle (fun _ _ => id) rfl rfl rfl rfl sourced
      intro other same
      cases same
      exact sourced
  | @fails _ call hashes future error at' _ =>
      refine shared.goto ?_ rfl rfl rfl ?_ trivial
      · intro other future' erased
        rw [Dict.get?_erase] at erased
        split at erased
        · cases erased
        · exact erased
      · intro other future' carried
        cases carried
        exact Or.inr ⟨call, by rw [at']; rfl⟩
  | @reports call hashes future error at' =>
      have serving : Serves service hashes future := Or.inr ⟨call, by rw [at']; rfl⟩
      refine (shared.set serving (.error error) ?_).settle (fun _ _ => id) rfl rfl rfl rfl trivial
      intro other same
      cases same
  | @shares call hashes future analysis at' set =>
      exact shared.settle (fun _ _ => id) rfl rfl rfl rfl
        (shared.results hashes future analysis (Or.inr ⟨call, by rw [at']; rfl⟩) set)
  | sharesError _ _ => exact shared.settle (fun _ _ => id) rfl rfl rfl rfl trivial
  | approvedSince _ _ _ => exact shared.settle (fun _ _ => id) rfl rfl rfl rfl (Or.inl rfl)
  | @answers call hashes analysis cacheHit at' _ =>
      have traced := shared.traced call
      rw [at'] at traced
      exact shared.settle (fun _ _ => id) rfl rfl rfl rfl
        (Or.inr ⟨hashes, analysis, cacheHit, honest call hashes (by rw [at']; rfl), rfl, traced⟩)
  | refused _ => exact shared
  | approves _ =>
      exact ⟨shared.created, shared.unset, shared.belongs, shared.results, shared.traced⟩

/-- In every run each future has an analysis of the hashes it belongs to. -/
theorem run_shared {events : List (Event Call)}
    (run : (controlMachine settings requests).Run events service) :
    Shared settings requests service := by
  induction run with
  | start begins =>
      rw [begins]
      have nobody : ∀ hashes future,
          ¬ Serves ({} : ControlService Call) hashes future := by
        intro hashes future serving
        obtain found | ⟨call, carried⟩ := serving
        · cases found
        · cases carried
      exact ⟨fun _ _ serving => absurd serving (nobody _ _), fun _ _ => rfl,
        fun _ _ _ serving => absurd serving (nobody _ _),
        fun _ _ _ serving => absurd serving (nobody _ _), fun _ => trivial⟩
  | concat run handled ih => exact ih.step (run_honest run) handled

/-! ## Fresh answers -/

/-- `DEFAULT_CACHE_SIZE`. -/
def defaultCacheSize : Int := 4096

/-- The answer of a call that is through. -/
def Stage.body? : Stage → Option Body
  | .returned body => some body
  | _ => none

/-- What a fresh service answers to a request, which takes four steps. -/
def freshBody (settings : Settings) (request : ChangeRequest) : Option Body :=
  let fresh := { settings with cacheSize := defaultCacheSize }
  let turns : List (Event Unit) := [.turn (), .turn (), .turn (), .turn ()]
  (Machine.follow (ControlService.handle fresh fun _ => request) turns {}).bind
    fun service => (service.stage ()).body?

/-- The first locked section without an approval. -/
theorem firstSection_unapproved
    (unapproved : service.isApproved (requests call).key hashes.2 = false) :
    ∃ stats, service.firstSection requests call hashes =
      ({ service with stats } : ControlService Call).goto call (.unapproved hashes) := by
  unfold ControlService.firstSection
  simp only [unapproved, Bool.false_eq_true, ↓reduceIte]
  exact ⟨_, rfl⟩

/-- The lookup of a change that is not in the cache. -/
theorem cachedAnalysis_missing (settings : Settings) (service : ControlService Call) (call : Call)
    {hashes : HashPair} (missing : service.cache.get? hashes = none)
    (size : 0 ≤ settings.cacheSize) :
    ∃ stats, service.cachedAnalysis settings call hashes =
      ({ service with
        cache := evict settings.cacheSize (service.cache.assign hashes service.created)
        stats
        created := service.created + 1 } : ControlService Call).goto call
          (.analysing hashes service.created) := by
  unfold ControlService.cachedAnalysis
  simp only [missing, Int.not_lt.mpr size, ↓reduceIte]
  exact ⟨_, rfl⟩

/-- The lookup of a change that is in the cache. -/
theorem cachedAnalysis_found (settings : Settings) (service : ControlService Call) (call : Call)
    {hashes : HashPair} {future : Nat} (found : service.cache.get? hashes = some future) :
    ∃ stats, service.cachedAnalysis settings call hashes =
      ({ service with
        cache := service.cache.moveToEnd hashes
        stats } : ControlService Call).goto call (.waiting hashes future) := by
  unfold ControlService.cachedAnalysis
  simp only [found]
  exact ⟨_, rfl⟩

/-- A call that finds nothing approved and nothing in the cache has its own definitions
analysed. -/
theorem analyses_own (settings : Settings) (requests : Call → ChangeRequest)
    (service : ControlService Call) (call : Call) {hashes : HashPair} {analysis : Analysis}
    (at' : service.stage call = .entered)
    (unapproved : service.isApproved (requests call).key hashes.2 = false)
    (missing : service.cache.get? hashes = none) (size : 0 ≤ settings.cacheSize)
    (hashed : computeHashes settings.lib settings.sha (requests call) = .ok hashes)
    (analysed : analysisOf settings (requests call) = .ok analysis) :
    ∃ stats, Machine.follow (ControlService.handle settings requests)
        [.turn call, .turn call, .turn call] service =
      some ((({ service with
        cache := evict settings.cacheSize (service.cache.assign hashes service.created)
        stats
        created := service.created + 1 } : ControlService Call).setFuture service.created
          (.ok analysis)).goto call (.analysed hashes analysis false)) := by
  obtain ⟨counted, entered⟩ := firstSection_unapproved unapproved
  obtain ⟨stats, added⟩ := cachedAnalysis_missing settings
    (({ service with stats := counted } : ControlService Call).goto call (.unapproved hashes)) call
    missing size
  refine ⟨stats, ?_⟩
  simp only [Machine.follow, ControlService.handle, ControlService.turn, at', hashed, entered,
    Option.bind_some, ControlService.goto_stage, added]
  unfold analysisOf at analysed
  simp only [ControlService.analysed, analysed]
  simp only [ControlService.goto, ControlService.setFuture, Function.update_idem]

/-- The second locked section without an approval. -/
theorem secondSection_unapproved (settings : Settings) (requests : Call → ChangeRequest)
    (service : ControlService Call) {call : Call} {hashes : HashPair} (analysis : Analysis)
    (cacheHit : Bool)
    (unapproved : service.isApproved (requests call).key hashes.2 = false) :
    (service.secondSection settings requests call hashes analysis cacheHit).stage call =
      .returned (answer settings (requests call) hashes analysis cacheHit) := by
  unfold ControlService.secondSection
  simp only [unapproved, Bool.false_eq_true, ↓reduceIte, ControlService.goto_stage]
  rfl

/-- A fresh service answers with its own analysis. -/
theorem freshBody_eq {request : ChangeRequest}
    (hashed : computeHashes settings.lib settings.sha request = .ok hashes)
    (analysed : analysisOf settings request = .ok analysis) :
    freshBody settings request = some (answer settings request hashes analysis false) := by
  have size : (0 : Int) ≤ defaultCacheSize := by decide
  obtain ⟨stats, own⟩ := analyses_own { settings with cacheSize := defaultCacheSize }
    (fun _ : Unit => request) {} () rfl rfl rfl size hashed analysed
  have turns : ([.turn (), .turn (), .turn (), .turn ()] : List (Event Unit)) =
      [.turn (), .turn (), .turn ()] ++ [.turn ()] := rfl
  unfold freshBody
  dsimp only
  rw [turns, Machine.follow_append, own, Option.bind_some]
  simp only [Machine.follow, ControlService.handle, ControlService.turn, ControlService.goto_stage]
  rw [Option.bind_some, Option.bind_some, secondSection_unapproved _ _ _ _ _ rfl]
  rfl

/-! ## Definitions with the same hashes -/

/-- A cache that may have an entry keeps the only one. -/
theorem evict_single (size : 0 < settings.cacheSize) (hashes : HashPair) (future : Nat) :
    (evict settings.cacheSize (Dict.empty.assign hashes future)).get? hashes = some future := by
  have kept : ¬ settings.cacheSize < 1 := by omega
  rw [Dict.get?_eq_some]
  have items : (evict settings.cacheSize (Dict.empty.assign hashes future)).items =
      evictItems settings.cacheSize [(hashes, future)] := rfl
  rw [items, evictItems]
  simp [kept]

/-- A call that finds a finished analysis in the cache answers with it. -/
theorem answers_cached (settings : Settings) (requests : Call → ChangeRequest)
    (service : ControlService Call) (call : Call) {hashes : HashPair} {future : Nat}
    {analysis : Analysis} (at' : service.stage call = .entered)
    (unapproved : service.isApproved (requests call).key hashes.2 = false)
    (found : service.cache.get? hashes = some future)
    (set : service.futures future = some (.ok analysis))
    (hashed : computeHashes settings.lib settings.sha (requests call) = .ok hashes) :
    ∃ next, Machine.follow (ControlService.handle settings requests)
        [.turn call, .turn call, .turn call, .turn call] service = some next ∧
      next.stage call = .returned (answer settings (requests call) hashes analysis true) := by
  obtain ⟨counted, entered⟩ := firstSection_unapproved unapproved
  obtain ⟨stats, joined⟩ := cachedAnalysis_found settings
    (({ service with stats := counted } : ControlService Call).goto call (.unapproved hashes)) call
    found
  have answered := secondSection_unapproved settings requests (({ service with
    cache := service.cache.moveToEnd hashes, stats } : ControlService Call).goto call
      (.analysed hashes analysis true)) analysis true unapproved
  refine ⟨_, ?_, answered⟩
  simp only [Machine.follow, ControlService.handle, ControlService.turn, at', hashed, entered,
    Option.bind_some, ControlService.goto_stage, joined, ControlService.goto_futures, set]
  simp only [ControlService.goto, Function.update_idem]

/-- A call shares the analysis another one made of definitions with the same hashes. -/
theorem shares_analysis {other : Call} (size : 0 < settings.cacheSize) (apart : other ≠ call)
    (hashed : computeHashes settings.lib settings.sha (requests call) = .ok hashes)
    (hashed' : computeHashes settings.lib settings.sha (requests other) = .ok hashes)
    (analysed : analysisOf settings (requests call) = .ok analysis) :
    ∃ events service, (controlMachine settings requests).Run events service ∧
      service.stage other = .returned (answer settings (requests other) hashes analysis true) := by
  obtain ⟨stats, own⟩ := analyses_own settings requests {} call rfl rfl rfl (le_of_lt size)
    hashed analysed
  have run : (controlMachine settings requests).Run _ _ :=
    Machine.Run.follow (fun _ _ _ => id) (.start rfl) own
  obtain ⟨next, leads, answered⟩ := answers_cached settings requests ((({
      cache := evict settings.cacheSize (Dict.empty.assign hashes 0)
      stats
      created := 1 } : ControlService Call).setFuture 0 (.ok analysis)).goto call
        (.analysed hashes analysis false)) other
    (ControlService.goto_stage_of_ne _ _ _ apart) rfl (evict_single size hashes 0)
    (by rw [ControlService.goto_futures, ControlService.setFuture_futures]) hashed'
  exact ⟨_, next, run.follow (fun _ _ _ => id) leads, answered⟩

/-- The order of the findings does not matter to their highest severity. -/
theorem highestSeverity_sortFindings (findings : List Finding) :
    highestSeverity (sortFindings findings) = highestSeverity findings := by
  have alike : ∀ level, (sortFindings findings).any (fun finding => finding.severity = level) =
      findings.any fun finding => finding.severity = level := fun level =>
    (List.perm_insertionSort precedes findings).any_eq
  simp only [highestSeverity, alike]

/-- `highest_severity` of what the differ finds in the definitions of a request, if it does not
fail. -/
def severityOf (settings : Settings) (request : ChangeRequest) : Option Level :=
  (settings.diffFn request.tool request.oldDef request.newDef).toOption.map highestSeverity

/-- The severity of an analysis is that of what the differ finds. -/
theorem severityOf_eq_analysis (settings : Settings) (request : ChangeRequest) :
    severityOf settings request =
      (analysisOf settings request).toOption.map Analysis.severity := by
  unfold severityOf analysisOf analyse
  cases settings.diffFn request.tool request.oldDef request.newDef with
  | error error => rfl
  | ok found => exact congrArg some (highestSeverity_sortFindings found).symm

/-- The answer has the severity of the request's own definitions, and a fresh service answers
with the same severity and verdict. -/
def AnswersFresh (settings : Settings) (request : ChangeRequest) (body : Body) : Prop :=
  body.severity = severityOf settings request ∧
    ∃ fresh, freshBody settings request = some fresh ∧ fresh.severity = body.severity ∧
      fresh.verdict = body.verdict

/-- The differ finds changes of the same highest severity in definitions with the same hashes. -/
def SameSeverity (settings : Settings) (requests : Call → ChangeRequest) : Prop :=
  ∀ call other hashes, computeHashes settings.lib settings.sha (requests call) = .ok hashes →
    computeHashes settings.lib settings.sha (requests other) = .ok hashes →
    severityOf settings (requests call) = severityOf settings (requests other)

/-- **A cached verdict equals a fresh one** when the differ gives definitions with the same
hashes the same highest severity, and where a cache may have entries only then. -/
theorem cached_verdict_fresh (settings : Settings) (requests : Call → ChangeRequest) :
    (SameSeverity settings requests → ∀ events service,
      (controlMachine settings requests).Run events service →
      ∀ call body, service.stage call = .returned body → body.severity ≠ none →
        AnswersFresh settings (requests call) body) ∧
    (0 < settings.cacheSize → (∀ events service,
      (controlMachine settings requests).Run events service →
      ∀ call body, service.stage call = .returned body → body.severity ≠ none →
        AnswersFresh settings (requests call) body) → SameSeverity settings requests) := by
  refine ⟨?_, ?_⟩
  · intro alike events service run call body at' severe
    have traced := (run_shared run).traced call
    rw [at'] at traced
    obtain none | ⟨hashes, analysis, cacheHit, hashed, rfl, owner, hashed', analysed⟩ := traced
    · exact absurd none severe
    have own : severityOf settings (requests call) = some analysis.severity := by
      rw [alike call owner hashes hashed hashed', severityOf_eq_analysis, analysed]
      rfl
    obtain ⟨mine, analysed', same⟩ := Option.map_eq_some_iff.mp
      ((severityOf_eq_analysis settings (requests call)).symm.trans own)
    have fresh := freshBody_eq hashed (toOption_eq_some.mp analysed')
    refine ⟨own.symm, _, fresh, congrArg some same, ?_⟩
    simp only [answer, body, verdictOn, same]
  · intro size answers
    -- What one of them is given the other is given when it comes second.
    have onward : ∀ call other hashes analysis, other ≠ call →
        computeHashes settings.lib settings.sha (requests call) = .ok hashes →
        computeHashes settings.lib settings.sha (requests other) = .ok hashes →
        analysisOf settings (requests call) = .ok analysis →
          severityOf settings (requests other) = some analysis.severity := by
      intro call other hashes analysis apart hashed hashed' analysed
      obtain ⟨events, service, run, at'⟩ := shares_analysis size apart hashed hashed' analysed
      exact (answers events service run other _ at' (by simp [answer, body])).1.symm
    intro call other hashes hashed hashed'
    by_cases same : other = call
    · rw [same]
    cases analysed : analysisOf settings (requests call) with
    | ok analysis =>
        rw [onward call other hashes analysis same hashed hashed' analysed,
          severityOf_eq_analysis, analysed]
        rfl
    | error error =>
        cases analysed' : analysisOf settings (requests other) with
        | ok analysis =>
            have mine := onward other call hashes analysis (Ne.symm same) hashed' hashed analysed'
            rw [severityOf_eq_analysis, analysed] at mine
            cases mine
        | error error' =>
            rw [severityOf_eq_analysis, severityOf_eq_analysis, analysed, analysed']
            rfl

/-- A service with the differ of the harness. -/
def shop : Settings where
  lib := Harness.Diff.plainLib
  sha := id
  policy := .default
  diffFn := diffDefinitions Harness.Diff.plainLib
  cacheSize := 4096

/-- Two definitions that require a parameter; one of them has it. The hash leaves it out. -/
def twins (declared : Bool) : ChangeRequest where
  server := "fs"
  tool := "read_file"
  sessionId := ""
  oldHash := ""
  newHash := ""
  oldDef := [("name", .str "read_file"), ("inputSchema", .obj [("properties", .obj [])])]
  newDef := [("name", .str "read_file"), ("inputSchema", .obj [
    ("properties", .obj (if declared then [("$comment", .obj [("type", .str "string")])] else [])),
    ("required", .arr [.str "$comment"])])]

/-- The harmless definition is reported first. -/
def twinTurns : List (Event Bool) :=
  [.turn false, .turn false, .turn false, .turn false, .turn true, .turn true, .turn true, .turn true]

omit [DecidableEq Call] in
theorem stage_of_body {body : Body} (through : (service.stage call).body? = some body) :
    service.stage call = .returned body := by
  cases stage : service.stage call with
  | returned other =>
      rw [stage] at through
      cases through
      rfl
  | _ =>
      rw [stage] at through
      cases through

/-- A change that breaks callers is waved through, because its twin was harmless. -/
theorem cached_verdict_fresh_twins :
    ∃ service body, (controlMachine shop twins).Run twinTurns service ∧
      service.stage true = .returned body ∧ body.verdict = .resume ∧
      severityOf shop (twins true) = some .breaking ∧ ¬ AnswersFresh shop (twins true) body := by
  have waved : ((Machine.follow (ControlService.handle shop twins) twinTurns {}).map
      fun service => (service.stage true).body?.map fun body => (body.verdict, body.severity)) =
        some (some (.resume, some .none)) := by decide +kernel
  have breaking : severityOf shop (twins true) = some .breaking := by decide +kernel
  obtain ⟨service, leads, through⟩ := Option.map_eq_some_iff.mp waved
  obtain ⟨body, answered, shown⟩ := Option.map_eq_some_iff.mp through
  obtain ⟨verdict, severity⟩ := Prod.mk.inj shown
  refine ⟨service, body, Machine.Run.follow (fun _ _ _ => id) (.start rfl) leads,
    stage_of_body answered, verdict, breaking, ?_⟩
  intro fresh
  have own := fresh.1
  rw [severity, breaking] at own
  cases own

/-- One change reported for two servers; the second report has a comment the hash leaves out. -/
def commented (again : Bool) : ChangeRequest where
  server := if again then "mirror" else "fs"
  tool := "read_file"
  sessionId := ""
  oldHash := ""
  newHash := ""
  oldDef := [("name", .str "read_file"), ("inputSchema", .obj [("properties", .obj [])])]
  newDef := [("name", .str "read_file"), ("inputSchema", .obj (
    (if again then [("$comment", .str "mirrored")] else []) ++ [
      ("properties", .obj [("path", .obj [("type", .str "string")])]),
      ("required", .arr [.str "path"])]))]

/-- A second report of a change is answered from the cache, as a fresh service would answer it. -/
theorem cached_verdict_fresh_shared :
    ∃ service body, (controlMachine shop commented).Run twinTurns service ∧
      service.stage true = .returned body ∧ body.cacheHit = true ∧ body.verdict = .suspend ∧
      AnswersFresh shop (commented true) body := by
  have shared : ((Machine.follow (ControlService.handle shop commented) twinTurns {}).map
      fun service => (service.stage true).body?.map fun body =>
        (body.cacheHit, body.verdict, body.severity)) =
          some (some (true, .suspend, some .breaking)) := by decide +kernel
  have severities : ∀ again, severityOf shop (commented again) = some .breaking := by
    decide +kernel
  obtain ⟨service, leads, through⟩ := Option.map_eq_some_iff.mp shared
  obtain ⟨body, answered, shown⟩ := Option.map_eq_some_iff.mp through
  obtain ⟨cacheHit, verdict, severity⟩ := by simpa only [Prod.mk.injEq] using shown
  have run : (controlMachine shop commented).Run twinTurns service :=
    Machine.Run.follow (fun _ _ _ => id) (.start rfl) leads
  have alike : SameSeverity shop commented := by
    intro call other _ _ _
    rw [severities call, severities other]
  exact ⟨service, body, run, stage_of_body answered, cacheHit, verdict,
    (cached_verdict_fresh shop commented).1 alike _ service run true body
      (stage_of_body answered) (by simp [severity])⟩

end Control
