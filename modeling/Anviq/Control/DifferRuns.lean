import Anviq.Control.Approval
import Anviq.Control.Recency

/-! # Runs of the differ

One run of the differ for a change at a time, as long as the cache never evicts a future that
is still pending: then every call that runs the differ owns the entry of its change, and an
entry with a result stays until it is evicted as the least recently used one.
-/

namespace Control

open Harness (PyError PyJson)

variable {Call : Type} [DecidableEq Call] {settings : Settings} {requests : Call → ChangeRequest}
  {service next : ControlService Call} {event : Event Call}

/-! ## Evictions -/

theorem evict_get? {cacheSize : Int} {cache : Dict HashPair Nat} {hashes : HashPair} {future : Nat}
    (found : (evict cacheSize cache).get? hashes = some future) :
    cache.get? hashes = some future :=
  Dict.get?_eq_some.mpr ((evictItems_suffix cacheSize cache.items).subset
    (Dict.get?_eq_some.mp found))

/-- A cache of a negative size keeps nothing. -/
theorem evict_negative {cacheSize : Int} (size : cacheSize < 0) (cache : Dict HashPair Nat) :
    evict cacheSize cache = .empty := by
  apply Dict.ext
  change evictItems cacheSize cache.items = []
  induction cache.items with
  | nil => rfl
  | cons item items ih => rw [evictItems, if_pos (by omega), ih]

/-- The entries a call evicts when it adds its own. -/
def ControlService.evicted (settings : Settings) (service : ControlService Call) :
    Event Call → List (HashPair × Nat)
  | .turn call =>
      match service.stage call with
      | .unapproved hashes =>
          if service.cache.get? hashes = none then
            let cache := service.cache.assign hashes service.created
            cache.items.filter fun item => item ∉ (evict settings.cacheSize cache).items
          else []
      | _ => []
  | _ => []

/-- No future is evicted that is still pending. -/
def KeepsPending (settings : Settings) (service : ControlService Call) (event : Event Call) : Prop :=
  ∀ item ∈ service.evicted settings event, (service.futures item.2).isSome

instance : Decidable (KeepsPending settings service event) :=
  inferInstanceAs
    (Decidable (∀ item ∈ service.evicted settings event, (service.futures item.2).isSome))

omit [DecidableEq Call] in
/-- What is not evicted stays. -/
theorem kept_or_evicted (settings : Settings) {call : Call} {hashes other : HashPair} {future : Nat}
    (at' : service.stage call = .unapproved hashes) (missing : service.cache.get? hashes = none)
    (found : (service.cache.assign hashes service.created).get? other = some future) :
    (evict settings.cacheSize (service.cache.assign hashes service.created)).get? other =
        some future ∨
      (other, future) ∈ service.evicted settings (.turn call) := by
  by_cases kept : (other, future) ∈
      (evict settings.cacheSize (service.cache.assign hashes service.created)).items
  · exact Or.inl (Dict.get?_eq_some.mpr kept)
  · refine Or.inr ?_
    simp only [ControlService.evicted, at', missing, ↓reduceIte]
    exact List.mem_filter.mpr ⟨Dict.get?_eq_some.mp found, decide_eq_true kept⟩

/-! ## Owners -/

/-- The future a call has to give a result. -/
def Stage.owned? : Stage → Option Nat
  | .analysing _ future => some future
  | .failing _ future _ => some future
  | _ => none

/-- The calls that run the differ own the entries of their changes. -/
structure Owned (service : ControlService Call) : Prop where
  cached : ∀ hashes future, service.cache.get? hashes = some future → future < service.created
  fresh : ∀ future, service.created ≤ future → service.futures future = none
  pending : ∀ call future, (service.stage call).owned? = some future →
    future < service.created ∧ service.futures future = none
  alone : ∀ call other future, (service.stage call).owned? = some future →
    (service.stage other).owned? = some future → call = other
  running : ∀ call hashes future, service.stage call = .analysing hashes future →
    service.cache.get? hashes = some future

omit [DecidableEq Call] in
/-- A call that runs the differ owns its future. -/
theorem Stage.owned?_analysing {call : Call} {hashes : HashPair} {future : Nat}
    (at' : service.stage call = .analysing hashes future) :
    (service.stage call).owned? = some future := by
  rw [at']
  rfl

/-- A call that has nothing to give goes on, and the lookups stay what they are. -/
theorem Owned.goto {other : ControlService Call} {call : Call} {stage : Stage}
    (owned : Owned service)
    (cache : ∀ hashes, other.cache.get? hashes = service.cache.get? hashes)
    (futures : other.futures = service.futures) (created : other.created = service.created)
    (stages : other.stage = service.stage) (owns : stage.owned? = none) :
    Owned (other.goto call stage) := by
  -- A call that owns something is another one.
  have elsewhere : ∀ {anyone : Call} {future : Nat},
      ((other.goto call stage).stage anyone).owned? = some future →
        (service.stage anyone).owned? = some future := by
    intro anyone future owning
    by_cases self : anyone = call
    · rw [self, ControlService.goto_stage, owns] at owning
      cases owning
    · rw [ControlService.goto_stage_of_ne _ _ _ self, stages] at owning
      exact owning
  refine ⟨?_, ?_, ?_, ?_, ?_⟩
  · intro hashes future found
    rw [ControlService.goto_created, created]
    exact owned.cached hashes future ((cache hashes).symm.trans found)
  · intro future beyond
    rw [ControlService.goto_created, created] at beyond
    rw [ControlService.goto_futures, futures]
    exact owned.fresh future beyond
  · intro anyone future owning
    rw [ControlService.goto_created, ControlService.goto_futures, created, futures]
    exact owned.pending anyone future (elsewhere owning)
  · intro left right future owning owning'
    exact owned.alone left right future (elsewhere owning) (elsewhere owning')
  · intro anyone hashes future at'
    have apart : anyone ≠ call := by
      intro self
      rw [self, ControlService.goto_stage] at at'
      rw [at'] at owns
      cases owns
    rw [ControlService.goto_stage_of_ne _ _ _ apart, stages] at at'
    rw [ControlService.goto_cache, cache]
    exact owned.running anyone hashes future at'

/-- A call gives its future a result and goes on with nothing left to give. -/
theorem Owned.give {call : Call} {future : Nat} {stage : Stage} (owned : Owned service)
    (owner : (service.stage call).owned? = some future) (result : Except PyError Analysis)
    (owns : stage.owned? = none) : Owned ((service.setFuture future result).goto call stage) := by
  have elsewhere : ∀ {anyone : Call} {other : Nat},
      (((service.setFuture future result).goto call stage).stage anyone).owned? = some other →
        (service.stage anyone).owned? = some other ∧ anyone ≠ call := by
    intro anyone other owning
    by_cases self : anyone = call
    · rw [self, ControlService.goto_stage, owns] at owning
      cases owning
    · rw [ControlService.goto_stage_of_ne _ _ _ self] at owning
      exact ⟨owning, self⟩
  refine ⟨owned.cached, ?_, ?_, ?_, ?_⟩
  · intro other beyond
    have apart : other ≠ future := by
      have early : future < service.created := (owned.pending call future owner).1
      have late : service.created ≤ other := beyond
      omega
    rw [ControlService.goto_futures, ControlService.setFuture_futures_of_ne _ _ apart]
    exact owned.fresh other beyond
  · intro anyone other owning
    obtain ⟨before, apart⟩ := elsewhere owning
    have distinct : other ≠ future := by
      intro same
      rw [same] at before
      exact apart (owned.alone anyone call future before owner)
    rw [ControlService.goto_futures, ControlService.setFuture_futures_of_ne _ _ distinct]
    exact owned.pending anyone other before
  · intro left right other owning owning'
    exact owned.alone left right other (elsewhere owning).1 (elsewhere owning').1
  · intro anyone hashes other at'
    have apart := (elsewhere (Stage.owned?_analysing at')).2
    rw [ControlService.goto_stage_of_ne _ _ _ apart] at at'
    exact owned.running anyone hashes other at'

/-- A call adds an entry and owns it, when no pending future is evicted. -/
theorem Owned.add {call : Call} {hashes : HashPair} (owned : Owned service) (stats : Stats)
    (at' : service.stage call = .unapproved hashes) (missing : service.cache.get? hashes = none)
    (keeps : KeepsPending settings service (.turn call)) :
    Owned (({ service with
      cache := evict settings.cacheSize (service.cache.assign hashes service.created)
      stats
      created := service.created + 1 } : ControlService Call).goto call
        (.analysing hashes service.created)) := by
  -- A pending entry is not evicted.
  have stays : ∀ {other : HashPair} {future : Nat},
      (service.cache.assign hashes service.created).get? other = some future →
        service.futures future = none →
          (evict settings.cacheSize (service.cache.assign hashes service.created)).get? other =
            some future := by
    intro other future found pending
    obtain kept | evicted := kept_or_evicted settings at' missing found
    · exact kept
    · have set := keeps _ evicted
      rw [pending] at set
      cases set
  have unset : service.futures service.created = none := owned.fresh _ (le_refl _)
  refine ⟨?_, ?_, ?_, ?_, ?_⟩
  · intro other future found
    have before := evict_get? found
    rw [Dict.get?_assign] at before
    change future < service.created + 1
    split at before
    · cases before
      exact Nat.lt_succ_self _
    · exact Nat.lt_succ_of_lt (owned.cached other future before)
  · intro future beyond
    exact owned.fresh future (Nat.le_of_succ_le beyond)
  · intro anyone future owning
    change future < service.created + 1 ∧ service.futures future = none
    by_cases self : anyone = call
    · rw [self, ControlService.goto_stage] at owning
      cases owning
      exact ⟨Nat.lt_succ_self _, unset⟩
    · rw [ControlService.goto_stage_of_ne _ _ _ self] at owning
      obtain ⟨early, pending⟩ := owned.pending anyone future owning
      exact ⟨Nat.lt_succ_of_lt early, pending⟩
  · intro left right future owning owning'
    by_cases self : left = call
    · by_cases self' : right = call
      · rw [self, self']
      · rw [self, ControlService.goto_stage] at owning
        rw [ControlService.goto_stage_of_ne _ _ _ self'] at owning'
        cases owning
        exact absurd (owned.pending right _ owning').1 (lt_irrefl _)
    · rw [ControlService.goto_stage_of_ne _ _ _ self] at owning
      by_cases self' : right = call
      · rw [self', ControlService.goto_stage] at owning'
        cases owning'
        exact absurd (owned.pending left _ owning).1 (lt_irrefl _)
      · rw [ControlService.goto_stage_of_ne _ _ _ self'] at owning'
        exact owned.alone left right future owning owning'
  · intro anyone other future running
    rw [ControlService.goto_cache]
    by_cases self : anyone = call
    · rw [self, ControlService.goto_stage] at running
      cases running
      exact stays (by rw [Dict.get?_assign, if_pos rfl]) unset
    · rw [ControlService.goto_stage_of_ne _ _ _ self] at running
      have found := owned.running anyone other future running
      have apart : other ≠ hashes := by
        intro same
        rw [same, missing] at found
        cases found
      exact stays (by rw [Dict.get?_assign, if_neg apart]; exact found)
        (owned.pending anyone future (Stage.owned?_analysing running)).2

/-- A call whose differ fails takes its own entry out. -/
theorem Owned.fail {call : Call} {hashes : HashPair} {future : Nat} (owned : Owned service)
    (at' : service.stage call = .analysing hashes future) (error : PyError) :
    Owned (service.failed call hashes future error) := by
  have owner := Stage.owned?_analysing at'
  have elsewhere : ∀ {anyone : Call} {other : Nat},
      ((service.failed call hashes future error).stage anyone).owned? = some other →
        (service.stage anyone).owned? = some other := by
    intro anyone other owning
    by_cases self : anyone = call
    · rw [self] at owning ⊢
      rw [owner]
      exact (congrArg Stage.owned? (ControlService.goto_stage ..)).symm.trans owning
    · rw [ControlService.failed, ControlService.goto_stage_of_ne _ _ _ self] at owning
      exact owning
  refine ⟨?_, owned.fresh, ?_, ?_, ?_⟩
  · intro other future' found
    have erased : (service.cache.erase hashes).get? other = some future' := found
    rw [Dict.get?_erase] at erased
    split at erased
    · cases erased
    · exact owned.cached other future' erased
  · intro anyone other owning
    exact owned.pending anyone other (elsewhere owning)
  · intro left right other owning owning'
    exact owned.alone left right other (elsewhere owning) (elsewhere owning')
  · intro anyone other future' running
    by_cases self : anyone = call
    · rw [self, ControlService.failed, ControlService.goto_stage] at running
      cases running
    · rw [ControlService.failed, ControlService.goto_stage_of_ne _ _ _ self] at running
      have found := owned.running anyone other future' running
      have apart : other ≠ hashes := by
        intro same
        rw [same, owned.running call hashes future at'] at found
        cases found
        exact self (owned.alone anyone call future (Stage.owned?_analysing running) owner)
      change (service.cache.erase hashes).get? other = some future'
      rw [Dict.get?_erase, if_neg apart]
      exact found

theorem Owned.step (owned : Owned service) (keeps : KeepsPending settings service event)
    (handled : service.handle settings requests event = some next) : Owned next := by
  cases handle_move handled with
  | unhashed _ _ => exact owned.goto (fun _ => rfl) rfl rfl rfl rfl
  | approvedFirst _ _ _ _ => exact owned.goto (fun _ => rfl) rfl rfl rfl rfl
  | unapproved _ _ _ _ => exact owned.goto (fun _ => rfl) rfl rfl rfl rfl
  | owns stats at' missing _ => exact owned.add stats at' missing keeps
  | @breaks call hashes _ at' missing size =>
      -- Nothing is left of the cache, not even the entry just added.
      have evicted : (hashes, service.created) ∈ service.evicted settings (.turn call) := by
        have added : (service.cache.assign hashes service.created).get? hashes =
            some service.created := by rw [Dict.get?_assign, if_pos rfl]
        obtain kept | evicted := kept_or_evicted settings at' missing added
        · exact absurd kept (by rw [evict_negative size]; simp)
        · exact evicted
      have set := keeps _ evicted
      rw [owned.fresh _ (le_refl _)] at set
      cases set
  | joins _ _ _ => exact owned.goto (fun _ => Dict.get?_moveToEnd) rfl rfl rfl rfl
  | succeeds at' _ => exact owned.give (Stage.owned?_analysing at') _ rfl
  | fails at' _ => exact owned.fail at' _
  | reports at' => exact owned.give (by rw [at']; rfl) _ rfl
  | shares _ _ => exact owned.goto (fun _ => rfl) rfl rfl rfl rfl
  | sharesError _ _ => exact owned.goto (fun _ => rfl) rfl rfl rfl rfl
  | approvedSince _ _ _ => exact owned.goto (fun _ => rfl) rfl rfl rfl rfl
  | answers _ _ => exact owned.goto (fun _ => rfl) rfl rfl rfl rfl
  | refused _ => exact owned
  | approves _ => exact ⟨owned.cached, owned.fresh, owned.pending, owned.alone, owned.running⟩

/-- In a run in which no pending future is evicted, the calls that run the differ own the
entries of their changes. -/
theorem run_owned {events : List (Event Call)}
    (run : ((controlMachine settings requests).restrict (KeepsPending settings)).Run events
      service) : Owned service := by
  refine run.invariant (P := fun _ service => Owned service) ?_ ?_
  · intro service begins
    rw [begins]
    exact ⟨nofun, fun _ _ => rfl, nofun, nofun, nofun⟩
  · intro events service event next owned step
    exact owned.step step.1 step.2

/-! ## Results -/

/-- The entry of an analysis that succeeded is there until it is evicted. -/
theorem result_step {hashes : HashPair} {future : Nat} {analysis : Analysis}
    (owned : Owned service) (handled : service.handle settings requests event = some next)
    (found : service.cache.get? hashes = some future)
    (set : service.futures future = some (.ok analysis)) :
    (next.cache.get? hashes = some future ∧ next.futures future = some (.ok analysis)) ∨
      (hashes, future) ∈ service.evicted settings event := by
  -- A call that owns a future has not given it a result.
  have apart : ∀ {call : Call} {other : Nat}, (service.stage call).owned? = some other →
      future ≠ other := by
    intro call other owner same
    rw [same, (owned.pending call other owner).2] at set
    cases set
  have added : ∀ {call : Call} {other : HashPair}, service.stage call = .unapproved other →
      service.cache.get? other = none →
        ((evict settings.cacheSize (service.cache.assign other service.created)).get? hashes =
            some future ∧ service.futures future = some (.ok analysis)) ∨
          (hashes, future) ∈ service.evicted settings (.turn call) := by
    intro call other at' missing
    have distinct : hashes ≠ other := by
      intro same
      rw [same, missing] at found
      cases found
    have before : (service.cache.assign other service.created).get? hashes = some future := by
      rw [Dict.get?_assign, if_neg distinct, found]
    exact (kept_or_evicted settings at' missing before).imp_left fun kept => ⟨kept, set⟩
  cases handle_move handled with
  | owns _ at' missing _ => exact added at' missing
  | breaks _ at' missing _ => exact added at' missing
  | joins _ _ _ => exact Or.inl ⟨Dict.get?_moveToEnd.trans found, set⟩
  | succeeds at' _ =>
      refine Or.inl ⟨found, ?_⟩
      rw [ControlService.goto_futures, ControlService.setFuture_futures_of_ne _ _
        (apart (Stage.owned?_analysing at'))]
      exact set
  | @fails _ call other future' _ at' _ =>
      refine Or.inl ⟨?_, set⟩
      have distinct : hashes ≠ other := by
        intro same
        rw [same, owned.running call other future' at'] at found
        cases found
        exact apart (Stage.owned?_analysing at') rfl
      change (service.cache.erase other).get? hashes = some future
      rw [Dict.get?_erase, if_neg distinct, found]
  | @reports call _ future' _ at' =>
      refine Or.inl ⟨found, ?_⟩
      have owner : (service.stage call).owned? = some future' := by
        rw [at']
        rfl
      rw [ControlService.goto_futures, ControlService.setFuture_futures_of_ne _ _ (apart owner)]
      exact set
  | _ => exact Or.inl ⟨found, set⟩

/-- The differ of the call succeeds with the future here. -/
def Succeeds (settings : Settings) (requests : Call → ChangeRequest)
    (service : ControlService Call) (call : Call) (hashes : HashPair) (future : Nat) : Prop :=
  service.stage call = .analysing hashes future ∧
    ∃ analysis, analyse settings.diffFn (requests call).tool (requests call).oldDef
      (requests call).newDef = .ok analysis

/-- In the course of these events an entry was evicted as the least recently used: the cache is
full without it, and every change it keeps was used after the last use of the evicted one. -/
def EvictedIn (settings : Settings) (requests : Call → ChangeRequest)
    (earlier later : List (Event Call)) (item : HashPair × Nat) : Prop :=
  ∃ between event after moment next, later = between ++ event :: after ∧
    (controlMachine settings requests).Run (earlier ++ between) moment ∧
    moment.handle settings requests event = some next ∧ item ∈ moment.evicted settings event ∧
    settings.cacheSize ≤ next.cache.size ∧
    ∀ kept ∈ next.cache.keys,
      UsedSince settings requests (earlier ++ between ++ [event]) item.1 kept

/-- What is evicted is what was least recently used. -/
theorem evicted_oldest {events : List (Event Call)} {item : HashPair × Nat}
    (run : (controlMachine settings requests).Run events service)
    (handled : service.handle settings requests event = some next)
    (evicted : item ∈ service.evicted settings event) :
    settings.cacheSize ≤ next.cache.size ∧
      ∀ kept ∈ next.cache.keys, UsedSince settings requests (events ++ [event]) item.1 kept := by
  unfold ControlService.evicted at evicted
  split at evicted
  · next call =>
      split at evicted
      · next hashes at' =>
          split at evicted
          · next missing =>
              dsimp only at evicted
              obtain ⟨among, gone⟩ := List.mem_filter.mp evicted
              obtain ⟨full, since⟩ := evict_front
                ((run_ordered run).add run at' missing service.created) among
                (of_decide_eq_true gone)
              have cache : next.cache = evict settings.cacheSize
                  (service.cache.assign hashes service.created) := by
                have turned : service.turn settings requests call = some next := handled
                simp only [ControlService.turn, at', ControlService.cachedAnalysis, missing,
                  Option.some.injEq] at turned
                rw [← turned]
                split <;> rfl
              rw [cache]
              refine ⟨full, ?_⟩
              intro kept among
              obtain ⟨item, stays, rfl⟩ := List.mem_map.mp among
              exact since item stays
          · cases evicted
      · cases evicted
  · cases evicted

/-- An analysis that succeeded is in the cache, or has been evicted since. -/
theorem result_run {events : List (Event Call)}
    (run : ((controlMachine settings requests).restrict (KeepsPending settings)).Run events
      service) {earlier later : List (Event Call)} {call : Call} {moment : ControlService Call}
    {hashes : HashPair} {future : Nat} (split : events = earlier ++ .turn call :: later)
    (before : (controlMachine settings requests).Run earlier moment)
    (succeeds : Succeeds settings requests moment call hashes future) :
    (service.cache.get? hashes = some future ∧
        ∃ analysis, service.futures future = some (.ok analysis)) ∨
      EvictedIn settings requests (earlier ++ [.turn call]) later (hashes, future) := by
  obtain ⟨at', analysis, analysed⟩ := succeeds
  induction run generalizing later with
  | start begins => simp at split
  | @concat events service next event run step ih =>
      obtain ⟨rfl, rfl, rfl⟩ | ⟨between, rfl, rfl⟩ := concat_eq_append_cons.mp split
      · have same : moment = service := run_deterministic before run.unrestricted
        subst same
        have found := (run_owned run).running call hashes future at'
        have handled : moment.turn settings requests call = some next := step.2
        unfold ControlService.turn at handled
        rw [at'] at handled
        simp only [ControlService.analysed, analysed, Option.some.injEq] at handled
        rw [← handled]
        exact Or.inl ⟨found, analysis, ControlService.setFuture_futures ..⟩
      · obtain ⟨found, analysis', set⟩ | evicted := ih rfl
        · obtain ⟨found', set'⟩ | evicted := result_step (run_owned run) step.2 found set
          · exact Or.inl ⟨found', analysis', set'⟩
          · have here : (controlMachine settings requests).Run
                (earlier ++ [.turn call] ++ between) service := by
              rw [List.append_assoc, List.singleton_append]
              exact run.unrestricted
            exact Or.inr ⟨between, event, [], service, next, rfl, here, step.2, evicted,
              evicted_oldest here step.2 evicted⟩
        · obtain ⟨front, evictor, after, instant, then', same, evicted⟩ := evicted
          refine Or.inr ⟨front, evictor, after ++ [event], instant, then', ?_, evicted⟩
          rw [same, List.append_assoc, List.cons_append]

/-- The call runs the differ for the change. -/
def Diffing (service : ControlService Call) (call : Call) (hashes : HashPair) : Prop :=
  ∃ future, service.stage call = .analysing hashes future

/-- The call is about to run the differ for the change. -/
def Misses (service : ControlService Call) (call : Call) (hashes : HashPair) : Prop :=
  service.stage call = .unapproved hashes ∧ service.cache.get? hashes = none

/-- **At most one run of the differ for a change at a time.** In every run in which no pending
future is evicted, no two calls run the differ for one change, a run that fails takes out its
own entry and nothing else, and a change whose analysis succeeded is analysed again only when
that entry has been evicted as the least recently used. -/
theorem one_differ_run {events : List (Event Call)}
    (run : ((controlMachine settings requests).restrict (KeepsPending settings)).Run events
      service) :
    (∀ call other hashes, Diffing service call hashes → Diffing service other hashes →
      call = other) ∧
    (∀ event next call hashes future error, service.stage call = .analysing hashes future →
      service.handle settings requests event = some next →
      next.stage call = .failing hashes future error →
        service.cache.get? hashes = some future ∧ next.cache = service.cache.erase hashes) ∧
    ∀ earlier later call moment hashes future, events = earlier ++ .turn call :: later →
      (controlMachine settings requests).Run earlier moment →
      Succeeds settings requests moment call hashes future →
      ∀ other, Misses service other hashes →
        EvictedIn settings requests (earlier ++ [.turn call]) later (hashes, future) := by
  have owned := run_owned run
  refine ⟨?_, ?_, ?_⟩
  · intro call other hashes diffing diffing'
    obtain ⟨future, at'⟩ := diffing
    obtain ⟨future', at''⟩ := diffing'
    have same := owned.running call hashes future at'
    rw [owned.running other hashes future' at''] at same
    cases same
    exact owned.alone call other future (Stage.owned?_analysing at')
      (Stage.owned?_analysing at'')
  · intro event next call hashes future error at' handled fails
    refine ⟨owned.running call hashes future at', ?_⟩
    have about : event.call? = some call := by
      by_contra apart
      rw [handle_stage handled apart, at'] at fails
      cases fails
    cases event with
    | turn mover =>
        cases about
        have turned : service.turn settings requests call = some next := handled
        unfold ControlService.turn at turned
        rw [at'] at turned
        simp only [Option.some.injEq] at turned
        rw [← turned] at fails ⊢
        unfold ControlService.analysed at fails ⊢
        dsimp only at fails ⊢
        split at fails
        · rw [ControlService.goto_stage] at fails
          cases fails
        · rfl
    | failure mover _ =>
        cases about
        simp only [ControlService.handle, at', Option.some.injEq] at handled
        rw [← handled]
        rfl
    | approve _ _ => cases about
  · intro earlier later call moment hashes future split before succeeds other misses
    obtain ⟨found, -⟩ | evicted := result_run run split before succeeds
    · rw [misses.2] at found
      cases found
    · exact evicted

/-- Two reports of one change, and one of another change between them. -/
def drillRequests (call : Fin 3) : ChangeRequest :=
  if call = 1 then
    { drillRequest with
      newDef := [("name", .str "read_file"), ("description", .str "Reads files.")] }
  else drillRequest

/-- Each of the three calls looks for its change in the cache. -/
def drillTurns : List (Event (Fin 3)) :=
  [.turn 0, .turn 0, .turn 1, .turn 1, .turn 2, .turn 2]

/-- The hashes of the change reported twice. -/
def drillHashes : HashPair :=
  ("sha256:" ++ String.ofList (List.replicate 64 '3'),
    "sha256:" ++ String.ofList (List.replicate 64 '5'))

/-- A change is analysed by two calls at once when its entry has been evicted in between. -/
theorem one_differ_run_overflow :
    let small := { drill with cacheSize := 1 }
    ∃ service, (controlMachine small drillRequests).Run drillTurns service ∧
      Diffing service 0 drillHashes ∧ Diffing service 2 drillHashes := by
  intro small
  have both : (Machine.follow (ControlService.handle small drillRequests) drillTurns {}).map
      (fun service => (service.stage 0, service.stage 2)) =
        some (.analysing drillHashes 0, .analysing drillHashes 2) := by decide +kernel
  obtain ⟨service, leads, at'⟩ := Option.map_eq_some_iff.mp both
  obtain ⟨first, second⟩ := Prod.mk.inj at'
  exact ⟨service, Machine.Run.follow (fun _ _ _ => id) (.start rfl) leads, ⟨0, first⟩, ⟨2, second⟩⟩

/-- The first change is analysed, then the other one, and then the first is reported again. -/
def evictingTurns : List (Event (Fin 3)) :=
  [.turn 0, .turn 0, .turn 0, .turn 1, .turn 1, .turn 1, .turn 2]

/-- A change that is reported again when its finished analysis has been evicted is analysed anew. -/
theorem one_differ_run_evicting :
    let small := { drill with cacheSize := 1 }
    ∃ service, (controlMachine small drillRequests).Run evictingTurns service ∧
      Misses service 2 drillHashes ∧
      EvictedIn small drillRequests [.turn 0, .turn 0, .turn 0] [.turn 1, .turn 1, .turn 1, .turn 2]
        (drillHashes, 0) := by
  intro small
  let handle (service : ControlService (Fin 3)) (event : Event (Fin 3)) :=
    if KeepsPending small service event then service.handle small drillRequests event else none
  have guarded : ∀ state event next, handle state event = some next →
      KeepsPending small state event ∧ state.handle small drillRequests event = some next := by
    intro state event next handled
    dsimp only [handle] at handled
    split at handled
    · next keeps => exact ⟨keeps, handled⟩
    · cases handled
  have follows : (Machine.follow handle evictingTurns {}).map
      (fun service => (service.stage 2, service.cache.get? drillHashes)) =
        some (.unapproved drillHashes, none) := by decide +kernel
  have analysing : (Machine.follow handle [.turn 0, .turn 0] {}).map
      (fun service => service.stage 0) = some (.analysing drillHashes 0) := by decide +kernel
  obtain ⟨service, leads, at'⟩ := Option.map_eq_some_iff.mp follows
  obtain ⟨stage, missing⟩ := Prod.mk.inj at'
  obtain ⟨moment, early, running⟩ := Option.map_eq_some_iff.mp analysing
  have run : ((controlMachine small drillRequests).restrict (KeepsPending small)).Run evictingTurns
      service := .follow guarded (.start rfl) leads
  have before : ((controlMachine small drillRequests).restrict (KeepsPending small)).Run
      [.turn 0, .turn 0] moment := .follow guarded (.start rfl) early
  exact ⟨service, run.unrestricted, ⟨stage, missing⟩,
    (one_differ_run run).2.2 [.turn 0, .turn 0] _ 0 moment drillHashes 0 rfl before.unrestricted
      ⟨running, _, rfl⟩ 2 ⟨stage, missing⟩⟩

end Control
