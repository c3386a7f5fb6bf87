import Anviq.Semantic.ServedHit

/-! # A clock that moves during a lookup

A lookup reads the clock once for every entry it asks about that may expire, and a shadow
lookup once more for its log. Here each reading is what the clock shows at that moment; where it
stands still the operations are those at one time. Whatever it shows, a lookup only takes entries
of its partition away, moves others to the end of the order, and counts.
-/

namespace Semantic

open Lru (Seconds Ttl expired validTtl)

variable {Vector Score Time Temperature Response : Type} [Seconds Time]
  (config : Config Vector Score Time Temperature)

/-- How often `_is_expired` reads the clock. -/
def readings (entry : Entry Response Time) : Nat :=
  if entry.expiresAt.isSome then 1 else 0

/-! ## Lookups -/

/-- The loop over the candidates, with the number of readings before and after it. -/
def firstLiveAt (clock : Nat → Time) : Nat → List (String × Score) →
    Scope Response Time config.index.State →
    Option (String × Score × Entry Response Time) × Scope Response Time config.index.State × Nat
  | reads, [], scope => (none, scope, reads)
  | reads, (id, score) :: candidates, scope =>
      match scope.partition.entries.get? id with
      | none => firstLiveAt clock reads candidates scope
      | some entry =>
          if expired (clock reads) entry.expiresAt then
            firstLiveAt clock (reads + readings entry) candidates (purgeExpired config scope id)
          else (some (id, score, entry), scope, reads + readings entry)

section Scores

variable [LT Score] [LE Score] [DecidableLT Score] [DecidableLE Score]

/-- The semantic path of `_lookup_internal`. -/
def searchLockedAt (clock : Nat → Time) (reads : Nat) (query : String)
    (scope : Scope Response Time config.index.State) :
    Lookup Response Score × Scope Response Time config.index.State × Nat :=
  if scope.partition.entries.items = [] then
    let (result, scope) := missed scope "empty_partition" "empty_partition" none
    (result, scope, reads)
  else
    match config.embed query with
    | .error failure => (.raised failure, scope, reads)
    | .ok vector =>
        match config.index.search scope.partition.index vector config.topK with
        | .error failure => (.raised failure, scope, reads)
        | .ok candidates =>
            match firstLiveAt config clock reads candidates scope with
            | (none, scope, reads) =>
                let (result, scope) := missed scope "no_live_candidates" "no_live_candidates" none
                (result, scope, reads)
            | (some (id, score, entry), scope, reads) =>
                let (result, scope) := judge config query id score entry scope
                (result, scope, reads)

/-- `_lookup_internal` under the lock of the partition. -/
def lookupLockedAt [One Score] (clock : Nat → Time) (query : String)
    (scope : Scope Response Time config.index.State) :
    Lookup Response Score × Scope Response Time config.index.State × Nat :=
  match scope.partition.exactIndex.get? (config.exactHash query) with
  | none => searchLockedAt config clock 0 query scope
  | some id =>
      match scope.partition.entries.get? id with
      | none => searchLockedAt config clock 0 query scope
      | some entry =>
          if expired (clock 0) entry.expiresAt then
            searchLockedAt config clock (readings entry) query (purgeExpired config scope id)
          else
            let (result, scope) := serve scope entry id 1 "exact" fun metrics =>
              { metrics with hitsExact := metrics.hitsExact + 1 }
            (result, scope, readings entry)

end Scores

namespace SemanticCache

variable (cache : SemanticCache Response Score Time config.index.State)

section Lookups

variable [LT Score] [LE Score] [DecidableLT Score] [DecidableLE Score] [One Score]

/-- `_lookup_internal`. -/
def lookupInternalAt (clock : Nat → Time) (request : Request Temperature) :
    Lookup Response Score × SemanticCache Response Score Time config.index.State × Nat :=
  let decision := config.isCacheable request
  if !decision.cacheable then
    let (result, cache) := cache.missed config decision.text
    (result, cache, 0)
  else
    let key := partitionKeyFor config request.ctx
    match cache.partitions.get? key with
    | none =>
        let (result, cache) := cache.missed config "empty_partition"
        (result, cache, 0)
    | some partition =>
        if partition.entries.items = [] then
          let (result, cache) := cache.missed config "empty_partition"
          (result, cache, 0)
        else
          let (result, scope, reads) :=
            lookupLockedAt config clock request.query (cache.scope config partition)
          (result, cache.put config key scope, reads)

/-- `lookup`. -/
def lookupAt (clock : Nat → Time) (request : Request Temperature) :
    Lookup Response Score × SemanticCache Response Score Time config.index.State :=
  let decision := config.isCacheable request
  if !decision.cacheable then cache.missed config decision.text
  else
    let (result, cache, reads) := cache.lookupInternalAt config clock request
    match config.mode, result with
    | .serve, result => (result, cache)
    | .shadow, .raised failure => (.raised failure, cache)
    | .shadow, .hit hit =>
        let log := cache.shadowLog ++
          [{ at' := clock reads, query := request.query, ctx := request.ctx,
             wouldBe := .hit hit }]
        (.miss { reason := "shadow_mode", bestScore := some hit.score },
          { cache with
            shadowLog := log.drop (log.length - config.shadowLogCapacity)
            metrics :=
              { cache.metrics with shadowWouldHit := cache.metrics.shadowWouldHit + 1 } })
    | .shadow, .miss miss =>
        let log := cache.shadowLog ++
          [{ at' := clock reads, query := request.query, ctx := request.ctx,
             wouldBe := .miss miss }]
        (.miss miss,
          { cache with
            shadowLog := log.drop (log.length - config.shadowLogCapacity)
            metrics :=
              { cache.metrics with shadowWouldMiss := cache.metrics.shadowWouldMiss + 1 } })

/-- An operation, as the clock shows it; a store reads the clock once. -/
def stepAt (clock : Nat → Time) (operation : Operation Temperature Response Time) :
    Reply Response Score × SemanticCache Response Score Time config.index.State :=
  match operation with
  | .lookup request =>
      let (result, cache) := cache.lookupAt config clock request
      (.looked result, cache)
  | operation => cache.step config (clock 0) operation

end Lookups

end SemanticCache

/-! ## A clock that stands still -/

/-- Where the clock stands still the loop over the candidates is that at one time, -/
theorem firstLiveAt_still (now : Time) (candidates : List (String × Score)) :
    ∀ (reads : Nat) (scope : Scope Response Time config.index.State),
      ∃ reads', firstLiveAt config (fun _ => now) reads candidates scope =
        ((firstLive config now candidates scope).1, (firstLive config now candidates scope).2,
          reads') := by
  induction candidates with
  | nil => exact fun reads scope => ⟨reads, rfl⟩
  | cons candidate candidates ih =>
      intro reads scope
      obtain ⟨id, score⟩ := candidate
      unfold firstLiveAt firstLive
      cases scope.partition.entries.get? id with
      | none => exact ih reads scope
      | some entry =>
          dsimp only
          by_cases late : expired now entry.expiresAt = true
          · rw [if_pos late, if_pos late]
            exact ih _ _
          · rw [if_neg late, if_neg late]
            exact ⟨_, rfl⟩

section Still

variable [LT Score] [LE Score] [DecidableLT Score] [DecidableLE Score]

/-- and so is the search, -/
theorem searchLockedAt_still (now : Time) (reads : Nat) (query : String)
    (scope : Scope Response Time config.index.State) :
    ∃ reads', searchLockedAt config (fun _ => now) reads query scope =
      ((searchLocked config now query scope).1, (searchLocked config now query scope).2,
        reads') := by
  unfold searchLockedAt searchLocked
  split
  · exact ⟨_, rfl⟩
  · cases config.embed query with
    | error failure => exact ⟨_, rfl⟩
    | ok vector =>
        dsimp only
        cases config.index.search scope.partition.index vector config.topK with
        | error failure => exact ⟨_, rfl⟩
        | ok candidates =>
            dsimp only
            obtain ⟨reads', live⟩ := firstLiveAt_still config now candidates reads scope
            rw [live]
            obtain ⟨chosen, scope⟩ := firstLive config now candidates scope
            cases chosen with
            | none => exact ⟨_, rfl⟩
            | some chosen => exact ⟨_, rfl⟩

variable [One Score]

/-- the lookup in a partition, -/
theorem lookupLockedAt_still (now : Time) (query : String)
    (scope : Scope Response Time config.index.State) :
    ∃ reads, lookupLockedAt config (fun _ => now) query scope =
      ((lookupLocked config now query scope).1, (lookupLocked config now query scope).2, reads) := by
  unfold lookupLockedAt lookupLocked
  cases scope.partition.exactIndex.get? (config.exactHash query) with
  | none => exact searchLockedAt_still config now 0 query scope
  | some id =>
      dsimp only
      cases scope.partition.entries.get? id with
      | none => exact searchLockedAt_still config now 0 query scope
      | some entry =>
          dsimp only
          split
          · exact searchLockedAt_still config now _ query _
          · exact ⟨_, rfl⟩

/-- At one time, `lookup` is the lookup at that time. -/
theorem lookupAt_still (cache : SemanticCache Response Score Time config.index.State) (now : Time)
    (request : Request Temperature) :
    cache.lookupAt config (fun _ => now) request = cache.lookup config now request := by
  have inside : ∃ reads, cache.lookupInternalAt config (fun _ => now) request =
      ((cache.lookupInternal config now request).1, (cache.lookupInternal config now request).2,
        reads) := by
    unfold SemanticCache.lookupInternalAt SemanticCache.lookupInternal
    dsimp only
    split
    · exact ⟨_, rfl⟩
    · cases cache.partitions.get? (partitionKeyFor config request.ctx) with
      | none => exact ⟨_, rfl⟩
      | some partition =>
          dsimp only
          split
          · exact ⟨_, rfl⟩
          · obtain ⟨reads, locked⟩ := lookupLockedAt_still config now request.query
              (cache.scope config partition)
            rw [locked]
            exact ⟨_, rfl⟩
  obtain ⟨reads, inside⟩ := inside
  unfold SemanticCache.lookupAt SemanticCache.lookup
  rewrite [inside]
  obtain ⟨result, after⟩ := cache.lookupInternal config now request
  rfl

/-- and every operation. -/
theorem stepAt_still (cache : SemanticCache Response Score Time config.index.State) (now : Time)
    (operation : Operation Temperature Response Time) :
    cache.stepAt config (fun _ => now) operation = cache.step config now operation := by
  cases operation with
  | lookup request =>
      dsimp only [SemanticCache.stepAt, SemanticCache.step]
      rw [lookupAt_still]
  | _ => rfl

end Still

/-! ## What a lookup does to a partition -/

variable {config}

/-- Entries have been removed, others have been moved to the end of the order, and something has
been counted. -/
inductive Whittled (config : Config Vector Score Time Temperature)
    (before : Scope Response Time config.index.State) :
    Scope Response Time config.index.State → Prop
  | refl : Whittled config before before
  | removed {scope : Scope Response Time config.index.State} {id : String}
      {entry : Entry Response Time} (so : Whittled config before scope)
      (found : scope.partition.entries.get? id = some entry) :
      Whittled config before (removeEntry config scope id).2
  | touched {scope : Scope Response Time config.index.State} {id : String}
      (so : Whittled config before scope) (held : id ∈ scope.partition.order.keys) :
      Whittled config before
        { scope with
          partition := { scope.partition with order := scope.partition.order.moveToEnd id } }
  | counted {scope : Scope Response Time config.index.State} (so : Whittled config before scope)
      (metrics : Metrics) : Whittled config before { scope with metrics }

variable {before scope : Scope Response Time config.index.State}

omit [Seconds Time] in
theorem Whittled.purged {id : String} {entry : Entry Response Time}
    (so : Whittled config before scope) (found : scope.partition.entries.get? id = some entry) :
    Whittled config before (purgeExpired config scope id) := by
  obtain ⟨metrics, purged⟩ := purgeExpired_eq scope id
  rw [purged]
  exact (so.removed found).counted metrics

omit [Seconds Time] in
theorem Whittled.served (so : Whittled config before scope) (entry : Entry Response Time)
    (id : String) (score : Score) (reason : String) (count : Metrics → Metrics) :
    Whittled config before (serve scope entry id score reason count).2 := by
  unfold serve touch
  by_cases held : id ∈ scope.partition.order.keys
  · rw [if_pos held]
    exact (so.touched held).counted _
  · rw [if_neg held]
    exact so

theorem Whittled.firstLiveAt (so : Whittled config before scope) (clock : Nat → Time)
    (candidates : List (String × Score)) (reads : Nat) :
    Whittled config before (firstLiveAt config clock reads candidates scope).2.1 := by
  induction candidates generalizing scope reads with
  | nil => exact so
  | cons candidate candidates ih =>
      obtain ⟨id, score⟩ := candidate
      rw [Semantic.firstLiveAt]
      cases found : scope.partition.entries.get? id with
      | none => exact ih so reads
      | some entry =>
          dsimp only
          split
          · exact ih (so.purged found) _
          · exact so

section Scores

variable [LT Score] [LE Score] [DecidableLT Score] [DecidableLE Score]

omit [Seconds Time] in
theorem Whittled.judged (so : Whittled config before scope) (query id : String) (score : Score)
    (entry : Entry Response Time) :
    Whittled config before (judge config query id score entry scope).2 := by
  unfold judge
  dsimp only
  split
  · exact so.counted _
  · split
    · exact so.counted _
    · split
      · exact so.served entry id score _ _
      · split
        · exact so.counted _
        · exact (so.counted _).served entry id score _ _
        · exact so.counted _

theorem Whittled.searchLockedAt (so : Whittled config before scope) (clock : Nat → Time)
    (reads : Nat) (query : String) :
    Whittled config before (searchLockedAt config clock reads query scope).2.1 := by
  unfold Semantic.searchLockedAt
  split
  · exact so.counted _
  · cases config.embed query with
    | error failure => exact so
    | ok vector =>
        dsimp only
        cases config.index.search scope.partition.index vector config.topK with
        | error failure => exact so
        | ok candidates =>
            have live := so.firstLiveAt clock candidates reads
            dsimp only
            split
            · next scope' reads' first =>
                rw [first] at live
                exact live.counted _
            · next id score entry scope' reads' first =>
                rw [first] at live
                exact live.judged query id score entry

/-- A lookup only whittles its partition down. -/
theorem lookupLockedAt_whittled [One Score] (clock : Nat → Time) (query : String)
    (scope : Scope Response Time config.index.State) :
    Whittled config scope (lookupLockedAt config clock query scope).2.1 := by
  unfold lookupLockedAt
  split
  · exact Whittled.refl.searchLockedAt clock 0 query
  · next id indexed =>
      cases found : scope.partition.entries.get? id with
      | none => exact Whittled.refl.searchLockedAt clock 0 query
      | some entry =>
          dsimp only
          split
          · exact (Whittled.refl.purged found).searchLockedAt clock _ query
          · exact Whittled.refl.served entry id 1 _ _

end Scores

omit [Seconds Time] in
theorem Whittled.shrinks (so : Whittled config before scope)
    (fits : before.partition.Fits config) : ∃ removed, Shrinks config removed before scope := by
  induction so with
  | refl => exact ⟨[], .refl fits⟩
  | removed so found ih =>
      obtain ⟨gone, shrinks⟩ := ih
      exact ⟨_, shrinks.trans (removeEntry_shrinks shrinks.fits found).2⟩
  | touched so held ih =>
      obtain ⟨gone, shrinks⟩ := ih
      obtain ⟨entry, found⟩ := Dict.mem_keys.mp ((shrinks.fits.order _).mp held)
      exact ⟨_, shrinks.trans (touch_eq shrinks.fits found).2⟩
  | counted so metrics ih =>
      obtain ⟨gone, shrinks⟩ := ih
      exact ⟨gone, shrinks.count metrics⟩

end Semantic
