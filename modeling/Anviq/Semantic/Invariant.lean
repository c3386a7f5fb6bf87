import Anviq.Semantic.Cache

/-! # The partitions are consistent

In every partition the entries, their order and the exact index speak of the same
entries, and the map from ids to partitions knows them. Every operation keeps this,
and what it takes away is entries of one partition.
-/

namespace Semantic

open Lru (Seconds Ttl expired validTtl)

variable {Vector Score Time Temperature Response : Type} [Seconds Time]
  {config : Config Vector Score Time Temperature}

/-! ## Partitions -/

/-- The entries, the exact index and the order of a partition fit together. -/
structure Partition.Fits (config : Config Vector Score Time Temperature)
    (partition : Partition Response Time config.index.State) : Prop where
  id : ∀ id entry, partition.entries.get? id = some entry → entry.id = id
  hash : ∀ id entry, partition.entries.get? id = some entry →
    entry.normalizedHash = config.exactHash entry.query
  indexed : ∀ id entry, partition.entries.get? id = some entry →
    partition.exactIndex.get? (config.exactHash entry.query) = some id
  exact : ∀ hash id, partition.exactIndex.get? hash = some id →
    ∃ entry, partition.entries.get? id = some entry ∧ config.exactHash entry.query = hash
  order : ∀ id, id ∈ partition.order.keys ↔ id ∈ partition.entries.keys

/-- An operation has taken entries away, and nothing else. -/
structure Shrinks (config : Config Vector Score Time Temperature) (removed : List String)
    (before after : Scope Response Time config.index.State) : Prop where
  entries : ∀ id, after.partition.entries.get? id =
    if id ∈ removed then none else before.partition.entries.get? id
  entryPartition : ∀ id, after.entryPartition.get? id =
    if id ∈ removed then none else before.entryPartition.get? id
  among : ∀ id ∈ removed, id ∈ before.partition.entries.keys
  fits : after.partition.Fits config

omit [Seconds Time] in
theorem Shrinks.refl {scope : Scope Response Time config.index.State}
    (fits : scope.partition.Fits config) : Shrinks config [] scope scope where
  entries _ := by simp
  entryPartition _ := by simp
  among _ absurdity := absurd absurdity List.not_mem_nil
  fits := fits

omit [Seconds Time] in
theorem Shrinks.trans {first second third : Scope Response Time config.index.State}
    {gone later : List String} (before : Shrinks config gone first second)
    (after : Shrinks config later second third) : Shrinks config (gone ++ later) first third where
  entries id := by
    rw [after.entries, before.entries]
    by_cases here : id ∈ later <;> by_cases there : id ∈ gone <;> simp [here, there]
  entryPartition id := by
    rw [after.entryPartition, before.entryPartition]
    by_cases here : id ∈ later <;> by_cases there : id ∈ gone <;> simp [here, there]
  among id present := by
    rcases List.mem_append.mp present with early | late
    · exact before.among id early
    · obtain ⟨entry, found⟩ := Dict.mem_keys.mp (after.among id late)
      rw [before.entries] at found
      split at found
      · cases found
      · exact Dict.mem_keys.mpr ⟨entry, found⟩
  fits := after.fits

omit [Seconds Time] in
/-- A text without an entry does not get one. -/
theorem Shrinks.absent {before after : Scope Response Time config.index.State}
    {removed : List String} {query : String} (shrinks : Shrinks config removed before after)
    (fits : before.partition.Fits config)
    (absent : before.partition.exactIndex.get? (config.exactHash query) = none) :
    after.partition.exactIndex.get? (config.exactHash query) = none := by
  cases read : after.partition.exactIndex.get? (config.exactHash query) with
  | none => rfl
  | some id =>
      obtain ⟨entry, found, hashed⟩ := shrinks.fits.exact _ id read
      rw [shrinks.entries] at found
      split at found
      · cases found
      · have indexed := fits.indexed id entry found
        rw [hashed, absent] at indexed
        cases indexed

omit [Seconds Time] in
/-- `_remove_entry` of an entry takes it away. -/
theorem removeEntry_shrinks {scope : Scope Response Time config.index.State} {id : String}
    {entry : Entry Response Time} (fits : scope.partition.Fits config)
    (found : scope.partition.entries.get? id = some entry) :
    (removeEntry config scope id).1 = some entry ∧
      Shrinks config [id] scope (removeEntry config scope id).2 := by
  have indexed : scope.partition.exactIndex.get? entry.normalizedHash = some id := by
    rw [fits.hash id entry found]
    exact fits.indexed id entry found
  refine ⟨found, ?_⟩
  unfold removeEntry
  simp only [found, indexed, ↓reduceIte]
  constructor
  · intro other
    simp only [Dict.get?_erase, List.mem_singleton]
  · intro other
    simp only [Dict.get?_erase, List.mem_singleton]
  · intro other present
    rw [List.mem_singleton.mp present]
    exact Dict.mem_keys.mpr ⟨entry, found⟩
  · constructor
    · intro other held heldFound
      rw [Dict.get?_erase] at heldFound
      split at heldFound
      · cases heldFound
      · exact fits.id other held heldFound
    · intro other held heldFound
      rw [Dict.get?_erase] at heldFound
      split at heldFound
      · cases heldFound
      · exact fits.hash other held heldFound
    · intro other held heldFound
      rw [Dict.get?_erase] at heldFound ⊢
      split at heldFound
      · cases heldFound
      · next apart =>
          have heldIndexed := fits.indexed other held heldFound
          have hashes : config.exactHash held.query ≠ entry.normalizedHash := by
            intro same
            rw [same, indexed] at heldIndexed
            exact apart (Option.some.inj heldIndexed).symm
          rw [if_neg hashes]
          exact heldIndexed
    · intro hash other read
      rw [Dict.get?_erase] at read
      split at read
      · cases read
      · next hashApart =>
          obtain ⟨held, heldFound, hashed⟩ := fits.exact hash other read
          have apart : other ≠ id := by
            intro same
            rw [same, found] at heldFound
            rw [← Option.some.inj heldFound, ← fits.hash id entry found] at hashed
            exact hashApart hashed.symm
          exact ⟨held, by rw [Dict.get?_erase, if_neg apart]; exact heldFound, hashed⟩
    · intro other
      rw [Dict.mem_keys, Dict.mem_keys, Dict.get?_erase, Dict.get?_erase]
      by_cases same : other = id
      · simp [same]
      · rw [if_neg same, if_neg same, ← Dict.mem_keys, ← Dict.mem_keys]
        exact fits.order other

omit [Seconds Time] in
/-- Metrics do not matter. -/
theorem Shrinks.count {before after : Scope Response Time config.index.State}
    {removed : List String} (shrinks : Shrinks config removed before after) (metrics : Metrics) :
    Shrinks config removed before { after with metrics } :=
  ⟨shrinks.entries, shrinks.entryPartition, shrinks.among, shrinks.fits⟩

omit [Seconds Time] in
/-- Nor do the metrics before. -/
theorem Shrinks.counted {before after : Scope Response Time config.index.State}
    {removed : List String} {metrics : Metrics}
    (shrinks : Shrinks config removed { before with metrics } after) :
    Shrinks config removed before after :=
  ⟨shrinks.entries, shrinks.entryPartition, shrinks.among, shrinks.fits⟩

omit [Seconds Time] in
/-- `_purge_expired` removes the entry and counts it. -/
theorem purgeExpired_eq (scope : Scope Response Time config.index.State) (id : String) :
    ∃ metrics, purgeExpired config scope id =
      { (removeEntry config scope id).2 with metrics } := by
  unfold purgeExpired
  split
  · next entry scope' equal =>
      obtain rfl : (removeEntry config scope id).2 = scope' := congrArg Prod.snd equal
      exact ⟨_, rfl⟩
  · next scope' equal =>
      obtain rfl : (removeEntry config scope id).2 = scope' := congrArg Prod.snd equal
      exact ⟨_, rfl⟩

omit [Seconds Time] in
theorem purgeExpired_shrinks {scope : Scope Response Time config.index.State} {id : String}
    {entry : Entry Response Time} (fits : scope.partition.Fits config)
    (found : scope.partition.entries.get? id = some entry) :
    Shrinks config [id] scope (purgeExpired config scope id) := by
  obtain ⟨metrics, purged⟩ := purgeExpired_eq scope id
  rw [purged]
  exact (removeEntry_shrinks fits found).2.count metrics

omit [Seconds Time] in
theorem purgeExpired_index {scope : Scope Response Time config.index.State} {id : String} :
    (purgeExpired config scope id).partition.index =
      config.index.remove scope.partition.index id := by
  obtain ⟨metrics, purged⟩ := purgeExpired_eq scope id
  rw [purged]
  rfl

omit [Seconds Time] in
/-- `_evict_lru` removes the entry that was used least recently, if there is one. -/
theorem evictLru_eq (scope : Scope Response Time config.index.State) :
    (scope.partition.order.items = [] ∧ evictLru config scope = scope) ∨
      ∃ id rest metrics, scope.partition.order.items = (id, ()) :: rest ∧
        evictLru config scope = { (removeEntry config scope id).2 with metrics } := by
  unfold evictLru
  cases items : scope.partition.order.items with
  | nil => exact Or.inl ⟨rfl, rfl⟩
  | cons first rest =>
      refine Or.inr ⟨first.1, rest, ?_⟩
      cases removed : (removeEntry config scope first.1).1 with
      | none => exact ⟨_, rfl, by simp only [removeEntry] at removed ⊢; rw [removed]⟩
      | some entry => exact ⟨_, rfl, by simp only [removeEntry] at removed ⊢; rw [removed]⟩

omit [Seconds Time] in
/-- `_evict_lru` takes one entry away, if there is one. -/
theorem evictLru_shrinks {scope : Scope Response Time config.index.State}
    (fits : scope.partition.Fits config) :
    ∃ removed, Shrinks config removed scope (evictLru config scope) := by
  obtain ⟨_, kept⟩ | ⟨id, rest, metrics, items, evicted⟩ := evictLru_eq scope
  · rw [kept]
    exact ⟨[], .refl fits⟩
  · have ordered : id ∈ scope.partition.order.keys := by
      rw [Dict.keys, items]
      exact List.mem_cons_self
    obtain ⟨entry, found⟩ := Dict.mem_keys.mp ((fits.order id).mp ordered)
    rw [evicted]
    exact ⟨[id], (removeEntry_shrinks fits found).2.count metrics⟩

/-- The first live candidate is a candidate, and live. -/
theorem firstLive_spec (now : Time) (candidates : List (String × Score))
    {scope : Scope Response Time config.index.State} (fits : scope.partition.Fits config) :
    (∃ removed, Shrinks config removed scope (firstLive config now candidates scope).2) ∧
      ∀ id score entry, (firstLive config now candidates scope).1 = some (id, score, entry) →
        (id, score) ∈ candidates ∧ expired now entry.expiresAt = false ∧
          (firstLive config now candidates scope).2.partition.entries.get? id = some entry := by
  induction candidates generalizing scope with
  | nil => exact ⟨⟨[], .refl fits⟩, nofun⟩
  | cons candidate candidates ih =>
      obtain ⟨id, score⟩ := candidate
      rw [firstLive]
      cases found : scope.partition.entries.get? id with
      | none =>
          obtain ⟨shrinks, live⟩ := ih fits
          refine ⟨shrinks, ?_⟩
          intro other otherScore entry equal
          obtain ⟨among, rest⟩ := live other otherScore entry equal
          exact ⟨List.mem_cons_of_mem _ among, rest⟩
      | some entry =>
          by_cases late : expired now entry.expiresAt = true
          · simp only [late, ↓reduceIte]
            have purged := purgeExpired_shrinks fits found
            obtain ⟨⟨removed, shrinks⟩, live⟩ := ih purged.fits
            refine ⟨⟨_, purged.trans shrinks⟩, ?_⟩
            intro other otherScore entry equal
            obtain ⟨among, rest⟩ := live other otherScore entry equal
            exact ⟨List.mem_cons_of_mem _ among, rest⟩
          · simp only [late, Bool.false_eq_true, ↓reduceIte]
            refine ⟨⟨[], .refl fits⟩, ?_⟩
            intro other otherScore otherEntry equal
            obtain ⟨rfl, rfl, rfl⟩ : id = other ∧ score = otherScore ∧ entry = otherEntry := by
              simpa using equal
            exact ⟨List.mem_cons_self, by simpa using late, found⟩

omit [Seconds Time] in
/-- An entry that is held is touched without an exception. -/
theorem touch_eq {scope : Scope Response Time config.index.State} {id : String}
    {entry : Entry Response Time} (fits : scope.partition.Fits config)
    (found : scope.partition.entries.get? id = some entry) :
    touch scope.partition id =
        .ok { scope.partition with order := scope.partition.order.moveToEnd id } ∧
      Shrinks config [] scope
        { scope with
          partition := { scope.partition with order := scope.partition.order.moveToEnd id } } := by
  have held : id ∈ scope.partition.order.keys := (fits.order id).mpr (Dict.mem_keys.mpr ⟨_, found⟩)
  refine ⟨if_pos held, ?_⟩
  constructor
  · intro other
    simp
  · intro other
    simp
  · intro other absurdity
    exact absurd absurdity List.not_mem_nil
  · refine ⟨fits.id, fits.hash, fits.indexed, fits.exact, ?_⟩
    intro other
    rw [← fits.order other]
    exact Dict.mem_keys_moveToEnd

omit [Seconds Time] in
theorem serve_spec {scope : Scope Response Time config.index.State} {id : String}
    {entry : Entry Response Time} (fits : scope.partition.Fits config)
    (found : scope.partition.entries.get? id = some entry) (score : Score) (reason : String)
    (count : Metrics → Metrics) :
    (serve scope entry id score reason count).1 =
        .hit
          { response := entry.response, score, matchedQuery := entry.query, reason,
            entryId := entry.id } ∧
      Shrinks config [] scope (serve scope entry id score reason count).2 := by
  obtain ⟨touched, shrinks⟩ := touch_eq fits found
  unfold serve
  rw [touched]
  exact ⟨rfl, shrinks.count _⟩

/-! ## Lookups -/

/-- An entry of the partition, not expired, is what the hit shows. -/
structure ServedFrom (config : Config Vector Score Time Temperature) (now : Time)
    (before after : Scope Response Time config.index.State) (hit : Hit Response Score)
    (entry : Entry Response Time) : Prop where
  before : before.partition.entries.get? hit.entryId = some entry
  after : after.partition.entries.get? hit.entryId = some entry
  current : expired now entry.expiresAt = false
  query : hit.matchedQuery = entry.query
  response : hit.response = entry.response

theorem serve_servedFrom {now : Time} {scope : Scope Response Time config.index.State}
    {id : String} {entry : Entry Response Time} (fits : scope.partition.Fits config)
    (found : scope.partition.entries.get? id = some entry)
    (current : expired now entry.expiresAt = false) (score : Score) (reason : String)
    (count : Metrics → Metrics) :
    ∃ hit, (serve scope entry id score reason count).1 = .hit hit ∧ hit.score = score ∧
      hit.entryId = id ∧
      ServedFrom config now scope (serve scope entry id score reason count).2 hit entry := by
  obtain ⟨served, shrinks⟩ := serve_spec fits found score reason count
  have named := fits.id id entry found
  refine ⟨_, served, rfl, named, ?_, ?_, current, rfl, rfl⟩
  · rw [named]
    exact found
  · rw [named, shrinks.entries]
    exact found

section Lookups

variable [LT Score] [LE Score] [DecidableLT Score] [DecidableLE Score]

omit [Seconds Time] in
/-- Why an entry may answer a query it was not stored for. -/
structure Resembles (config : Config Vector Score Time Temperature)
    (index : config.index.State) (query matchedQuery id : String) (score : Score) : Prop where
  candidate : ∃ vector candidates, config.embed query = .ok vector ∧
    config.index.search index vector config.topK = .ok candidates ∧ (id, score) ∈ candidates
  threshold : ¬ score < config.tauVerify
  guards : config.firstFailure query matchedQuery = none
  confident : config.tauHit ≤ score ∨ config.sameIntent query matchedQuery = .ok true

/-- A live candidate is served only with the thresholds, the guards and the verifier
agreeing. -/
theorem judge_spec {now : Time} (query : String) {id : String} (score : Score)
    {entry : Entry Response Time} {scope : Scope Response Time config.index.State}
    (fits : scope.partition.Fits config)
    (found : scope.partition.entries.get? id = some entry)
    (current : expired now entry.expiresAt = false) :
    Shrinks config [] scope (judge config query id score entry scope).2 ∧
      ∀ hit, (judge config query id score entry scope).1 = .hit hit →
        hit.score = score ∧ hit.entryId = id ∧ ¬ score < config.tauVerify ∧
          config.firstFailure query entry.query = none ∧
          (config.tauHit ≤ score ∨ config.sameIntent query entry.query = .ok true) ∧
          ServedFrom config now scope (judge config query id score entry scope).2 hit entry := by
  unfold judge
  split
  · exact ⟨(Shrinks.refl fits).count _, nofun⟩
  · next high =>
      split
      · exact ⟨(Shrinks.refl fits).count _, nofun⟩
      · next passed =>
          split
          · next reached =>
              refine ⟨(serve_spec fits found score _ _).2, ?_⟩
              intro hit served
              obtain ⟨shown, same, scored, named, from'⟩ :=
                serve_servedFrom fits found current score "semantic" fun metrics =>
                  { metrics with hitsSemantic := metrics.hitsSemantic + 1 }
              obtain rfl : shown = hit := Lookup.hit.inj (same.symm.trans served)
              exact ⟨scored, named, high, passed, Or.inl reached, from'⟩
          · split
            · exact ⟨(Shrinks.refl fits).count _, nofun⟩
            · next agreed =>
                have fits' : ({ scope with
                    metrics := { scope.metrics with
                      verifierCalls := scope.metrics.verifierCalls + 1 } } :
                    Scope Response Time config.index.State).partition.Fits config := fits
                refine ⟨(serve_spec fits' found score _ _).2.counted, ?_⟩
                intro hit served
                obtain ⟨shown, same, scored, named, from'⟩ :=
                  serve_servedFrom fits' found current score "semantic+verified" fun metrics =>
                    { metrics with hitsSemantic := metrics.hitsSemantic + 1 }
                obtain rfl : shown = hit := Lookup.hit.inj (same.symm.trans served)
                exact ⟨scored, named, high, passed, Or.inr agreed,
                  ⟨from'.before, from'.after, from'.current, from'.query, from'.response⟩⟩
            · exact ⟨(Shrinks.refl fits).count _, nofun⟩

/-- What a lookup under the lock serves when it searches an index, and what it takes
away. -/
structure LookedUp (config : Config Vector Score Time Temperature) (now : Time) (query : String)
    (index : config.index.State) (before after : Scope Response Time config.index.State)
    (result : Lookup Response Score) : Prop where
  shrinks : ∃ removed, Shrinks config removed before after
  hit : ∀ hit, result = .hit hit → ∃ entry, ServedFrom config now before after hit entry ∧
    (config.exactHash query = config.exactHash hit.matchedQuery ∨
      Resembles config index query hit.matchedQuery hit.entryId hit.score)

/-- What a search under the lock comes to. -/
theorem searchLocked_spec (now : Time) (query : String)
    {scope : Scope Response Time config.index.State} (fits : scope.partition.Fits config) :
    LookedUp config now query scope.partition.index scope
      (searchLocked config now query scope).2 (searchLocked config now query scope).1 := by
  unfold searchLocked
  split
  · exact ⟨⟨[], (Shrinks.refl fits).count _⟩, nofun⟩
  · split
    · exact ⟨⟨[], .refl fits⟩, nofun⟩
    · next vector embedded =>
        split
        · exact ⟨⟨[], .refl fits⟩, nofun⟩
        · next candidates searched =>
            obtain ⟨⟨removed, shrinks⟩, live⟩ :=
              firstLive_spec now candidates fits
            split
            · next scope' first =>
                rw [first] at shrinks
                exact ⟨⟨removed, shrinks.count _⟩, nofun⟩
            · next id score entry scope' first =>
                rw [first] at shrinks live
                obtain ⟨among, current, found⟩ := live id score entry rfl
                obtain ⟨judged, served⟩ := judge_spec query score shrinks.fits found current
                refine ⟨⟨_, shrinks.trans judged⟩, ?_⟩
                intro hit answered
                obtain ⟨scored, named, high, guarded, agreed, from'⟩ := served hit answered
                refine ⟨entry, ⟨?_, from'.after, from'.current, from'.query, from'.response⟩,
                  Or.inr ⟨⟨vector, candidates, embedded, searched, ?_⟩, ?_, ?_, ?_⟩⟩
                · have before := from'.before
                  rw [shrinks.entries] at before
                  split at before
                  · cases before
                  · exact before
                · rw [named, scored]
                  exact among
                · rw [scored]
                  exact high
                · rw [from'.query]
                  exact guarded
                · rw [scored, from'.query]
                  exact agreed

/-- The index a lookup searches: that of the partition, from which the entry of the
query itself may have been purged. -/
def Searched (config : Config Vector Score Time Temperature)
    (partition : Partition Response Time config.index.State) (index : config.index.State) : Prop :=
  index = partition.index ∨ ∃ id, index = config.index.remove partition.index id

/-- What a lookup under the lock comes to. -/
theorem lookupLocked_spec [One Score] (now : Time) (query : String)
    {scope : Scope Response Time config.index.State} (fits : scope.partition.Fits config) :
    ∃ index, Searched config scope.partition index ∧
      LookedUp config now query index scope (lookupLocked config now query scope).2
        (lookupLocked config now query scope).1 := by
  unfold lookupLocked
  split
  · exact ⟨_, Or.inl rfl, searchLocked_spec now query fits⟩
  · next id indexed =>
      obtain ⟨entry, found, hashed⟩ := fits.exact _ id indexed
      rw [found]
      by_cases late : expired now entry.expiresAt = true
      · simp only [late, ↓reduceIte]
        have purged := purgeExpired_shrinks fits found
        obtain ⟨⟨removed, shrinks⟩, served⟩ :=
          searchLocked_spec now query purged.fits
        refine ⟨_, Or.inr ⟨id, purgeExpired_index⟩, ⟨_, purged.trans shrinks⟩, ?_⟩
        intro hit answered
        obtain ⟨other, from', why⟩ := served hit answered
        refine ⟨other, ⟨?_, from'.after, from'.current, from'.query, from'.response⟩, why⟩
        have before := from'.before
        rw [purged.entries] at before
        split at before
        · cases before
        · exact before
      · simp only [late, Bool.false_eq_true, ↓reduceIte]
        refine ⟨_, Or.inl rfl, ⟨[], (serve_spec fits found 1 _ _).2⟩, ?_⟩
        intro hit answered
        obtain ⟨shown, same, scored, named, from'⟩ :=
          serve_servedFrom fits found (by simpa using late) (1 : Score) "exact" fun metrics =>
            { metrics with hitsExact := metrics.hitsExact + 1 }
        obtain rfl : shown = hit := Lookup.hit.inj (same.symm.trans answered)
        refine ⟨entry, from', Or.inl ?_⟩
        rw [from'.query]
        exact hashed.symm

end Lookups

/-! ## Stores -/

omit [Seconds Time] in
/-- The vectors do not matter. -/
theorem Partition.Fits.indexing {partition : Partition Response Time config.index.State}
    (fits : partition.Fits config) (index : config.index.State) :
    Partition.Fits config { partition with index } :=
  ⟨fits.id, fits.hash, fits.indexed, fits.exact, fits.order⟩

omit [Seconds Time] in
/-- Another entry in the place of one for the same text. -/
theorem Partition.Fits.refresh {partition : Partition Response Time config.index.State}
    (fits : partition.Fits config) {id : String} {entry : Entry Response Time}
    (fresh : Entry Response Time) (found : partition.entries.get? id = some entry) (sameId : fresh.id = entry.id)
    (sameHash : fresh.normalizedHash = entry.normalizedHash)
    (hashed : config.exactHash fresh.query = config.exactHash entry.query) :
    Partition.Fits config { partition with entries := partition.entries.replace id fresh } := by
  have present : id ∈ partition.entries.keys := Dict.mem_keys.mpr ⟨entry, found⟩
  constructor
  · intro other held heldFound
    rw [Dict.get?_replace present] at heldFound
    split at heldFound
    · next same =>
        rw [← Option.some.inj heldFound, sameId, same]
        exact fits.id id entry found
    · exact fits.id other held heldFound
  · intro other held heldFound
    rw [Dict.get?_replace present] at heldFound
    split at heldFound
    · rw [← Option.some.inj heldFound, sameHash, hashed]
      exact fits.hash id entry found
    · exact fits.hash other held heldFound
  · intro other held heldFound
    rw [Dict.get?_replace present] at heldFound
    split at heldFound
    · next same =>
        rw [← Option.some.inj heldFound, hashed, same]
        exact fits.indexed id entry found
    · exact fits.indexed other held heldFound
  · intro hash other read
    obtain ⟨held, heldFound, heldHash⟩ := fits.exact hash other read
    by_cases same : other = id
    · rw [same, found] at heldFound
      refine ⟨fresh, ?_, ?_⟩
      · rw [Dict.get?_replace present, if_pos same]
      · rw [hashed, Option.some.inj heldFound]
        exact heldHash
    · refine ⟨held, ?_, heldHash⟩
      rw [Dict.get?_replace present, if_neg same]
      exact heldFound
  · intro other
    rw [fits.order other, Dict.mem_keys, Dict.mem_keys, Dict.get?_replace present]
    by_cases same : other = id
    · simp [same, found]
    · rw [if_neg same]

omit [Seconds Time] in
/-- A new entry for a text that has none. -/
theorem Partition.Fits.insert {partition : Partition Response Time config.index.State}
    (fits : partition.Fits config) {id : String} {entry : Entry Response Time}
    (freshId : id ∉ partition.entries.keys)
    (freshHash : partition.exactIndex.get? (config.exactHash entry.query) = none)
    (named : entry.id = id) (hashed : entry.normalizedHash = config.exactHash entry.query) :
    Partition.Fits config
      { partition with
        entries := partition.entries.assign id entry
        exactIndex := partition.exactIndex.assign entry.normalizedHash id
        order := partition.order.assign id () } := by
  have apart : ∀ other held, partition.entries.get? other = some held → other ≠ id ∧
      config.exactHash held.query ≠ config.exactHash entry.query := by
    intro other held found
    refine ⟨?_, ?_⟩
    · intro same
      exact freshId (same ▸ Dict.mem_keys.mpr ⟨held, found⟩)
    · intro same
      have indexed := fits.indexed other held found
      rw [same, freshHash] at indexed
      cases indexed
  constructor
  · intro other held heldFound
    rw [Dict.get?_assign] at heldFound
    split at heldFound
    · next same => rw [← Option.some.inj heldFound, same, named]
    · exact fits.id other held heldFound
  · intro other held heldFound
    rw [Dict.get?_assign] at heldFound
    split at heldFound
    · rw [← Option.some.inj heldFound, hashed]
    · exact fits.hash other held heldFound
  · intro other held heldFound
    rw [Dict.get?_assign, hashed]
    rw [Dict.get?_assign] at heldFound
    split at heldFound
    · next same => rw [← Option.some.inj heldFound, if_pos rfl, same]
    · rw [if_neg (apart other held heldFound).2]
      exact fits.indexed other held heldFound
  · intro hash other read
    rw [hashed, Dict.get?_assign] at read
    split at read
    · next same =>
        refine ⟨entry, ?_, same.symm⟩
        rw [Dict.get?_assign, if_pos (Option.some.inj read).symm]
    · obtain ⟨held, heldFound, heldHash⟩ := fits.exact hash other read
      refine ⟨held, ?_, heldHash⟩
      rw [Dict.get?_assign, if_neg (apart other held heldFound).1]
      exact heldFound
  · intro other
    rw [Dict.mem_keys, Dict.mem_keys, Dict.get?_assign, Dict.get?_assign]
    by_cases same : other = id
    · simp [same]
    · rw [if_neg same, if_neg same, ← Dict.mem_keys, ← Dict.mem_keys]
      exact fits.order other

/-- An entry stands under an id, others have gone, and that is all. -/
structure Places (config : Config Vector Score Time Temperature) (key : PartitionKey)
    (id : String) (entry : Entry Response Time)
    (before after : Scope Response Time config.index.State) : Prop where
  removed : ∃ removed : List String, (∀ other ∈ removed, other ∈ before.partition.entries.keys) ∧
    (∀ other, after.partition.entries.get? other =
      if other = id then some entry
      else if other ∈ removed then none else before.partition.entries.get? other) ∧
    ∀ other, after.entryPartition.get? other =
      if other = id then some key
      else if other ∈ removed then none else before.entryPartition.get? other
  fits : after.partition.Fits config

/-- What `store` does under the lock: nothing, or an entry with the text, the answer
and the expiry stands under the id it returns. -/
inductive StoredAs (config : Config Vector Score Time Temperature) (query : String)
    (response : Response) (expiresAt : Option Time) (key : PartitionKey) (freshId : String)
    (before : Scope Response Time config.index.State) :
    Except Failure String × Bool × Scope Response Time config.index.State → Prop where
  | failed {failure : Failure} {counted : Bool}
      {after : Scope Response Time config.index.State}
      (shrinks : Shrinks config [] before after) :
      StoredAs config query response expiresAt key freshId before (.error failure, counted, after)
  | stored {id : String} {entry : Entry Response Time} {counted : Bool}
      {after : Scope Response Time config.index.State}
      (known : id ∈ before.partition.entries.keys ∨ id = freshId ∧ counted = true)
      (text : entry.query = query) (answer : entry.response = response)
      (expiry : entry.expiresAt = expiresAt) (places : Places config key id entry before after) :
      StoredAs config query response expiresAt key freshId before (.ok id, counted, after)

omit [Seconds Time] in
/-- A store for a text that has an entry refreshes it. -/
theorem storeLocked_refresh {now : Time} {request : Request Temperature} {response : Response}
    {expiresAt : Option Time} {vector : Vector} {key : PartitionKey} {freshId id : String}
    {entry : Entry Response Time} {scope : Scope Response Time config.index.State}
    (fits : scope.partition.Fits config)
    (placed : ∀ id ∈ scope.partition.entries.keys, scope.entryPartition.get? id = some key)
    (indexed : scope.partition.exactIndex.get? (config.exactHash request.query) = some id)
    (found : scope.partition.entries.get? id = some entry)
    (hashed : config.exactHash entry.query = config.exactHash request.query) :
    StoredAs config request.query response expiresAt key freshId scope
      (storeLocked config now request response expiresAt vector key freshId scope) := by
  have present : id ∈ scope.partition.entries.keys := Dict.mem_keys.mpr ⟨entry, found⟩
  simp only [storeLocked, indexed, Option.bind_some, found, Option.map_some]
  obtain ⟨index, raised⟩ := config.index.add scope.partition.index id vector
  cases raised with
  | some failure =>
      have same : Shrinks config [] scope scope := .refl fits
      exact .failed ⟨same.entries, same.entryPartition, same.among, fits.indexing index⟩
  | none =>
      let fresh : Entry Response Time :=
        { entry with query := request.query, response, createdAt := now, expiresAt }
      let next : Scope Response Time config.index.State :=
        { scope with
          partition := { scope.partition with
            index, entries := scope.partition.entries.replace id fresh } }
      have refreshed : next.partition.Fits config :=
        (fits.refresh fresh found rfl rfl hashed.symm).indexing index
      have held : next.partition.entries.get? id = some fresh := by
        rw [Dict.get?_replace present, if_pos rfl]
      obtain ⟨touched, shrinks⟩ := touch_eq refreshed held
      simp only [next, fresh] at touched
      simp only [touched]
      refine .stored (Or.inl present) (show fresh.query = request.query from rfl) rfl rfl
        ⟨⟨[], List.forall_mem_nil _, ?_, ?_⟩, shrinks.fits⟩
      · intro other
        rw [Dict.get?_replace present, if_neg List.not_mem_nil]
      · intro other
        by_cases same : other = id
        · rw [if_pos same, same]
          exact placed id present
        · simp [same]

omit [Seconds Time] in
/-- A store for a text that has no entry adds one, and may evict another. -/
theorem storeLocked_insert {now : Time} {request : Request Temperature} {response : Response}
    {expiresAt : Option Time} {vector : Vector} {key : PartitionKey} {freshId : String}
    {scope : Scope Response Time config.index.State} (fits : scope.partition.Fits config)
    (fresh : freshId ∉ scope.partition.entries.keys)
    (absent : scope.partition.exactIndex.get? (config.exactHash request.query) = none) :
    StoredAs config request.query response expiresAt key freshId scope
      (storeLocked config now request response expiresAt vector key freshId scope) := by
  simp only [storeLocked, absent, Option.bind_none]
  obtain ⟨index, raised⟩ := config.index.add scope.partition.index freshId vector
  cases raised with
  | some failure =>
      have same : Shrinks config [] scope scope := .refl fits
      exact .failed ⟨same.entries, same.entryPartition, same.among, fits.indexing index⟩
  | none =>
      let added : Scope Response Time config.index.State :=
        { scope with partition := { scope.partition with index } }
      have indexed : added.partition.Fits config := fits.indexing index
      have room : ∃ removed, Shrinks config removed added
          (if config.capacity ≤ scope.partition.entries.size then evictLru config added
            else added) := by
        split
        · exact evictLru_shrinks indexed
        · exact ⟨[], .refl indexed⟩
      obtain ⟨removed, shrinks⟩ := room
      have freshHash := shrinks.absent indexed absent
      have freshKey : freshId ∉ (if config.capacity ≤ scope.partition.entries.size then
          evictLru config added else added).partition.entries.keys := by
        intro present
        obtain ⟨entry, found⟩ := Dict.mem_keys.mp present
        rw [shrinks.entries] at found
        split at found
        · cases found
        · exact fresh (Dict.mem_keys.mpr ⟨entry, found⟩)
      let entry : Entry Response Time :=
        { id := freshId, query := request.query, normalizedHash := config.exactHash request.query,
          response, ctx := request.ctx, createdAt := now, expiresAt }
      refine .stored (Or.inr ⟨rfl, rfl⟩) (show entry.query = request.query from rfl) rfl rfl
        ⟨⟨removed, shrinks.among, ?_, ?_⟩, shrinks.fits.insert freshKey freshHash rfl rfl⟩
      · intro other
        rw [Dict.get?_assign]
        split
        · rfl
        · exact shrinks.entries other
      · intro other
        rw [Dict.get?_assign]
        split
        · rfl
        · exact shrinks.entryPartition other

omit [Seconds Time] in
/-- What a store under the lock comes to. -/
theorem storeLocked_spec (now : Time) (request : Request Temperature) (response : Response)
    (expiresAt : Option Time) (vector : Vector) {key : PartitionKey} {freshId : String}
    {scope : Scope Response Time config.index.State} (fits : scope.partition.Fits config)
    (placed : ∀ id ∈ scope.partition.entries.keys, scope.entryPartition.get? id = some key)
    (fresh : freshId ∉ scope.partition.entries.keys) :
    StoredAs config request.query response expiresAt key freshId scope
      (storeLocked config now request response expiresAt vector key freshId scope) := by
  cases indexed : scope.partition.exactIndex.get? (config.exactHash request.query) with
  | none => exact storeLocked_insert fits fresh indexed
  | some id =>
      obtain ⟨entry, found, hashed⟩ := fits.exact _ id indexed
      exact storeLocked_refresh fits placed indexed found hashed

end Semantic
