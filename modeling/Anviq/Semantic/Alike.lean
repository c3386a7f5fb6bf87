import Anviq.Machine.Alike
import Anviq.Semantic.Steps

/-! # Partitions alike

Two partitions are alike when they hold the same entries in the same order, up to the
names of the entries. What is done to alike partitions under their locks comes to the
same, provided the index makes nothing of the names.
-/

namespace Semantic

open Lru (Seconds Ttl expired validTtl)

variable {Vector Score Time Temperature Response : Type} [Seconds Time]

/-! ## Alike -/

/-- Which ids of two caches name the same entry. -/
abbrev Names := String → String → Prop

/-- An index to which ids are names and nothing else. -/
structure IdBlind (index : VectorIndex Vector Score) where
  Alike : Names → index.State → index.State → Prop
  wider : ∀ {names names' : Names}, (∀ id id', names id id' → names' id id') →
    ∀ {left right}, Alike names left right → Alike names' left right
  empty : ∀ names, Alike names index.empty index.empty
  add : ∀ {names : Names}, Relator.BiUnique names → ∀ {left right id id'},
    Alike names left right → names id id' → ∀ vector,
      Alike names (index.add left id vector).1 (index.add right id' vector).1 ∧
        (index.add left id vector).2 = (index.add right id' vector).2
  remove : ∀ {names : Names}, Relator.BiUnique names → ∀ {left right id id'},
    Alike names left right → names id id' →
      Alike names (index.remove left id) (index.remove right id')
  search : ∀ {names : Names}, Relator.BiUnique names → ∀ {left right},
    Alike names left right → ∀ vector count,
      (∃ failure, index.search left vector count = .error failure ∧
          index.search right vector count = .error failure) ∨
        ∃ found found', index.search left vector count = .ok found ∧
          index.search right vector count = .ok found' ∧
          List.Forall₂ (fun item item' => names item.1 item'.1 ∧ item.2 = item'.2) found found'

omit [Seconds Time] in
/-- The same entry, under two names. -/
structure Entry.Alike (names : Names) (left right : Entry Response Time) : Prop where
  id : names left.id right.id
  query : left.query = right.query
  normalizedHash : left.normalizedHash = right.normalizedHash
  response : left.response = right.response
  ctx : left.ctx = right.ctx
  createdAt : left.createdAt = right.createdAt
  expiresAt : left.expiresAt = right.expiresAt
  goodFeedback : left.goodFeedback = right.goodFeedback
  badFeedback : left.badFeedback = right.badFeedback

variable {config : Config Vector Score Time Temperature}

omit [Seconds Time] in
/-- The same partition, with other names. -/
structure Partition.Alike {index : VectorIndex Vector Score} (blind : IdBlind index)
    (names : Names) (left right : Partition Response Time index.State) : Prop where
  entries : left.entries.Alike names (Entry.Alike names) right.entries
  order : left.order.Alike names (fun _ _ => True) right.order
  exactIndex : left.exactIndex.Alike Eq names right.exactIndex
  index : blind.Alike names left.index right.index

/-- The same answer, from an entry that may have another name. -/
inductive Lookup.Alike (names : Names) : Lookup Response Score → Lookup Response Score → Prop where
  | hit {left right : Hit Response Score} (response : left.response = right.response)
      (score : left.score = right.score) (matchedQuery : left.matchedQuery = right.matchedQuery)
      (reason : left.reason = right.reason) (entryId : names left.entryId right.entryId) :
      Lookup.Alike names (.hit left) (.hit right)
  | miss (miss : Miss Score) : Lookup.Alike names (.miss miss) (.miss miss)
  | raised (failure : Failure) : Lookup.Alike names (.raised failure) (.raised failure)

theorem biUnique_eq {Name : Type} : Relator.BiUnique (Eq : Name → Name → Prop) :=
  ⟨fun _ _ _ first second => first.trans second.symm, fun _ _ _ first second =>
    first.symm.trans second⟩

/-! ## Under the lock -/

section Locked

variable {blind : IdBlind config.index} {names : Names}
  {left right : Scope Response Time config.index.State} {id id' : String}

omit [Seconds Time] in
/-- Corresponding identifiers have entries alike, or none. -/
theorem Partition.Alike.entry (unique : Relator.BiUnique names)
    {left right : Partition Response Time config.index.State} (alike : left.Alike blind names right)
    (named : names id id') :
    (left.entries.get? id = none ∧ right.entries.get? id' = none) ∨
      ∃ entry entry', left.entries.get? id = some entry ∧ right.entries.get? id' = some entry' ∧
        entry.Alike names entry' :=
  alike.entries.get? unique named

omit [Seconds Time] in
/-- Removing corresponding entries keeps partitions alike, -/
theorem removeEntry_alike (unique : Relator.BiUnique names)
    (alike : left.partition.Alike blind names right.partition) (named : names id id') :
    (removeEntry config left id).1.isSome = (removeEntry config right id').1.isSome ∧
      (removeEntry config left id).2.partition.Alike blind names
        (removeEntry config right id').2.partition := by
  have entries := alike.entries.erase unique named
  have order := alike.order.erase unique named
  have index := blind.remove unique alike.index named
  obtain ⟨missing, missing'⟩ | ⟨entry, entry', found, found', same⟩ := alike.entry unique named
  · refine ⟨?_, entries, order, ?_, index⟩
    · simp only [removeEntry, missing, missing']
    · simp only [removeEntry, missing, missing']
      exact alike.exactIndex
  · refine ⟨?_, entries, order, ?_, index⟩
    · simp only [removeEntry, found, found', Option.isSome_some]
    · simp only [removeEntry, found, found']
      obtain ⟨absent, absent'⟩ | ⟨first, first', read, read', also⟩ :=
        alike.exactIndex.get? biUnique_eq same.normalizedHash
      · simp only [absent, absent', reduceCtorEq, ↓reduceIte]
        exact alike.exactIndex
      · simp only [read, read', Option.some.injEq]
        have equal := Dict.same_iff unique named also
        by_cases here : first = id
        · simp only [here, equal.mp here, ↓reduceIte]
          exact alike.exactIndex.erase biUnique_eq same.normalizedHash
        · simp only [here, mt equal.mpr here, ↓reduceIte]
          exact alike.exactIndex

omit [Seconds Time] in
/-- and so does purging them, -/
theorem purgeExpired_alike (unique : Relator.BiUnique names)
    (alike : left.partition.Alike blind names right.partition) (named : names id id') :
    (purgeExpired config left id).partition.Alike blind names
      (purgeExpired config right id').partition := by
  obtain ⟨metrics, purged⟩ := purgeExpired_eq left id
  obtain ⟨metrics', purged'⟩ := purgeExpired_eq right id'
  rw [purged, purged']
  exact (removeEntry_alike unique alike named).2

omit [Seconds Time] in
/-- evicting the least recently used ones, -/
theorem evictLru_alike (unique : Relator.BiUnique names)
    (alike : left.partition.Alike blind names right.partition) :
    (evictLru config left).partition.Alike blind names (evictLru config right).partition := by
  have order := alike.order
  unfold Dict.Alike at order
  obtain ⟨nothing, kept⟩ | ⟨id, rest, metrics, items, evicted⟩ := evictLru_eq left
  · obtain ⟨nothing', kept'⟩ | ⟨id', rest', metrics', items', evicted'⟩ := evictLru_eq right
    · rw [kept, kept']
      exact alike
    · rw [nothing, items'] at order
      cases order
  · obtain ⟨nothing', kept'⟩ | ⟨id', rest', metrics', items', evicted'⟩ := evictLru_eq right
    · rw [nothing', items] at order
      cases order
    · rw [items, items'] at order
      cases order with
      | cons first rest =>
          rw [evicted, evicted']
          exact (removeEntry_alike unique alike first.1).2

omit [Seconds Time] in
/-- and touching them. -/
theorem touch_alike (unique : Relator.BiUnique names)
    {left right : Partition Response Time config.index.State}
    (alike : left.Alike blind names right) (named : names id id') :
    (∃ failure, touch left id = .error failure ∧ touch right id' = .error failure) ∨
      ∃ next next', touch left id = .ok next ∧ touch right id' = .ok next' ∧
        next.Alike blind names next' := by
  have known := alike.order.mem_keys unique named
  unfold touch
  by_cases here : id ∈ left.order.keys
  · rw [if_pos here, if_pos (known.mp here)]
    exact Or.inr ⟨_, _, rfl, rfl, alike.entries, alike.order.moveToEnd unique named,
      alike.exactIndex, alike.index⟩
  · rw [if_neg here, if_neg (mt known.mpr here)]
    exact Or.inl ⟨_, rfl, rfl⟩

/-- Lookups that come to the same and leave partitions alike. -/
structure Answered (blind : IdBlind config.index) (names : Names)
    (outcome outcome' : Lookup Response Score × Scope Response Time config.index.State) : Prop where
  reply : outcome.1.Alike names outcome'.1
  partition : outcome.2.partition.Alike blind names outcome'.2.partition

omit [Seconds Time] in
/-- Corresponding entries are served alike. -/
theorem serve_alike (unique : Relator.BiUnique names)
    (alike : left.partition.Alike blind names right.partition) (named : names id id')
    {entry entry' : Entry Response Time} (same : entry.Alike names entry') (score : Score)
    (reason : String) (count : Metrics → Metrics) :
    Answered blind names (serve left entry id score reason count)
      (serve right entry' id' score reason count) := by
  unfold serve
  obtain ⟨failure, raised, raised'⟩ | ⟨next, next', touched, touched', after⟩ :=
    touch_alike unique alike named
  · rw [raised, raised']
    exact ⟨.raised failure, alike⟩
  · rw [touched, touched']
    exact ⟨.hit same.response rfl same.query rfl same.id, after⟩

omit [Seconds Time] in
/-- A miss is counted alike. -/
theorem missed_alike (alike : left.partition.Alike blind names right.partition)
    (counted reason : String) (bestScore : Option Score) :
    Answered blind names (missed left counted reason bestScore)
      (missed right counted reason bestScore) :=
  ⟨.miss _, alike⟩

/-- The loop over candidates finds the same entry, and purges the same ones. -/
theorem firstLive_alike (unique : Relator.BiUnique names) (now : Time)
    {candidates candidates' : List (String × Score)}
    (corresponds : List.Forall₂ (fun item item' => names item.1 item'.1 ∧ item.2 = item'.2)
      candidates candidates')
    (alike : left.partition.Alike blind names right.partition) :
    (firstLive config now candidates left).2.partition.Alike blind names
        (firstLive config now candidates' right).2.partition ∧
      (((firstLive config now candidates left).1 = none ∧
          (firstLive config now candidates' right).1 = none) ∨
        ∃ id id' score entry entry',
          (firstLive config now candidates left).1 = some (id, score, entry) ∧
            (firstLive config now candidates' right).1 = some (id', score, entry') ∧
            names id id' ∧ entry.Alike names entry') := by
  induction corresponds generalizing left right with
  | nil => exact ⟨alike, Or.inl ⟨rfl, rfl⟩⟩
  | @cons item item' rest rest' head _ ih =>
      obtain ⟨id, score⟩ := item
      obtain ⟨id', score'⟩ := item'
      obtain ⟨named, scored⟩ := head
      obtain rfl : score = score' := scored
      rw [firstLive, firstLive]
      obtain ⟨missing, missing'⟩ | ⟨entry, entry', found, found', same⟩ := alike.entry unique named
      · rw [missing, missing']
        exact ih alike
      · rw [found, found']
        dsimp only
        rw [← same.expiresAt]
        by_cases late : expired now entry.expiresAt = true
        · rw [if_pos late, if_pos late]
          exact ih (purgeExpired_alike unique alike named)
        · rw [if_neg late, if_neg late]
          exact ⟨alike, Or.inr ⟨id, id', score, entry, entry', rfl, rfl, named, same⟩⟩

section Scores

variable [LT Score] [LE Score] [DecidableLT Score] [DecidableLE Score]

omit [Seconds Time] in
/-- Corresponding candidates are judged alike. -/
theorem judge_alike (unique : Relator.BiUnique names) (query : String)
    (alike : left.partition.Alike blind names right.partition) (named : names id id')
    {entry entry' : Entry Response Time} (same : entry.Alike names entry') (score : Score) :
    Answered blind names (judge config query id score entry left)
      (judge config query id' score entry' right) := by
  unfold judge
  dsimp only
  rw [← same.query]
  by_cases low : score < config.tauVerify
  · rw [if_pos low, if_pos low]
    exact missed_alike alike _ _ _
  · rw [if_neg low, if_neg low]
    cases config.firstFailure query entry.query with
    | some failed => exact ⟨.miss _, alike⟩
    | none =>
        dsimp only
        by_cases high : config.tauHit ≤ score
        · rw [if_pos high, if_pos high]
          exact serve_alike unique alike named same _ _ _
        · rw [if_neg high, if_neg high]
          cases config.sameIntent query entry.query with
          | error failure => exact ⟨.raised failure, alike⟩
          | ok agreed =>
              cases agreed with
              | true =>
                  have counted : Partition.Alike blind names
                      ({ left with metrics := { left.metrics with
                        verifierCalls := left.metrics.verifierCalls + 1 } } :
                        Scope Response Time config.index.State).partition
                      ({ right with metrics := { right.metrics with
                        verifierCalls := right.metrics.verifierCalls + 1 } } :
                        Scope Response Time config.index.State).partition := alike
                  exact serve_alike unique counted named same _ _ _
              | false => exact ⟨.miss _, alike⟩

/-- A search of partitions that are alike is answered alike, -/
theorem searchLocked_alike (unique : Relator.BiUnique names) (now : Time) (query : String)
    (alike : left.partition.Alike blind names right.partition) :
    Answered blind names (searchLocked config now query left)
      (searchLocked config now query right) := by
  unfold searchLocked
  by_cases nothing : left.partition.entries.items = []
  · rw [if_pos nothing, if_pos (alike.entries.items_eq_nil.mp nothing)]
    exact missed_alike alike _ _ _
  · rw [if_neg nothing, if_neg (mt alike.entries.items_eq_nil.mpr nothing)]
    cases config.embed query with
    | error failure => exact ⟨.raised failure, alike⟩
    | ok vector =>
        dsimp only
        obtain ⟨failure, raised, raised'⟩ | ⟨found, found', searched, searched', corresponds⟩ :=
          blind.search unique alike.index vector config.topK
        · rw [raised, raised']
          exact ⟨.raised failure, alike⟩
        · rw [searched, searched']
          dsimp only
          obtain ⟨after, first⟩ := firstLive_alike unique now corresponds alike
          generalize firstLive config now found left = live at after first ⊢
          generalize firstLive config now found' right = live' at after first ⊢
          obtain ⟨best, scope⟩ := live
          obtain ⟨best', scope'⟩ := live'
          obtain ⟨none, none'⟩ | ⟨id, id', score, entry, entry', some, some', named, same⟩ := first
          · dsimp only at none none'
            rw [none, none']
            exact missed_alike after _ _ _
          · dsimp only at some some'
            rw [some, some']
            exact judge_alike unique query after named same score

/-- and so is a lookup. -/
theorem lookupLocked_alike [One Score] (unique : Relator.BiUnique names) (now : Time)
    (query : String) (alike : left.partition.Alike blind names right.partition) :
    Answered blind names (lookupLocked config now query left)
      (lookupLocked config now query right) := by
  unfold lookupLocked
  obtain ⟨absent, absent'⟩ | ⟨id, id', read, read', named⟩ :=
    alike.exactIndex.get? biUnique_eq (Eq.refl (config.exactHash query))
  · rw [absent, absent']
    exact searchLocked_alike unique now query alike
  · rw [read, read']
    dsimp only
    obtain ⟨missing, missing'⟩ | ⟨entry, entry', found, found', same⟩ := alike.entry unique named
    · rw [missing, missing']
      exact searchLocked_alike unique now query alike
    · rw [found, found']
      dsimp only
      rw [← same.expiresAt]
      by_cases late : expired now entry.expiresAt = true
      · rw [if_pos late, if_pos late]
        exact searchLocked_alike unique now query (purgeExpired_alike unique alike named)
      · rw [if_neg late, if_neg late]
        exact serve_alike unique alike named same _ _ _

end Scores

/-- Stores that come to the same and leave partitions alike. -/
structure StoredAlike (blind : IdBlind config.index) (names : Names)
    (outcome outcome' :
      Except Failure String × Bool × Scope Response Time config.index.State) : Prop where
  reply : (∃ failure, outcome.1 = .error failure ∧ outcome'.1 = .error failure) ∨
    ∃ id id', outcome.1 = .ok id ∧ outcome'.1 = .ok id' ∧ names id id'
  counted : outcome.2.1 = outcome'.2.1
  partition : outcome.2.2.partition.Alike blind names outcome'.2.2.partition

omit [Seconds Time] in
/-- Refreshing the same entry. -/
theorem storeLocked_refresh_alike (unique : Relator.BiUnique names) (now : Time)
    (request : Request Temperature) (response : Response) (expiresAt : Option Time)
    (vector : Vector) (key : PartitionKey) (freshId freshId' : String)
    (alike : left.partition.Alike blind names right.partition) (named : names id id')
    {entry entry' : Entry Response Time} (same : entry.Alike names entry')
    (read : left.partition.exactIndex.get? (config.exactHash request.query) = some id)
    (read' : right.partition.exactIndex.get? (config.exactHash request.query) = some id')
    (found : left.partition.entries.get? id = some entry)
    (found' : right.partition.entries.get? id' = some entry') :
    StoredAlike blind names
      (storeLocked config now request response expiresAt vector key freshId left)
      (storeLocked config now request response expiresAt vector key freshId' right) := by
  simp only [storeLocked, read, read', Option.bind_some, found, found', Option.map_some]
  obtain ⟨index, raised⟩ := blind.add unique alike.index named vector
  generalize config.index.add left.partition.index id vector = added at index raised ⊢
  generalize config.index.add right.partition.index id' vector = added' at index raised ⊢
  obtain ⟨state, failed⟩ := added
  obtain ⟨state', failed'⟩ := added'
  obtain rfl : failed = failed' := raised
  cases failed with
  | some failure =>
      exact ⟨Or.inl ⟨failure, rfl, rfl⟩, rfl, alike.entries, alike.order, alike.exactIndex, index⟩
  | none =>
      have refreshed : Entry.Alike names
          { entry with query := request.query, response, createdAt := now, expiresAt }
          { entry' with query := request.query, response, createdAt := now, expiresAt } :=
        ⟨same.id, rfl, same.normalizedHash, rfl, same.ctx, rfl, rfl, same.goodFeedback,
          same.badFeedback⟩
      have entries := alike.entries.replace unique named refreshed
      have after : Partition.Alike blind names
          { left.partition with
            index := state
            entries := left.partition.entries.replace id
              { entry with query := request.query, response, createdAt := now, expiresAt } }
          { right.partition with
            index := state'
            entries := right.partition.entries.replace id'
              { entry' with query := request.query, response, createdAt := now, expiresAt } } :=
        ⟨entries, alike.order, alike.exactIndex, index⟩
      dsimp only
      obtain ⟨failure, missed, missed'⟩ | ⟨next, next', touched, touched', moved⟩ :=
        touch_alike unique after named
      · rw [missed, missed']
        exact ⟨Or.inl ⟨failure, rfl, rfl⟩, rfl, after⟩
      · rw [touched, touched']
        exact ⟨Or.inr ⟨id, id', rfl, rfl, named⟩, rfl, moved⟩

omit [Seconds Time] in
/-- Adding the same entry. -/
theorem storeLocked_insert_alike (unique : Relator.BiUnique names) (now : Time)
    (request : Request Temperature) (response : Response) (expiresAt : Option Time)
    (vector : Vector) (key : PartitionKey) {freshId freshId' : String}
    (fresh : names freshId freshId')
    (alike : left.partition.Alike blind names right.partition)
    (absent : ((left.partition.exactIndex.get? (config.exactHash request.query)).bind fun id =>
      (left.partition.entries.get? id).map fun entry => (id, entry)) = none)
    (absent' : ((right.partition.exactIndex.get? (config.exactHash request.query)).bind fun id =>
      (right.partition.entries.get? id).map fun entry => (id, entry)) = none) :
    (storeLocked config now request response expiresAt vector key freshId left).2.1 = true ∧
      StoredAlike blind names
        (storeLocked config now request response expiresAt vector key freshId left)
        (storeLocked config now request response expiresAt vector key freshId' right) := by
  simp only [storeLocked, absent, absent']
  obtain ⟨index, raised⟩ := blind.add unique alike.index fresh vector
  generalize config.index.add left.partition.index freshId vector = added at index raised ⊢
  generalize config.index.add right.partition.index freshId' vector = added' at index raised ⊢
  obtain ⟨state, failed⟩ := added
  obtain ⟨state', failed'⟩ := added'
  obtain rfl : failed = failed' := raised
  have indexed : Partition.Alike blind names { left.partition with index := state }
      { right.partition with index := state' } :=
    ⟨alike.entries, alike.order, alike.exactIndex, index⟩
  cases failed with
  | some failure => exact ⟨rfl, Or.inl ⟨failure, rfl, rfl⟩, rfl, indexed⟩
  | none =>
      have room : Partition.Alike blind names
          (if config.capacity ≤ left.partition.entries.size then
              evictLru config { left with partition := { left.partition with index := state } }
            else { left with partition := { left.partition with index := state } }).partition
          (if config.capacity ≤ right.partition.entries.size then
              evictLru config { right with partition := { right.partition with index := state' } }
            else { right with partition := { right.partition with index := state' } }).partition := by
        rw [← alike.entries.size]
        by_cases full : config.capacity ≤ left.partition.entries.size
        · rw [if_pos full, if_pos full]
          exact evictLru_alike unique indexed
        · rw [if_neg full, if_neg full]
          exact indexed
      exact ⟨rfl, Or.inr ⟨freshId, freshId', rfl, rfl, fresh⟩, rfl,
        room.entries.assign unique fresh ⟨fresh, rfl, rfl, rfl, rfl, rfl, rfl, rfl, rfl⟩,
        room.order.assign unique fresh trivial, room.exactIndex.assign biUnique_eq rfl fresh,
        room.index⟩

omit [Seconds Time] in
/-- More names do no harm. -/
theorem Partition.Alike.mono {names' : Names}
    {left right : Partition Response Time config.index.State}
    (alike : left.Alike blind names right) (wider : ∀ id id', names id id' → names' id id') :
    left.Alike blind names' right := by
  refine ⟨alike.entries.mono wider ?_, alike.order.mono wider fun _ _ _ => trivial,
    alike.exactIndex.mono (fun _ _ same => same) wider, blind.wider wider alike.index⟩
  intro entry entry' same
  exact ⟨wider _ _ same.id, same.query, same.normalizedHash, same.response, same.ctx,
    same.createdAt, same.expiresAt, same.goodFeedback, same.badFeedback⟩

omit [Seconds Time] in
/-- Stores refresh the same entry, or add one under names they have counted. -/
theorem storeLocked_alike {names' : Names} (unique : Relator.BiUnique names)
    (unique' : Relator.BiUnique names') (wider : ∀ id id', names id id' → names' id id')
    (now : Time) (request : Request Temperature) (response : Response) (expiresAt : Option Time)
    (vector : Vector) (key : PartitionKey) {freshId freshId' : String}
    (fresh : names' freshId freshId')
    (alike : left.partition.Alike blind names right.partition) :
    (StoredAlike blind names
        (storeLocked config now request response expiresAt vector key freshId left)
        (storeLocked config now request response expiresAt vector key freshId' right)) ∨
      ((storeLocked config now request response expiresAt vector key freshId left).2.1 = true ∧
        StoredAlike blind names'
          (storeLocked config now request response expiresAt vector key freshId left)
          (storeLocked config now request response expiresAt vector key freshId' right)) := by
  obtain ⟨absent, absent'⟩ | ⟨id, id', read, read', named⟩ :=
    alike.exactIndex.get? biUnique_eq (Eq.refl (config.exactHash request.query))
  · refine Or.inr (storeLocked_insert_alike unique' now request response expiresAt vector key fresh
      (alike.mono wider) ?_ ?_)
    · rw [absent, Option.bind_none]
    · rw [absent', Option.bind_none]
  · obtain ⟨missing, missing'⟩ | ⟨entry, entry', found, found', same⟩ := alike.entry unique named
    · refine Or.inr (storeLocked_insert_alike unique' now request response expiresAt vector key
        fresh (alike.mono wider) ?_ ?_)
      · rw [read, Option.bind_some, missing, Option.map_none]
      · rw [read', Option.bind_some, missing', Option.map_none]
    · exact Or.inl (storeLocked_refresh_alike unique now request response expiresAt vector key
        freshId freshId' alike named same read read' found found')

end Locked

end Semantic
