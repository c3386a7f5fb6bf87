import Anviq.Json.Numeral
import Anviq.Semantic.Invariant

/-! # What an operation does to the entries

The map from ids to partitions knows every entry, and no id is given twice. An
operation keeps this. The entries it leaves were there before, unless it stored
them; what it withdraws is gone.
-/

namespace Semantic

open Lru (Seconds Ttl expired validTtl)

variable {Vector Score Time Temperature Response : Type} [Seconds Time]
  {config : Config Vector Score Time Temperature}

/-! ## Ids -/

/-- The ids of different numbers are different, whatever the tenants. -/
theorem entryId_injective {key key' : PartitionKey} {number number' : Nat}
    (same : entryId key number = entryId key' number') : number = number' := by
  have texts := String.ofList_injective same
  have stops : ∀ key : PartitionKey, NoDigit (':' :: key.tenant.toList.reverse) := by
    intro key char first
    rw [List.head?_cons, Option.mem_some_iff] at first
    rw [← first]
    rfl
  have reversed : ∀ (key : PartitionKey) (number : Nat),
      ((key.tenant.toList ++ ':' :: natText number).reverse.takeWhile Char.isDigit) =
        digitsText (natDigits number).reverse := by
    intro key number
    rw [List.reverse_append, List.reverse_cons, List.append_assoc, List.singleton_append,
      natText_eq, digitsText, ← List.map_reverse]
    exact (takeWhile_digits (stops key) _).1
  have digits := congrArg (fun text => text.reverse.takeWhile Char.isDigit) texts
  rw [reversed, reversed] at digits
  have equal := congrArg (List.map digitOf) digits
  rw [map_digitOf_digitsText, map_digitOf_digitsText, List.reverse_inj] at equal
  rw [← digitsValue_natDigits number, equal, digitsValue_natDigits]

namespace SemanticCache

variable {cache next : SemanticCache Response Score Time config.index.State}
  {key other : PartitionKey} {id : String}

/-- The entry of a partition with an id. -/
def entryAt? {IndexState : Type} (cache : SemanticCache Response Score Time IndexState)
    (key : PartitionKey) (id : String) : Option (Entry Response Time) :=
  (cache.partitions.get? key).bind fun partition => partition.entries.get? id

omit [Seconds Time] in
theorem entryAt?_of_partition {partition : Partition Response Time config.index.State}
    (held : cache.partitions.get? key = some partition) :
    cache.entryAt? key id = partition.entries.get? id := by
  rw [entryAt?, held, Option.bind_some]

omit [Seconds Time] in
theorem entryAt?_put (cache : SemanticCache Response Score Time config.index.State)
    {scope : Scope Response Time config.index.State} :
    (cache.put config key scope).entryAt? other id =
      if other = key then scope.partition.entries.get? id else cache.entryAt? other id := by
  rw [entryAt?, put, Dict.get?_assign]
  split
  · rfl
  · rfl

/-- Every partition fits, and the ids lead to the partitions that hold them. -/
structure Consistent (config : Config Vector Score Time Temperature)
    (cache : SemanticCache Response Score Time config.index.State) : Prop where
  fits : ∀ key partition, cache.partitions.get? key = some partition → partition.Fits config
  placed : ∀ key id entry, cache.entryAt? key id = some entry →
    cache.entryPartition.get? id = some key
  known : ∀ id key, cache.entryPartition.get? id = some key →
    ∃ entry, cache.entryAt? key id = some entry
  numbered : ∀ key id entry, cache.entryAt? key id = some entry →
    ∃ number < cache.nextId, id = entryId key number

omit [Seconds Time] in
/-- An empty cache is consistent. -/
theorem Consistent.initial :
    Consistent config ({} : SemanticCache Response Score Time config.index.State) :=
  ⟨nofun, nofun, nofun, nofun⟩

omit [Seconds Time] in
/-- Metrics and the log do not matter, and the counter may go on. -/
theorem Consistent.congr (consistent : cache.Consistent config)
    (partitions : next.partitions = cache.partitions)
    (entryPartition : next.entryPartition = cache.entryPartition)
    (nextId : cache.nextId ≤ next.nextId) : next.Consistent config := by
  obtain ⟨fits, placed, known, numbered⟩ := consistent
  have entries : ∀ key id, next.entryAt? key id = cache.entryAt? key id := by
    intro key id
    rw [entryAt?, partitions, entryAt?]
  constructor
  · intro key partition held
    exact fits key partition (partitions ▸ held)
  · intro key id entry found
    rw [entryPartition]
    exact placed key id entry (entries key id ▸ found)
  · intro id key found
    rw [entries]
    exact known id key (entryPartition ▸ found)
  · intro key id entry found
    obtain ⟨number, small, named⟩ := numbered key id entry (entries key id ▸ found)
    exact ⟨number, Nat.lt_of_lt_of_le small nextId, named⟩

omit [Seconds Time] in
/-- Ids do not stand in two partitions. -/
theorem Consistent.unique (consistent : cache.Consistent config) {entry held : Entry Response Time}
    (found : cache.entryAt? key id = some entry) (also : cache.entryAt? other id = some held) :
    key = other := by
  have here := consistent.placed key id entry found
  rw [consistent.placed other id held also] at here
  exact (Option.some.inj here).symm

omit [Seconds Time] in
/-- A text has one entry in a partition. -/
theorem Consistent.sameText (consistent : cache.Consistent config) {id' : String}
    {entry entry' : Entry Response Time} (found : cache.entryAt? key id = some entry)
    (found' : cache.entryAt? key id' = some entry') (same : entry.query = entry'.query) :
    id = id' := by
  obtain ⟨partition, held, here⟩ := Option.bind_eq_some_iff.mp found
  rw [entryAt?_of_partition held] at found'
  have fits := consistent.fits key partition held
  have indexed := fits.indexed id entry here
  rw [same, fits.indexed id' entry' found'] at indexed
  exact (Option.some.inj indexed).symm

omit [Seconds Time] in
/-- The next id is new. -/
theorem Consistent.fresh (consistent : cache.Consistent config) (key other : PartitionKey) :
    cache.entryAt? other (entryId key cache.nextId) = none := by
  cases found : cache.entryAt? other (entryId key cache.nextId) with
  | none => rfl
  | some entry =>
      obtain ⟨number, small, named⟩ := consistent.numbered other _ entry found
      exact absurd (entryId_injective named) (Nat.ne_of_gt small)

omit [Seconds Time] in
/-- Entries go from one partition. -/
theorem Consistent.put_shrinks (consistent : cache.Consistent config)
    {partition : Partition Response Time config.index.State}
    {scope : Scope Response Time config.index.State} {removed : List String}
    (held : cache.partitions.get? key = some partition)
    (shrinks : Shrinks config removed (cache.scope config partition) scope) :
    (cache.put config key scope).Consistent config := by
  have gone : ∀ id ∈ removed, cache.entryPartition.get? id = some key := by
    intro id present
    obtain ⟨entry, found⟩ := Dict.mem_keys.mp (shrinks.among id present)
    exact consistent.placed key id entry ((entryAt?_of_partition held).trans found)
  constructor
  · intro other partition' held'
    rw [put, Dict.get?_assign] at held'
    split at held'
    · rw [← Option.some.inj held']
      exact shrinks.fits
    · exact consistent.fits other partition' held'
  · intro other id entry found
    rw [entryAt?_put] at found
    change scope.entryPartition.get? id = some other
    rw [shrinks.entryPartition]
    split at found
    · next same =>
        rw [shrinks.entries] at found
        split at found
        · cases found
        · next stays =>
            rw [if_neg stays, same]
            exact consistent.placed key id entry ((entryAt?_of_partition held).trans found)
    · next apart =>
        have placed := consistent.placed other id entry found
        split
        · next leaves =>
            rw [gone id leaves] at placed
            exact absurd (Option.some.inj placed).symm apart
        · exact placed
  · intro id other found
    change scope.entryPartition.get? id = some other at found
    rw [shrinks.entryPartition] at found
    split at found
    · cases found
    · next stays =>
        obtain ⟨entry, old⟩ := consistent.known id other found
        refine ⟨entry, ?_⟩
        rw [entryAt?_put]
        split
        · next same =>
            rw [shrinks.entries, if_neg stays]
            rw [same, entryAt?_of_partition held] at old
            exact old
        · exact old
  · intro other id entry found
    rw [entryAt?_put] at found
    split at found
    · next same =>
        rw [shrinks.entries] at found
        split at found
        · cases found
        · rw [same]
          exact consistent.numbered key id entry ((entryAt?_of_partition held).trans found)
    · exact consistent.numbered other id entry found

omit [Seconds Time] in
/-- An entry comes to one partition, or is refreshed there, and others may go. -/
theorem Consistent.put_places (consistent : cache.Consistent config)
    {partition : Partition Response Time config.index.State}
    {scope : Scope Response Time config.index.State} {entry : Entry Response Time}
    {counted : Bool} (held : cache.partitions.get? key = some partition)
    (known : id ∈ partition.entries.keys ∨ id = entryId key cache.nextId ∧ counted = true)
    (places : Places config key id entry (cache.scope config partition) scope) :
    Consistent config
      { cache.put config key scope with
        nextId := if counted then cache.nextId + 1 else cache.nextId } := by
  obtain ⟨⟨removed, among, entries, entryPartition⟩, fits⟩ := places
  have onward : cache.nextId ≤ if counted then cache.nextId + 1 else cache.nextId := by
    split
    · exact Nat.le_succ _
    · exact Nat.le_refl _
  have gone : ∀ id ∈ removed, cache.entryPartition.get? id = some key := by
    intro id present
    obtain ⟨entry, found⟩ := Dict.mem_keys.mp (among id present)
    exact consistent.placed key id entry ((entryAt?_of_partition held).trans found)
  have elsewhere : ∀ other entry, cache.entryAt? other id = some entry → other = key := by
    intro other entry found
    obtain present | ⟨rfl, _⟩ := known
    · obtain ⟨old, oldFound⟩ := Dict.mem_keys.mp present
      exact consistent.unique found ((entryAt?_of_partition held).trans oldFound)
    · rw [consistent.fresh] at found
      cases found
  have shown : ∀ other name, ({ cache.put config key scope with
      nextId := if counted then cache.nextId + 1 else cache.nextId } :
      SemanticCache Response Score Time config.index.State).entryAt? other name =
        if other = key then scope.partition.entries.get? name else cache.entryAt? other name :=
    fun _ _ => entryAt?_put cache
  constructor
  · intro other partition' held'
    rw [put, Dict.get?_assign] at held'
    split at held'
    · rw [← Option.some.inj held']
      exact fits
    · exact consistent.fits other partition' held'
  · intro other name found' found
    change scope.entryPartition.get? name = some other
    rw [entryPartition]
    rw [shown] at found
    by_cases mine : name = id
    · rw [if_pos mine]
      split at found
      · next same => rw [same]
      · rw [elsewhere other found' (mine ▸ found)]
    · rw [if_neg mine]
      split at found
      · next same =>
          rw [entries, if_neg mine] at found
          split at found
          · cases found
          · next stays =>
              rw [if_neg stays, same]
              exact consistent.placed key name found' ((entryAt?_of_partition held).trans found)
      · next apart =>
          have placed := consistent.placed other name found' found
          split
          · next leaves =>
              rw [gone name leaves] at placed
              exact absurd (Option.some.inj placed).symm apart
          · exact placed
  · intro name other found
    change scope.entryPartition.get? name = some other at found
    rw [entryPartition] at found
    rw [shown]
    by_cases mine : name = id
    · rw [if_pos mine] at found
      refine ⟨entry, ?_⟩
      rw [if_pos (Option.some.inj found).symm, entries, if_pos mine]
    · rw [if_neg mine] at found
      split at found
      · cases found
      · next stays =>
          obtain ⟨old, oldFound⟩ := consistent.known name other found
          refine ⟨old, ?_⟩
          split
          · next same =>
              rw [entries, if_neg mine, if_neg stays]
              rw [same, entryAt?_of_partition held] at oldFound
              exact oldFound
          · exact oldFound
  · intro other name found' found
    rw [shown] at found
    by_cases mine : name = id
    · obtain present | ⟨named, went⟩ := known
      · obtain ⟨old, oldFound⟩ := Dict.mem_keys.mp present
        obtain ⟨number, small, named⟩ :=
          consistent.numbered key id old ((entryAt?_of_partition held).trans oldFound)
        refine ⟨number, Nat.lt_of_lt_of_le small onward, ?_⟩
        rw [mine, named]
        split at found
        · next same => rw [same]
        · rw [elsewhere other found' (mine ▸ found)]
      · refine ⟨cache.nextId, ?_, ?_⟩
        · simp [went]
        · rw [mine, named]
          split at found
          · next same => rw [same]
          · rw [elsewhere other found' (mine ▸ found)]
    · have old : ∃ entry, cache.entryAt? other name = some entry := by
        split at found
        · next same =>
            rw [entries, if_neg mine] at found
            split at found
            · cases found
            · exact ⟨found', by rw [same]; exact (entryAt?_of_partition held).trans found⟩
        · exact ⟨found', found⟩
      obtain ⟨entry', oldFound⟩ := old
      obtain ⟨number, small, named⟩ := consistent.numbered other name entry' oldFound
      exact ⟨number, Nat.lt_of_lt_of_le small onward, named⟩

/-! ## Operations -/

/-- Every entry was there before, with the same text, answer and expiry. -/
def Keeps {IndexState : Type} (cache next : SemanticCache Response Score Time IndexState) : Prop :=
  ∀ key id entry, next.entryAt? key id = some entry → ∃ old, cache.entryAt? key id = some old ∧
    old.query = entry.query ∧ old.response = entry.response ∧ old.expiresAt = entry.expiresAt

omit [Seconds Time] in
theorem Keeps.of_partitions (partitions : next.partitions = cache.partitions) :
    Keeps cache next := by
  intro key id entry found
  rw [entryAt?, partitions, ← entryAt?] at found
  exact ⟨entry, found, rfl, rfl, rfl⟩

omit [Seconds Time] in
theorem Keeps.put_shrinks {partition : Partition Response Time config.index.State}
    {scope : Scope Response Time config.index.State} {removed : List String}
    (held : cache.partitions.get? key = some partition)
    (shrinks : Shrinks config removed (cache.scope config partition) scope) :
    Keeps cache (cache.put config key scope) := by
  intro other id entry found
  rw [entryAt?_put] at found
  split at found
  · next same =>
      rw [shrinks.entries] at found
      split at found
      · cases found
      · rw [same, entryAt?_of_partition held]
        exact ⟨entry, found, rfl, rfl, rfl⟩
  · exact ⟨entry, found, rfl, rfl, rfl⟩

/-- The entry a lookup serves, and why. -/
structure Serves [LT Score] [LE Score] [DecidableLT Score] [DecidableLE Score]
    (config : Config Vector Score Time Temperature) (now : Time)
    (request : Request Temperature)
    (cache : SemanticCache Response Score Time config.index.State)
    (hit : Hit Response Score) : Prop where
  cacheable : (config.isCacheable request).cacheable = true
  entry : ∃ entry,
    cache.entryAt? (partitionKeyFor config request.ctx) hit.entryId = some entry ∧
      expired now entry.expiresAt = false ∧ hit.matchedQuery = entry.query ∧
      hit.response = entry.response
  why : config.exactHash request.query = config.exactHash hit.matchedQuery ∨
    ∃ partition index,
      cache.partitions.get? (partitionKeyFor config request.ctx) = some partition ∧
        Searched config partition index ∧
        Resembles config index request.query hit.matchedQuery hit.entryId hit.score

section Lookups

variable [LT Score] [LE Score] [DecidableLT Score] [DecidableLE Score] [One Score]

/-- What a lookup comes to. -/
structure Looked (config : Config Vector Score Time Temperature) (now : Time)
    (request : Request Temperature)
    (cache : SemanticCache Response Score Time config.index.State)
    (outcome : Lookup Response Score × SemanticCache Response Score Time config.index.State) :
    Prop where
  consistent : outcome.2.Consistent config
  keeps : Keeps cache outcome.2
  serves : ∀ hit, outcome.1 = .hit hit → Serves config now request cache hit

omit [One Score] in
theorem missed_looked (consistent : cache.Consistent config) (now : Time)
    (request : Request Temperature) (reason : String) :
    Looked config now request cache (cache.missed config reason) :=
  ⟨consistent.congr rfl rfl (Nat.le_refl _), .of_partitions rfl, nofun⟩

theorem lookupInternal_looked (consistent : cache.Consistent config) (now : Time)
    (request : Request Temperature) :
    Looked config now request cache (cache.lookupInternal config now request) := by
  unfold lookupInternal
  dsimp only
  split
  · exact missed_looked consistent now request _
  · next cacheable =>
      split
      · exact missed_looked consistent now request _
      · next partition held =>
          split
          · exact missed_looked consistent now request _
          · have fits : (cache.scope config partition).partition.Fits config :=
              consistent.fits _ partition held
            obtain ⟨index, searched, ⟨removed, shrinks⟩, served⟩ :=
              lookupLocked_spec now request.query fits
            refine ⟨consistent.put_shrinks held shrinks, .put_shrinks held shrinks, ?_⟩
            intro hit answered
            obtain ⟨entry, from', why⟩ := served hit answered
            refine ⟨by simpa using cacheable,
              ⟨entry, ?_, from'.current, from'.query, from'.response⟩, ?_⟩
            · rw [entryAt?_of_partition held]
              exact from'.before
            · obtain same | resembles := why
              · exact Or.inl same
              · exact Or.inr ⟨partition, index, held, searched, resembles⟩

/-- What a lookup does to a consistent cache. -/
theorem lookup_looked (consistent : cache.Consistent config) (now : Time)
    (request : Request Temperature) :
    Looked config now request cache (cache.lookup config now request) := by
  obtain ⟨inside, keeps, serves⟩ := lookupInternal_looked consistent now request
  unfold lookup
  dsimp only
  split
  · exact missed_looked consistent now request _
  · split
    · exact ⟨inside, keeps, serves⟩
    · exact ⟨inside, keeps, nofun⟩
    · exact ⟨inside.congr rfl rfl (Nat.le_refl _), keeps, nofun⟩
    · exact ⟨inside.congr rfl rfl (Nat.le_refl _), keeps, nofun⟩

end Lookups

/-! ## Stores -/

/-- What a store comes to: an entry under the id it returns, or nothing. -/
inductive Storing (config : Config Vector Score Time Temperature) (now : Time)
    (request : Request Temperature) (response : Response) (ttl : Ttl Time)
    (cache : SemanticCache Response Score Time config.index.State) :
    Except Failure (Option String) × SemanticCache Response Score Time config.index.State →
      Prop where
  | nothing {result : Except Failure (Option String)}
      {next : SemanticCache Response Score Time config.index.State}
      (unstored : ∀ id, result ≠ .ok (some id)) (consistent : next.Consistent config)
      (keeps : Keeps cache next) : Storing config now request response ttl cache (result, next)
  | stored {id : String} {entry : Entry Response Time}
      {next : SemanticCache Response Score Time config.index.State}
      (consistent : next.Consistent config) (query : entry.query = request.query)
      (answer : entry.response = response)
      (expiry : entry.expiresAt = (ttl.effective config.defaultTtl).map (Seconds.add now))
      (found : next.entryAt? (partitionKeyFor config request.ctx) id = some entry)
      (keeps : ∀ key name held, next.entryAt? key name = some held →
        (key = partitionKeyFor config request.ctx ∧ name = id ∧ held = entry) ∨
          cache.entryAt? key name = some held) :
      Storing config now request response ttl cache (.ok (some id), next)

omit [Seconds Time] in
theorem newPartition_fits :
    Partition.Fits config (newPartition config : Partition Response Time config.index.State) :=
  ⟨nofun, nofun, nofun, nofun, fun _ => Iff.rfl⟩

omit [Seconds Time] in
/-- `_get_or_create_partition`: a partition stands, and no entry has come. -/
theorem Consistent.open (consistent : cache.Consistent config) (key : PartitionKey) :
    ∃ opened partition, (cache.partitions.get? key).getD (newPartition config) = partition ∧
      cache.put config key (cache.scope config partition) = opened ∧
      opened.Consistent config ∧ opened.partitions.get? key = some partition ∧
      ∀ other id, opened.entryAt? other id = cache.entryAt? other id := by
  refine ⟨_, _, rfl, rfl, ?_⟩
  have entries : ∀ other id, (cache.put config key (cache.scope config
      ((cache.partitions.get? key).getD (newPartition config)))).entryAt? other id =
        cache.entryAt? other id := by
    intro other id
    rw [entryAt?_put]
    split
    · next same =>
        rw [same, entryAt?]
        cases cache.partitions.get? key with
        | none => rfl
        | some partition => rfl
    · rfl
  refine ⟨⟨?_, ?_, ?_, ?_⟩, ?_, entries⟩
  · intro other partition held
    rw [put, Dict.get?_assign] at held
    split at held
    · rw [← Option.some.inj held]
      cases found : cache.partitions.get? key with
      | none => exact newPartition_fits
      | some partition => exact consistent.fits key partition found
    · exact consistent.fits other partition held
  · intro other id entry found
    rw [entries] at found
    exact consistent.placed other id entry found
  · intro id other found
    rw [entries]
    exact consistent.known id other found
  · intro other id entry found
    rw [entries] at found
    exact consistent.numbered other id entry found
  · rw [put, Dict.get?_assign, if_pos rfl]
    rfl

/-- What a store does to it. -/
theorem store_storing (consistent : cache.Consistent config) (now : Time)
    (request : Request Temperature) (response : Response) (ttl : Ttl Time) :
    Storing config now request response ttl cache
      (cache.store config now request response ttl) := by
  unfold store
  dsimp only
  split
  · exact .nothing (by simp) (consistent.congr rfl rfl (Nat.le_refl _)) (.of_partitions rfl)
  · split
    · exact .nothing (by simp) consistent (.of_partitions rfl)
    · obtain ⟨opened, partition, isPartition, isOpened, inside, held, entries⟩ :=
        consistent.open (partitionKeyFor config request.ctx)
      rw [isPartition, isOpened]
      have keeps : Keeps cache opened := by
        intro key id entry found
        rw [entries] at found
        exact ⟨entry, found, rfl, rfl, rfl⟩
      cases config.embed request.query with
      | error failure => exact .nothing (by simp) inside keeps
      | ok vector =>
          dsimp only
          have fits : (opened.scope config partition).partition.Fits config :=
            inside.fits _ partition held
          have placed : ∀ id ∈ (opened.scope config partition).partition.entries.keys,
              (opened.scope config partition).entryPartition.get? id =
                some (partitionKeyFor config request.ctx) := by
            intro id present
            obtain ⟨entry, found⟩ := Dict.mem_keys.mp present
            exact inside.placed _ id entry ((entryAt?_of_partition held).trans found)
          have fresh : entryId (partitionKeyFor config request.ctx) opened.nextId ∉
              (opened.scope config partition).partition.entries.keys := by
            intro present
            obtain ⟨entry, found⟩ := Dict.mem_keys.mp present
            have absent := inside.fresh (partitionKeyFor config request.ctx)
              (partitionKeyFor config request.ctx)
            rw [entryAt?_of_partition held] at absent
            cases found.symm.trans absent
          have stored := storeLocked_spec now request response
            ((ttl.effective config.defaultTtl).map (Seconds.add now)) vector fits placed fresh
          generalize storeLocked config now request response _ vector _ _ _ = outcome at stored ⊢
          cases stored with
          | failed shrinks =>
              refine .nothing (by simp [Except.map]) ((inside.put_shrinks held shrinks).congr rfl rfl ?_) ?_
              · dsimp only
                split
                · exact Nat.le_succ _
                · exact Nat.le_refl _
              · intro key id entry found
                obtain ⟨old, oldFound, same⟩ := Keeps.put_shrinks held shrinks key id entry found
                exact ⟨old, entries key id ▸ oldFound, same⟩
          | stored known text answer expiry places =>
              refine .stored (inside.put_places held known places) text answer expiry ?_ ?_
              · obtain ⟨removed, among, found, _⟩ := places.removed
                refine Eq.trans (entryAt?_put opened) ?_
                rw [if_pos rfl, found, if_pos rfl]
              · intro key name held' found'
                obtain ⟨removed, among, found, _⟩ := places.removed
                have read := (entryAt?_put opened).symm.trans found'
                split at read
                · next same =>
                    rw [found] at read
                    split at read
                    · next mine => exact Or.inl ⟨same, mine, (Option.some.inj read).symm⟩
                    · split at read
                      · cases read
                      · refine Or.inr ?_
                        rw [← entries, same, entryAt?_of_partition held]
                        exact read
                · exact Or.inr (entries key name ▸ read)

/-! ## Withdrawals -/

/-- What a withdrawal comes to: the entry stands in no partition. -/
structure Withdrawing (config : Config Vector Score Time Temperature) (id : String)
    (cache next : SemanticCache Response Score Time config.index.State) : Prop where
  consistent : next.Consistent config
  keeps : Keeps cache next
  gone : ∀ key, next.entryAt? key id = none

omit [Seconds Time] in
/-- An id that leads nowhere stands nowhere. -/
theorem Consistent.withdrawn (consistent : cache.Consistent config)
    (unknown : cache.entryPartition.get? id = none) : Withdrawing config id cache cache where
  consistent := consistent
  keeps := .of_partitions rfl
  gone key := by
    cases found : cache.entryAt? key id with
    | none => rfl
    | some entry =>
        have placed := consistent.placed key id entry found
        rw [unknown] at placed
        cases placed

omit [Seconds Time] in
theorem Consistent.withdraws (consistent : cache.Consistent config)
    {partition : Partition Response Time config.index.State}
    {scope : Scope Response Time config.index.State}
    (placed : cache.entryPartition.get? id = some key)
    (held : cache.partitions.get? key = some partition)
    (shrinks : Shrinks config [id] (cache.scope config partition) scope) :
    Withdrawing config id cache (cache.put config key scope) where
  consistent := consistent.put_shrinks held shrinks
  keeps := .put_shrinks held shrinks
  gone other := by
    rw [entryAt?_put]
    split
    · rw [shrinks.entries, if_pos List.mem_cons_self]
    · next apart =>
        cases found : cache.entryAt? other id with
        | none => rfl
        | some entry =>
            have also := consistent.placed other id entry found
            rw [placed] at also
            exact absurd (Option.some.inj also).symm apart

omit [Seconds Time] in
/-- The map from ids leads to a partition with the entry. -/
theorem Consistent.holds (consistent : cache.Consistent config)
    (placed : cache.entryPartition.get? id = some key) :
    ∃ partition entry, cache.partitions.get? key = some partition ∧
      partition.entries.get? id = some entry := by
  obtain ⟨entry, found⟩ := consistent.known id key placed
  obtain ⟨partition, held, here⟩ := Option.bind_eq_some_iff.mp found
  exact ⟨partition, entry, held, here⟩

omit [Seconds Time] in
/-- What an invalidation does to it. -/
theorem invalidate_withdrawing (consistent : cache.Consistent config) (id : String) :
    Withdrawing config id cache (cache.invalidate config id).2 := by
  unfold invalidate
  cases placed : cache.entryPartition.get? id with
  | none => exact consistent.withdrawn placed
  | some key =>
      obtain ⟨partition, entry, held, found⟩ := consistent.holds placed
      dsimp only
      rw [held]
      have fits : (cache.scope config partition).partition.Fits config :=
        consistent.fits key partition held
      exact consistent.withdraws placed held (removeEntry_shrinks fits found).2

omit [Seconds Time] in
/-- Bad feedback withdraws the entry. -/
theorem feedback_withdrawing (consistent : cache.Consistent config) (id : String) :
    Withdrawing config id cache (cache.feedback config id false).2 := by
  unfold feedback
  cases placed : cache.entryPartition.get? id with
  | none => exact consistent.withdrawn placed
  | some key =>
      obtain ⟨partition, entry, held, found⟩ := consistent.holds placed
      have present : id ∈ partition.entries.keys := Dict.mem_keys.mpr ⟨entry, found⟩
      dsimp only
      rw [held]
      dsimp only
      rw [found]
      simp only [Bool.false_eq_true, ↓reduceIte]
      let rated : Entry Response Time := { entry with badFeedback := entry.badFeedback + 1 }
      let marked : Partition Response Time config.index.State :=
        { partition with entries := partition.entries.replace id rated }
      have fits : (cache.scope config marked).partition.Fits config :=
        (consistent.fits key partition held).refresh rated found rfl rfl rfl
      have here : (cache.scope config marked).partition.entries.get? id = some rated := by
        refine (Dict.get?_replace present).trans ?_
        rw [if_pos rfl]
      obtain ⟨_, shrinks⟩ := removeEntry_shrinks fits here
      refine consistent.withdraws placed held ?_
      refine ⟨?_, shrinks.entryPartition, ?_, shrinks.fits⟩
      · intro other
        refine (shrinks.entries other).trans ?_
        split
        · rfl
        · next apart =>
            refine (Dict.get?_replace present).trans ?_
            rw [if_neg (by simpa using apart)]
            rfl
      · intro other among
        rw [List.mem_singleton.mp among]
        exact present

omit [Seconds Time] in
/-- Good feedback is noted. -/
theorem feedback_good (consistent : cache.Consistent config) (id : String) :
    (cache.feedback config id true).2.Consistent config ∧
      Keeps cache (cache.feedback config id true).2 := by
  unfold feedback
  cases placed : cache.entryPartition.get? id with
  | none => exact ⟨consistent, .of_partitions rfl⟩
  | some key =>
      obtain ⟨partition, entry, held, found⟩ := consistent.holds placed
      have present : id ∈ partition.entries.keys := Dict.mem_keys.mpr ⟨entry, found⟩
      dsimp only
      rw [held]
      dsimp only
      rw [found]
      simp only [↓reduceIte]
      let rated : Entry Response Time := { entry with goodFeedback := entry.goodFeedback + 1 }
      let marked : Partition Response Time config.index.State :=
        { partition with entries := partition.entries.replace id rated }
      have fits : marked.Fits config :=
        (consistent.fits key partition held).refresh rated found rfl rfl rfl
      have places : Places config key id rated (cache.scope config partition)
          (cache.scope config marked) := by
        refine ⟨⟨[], List.forall_mem_nil _, ?_, ?_⟩, fits⟩
        · intro other
          refine (Dict.get?_replace present).trans ?_
          rw [if_neg List.not_mem_nil]
          rfl
        · intro other
          by_cases same : other = id
          · rw [if_pos same, same]
            exact placed
          · rw [if_neg same, if_neg List.not_mem_nil]
            rfl
      have known : id ∈ partition.entries.keys ∨
          id = entryId key cache.nextId ∧ false = true := Or.inl present
      refine ⟨consistent.put_places held known places, ?_⟩
      intro other name held' found'
      rw [entryAt?_put] at found'
      split at found'
      · next same =>
          have read := (Dict.get?_replace present).symm.trans found'
          rw [same, entryAt?_of_partition held]
          split at read
          · next mine =>
              refine ⟨entry, mine ▸ found, ?_⟩
              rw [← Option.some.inj read]
              exact ⟨rfl, rfl, rfl⟩
          · exact ⟨held', read, rfl, rfl, rfl⟩
      · exact ⟨held', found', rfl, rfl, rfl⟩

section Step

variable [LT Score] [LE Score] [DecidableLT Score] [DecidableLE Score] [One Score]
  (cache : SemanticCache Response Score Time config.index.State) (now : Time)

theorem step_lookup (request : Request Temperature) :
    cache.step config now (.lookup request) =
      (.looked (cache.lookup config now request).1, (cache.lookup config now request).2) := rfl

theorem step_store (request : Request Temperature) (response : Response) (ttl : Ttl Time) :
    cache.step config now (.store request response ttl) =
      (.stored (cache.store config now request response ttl).1,
        (cache.store config now request response ttl).2) := rfl

theorem step_invalidate (id : String) :
    cache.step config now (.invalidate id) =
      (.invalidated (cache.invalidate config id).1, (cache.invalidate config id).2) := rfl

theorem step_feedback (id : String) (good : Bool) :
    cache.step config now (.feedback id good) =
      (.fedBack (cache.feedback config id good).1, (cache.feedback config id good).2) := rfl

end Step

end SemanticCache

end Semantic
