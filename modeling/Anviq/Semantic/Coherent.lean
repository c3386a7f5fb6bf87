import Anviq.Semantic.Clock
import Anviq.Semantic.IndexKeys

/-! # The structures of a partition stay together

The entries of a partition, their order, the exact index, the vector index and the map from ids
to partitions speak of the same entries after every operation, whatever the clock shows, the
embedder answers and the index accepts; and a store that stores nothing changes none of them.
-/

namespace Semantic

open Lru (Seconds Ttl WholeSeconds expired validTtl)

variable {Vector Score Time Temperature Response : Type} [Seconds Time]
  {config : Config Vector Score Time Temperature} {keys : IndexKeys config.index}

/-! ## Partitions -/

/-- The index holds the ids of the entries, of which there are no more than fit. -/
structure Partition.Indexed (config : Config Vector Score Time Temperature)
    (keys : IndexKeys config.index) (partition : Partition Response Time config.index.State) :
    Prop where
  ids : ∀ id, id ∈ keys.ids partition.index ↔ id ∈ partition.entries.keys
  once : (keys.ids partition.index).Nodup
  bounded : partition.entries.size ≤ config.capacity

variable {before scope : Scope Response Time config.index.State}

omit [Seconds Time] in
/-- A new partition has nothing in its index. -/
theorem newPartition_indexed :
    Partition.Indexed config keys
      (newPartition config : Partition Response Time config.index.State) := by
  refine ⟨?_, ?_, Nat.zero_le _⟩
  · intro id
    rw [newPartition, keys.empty]
    exact Iff.rfl
  · rw [newPartition, keys.empty]
    exact List.nodup_nil

omit [Seconds Time] in
/-- `_remove_entry` takes the id out of the index as well. -/
theorem removeEntry_indexed {id : String} {entry : Entry Response Time}
    (indexed : scope.partition.Indexed config keys)
    (found : scope.partition.entries.get? id = some entry) :
    (removeEntry config scope id).2.partition.Indexed config keys := by
  obtain ⟨once, others⟩ := keys.removed id indexed.once
  have smaller := Dict.size_erase (Dict.mem_keys.mpr ⟨entry, found⟩)
  have bounded := indexed.bounded
  refine ⟨?_, once, ?_⟩
  · intro other
    refine (others other).trans ?_
    rw [indexed.ids]
    exact Dict.mem_keys_erase.symm
  · change (scope.partition.entries.erase id).size ≤ config.capacity
    omega

omit [Seconds Time] in
/-- The index goes along with what is taken away. -/
theorem Whittled.indexed (so : Whittled config before scope)
    (indexed : before.partition.Indexed config keys) : scope.partition.Indexed config keys := by
  induction so with
  | refl => exact indexed
  | removed so found ih => exact removeEntry_indexed ih found
  | touched so held ih => exact ⟨ih.ids, ih.once, ih.bounded⟩
  | counted so metrics ih => exact ih

omit [Seconds Time] in
/-- `_evict_lru` makes room in a full partition. -/
theorem evictLru_room (fits : scope.partition.Fits config)
    (occupied : 1 ≤ scope.partition.entries.size) :
    ∃ id entry metrics, scope.partition.entries.get? id = some entry ∧
      evictLru config scope = { (removeEntry config scope id).2 with metrics } := by
  obtain ⟨none, -⟩ | ⟨id, rest, metrics, items, evicted⟩ := @evictLru_eq _ _ _ _ _ config scope
  · cases first : scope.partition.entries.items with
    | nil =>
        rw [Dict.size, first] at occupied
        exact absurd occupied (by simp)
    | cons item rest =>
        have ordered : item.1 ∈ scope.partition.order.keys := by
          rw [fits.order, Dict.keys, first]
          exact List.mem_cons_self
        rw [Dict.keys, none] at ordered
        exact absurd ordered List.not_mem_nil
  · have ordered : id ∈ scope.partition.order.keys := by
      rw [Dict.keys, items]
      exact List.mem_cons_self
    obtain ⟨entry, found⟩ := Dict.mem_keys.mp ((fits.order id).mp ordered)
    exact ⟨id, entry, metrics, found, evicted⟩

/-- What a store under the lock comes to: the structures stay together, and a store that raises
leaves everything as it was. -/
def StoresCoherently (keys : IndexKeys config.index)
    (before : Scope Response Time config.index.State)
    (outcome : Except Failure String × Bool × Scope Response Time config.index.State) : Prop :=
  outcome.2.2.partition.Indexed config keys ∧
    ∀ failure, outcome.1 = .error failure → outcome.2.2 = before

omit [Seconds Time] in
/-- A store for a text that has an entry keeps its id. -/
theorem storeLocked_refresh_coherent {now : Time} {request : Request Temperature}
    {response : Response} {expiresAt : Option Time} {vector : Vector} {key : PartitionKey}
    {freshId id : String} {entry : Entry Response Time} (fits : scope.partition.Fits config)
    (indexed : scope.partition.Indexed config keys)
    (text : scope.partition.exactIndex.get? (config.exactHash request.query) = some id)
    (found : scope.partition.entries.get? id = some entry)
    (hashed : config.exactHash entry.query = config.exactHash request.query) :
    StoresCoherently keys scope
      (storeLocked config now request response expiresAt vector key freshId scope) := by
  have present : id ∈ scope.partition.entries.keys := Dict.mem_keys.mpr ⟨entry, found⟩
  simp only [storeLocked, text, Option.bind_some, found, Option.map_some]
  cases adding : config.index.add scope.partition.index id vector with
  | mk index raised =>
      cases raised with
      | some failure =>
          obtain rfl := keys.refused adding
          exact ⟨indexed, fun _ _ => rfl⟩
      | none =>
          obtain ⟨once, others⟩ := keys.added indexed.once adding
          let fresh : Entry Response Time :=
            { entry with query := request.query, response, createdAt := now, expiresAt }
          let next : Scope Response Time config.index.State :=
            { scope with
              partition := { scope.partition with
                index, entries := scope.partition.entries.replace id fresh } }
          have refreshed : next.partition.Fits config :=
            (fits.refresh fresh found rfl rfl hashed.symm).indexing index
          have held : next.partition.entries.get? id = some fresh := by
            rw [Dict.get?_replace present, if_pos rfl]
          obtain ⟨touched, -⟩ := touch_eq refreshed held
          simp only [next, fresh] at touched
          simp only [touched]
          refine ⟨⟨?_, once, ?_⟩, fun failure raised => by cases raised⟩
          · intro other
            rw [others, indexed.ids, Dict.mem_keys, Dict.mem_keys, Dict.get?_replace present]
            by_cases same : other = id
            · simp [same]
            · simp [same]
          · rw [Dict.size_replace]
            exact indexed.bounded

omit [Seconds Time] in
/-- A store for a text that has no entry adds an id, and may take one away. -/
theorem storeLocked_insert_coherent {now : Time} {request : Request Temperature}
    {response : Response} {expiresAt : Option Time} {vector : Vector} {key : PartitionKey}
    {freshId : String} (positive : 1 ≤ config.capacity) (fits : scope.partition.Fits config)
    (indexed : scope.partition.Indexed config keys)
    (fresh : freshId ∉ scope.partition.entries.keys)
    (absent : scope.partition.exactIndex.get? (config.exactHash request.query) = none) :
    StoresCoherently keys scope
      (storeLocked config now request response expiresAt vector key freshId scope) := by
  have bounded := indexed.bounded
  simp only [storeLocked, absent, Option.bind_none]
  cases adding : config.index.add scope.partition.index freshId vector with
  | mk index raised =>
      cases raised with
      | some failure =>
          obtain rfl := keys.refused adding
          exact ⟨indexed, fun _ _ => rfl⟩
      | none =>
          obtain ⟨once, others⟩ := keys.added indexed.once adding
          refine ⟨?_, fun failure raised => by cases raised⟩
          by_cases full : config.capacity ≤ scope.partition.entries.size
          · obtain ⟨id, entry, metrics, found, evicted⟩ :=
              @evictLru_room _ _ _ _ _ config
                { scope with partition := { scope.partition with index } } (fits.indexing index) (Nat.le_trans positive full)
            have held : id ∈ scope.partition.entries.keys := Dict.mem_keys.mpr ⟨entry, found⟩
            have smaller := Dict.size_erase held
            obtain ⟨onceLeft, left⟩ := keys.removed id once
            have apart : freshId ≠ id := fun same => fresh (same ▸ held)
            have freshLeft : freshId ∉ (scope.partition.entries.erase id).keys :=
              fun present => fresh (Dict.mem_keys_erase.mp present).2
            simp only [full, ↓reduceIte, evicted]
            refine ⟨?_, onceLeft, ?_⟩
            · intro other
              refine (left other).trans ?_
              rw [others, indexed.ids]
              refine Iff.trans ?_ Dict.mem_keys_assign.symm
              refine Iff.trans ?_ (or_congr_right Dict.mem_keys_erase).symm
              by_cases same : other = freshId
              · simp [same, apart]
              · simp [same]
            · refine Nat.le_trans (Nat.le_of_eq (Dict.size_assign freshLeft)) ?_
              change (scope.partition.entries.erase id).size + 1 ≤ config.capacity
              omega
          · simp only [full, ↓reduceIte]
            refine ⟨?_, once, ?_⟩
            · intro other
              rw [others, indexed.ids]
              exact Dict.mem_keys_assign.symm
            · rw [Dict.size_assign fresh]
              omega

omit [Seconds Time] in
/-- A store leaves the index with the entries, or the partition as it was. -/
theorem storeLocked_coherent (now : Time) (request : Request Temperature) (response : Response)
    (expiresAt : Option Time) (vector : Vector) (key : PartitionKey) {freshId : String}
    (positive : 1 ≤ config.capacity) (fits : scope.partition.Fits config)
    (indexed : scope.partition.Indexed config keys)
    (fresh : freshId ∉ scope.partition.entries.keys) :
    StoresCoherently keys scope
      (storeLocked config now request response expiresAt vector key freshId scope) := by
  cases text : scope.partition.exactIndex.get? (config.exactHash request.query) with
  | none => exact storeLocked_insert_coherent positive fits indexed fresh text
  | some id =>
      obtain ⟨entry, found, hashed⟩ := fits.exact _ id text
      exact storeLocked_refresh_coherent fits indexed text found hashed

/-! ## The cache -/

namespace SemanticCache

variable {cache next : SemanticCache Response Score Time config.index.State} {key : PartitionKey}

/-- Every partition is indexed. -/
def Indexed (config : Config Vector Score Time Temperature) (keys : IndexKeys config.index)
    (cache : SemanticCache Response Score Time config.index.State) : Prop :=
  ∀ key partition, cache.partitions.get? key = some partition → partition.Indexed config keys

omit [Seconds Time] in
theorem Indexed.put (indexed : cache.Indexed config keys)
    {scope : Scope Response Time config.index.State}
    (here : scope.partition.Indexed config keys) :
    (cache.put config key scope).Indexed config keys := by
  intro other partition held
  rw [SemanticCache.put, Dict.get?_assign] at held
  split at held
  · rw [← Option.some.inj held]
    exact here
  · exact indexed other partition held

/-- The structures stay together in all partitions. -/
structure Joined (config : Config Vector Score Time Temperature) (keys : IndexKeys config.index)
    (cache : SemanticCache Response Score Time config.index.State) : Prop where
  consistent : cache.Consistent config
  indexed : cache.Indexed config keys

omit [Seconds Time] in
theorem Joined.congr (joined : cache.Joined config keys)
    (partitions : next.partitions = cache.partitions)
    (entryPartition : next.entryPartition = cache.entryPartition)
    (nextId : cache.nextId ≤ next.nextId) : next.Joined config keys where
  consistent := joined.consistent.congr partitions entryPartition nextId
  indexed key partition held := joined.indexed key partition (partitions ▸ held)

/-! ### Lookups -/

section Lookups

variable [LT Score] [LE Score] [DecidableLT Score] [DecidableLE Score] [One Score]

/-- A lookup keeps the structures together. -/
theorem lookupInternalAt_joined (joined : cache.Joined config keys) (clock : Nat → Time)
    (request : Request Temperature) :
    (cache.lookupInternalAt config clock request).2.1.Joined config keys := by
  unfold lookupInternalAt
  dsimp only
  split
  · exact joined.congr rfl rfl (Nat.le_refl _)
  · split
    · exact joined.congr rfl rfl (Nat.le_refl _)
    · next partition held =>
        split
        · exact joined.congr rfl rfl (Nat.le_refl _)
        · have so := lookupLockedAt_whittled clock request.query (cache.scope config partition)
          have fits : (cache.scope config partition).partition.Fits config :=
            joined.consistent.fits _ partition held
          obtain ⟨removed, shrinks⟩ := so.shrinks fits
          exact ⟨joined.consistent.put_shrinks held shrinks,
            joined.indexed.put (so.indexed (joined.indexed _ partition held))⟩

theorem lookupAt_joined (joined : cache.Joined config keys) (clock : Nat → Time)
    (request : Request Temperature) :
    (cache.lookupAt config clock request).2.Joined config keys := by
  have inside := lookupInternalAt_joined joined clock request
  unfold lookupAt
  dsimp only
  split
  · exact joined.congr rfl rfl (Nat.le_refl _)
  · split
    · exact inside
    · exact inside
    · exact inside.congr rfl rfl (Nat.le_refl _)
    · exact inside.congr rfl rfl (Nat.le_refl _)

end Lookups

/-! ### Stores -/

/-- What stands in a partition; one that does not exist is empty. -/
def standing (config : Config Vector Score Time Temperature)
    (cache : SemanticCache Response Score Time config.index.State) (key : PartitionKey) :
    Partition Response Time config.index.State :=
  (cache.partitions.get? key).getD (newPartition config)

/-- The entries, their order, the exact index and the vector index of every partition are as they
were, and so is the map from ids. -/
structure Untouched (config : Config Vector Score Time Temperature)
    (cache next : SemanticCache Response Score Time config.index.State) : Prop where
  standing : ∀ key, next.standing config key = cache.standing config key
  entryPartition : next.entryPartition = cache.entryPartition

omit [Seconds Time] in
theorem standing_put (cache : SemanticCache Response Score Time config.index.State)
    (scope : Scope Response Time config.index.State) (other : PartitionKey) :
    (cache.put config key scope).standing config other =
      if other = key then scope.partition else cache.standing config other := by
  rw [SemanticCache.standing, SemanticCache.put, Dict.get?_assign]
  split
  · rfl
  · rfl

omit [Seconds Time] in
/-- Putting back what stands in a partition touches nothing. -/
theorem untouched_put (cache : SemanticCache Response Score Time config.index.State)
    (key : PartitionKey) :
    Untouched config cache (cache.put config key (cache.scope config (cache.standing config key))) where
  standing other := by
    rw [standing_put]
    split
    · next same => rw [same]; rfl
    · rfl
  entryPartition := rfl

/-- So does a store, which leaves them as they were if it stores nothing, -/
theorem store_joined (positive : 1 ≤ config.capacity) (joined : cache.Joined config keys)
    (now : Time) (request : Request Temperature) (response : Response) (ttl : Ttl Time) :
    (cache.store config now request response ttl).2.Joined config keys ∧
      ((∀ id, (cache.store config now request response ttl).1 ≠ .ok (some id)) →
        Untouched config cache (cache.store config now request response ttl).2) := by
  have consistent : (cache.store config now request response ttl).2.Consistent config := by
    have storing := store_storing joined.consistent now request response ttl
    generalize cache.store config now request response ttl = outcome at storing
    cases storing with
    | nothing unstored consistent keeps => exact consistent
    | stored consistent query answer expiry found keeps => exact consistent
  suffices rest : (cache.store config now request response ttl).2.Indexed config keys ∧
      ((∀ id, (cache.store config now request response ttl).1 ≠ .ok (some id)) →
        Untouched config cache (cache.store config now request response ttl).2) from
    ⟨⟨consistent, rest.1⟩, rest.2⟩
  clear consistent
  unfold store
  dsimp only
  split
  · exact ⟨joined.indexed, fun _ => ⟨fun _ => rfl, rfl⟩⟩
  · split
    · exact ⟨joined.indexed, fun _ => ⟨fun _ => rfl, rfl⟩⟩
    · obtain ⟨opened, partition, isPartition, isOpened, inside, held, -⟩ :=
        joined.consistent.open (partitionKeyFor config request.ctx)
      have standingHere : cache.standing config (partitionKeyFor config request.ctx) = partition :=
        isPartition
      have here : partition.Indexed config keys := by
        rw [← isPartition]
        cases found : cache.partitions.get? (partitionKeyFor config request.ctx) with
        | none => exact newPartition_indexed
        | some partition => exact joined.indexed _ partition found
      have openedIndexed : opened.Indexed config keys := isOpened ▸ joined.indexed.put here
      have openedUntouched : Untouched config cache opened := by
        rw [← isOpened, ← standingHere]
        exact untouched_put cache _
      have openedStanding : opened.standing config (partitionKeyFor config request.ctx) =
          partition := by
        rw [SemanticCache.standing, held]
        rfl
      rw [isPartition, isOpened]
      cases config.embed request.query with
      | error failure => exact ⟨openedIndexed, fun _ => openedUntouched⟩
      | ok vector =>
          have fits : (opened.scope config partition).partition.Fits config :=
            inside.fits _ partition held
          have fresh : entryId (partitionKeyFor config request.ctx) opened.nextId ∉
              (opened.scope config partition).partition.entries.keys := by
            intro present
            obtain ⟨entry, found⟩ := Dict.mem_keys.mp present
            have absent := inside.fresh (partitionKeyFor config request.ctx)
              (partitionKeyFor config request.ctx)
            rw [entryAt?_of_partition held] at absent
            cases found.symm.trans absent
          obtain ⟨indexed, unchanged⟩ := storeLocked_coherent now request response
            ((ttl.effective config.defaultTtl).map (Seconds.add now)) vector
            (partitionKeyFor config request.ctx) positive fits here fresh
          refine ⟨openedIndexed.put indexed, ?_⟩
          intro unstored
          cases stored : (storeLocked config now request response
            ((ttl.effective config.defaultTtl).map (Seconds.add now)) vector
            (partitionKeyFor config request.ctx)
            (entryId (partitionKeyFor config request.ctx) opened.nextId)
            (opened.scope config partition)).1 with
          | ok id => exact absurd (congrArg (Except.map some) stored) (unstored id)
          | error failure =>
              have same := unchanged failure stored
              constructor
              · intro other
                refine Eq.trans (standing_put opened _ other) ?_
                rw [same, ← openedUntouched.standing other]
                split
                · next here => rw [here, openedStanding]; rfl
                · rfl
              · exact (congrArg Scope.entryPartition same).trans openedUntouched.entryPartition

/-! ### Withdrawals and runs -/

omit [Seconds Time] in
/-- an invalidation, -/
theorem invalidate_joined (joined : cache.Joined config keys) (id : String) :
    (cache.invalidate config id).2.Joined config keys := by
  refine ⟨(invalidate_withdrawing joined.consistent id).consistent, ?_⟩
  unfold invalidate
  cases placed : cache.entryPartition.get? id with
  | none => exact joined.indexed
  | some key =>
      obtain ⟨partition, entry, held, found⟩ := joined.consistent.holds placed
      dsimp only
      rw [held]
      exact joined.indexed.put (removeEntry_indexed
        (show (cache.scope config partition).partition.Indexed config keys from
          joined.indexed key partition held) found)

omit [Seconds Time] in
/-- Another entry under an id leaves the ids alone. -/
theorem replace_indexed {partition : Partition Response Time config.index.State} {id : String}
    (indexed : partition.Indexed config keys) (present : id ∈ partition.entries.keys)
    (entry : Entry Response Time) :
    Partition.Indexed config keys
      { partition with entries := partition.entries.replace id entry } where
  ids other := by
    rw [indexed.ids, Dict.mem_keys, Dict.mem_keys, Dict.get?_replace present]
    by_cases same : other = id
    · simpa [same, Dict.mem_keys] using present
    · simp [same]
  once := indexed.once
  bounded := by
    rw [Dict.size_replace]
    exact indexed.bounded

omit [Seconds Time] in
/-- and a rating. -/
theorem feedback_joined (joined : cache.Joined config keys) (id : String) (good : Bool) :
    (cache.feedback config id good).2.Joined config keys := by
  constructor
  · cases good with
    | true => exact (feedback_good joined.consistent id).1
    | false => exact (feedback_withdrawing joined.consistent id).consistent
  · unfold feedback
    cases placed : cache.entryPartition.get? id with
    | none => exact joined.indexed
    | some key =>
        obtain ⟨partition, entry, held, found⟩ := joined.consistent.holds placed
        have present : id ∈ partition.entries.keys := Dict.mem_keys.mpr ⟨entry, found⟩
        have indexed := joined.indexed key partition held
        dsimp only
        rw [held]
        dsimp only
        rw [found]
        cases good with
        | true => exact joined.indexed.put (replace_indexed indexed present _)
        | false =>
            simp only [Bool.false_eq_true, ↓reduceIte]
            let rated : Entry Response Time := { entry with badFeedback := entry.badFeedback + 1 }
            have marked := replace_indexed indexed present rated
            have here : (partition.entries.replace id rated).get? id = some rated := by
              rw [Dict.get?_replace present, if_pos rfl]
            have whole : (cache.scope config
                { partition with entries := partition.entries.replace id rated }).partition.Indexed
                  config keys := marked
            exact joined.indexed.put (removeEntry_indexed whole here)

/-- In every partition the entries, the order and the index have the same ids, the exact index
leads from the hash of every entry's query to its id and nowhere else, the map from ids knows the
entries and where they stand, and there are no more of them than fit. -/
structure Coherent (config : Config Vector Score Time Temperature) (keys : IndexKeys config.index)
    (cache : SemanticCache Response Score Time config.index.State) : Prop where
  order : ∀ key partition, cache.partitions.get? key = some partition →
    ∀ id, id ∈ partition.order.keys ↔ id ∈ partition.entries.keys
  index : ∀ key partition, cache.partitions.get? key = some partition →
    (keys.ids partition.index).Nodup ∧
      ∀ id, id ∈ keys.ids partition.index ↔ id ∈ partition.entries.keys
  exact : ∀ key partition, cache.partitions.get? key = some partition →
    ∀ hash id, partition.exactIndex.get? hash = some id ↔
      ∃ entry, partition.entries.get? id = some entry ∧ config.exactHash entry.query = hash
  placed : ∀ id key, cache.entryPartition.get? id = some key ↔
    ∃ partition, cache.partitions.get? key = some partition ∧ id ∈ partition.entries.keys
  bounded : ∀ key partition, cache.partitions.get? key = some partition →
    partition.entries.size ≤ config.capacity

omit [Seconds Time] in
theorem Joined.coherent (joined : cache.Joined config keys) : cache.Coherent config keys where
  order key partition held := (joined.consistent.fits key partition held).order
  index key partition held :=
    ⟨(joined.indexed key partition held).once, (joined.indexed key partition held).ids⟩
  exact key partition held hash id := by
    have fits := joined.consistent.fits key partition held
    constructor
    · exact fits.exact hash id
    · intro stands
      obtain ⟨entry, found, rfl⟩ := stands
      exact fits.indexed id entry found
  placed id key := by
    constructor
    · intro placed
      obtain ⟨partition, entry, held, found⟩ := joined.consistent.holds placed
      exact ⟨partition, held, Dict.mem_keys.mpr ⟨entry, found⟩⟩
    · intro stands
      obtain ⟨partition, held, present⟩ := stands
      obtain ⟨entry, found⟩ := Dict.mem_keys.mp present
      exact joined.consistent.placed key id entry ((entryAt?_of_partition held).trans found)
  bounded key partition held := (joined.indexed key partition held).bounded

omit [Seconds Time] in
/-- The answers of the moment do not decide whether the structures stay together. -/
theorem joined_answering (answers : Answers Vector) :
    Joined (config.answering answers) keys cache ↔ cache.Joined config keys := by
  constructor
  · intro joined
    refine ⟨(consistent_answering answers).mp joined.consistent, ?_⟩
    intro key partition held
    obtain ⟨ids, once, bounded⟩ := joined.indexed key partition held
    exact ⟨ids, once, bounded⟩
  · intro joined
    refine ⟨(consistent_answering answers).mpr joined.consistent, ?_⟩
    intro key partition held
    obtain ⟨ids, once, bounded⟩ := joined.indexed key partition held
    exact ⟨ids, once, bounded⟩

end SemanticCache

/-- An operation, what the clock shows in the course of it, and what the embedder and the verifier
say. -/
structure Moment (config : Config Vector Score Time Temperature) (Response : Type) where
  clock : Nat → Time
  answers : Answers Vector
  operation : Operation Temperature Response Time

/-- A cache in use, with any clock. -/
def ticking [LT Score] [LE Score] [DecidableLT Score] [DecidableLE Score] [One Score]
    (config : Config Vector Score Time Temperature)
    (Response : Type) :
    Machine (SemanticCache Response Score Time config.index.State) (Moment config Response) where
  start cache := cache = {}
  step cache moment next :=
    (cache.stepAt (config.answering moment.answers) moment.clock moment.operation).2 = next

variable [LT Score] [LE Score] [DecidableLT Score] [DecidableLE Score] [One Score]

/-- Every operation keeps the structures together. -/
theorem joined_step (positive : 1 ≤ config.capacity)
    {cache next : SemanticCache Response Score Time config.index.State}
    {moment : Moment config Response} (joined : cache.Joined config keys)
    (step : (ticking config Response).step cache moment next) : next.Joined config keys := by
  have inside := (SemanticCache.joined_answering moment.answers).mpr joined
  refine (SemanticCache.joined_answering moment.answers).mp ?_
  rw [← show _ = next from step]
  cases moment.operation with
  | lookup request => exact SemanticCache.lookupAt_joined inside moment.clock request
  | store request response ttl =>
      exact (SemanticCache.store_joined (show 1 ≤ (config.answering moment.answers).capacity from
        positive) inside (moment.clock 0) request response ttl).1
  | invalidate id => exact SemanticCache.invalidate_joined inside id
  | feedback id good => exact SemanticCache.feedback_joined inside id good

/-- The structures are together in every state that is reached. -/
theorem joined_of_reachable (positive : 1 ≤ config.capacity) (keys : IndexKeys config.index)
    {cache : SemanticCache Response Score Time config.index.State}
    (reachable : (ticking config Response).Reachable cache) : cache.Joined config keys := by
  refine reachable.invariant ?_ fun _ _ _ joined step => joined_step positive joined step
  intro cache starts
  rw [show cache = {} from starts]
  exact ⟨.initial, fun key partition held => by cases held⟩

/-- **The structures of the partitions stay together, and failures are atomic.** In every run,
whatever the clock shows, the embedder and the verifier answer and the index accepts. -/
theorem structures_coherent (positive : 1 ≤ config.capacity) (keys : IndexKeys config.index)
    {cache : SemanticCache Response Score Time config.index.State}
    (reachable : (ticking config Response).Reachable cache) :
    cache.Coherent config keys ∧
      ∀ (answers : Answers Vector) (now : Time) (request : Request Temperature)
        (response : Response) (ttl : Ttl Time),
        (∀ id, (cache.store (config.answering answers) now request response ttl).1 ≠
          .ok (some id)) →
        SemanticCache.Untouched config cache
          (cache.store (config.answering answers) now request response ttl).2 := by
  have joined := joined_of_reachable positive keys reachable
  refine ⟨joined.coherent, ?_⟩
  intro answers now request response ttl unstored
  have inside := (SemanticCache.joined_answering answers).mpr joined
  have untouched := (SemanticCache.store_joined
    (show 1 ≤ (config.answering answers).capacity from positive) inside now request response ttl).2
      unstored
  exact ⟨untouched.standing, untouched.entryPartition⟩

/-- A cache whose operations are carried out at one time each is one with a clock that stands still
in the course of an operation. -/
def standingStill (config : Config Vector Score Time Temperature) (Response : Type) :
    Machine.Simulation (inUse config Response) (ticking config Response) where
  view cache := cache
  label _ event :=
    some { clock := fun _ => event.now, answers := event.answers, operation := event.operation }
  start _ starts := starts
  step cache event next step := by
    change (cache.stepAt (config.answering event.answers) (fun _ => event.now)
      event.operation).2 = next
    rw [stepAt_still, step.1, step.2]

/-- The structures of a cache in use stay together. -/
theorem coherent_of_inUse (positive : 1 ≤ config.capacity) (keys : IndexKeys config.index)
    {cache : SemanticCache Response Score Time config.index.State}
    (reachable : (inUse config Response).Reachable cache) : cache.Coherent config keys :=
  (joined_of_reachable positive keys ((standingStill config Response).reachable reachable)).coherent

/-! ## A small cache -/

/-- The rows of a matrix with their products with a vector, the greatest first. -/
def rankedRows (matrix : List (List Nat)) (vector : List Nat) : List (Fin matrix.length × Nat) :=
  ((List.finRange matrix.length).map fun row =>
    (row, (List.zipWith (· * ·) (matrix.get row) vector).sum)).insertionSort
      fun first second => second.2 ≤ first.2

/-- Numbers below `100`, the others not being finite. -/
def smallProducts : Numpy Nat Nat where
  isFinite component := component < 100
  top matrix vector count := (rankedRows matrix vector).take count

/-- Texts as their lengths, in partitions of two entries. -/
def measured : Config (List Nat) Nat WholeSeconds Unit where
  modelId := "length"
  embed query := .ok [query.length]
  index := numpyIndex smallProducts 1
  sameIntent _ _ := .ok false
  firstFailure _ _ := none
  isCacheable _ := { cacheable := true, reason := none }
  exactHash query := query
  tauHit := 1
  tauVerify := 1
  topK := 1
  capacity := 2
  defaultTtl := some (.of 10)
  mode := .serve
  shadowLogCapacity := 1

/-- A moment at a time, with the embedder as it is. -/
def Moment.plain (now : Nat) (operation : Operation Unit Nat WholeSeconds) : Moment measured Nat where
  clock _ := .of now
  answers := { embed := measured.embed, sameIntent := measured.sameIntent }
  operation

/-- An embedder that answers with what is not finite. -/
def broken : Answers (List Nat) where
  embed _ := .ok [100]
  sameIntent := measured.sameIntent

/-- Three stores, of which the first entry gives way to the last, and one the index refuses. -/
def crowded : List (Moment measured Nat) :=
  [.plain 0 (.store (asking "a") 1 .useDefault), .plain 1 (.store (asking "bb") 2 .useDefault),
    .plain 2 (.store (asking "ccc") 3 .useDefault),
    { clock := fun _ => .of 3, answers := broken,
      operation := .store (asking "d") 4 .useDefault }]

/-- The refused entry is in none of the structures, and neither is the evicted one. -/
theorem structures_coherent_crowded :
    ∃ cache, (ticking measured Nat).Reachable cache ∧
      cache.Coherent measured (numpyIndex_keys smallProducts 1) ∧
      cache.entryPartition.keys = ["t:2", "t:3"] ∧ cache.nextId = 5 := by
  have leads : ∃ cache, Machine.follow (fun cache moment => some (SemanticCache.stepAt
      (measured.answering moment.answers) cache moment.clock moment.operation).2) crowded
        ({} : SemanticCache Nat Nat WholeSeconds measured.index.State) = some cache ∧
      cache.entryPartition.keys = ["t:2", "t:3"] ∧ cache.nextId = 5 :=
    ⟨_, rfl, by decide +kernel, by decide +kernel⟩
  obtain ⟨cache, leads, shown⟩ := leads
  have reachable : (ticking measured Nat).Reachable cache :=
    ⟨_, Machine.Run.follow (fun _ _ _ => Option.some.inj) (.start rfl) leads⟩
  exact ⟨cache, reachable,
    (structures_coherent (by decide) (numpyIndex_keys smallProducts 1) reachable).1, shown⟩

end Semantic
