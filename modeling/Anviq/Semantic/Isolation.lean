import Anviq.Semantic.NumpyIndex
import Anviq.Semantic.ServedHit

/-! # Partitions do not interfere

Two runs that do the same to a partition, whatever they do to others, get the same
answers from it and leave it alike. The ids, which one counter hands out to all
partitions, may differ; what names the same entry is recorded as the stores return.
-/

namespace Semantic

open Lru (Seconds Ttl WholeSeconds expired validTtl)

variable {Vector Score Time Temperature Response : Type} [Seconds Time]
  {config : Config Vector Score Time Temperature} {P : PartitionKey}

/-! ## What concerns a partition -/

/-- The event is about the partition, or about an entry that lives there. -/
def Event.Addresses (P : PartitionKey)
    (cache : SemanticCache Response Score Time config.index.State)
    (event : Event config Response) : Prop :=
  match event.operation with
  | .lookup request => partitionKeyFor config request.ctx = P
  | .store request _ _ => partitionKeyFor config request.ctx = P
  | .invalidate id => cache.entryPartition.get? id = some P
  | .feedback id _ => cache.entryPartition.get? id = some P

instance (cache : SemanticCache Response Score Time config.index.State) :
    (event : Event config Response) → Decidable (event.Addresses P cache)
  | ⟨_, _, .lookup request, _, _⟩ =>
      inferInstanceAs (Decidable (partitionKeyFor config request.ctx = P))
  | ⟨_, _, .store request _ _, _, _⟩ =>
      inferInstanceAs (Decidable (partitionKeyFor config request.ctx = P))
  | ⟨_, _, .invalidate id, _, _⟩ =>
      inferInstanceAs (Decidable (cache.entryPartition.get? id = some P))
  | ⟨_, _, .feedback id _, _, _⟩ =>
      inferInstanceAs (Decidable (cache.entryPartition.get? id = some P))

/-- The events of a history that concern the partition, from a cache on. -/
def addressed (P : PartitionKey) (cache : SemanticCache Response Score Time config.index.State) :
    List (Event config Response) → List (Event config Response)
  | [] => []
  | event :: history =>
      if event.Addresses P cache then event :: addressed P event.after history
      else addressed P event.after history

/-- The same operation, on an entry that may have another name. -/
inductive Operation.Alike (names : Names) :
    Operation Temperature Response Time → Operation Temperature Response Time → Prop where
  | lookup (request : Request Temperature) : Operation.Alike names (.lookup request) (.lookup request)
  | store (request : Request Temperature) (response : Response) (ttl : Ttl Time) :
      Operation.Alike names (.store request response ttl) (.store request response ttl)
  | invalidate {id id' : String} (named : names id id') :
      Operation.Alike names (.invalidate id) (.invalidate id')
  | feedback {id id' : String} (named : names id id') (good : Bool) :
      Operation.Alike names (.feedback id good) (.feedback id' good)

/-- The same reply, about an entry that may have another name. -/
inductive Reply.Alike (names : Names) : Reply Response Score → Reply Response Score → Prop where
  | looked {left right : Lookup Response Score} (same : left.Alike names right) :
      Reply.Alike names (.looked left) (.looked right)
  | stored {id id' : String} (named : names id id') :
      Reply.Alike names (.stored (.ok (some id))) (.stored (.ok (some id')))
  | declined : Reply.Alike names (.stored (.ok none)) (.stored (.ok none))
  | raised (failure : Failure) :
      Reply.Alike names (.stored (.error failure)) (.stored (.error failure))
  | invalidated (result : Except Failure Bool) :
      Reply.Alike names (.invalidated result) (.invalidated result)
  | fedBack (result : Except Failure Unit) :
      Reply.Alike names (.fedBack result) (.fedBack result)

/-- The same event: the same operation, at the same time, with the same answers of the
components. -/
structure Event.Alike (names : Names) (left right : Event config Response) : Prop where
  now : left.now = right.now
  answers : left.answers = right.answers
  operation : left.operation.Alike names right.operation

/-- The ids that corresponding stores have returned name the same entry. -/
def Named (left right : List (Event config Response)) : Names := fun id id' =>
  ∃ pair ∈ left.zip right,
    pair.1.reply = .stored (.ok (some id)) ∧ pair.2.reply = .stored (.ok (some id'))

/-- Two lists of events that agree, one after another: the entries an event is about
have been stored by events before it. -/
inductive Agree : List (Event config Response) → List (Event config Response) → Prop where
  | start : Agree [] []
  | concat {left right : List (Event config Response)} {event event' : Event config Response}
      (agree : Agree left right) (same : event.Alike (Named left right) event') :
      Agree (left ++ [event]) (right ++ [event'])

/-- The partition is alike in two caches, or stands in neither. -/
def AlikeIn {index : VectorIndex Vector Score} (blind : IdBlind index) (names : Names)
    (P : PartitionKey) (left right : SemanticCache Response Score Time index.State) : Prop :=
  (left.partitions.get? P = none ∧ right.partitions.get? P = none) ∨
    ∃ partition partition', left.partitions.get? P = some partition ∧
      right.partitions.get? P = some partition' ∧ partition.Alike blind names partition'

/-! ## Elsewhere -/

namespace SemanticCache

variable {cache left right : SemanticCache Response Score Time config.index.State}

/-- Only partitions that are concerned have changed, and the counter has not gone back. -/
structure Confined (concerned : PartitionKey → Prop)
    (cache next : SemanticCache Response Score Time config.index.State) : Prop where
  elsewhere : ∀ key, ¬ concerned key → next.partitions.get? key = cache.partitions.get? key
  nextId : cache.nextId ≤ next.nextId

omit [Seconds Time] in
theorem Confined.of_partitions {concerned : PartitionKey → Prop}
    {next : SemanticCache Response Score Time config.index.State}
    (partitions : next.partitions = cache.partitions) (nextId : next.nextId = cache.nextId) :
    Confined concerned cache next :=
  ⟨fun _ _ => by rw [partitions], Nat.le_of_eq nextId.symm⟩

omit [Seconds Time] in
theorem Confined.put {concerned : PartitionKey → Prop} {key : PartitionKey} (here : concerned key)
    (scope : Scope Response Time config.index.State) :
    Confined concerned cache (cache.put config key scope) where
  elsewhere other apart := by
    have different : other ≠ key := fun same => apart (same ▸ here)
    rw [SemanticCache.put, Dict.get?_assign, if_neg different]
  nextId := Nat.le_refl _

variable (config cache) in
/-- A store is confined to the partition of its request, -/
theorem store_confined (now : Time) (request : Request Temperature) (response : Response)
    (ttl : Ttl Time) :
    Confined (partitionKeyFor config request.ctx = ·) cache
      (cache.store config now request response ttl).2 := by
  unfold store
  dsimp only
  split
  · exact .of_partitions rfl rfl
  · split
    · exact .of_partitions rfl rfl
    · cases config.embed request.query with
      | error failure => exact .put rfl _
      | ok vector =>
          refine ⟨?_, ?_⟩
          · intro key apart
            refine Eq.trans Dict.get?_assign ?_
            rw [if_neg (Ne.symm apart)]
            exact (Confined.put rfl _).elsewhere key apart
          · dsimp only
            split
            · exact Nat.le_succ _
            · exact Nat.le_refl _

variable (config cache) in
omit [Seconds Time] in
/-- an invalidation to that of the entry, -/
theorem invalidate_confined (id : String) :
    Confined (cache.entryPartition.get? id = some ·) cache (cache.invalidate config id).2 := by
  unfold invalidate
  split
  · exact .of_partitions rfl rfl
  · next key found =>
      split
      · exact .of_partitions rfl rfl
      · exact .put found _

variable (config cache) in
omit [Seconds Time] in
/-- and so is a rating; -/
theorem feedback_confined (id : String) (good : Bool) :
    Confined (cache.entryPartition.get? id = some ·) cache (cache.feedback config id good).2 := by
  unfold feedback
  split
  · exact .of_partitions rfl rfl
  · next key found =>
      split
      · exact .of_partitions rfl rfl
      · split
        · exact .of_partitions rfl rfl
        · cases good with
          | true => exact .put found _
          | false => exact .put found _

section Lookups

variable [LT Score] [LE Score] [DecidableLT Score] [DecidableLE Score] [One Score]

variable (config cache) in
theorem lookupInternal_confined (now : Time) (request : Request Temperature) :
    Confined (partitionKeyFor config request.ctx = ·) cache
      (cache.lookupInternal config now request).2 := by
  unfold lookupInternal
  dsimp only
  split
  · exact .of_partitions rfl rfl
  · split
    · exact .of_partitions rfl rfl
    · split
      · exact .of_partitions rfl rfl
      · exact .put rfl _

variable (config cache) in
/-- a lookup to that of its request. -/
theorem lookup_confined (now : Time) (request : Request Temperature) :
    Confined (partitionKeyFor config request.ctx = ·) cache
      (cache.lookup config now request).2 := by
  have inside : Confined (partitionKeyFor config request.ctx = ·) cache
      (cache.lookupInternal config now request).2 := lookupInternal_confined config cache now request
  unfold lookup
  dsimp only
  split
  · exact .of_partitions rfl rfl
  · split <;> exact ⟨inside.elsewhere, inside.nextId⟩

end Lookups

/-! ## In the partition -/

variable {blind : IdBlind config.index} {names : Names}

omit [Seconds Time] in
theorem put_alike (left right : SemanticCache Response Score Time config.index.State)
    {scope scope' : Scope Response Time config.index.State}
    (alike : scope.partition.Alike blind names scope'.partition) :
    AlikeIn blind names P (left.put config P scope) (right.put config P scope') := by
  refine Or.inr ⟨scope.partition, scope'.partition, ?_, ?_, alike⟩
  · rw [put, Dict.get?_assign, if_pos rfl]
  · rw [put, Dict.get?_assign, if_pos rfl]

section Lookups

variable [LT Score] [LE Score] [DecidableLT Score] [DecidableLE Score] [One Score]

theorem lookupInternal_alike (unique : Relator.BiUnique names) (now : Time)
    (request : Request Temperature)
    (alike : AlikeIn blind names (partitionKeyFor config request.ctx) left right) :
    (left.lookupInternal config now request).1.Alike names
        (right.lookupInternal config now request).1 ∧
      AlikeIn blind names (partitionKeyFor config request.ctx)
        (left.lookupInternal config now request).2
        (right.lookupInternal config now request).2 := by
  unfold lookupInternal
  dsimp only
  by_cases declined : (!(config.isCacheable request).cacheable) = true
  · rw [if_pos declined, if_pos declined]
    exact ⟨.miss _, alike⟩
  · rw [if_neg declined, if_neg declined]
    have stands := alike
    obtain ⟨missing, missing'⟩ | ⟨partition, partition', held, held', same⟩ := stands
    · rw [missing, missing']
      exact ⟨.miss _, alike⟩
    · rw [held, held']
      dsimp only
      by_cases nothing : partition.entries.items = []
      · rw [if_pos nothing, if_pos (same.entries.items_eq_nil.mp nothing)]
        exact ⟨.miss _, alike⟩
      · rw [if_neg nothing, if_neg (mt same.entries.items_eq_nil.mpr nothing)]
        have scopes : Partition.Alike blind names (left.scope config partition).partition
            (right.scope config partition').partition := same
        obtain ⟨reply, after⟩ := lookupLocked_alike unique now request.query scopes
        exact ⟨reply, put_alike left right after⟩

variable (config) in
/-- A lookup in partitions that are alike is answered alike, -/
theorem lookup_alike (unique : Relator.BiUnique names) (now : Time)
    (request : Request Temperature)
    (alike : AlikeIn blind names (partitionKeyFor config request.ctx) left right) :
    (left.lookup config now request).1.Alike names (right.lookup config now request).1 ∧
      AlikeIn blind names (partitionKeyFor config request.ctx)
        (left.lookup config now request).2 (right.lookup config now request).2 := by
  obtain ⟨reply, after⟩ := lookupInternal_alike unique now request alike
  unfold lookup
  dsimp only
  by_cases declined : (!(config.isCacheable request).cacheable) = true
  · rw [if_pos declined, if_pos declined]
    exact ⟨.miss _, alike⟩
  · rw [if_neg declined, if_neg declined]
    generalize left.lookupInternal config now request = outcome at reply after ⊢
    generalize right.lookupInternal config now request = outcome' at reply after ⊢
    obtain ⟨result, next⟩ := outcome
    obtain ⟨result', next'⟩ := outcome'
    cases config.mode with
    | serve => exact ⟨reply, after⟩
    | shadow =>
        cases reply with
        | hit response score matchedQuery reason entryId =>
            refine ⟨?_, after⟩
            dsimp only
            rw [score]
            exact .miss _
        | miss miss => exact ⟨.miss miss, after⟩
        | raised failure => exact ⟨.raised failure, after⟩

end Lookups

variable (config) in
omit [Seconds Time] in
/-- and so is an invalidation of corresponding entries, -/
theorem invalidate_alike (unique : Relator.BiUnique names) {id id' : String}
    (named : names id id') (here : left.entryPartition.get? id = some P)
    (there : right.entryPartition.get? id' = some P) (alike : AlikeIn blind names P left right) :
    (left.invalidate config id).1 = (right.invalidate config id').1 ∧
      AlikeIn blind names P (left.invalidate config id).2 (right.invalidate config id').2 := by
  unfold invalidate
  rw [here, there]
  dsimp only
  have stands := alike
  obtain ⟨missing, missing'⟩ | ⟨partition, partition', held, held', same⟩ := stands
  · rw [missing, missing']
    exact ⟨rfl, alike⟩
  · rw [held, held']
    dsimp only
    have scopes : Partition.Alike blind names (left.scope config partition).partition
        (right.scope config partition').partition := same
    obtain ⟨removed, after⟩ := removeEntry_alike unique scopes named
    exact ⟨by rw [removed], put_alike left right after⟩

variable (config) in
omit [Seconds Time] in
/-- and their rating. -/
theorem feedback_alike (unique : Relator.BiUnique names) {id id' : String} (good : Bool)
    (named : names id id') (here : left.entryPartition.get? id = some P)
    (there : right.entryPartition.get? id' = some P) (alike : AlikeIn blind names P left right) :
    (left.feedback config id good).1 = (right.feedback config id' good).1 ∧
      AlikeIn blind names P (left.feedback config id good).2
        (right.feedback config id' good).2 := by
  unfold feedback
  rw [here, there]
  dsimp only
  have stands := alike
  obtain ⟨missing, missing'⟩ | ⟨partition, partition', held, held', same⟩ := stands
  · rw [missing, missing']
    exact ⟨rfl, alike⟩
  · rw [held, held']
    dsimp only
    obtain ⟨absent, absent'⟩ | ⟨entry, entry', found, found', rated⟩ := same.entry unique named
    · rw [absent, absent']
      exact ⟨rfl, alike⟩
    · rw [found, found']
      obtain ⟨sameId, query, normalizedHash, response, ctx, createdAt, expiresAt, goodFeedback,
        badFeedback⟩ := rated
      cases good with
      | true =>
          refine ⟨rfl, put_alike left right ?_⟩
          refine ⟨same.entries.replace unique named ?_, same.order, same.exactIndex, same.index⟩
          exact ⟨sameId, query, normalizedHash, response, ctx, createdAt, expiresAt,
            congrArg (· + 1) goodFeedback, badFeedback⟩
      | false =>
          have scopes : Partition.Alike blind names
              (left.scope config { partition with
                entries := partition.entries.replace id
                  { entry with badFeedback := entry.badFeedback + 1 } }).partition
              (right.scope config { partition' with
                entries := partition'.entries.replace id'
                  { entry' with badFeedback := entry'.badFeedback + 1 } }).partition := by
            refine ⟨same.entries.replace unique named ?_, same.order, same.exactIndex, same.index⟩
            exact ⟨sameId, query, normalizedHash, response, ctx, createdAt, expiresAt, goodFeedback,
              congrArg (· + 1) badFeedback⟩
          exact ⟨rfl, put_alike left right (removeEntry_alike unique scopes named).2⟩

omit [Seconds Time] in
theorem stored_alike
    {outcome outcome' : Except Failure String × Bool × Scope Response Time config.index.State}
    (same : StoredAlike blind names outcome outcome') :
    Reply.Alike names (.stored (outcome.1.map some) : Reply Response Score)
      (.stored (outcome'.1.map some)) := by
  obtain ⟨failure, raised, raised'⟩ | ⟨id, id', stored, stored', named⟩ := same.reply
  · rw [raised, raised']
    exact .raised failure
  · rw [stored, stored']
    exact .stored named

variable (config) in
/-- A store either refreshes an entry both have, or adds one under the next ids. -/
theorem store_alike {names' : Names} (unique : Relator.BiUnique names)
    (unique' : Relator.BiUnique names') (wider : ∀ id id', names id id' → names' id id')
    (now : Time) (request : Request Temperature) (response : Response) (ttl : Ttl Time)
    (fresh : names' (entryId (partitionKeyFor config request.ctx) left.nextId)
      (entryId (partitionKeyFor config request.ctx) right.nextId))
    (alike : AlikeIn blind names (partitionKeyFor config request.ctx) left right) :
    ∃ agreed : Names,
      (agreed = names ∨ agreed = names' ∧
        (left.store config now request response ttl).2.nextId = left.nextId + 1 ∧
        (right.store config now request response ttl).2.nextId = right.nextId + 1) ∧
      Reply.Alike agreed (.stored (left.store config now request response ttl).1 : Reply Response Score)
        (.stored (right.store config now request response ttl).1) ∧
      AlikeIn blind agreed (partitionKeyFor config request.ctx)
        (left.store config now request response ttl).2
        (right.store config now request response ttl).2 := by
  unfold store
  dsimp only
  by_cases declined : (!(config.isCacheable request).cacheable) = true
  · rw [if_pos declined, if_pos declined]
    exact ⟨names, Or.inl rfl, .declined, alike⟩
  · rw [if_neg declined, if_neg declined]
    by_cases invalid : (!validTtl (ttl.effective config.defaultTtl)) = true
    · rw [if_pos invalid, if_pos invalid]
      exact ⟨names, Or.inl rfl, .raised _, alike⟩
    · rw [if_neg invalid, if_neg invalid]
      have opened : Partition.Alike blind names
          ((left.partitions.get? (partitionKeyFor config request.ctx)).getD (newPartition config))
          ((right.partitions.get? (partitionKeyFor config request.ctx)).getD
            (newPartition config)) := by
        obtain ⟨missing, missing'⟩ | ⟨partition, partition', held, held', same⟩ := alike
        · rw [missing, missing']
          exact ⟨.empty, .empty, .empty, blind.empty names⟩
        · rw [held, held']
          exact same
      cases config.embed request.query with
      | error failure =>
          exact ⟨names, Or.inl rfl, .raised _, put_alike left right opened⟩
      | ok vector =>
          dsimp only
          generalize (left.partitions.get? (partitionKeyFor config request.ctx)).getD
            (newPartition config) = partition at opened ⊢
          generalize (right.partitions.get? (partitionKeyFor config request.ctx)).getD
            (newPartition config) = partition' at opened ⊢
          have stored := storeLocked_alike unique unique' wider now request response
            ((ttl.effective config.defaultTtl).map (Seconds.add now)) vector
            (partitionKeyFor config request.ctx) fresh
            (show Partition.Alike blind names
              ((left.put config (partitionKeyFor config request.ctx)
                (left.scope config partition)).scope config partition).partition
              ((right.put config (partitionKeyFor config request.ctx)
                (right.scope config partition')).scope config partition').partition from opened)
          obtain refreshed | ⟨counted, inserted⟩ := stored
          · refine ⟨names, Or.inl rfl, ?_, put_alike _ _ refreshed.partition⟩
            exact stored_alike refreshed
          · refine ⟨names', Or.inr ⟨rfl, ?_, ?_⟩, ?_, put_alike _ _ inserted.partition⟩
            · exact if_pos counted
            · exact if_pos (inserted.counted ▸ counted)
            · exact stored_alike inserted

end SemanticCache

/-! ## One event -/

section Runs

variable [LT Score] [LE Score] [DecidableLT Score] [DecidableLE Score] [One Score]
  {blind : IdBlind config.index} {names : Names}
  {cache next left right leftNext rightNext :
    SemanticCache Response Score Time config.index.State}
  {event event' : Event config Response}

/-- An event changes the partition it addresses, and no other. -/
theorem step_confined (step : (inUse config Response).step cache event next) :
    SemanticCache.Confined (event.Addresses · cache) cache next := by
  obtain ⟨now, answers, operation, reply, after⟩ := event
  obtain ⟨stepped, reached⟩ := step
  have moved : next = (cache.step (config.answering answers) now operation).2 :=
    reached.trans (congrArg Prod.snd stepped).symm
  rw [moved]
  cases operation with
  | lookup request =>
      have confined := SemanticCache.lookup_confined (config.answering answers) cache now request
      exact ⟨confined.elsewhere, confined.nextId⟩
  | store request response ttl =>
      have confined := SemanticCache.store_confined (config.answering answers) cache now request response ttl
      exact ⟨confined.elsewhere, confined.nextId⟩
  | invalidate id =>
      have confined := SemanticCache.invalidate_confined (config.answering answers) cache id
      exact ⟨confined.elsewhere, confined.nextId⟩
  | feedback id good =>
      have confined := SemanticCache.feedback_confined (config.answering answers) cache id good
      exact ⟨confined.elsewhere, confined.nextId⟩

/-- The partition is alike in two caches, under names both have given. -/
structure Isolated (blind : IdBlind config.index) (P : PartitionKey) (names : Names)
    (left right : SemanticCache Response Score Time config.index.State) : Prop where
  unique : Relator.BiUnique names
  alike : AlikeIn blind names P left right
  given : ∀ id id', names id id' → (∃ number < left.nextId, id = entryId P number) ∧
    ∃ number < right.nextId, id' = entryId P number

omit [Seconds Time] [LT Score] [LE Score] [DecidableLT Score] [DecidableLE Score] [One Score] in
theorem AlikeIn.mono {names' : Names} (alike : AlikeIn blind names P left right)
    (wider : ∀ id id', names id id' → names' id id') : AlikeIn blind names' P left right := by
  obtain missing | ⟨partition, partition', held, held', same⟩ := alike
  · exact Or.inl missing
  · exact Or.inr ⟨partition, partition', held, held', same.mono wider⟩

omit [Seconds Time] [LT Score] [LE Score] [DecidableLT Score] [DecidableLE Score] [One Score] in
/-- The names with one more entry, under the next ids. -/
theorem Isolated.extend (isolated : Isolated blind P names left right) :
    Relator.BiUnique fun id id' => names id id' ∨
      id = entryId P left.nextId ∧ id' = entryId P right.nextId := by
  constructor
  · intro id other id' first second
    obtain first | ⟨rfl, rfl⟩ := first
    · obtain second | ⟨rfl, rfl⟩ := second
      · exact isolated.unique.1 first second
      · obtain ⟨number, small, named⟩ := (isolated.given _ _ first).2
        exact absurd (entryId_injective named) (Nat.ne_of_gt small)
    · obtain second | ⟨rfl, -⟩ := second
      · obtain ⟨number, small, named⟩ := (isolated.given _ _ second).2
        exact absurd (entryId_injective named) (Nat.ne_of_gt small)
      · rfl
  · intro id id' other first second
    obtain first | ⟨rfl, rfl⟩ := first
    · obtain second | ⟨rfl, rfl⟩ := second
      · exact isolated.unique.2 first second
      · obtain ⟨number, small, named⟩ := (isolated.given _ _ first).1
        exact absurd (entryId_injective named) (Nat.ne_of_gt small)
    · obtain second | ⟨-, rfl⟩ := second
      · obtain ⟨number, small, named⟩ := (isolated.given _ _ second).1
        exact absurd (entryId_injective named) (Nat.ne_of_gt small)
      · rfl

omit [Seconds Time] [LT Score] [LE Score] [DecidableLT Score] [DecidableLE Score] [One Score] in
theorem Isolated.given_onward (isolated : Isolated blind P names left right)
    (onward : left.nextId ≤ leftNext.nextId) (onward' : right.nextId ≤ rightNext.nextId)
    {id id' : String} (named : names id id') :
    (∃ number < leftNext.nextId, id = entryId P number) ∧
      ∃ number < rightNext.nextId, id' = entryId P number := by
  obtain ⟨⟨number, small, shown⟩, number', small', shown'⟩ := isolated.given id id' named
  exact ⟨⟨number, Nat.lt_of_lt_of_le small onward, shown⟩, number',
    Nat.lt_of_lt_of_le small' onward', shown'⟩

omit [Seconds Time] [LT Score] [LE Score] [DecidableLT Score] [DecidableLE Score] [One Score] in
/-- Steps that leave the partition alike, under the same names. -/
theorem Isolated.keep (isolated : Isolated blind P names left right)
    (alike : AlikeIn blind names P leftNext rightNext) (onward : left.nextId ≤ leftNext.nextId)
    (onward' : right.nextId ≤ rightNext.nextId) : Isolated blind P names leftNext rightNext where
  unique := isolated.unique
  alike := alike
  given _ _ named := isolated.given_onward onward onward' named

/-- The same operation on the partition comes to the same. -/
theorem step_alike (isolated : Isolated blind P names left right)
    (step : (inUse config Response).step left event leftNext)
    (step' : (inUse config Response).step right event' rightNext)
    (concerns : event.Addresses P left) (concerns' : event'.Addresses P right)
    (same : event.Alike names event') :
    ∃ names', (∀ id id', names id id' → names' id id') ∧
      Isolated blind P names' leftNext rightNext ∧ event.reply.Alike names' event'.reply := by
  have onward := (step_confined step).nextId
  have onward' := (step_confined step').nextId
  obtain ⟨now, answers, operation, reply, after⟩ := event
  obtain ⟨now', answers', operation', reply', after'⟩ := event'
  obtain ⟨rfl, rfl, operations⟩ := same
  obtain ⟨stepped, reached⟩ := step
  obtain ⟨stepped', reached'⟩ := step'
  change left.step (config.answering answers) now operation = (reply, after) at stepped
  change right.step (config.answering answers) now operation' = (reply', after') at stepped'
  change leftNext = after at reached
  change rightNext = after' at reached'
  change ∃ names', _ ∧ _ ∧ reply.Alike names' reply'
  cases operations with
  | lookup request =>
      rw [SemanticCache.step_lookup, Prod.mk.injEq] at stepped stepped'
      obtain ⟨rfl, rfl⟩ := stepped
      obtain ⟨rfl, rfl⟩ := stepped'
      obtain rfl : partitionKeyFor config request.ctx = P := concerns
      obtain ⟨replies, alike⟩ := SemanticCache.lookup_alike (config.answering answers)
        isolated.unique now request isolated.alike
      rw [← reached, ← reached'] at alike
      exact ⟨names, fun _ _ named => named, isolated.keep alike onward onward', .looked replies⟩
  | store request response ttl =>
      rw [SemanticCache.step_store, Prod.mk.injEq] at stepped stepped'
      obtain ⟨rfl, rfl⟩ := stepped
      obtain ⟨rfl, rfl⟩ := stepped'
      obtain rfl : partitionKeyFor config request.ctx = P := concerns
      obtain ⟨agreed, which, replies, alike⟩ := SemanticCache.store_alike
        (config.answering answers) isolated.unique isolated.extend (fun _ _ named => Or.inl named)
        now request response ttl (Or.inr ⟨rfl, rfl⟩) isolated.alike
      rw [← reached, ← reached'] at alike which
      obtain agreement | ⟨agreement, counted, counted'⟩ := which
      · rw [agreement] at alike replies
        exact ⟨names, fun _ _ named => named, isolated.keep alike onward onward', replies⟩
      · rw [agreement] at alike replies
        refine ⟨_, fun _ _ named => Or.inl named, ⟨isolated.extend, alike, ?_⟩, replies⟩
        intro id id' named
        obtain named | ⟨rfl, rfl⟩ := named
        · exact isolated.given_onward onward onward' named
        · exact ⟨⟨_, Nat.lt_of_lt_of_eq (Nat.lt_succ_self _) counted.symm, rfl⟩, _,
            Nat.lt_of_lt_of_eq (Nat.lt_succ_self _) counted'.symm, rfl⟩
  | invalidate named =>
      rw [SemanticCache.step_invalidate, Prod.mk.injEq] at stepped stepped'
      obtain ⟨rfl, rfl⟩ := stepped
      obtain ⟨rfl, rfl⟩ := stepped'
      obtain ⟨replies, alike⟩ := SemanticCache.invalidate_alike (config.answering answers)
        isolated.unique named concerns concerns' isolated.alike
      rw [← reached, ← reached'] at alike
      refine ⟨names, fun _ _ named => named, isolated.keep alike onward onward', ?_⟩
      rw [replies]
      exact .invalidated _
  | feedback named good =>
      rw [SemanticCache.step_feedback, Prod.mk.injEq] at stepped stepped'
      obtain ⟨rfl, rfl⟩ := stepped
      obtain ⟨rfl, rfl⟩ := stepped'
      obtain ⟨replies, alike⟩ := SemanticCache.feedback_alike (config.answering answers)
        isolated.unique good named concerns concerns' isolated.alike
      rw [← reached, ← reached'] at alike
      refine ⟨names, fun _ _ named => named, isolated.keep alike onward onward', ?_⟩
      rw [replies]
      exact .fedBack _

/-! ## Runs -/

omit [Seconds Time] [LT Score] [LE Score] [DecidableLT Score] [DecidableLE Score] [One Score] in
theorem Reply.Alike.mono {names' : Names} {reply reply' : Reply Response Score}
    (alike : reply.Alike names reply') (wider : ∀ id id', names id id' → names' id id') :
    reply.Alike names' reply' := by
  cases alike with
  | looked same =>
      cases same with
      | hit response score matchedQuery reason entryId =>
          exact .looked (.hit response score matchedQuery reason (wider _ _ entryId))
      | miss miss => exact .looked (.miss miss)
      | raised failure => exact .looked (.raised failure)
  | stored named => exact .stored (wider _ _ named)
  | declined => exact .declined
  | raised failure => exact .raised failure
  | invalidated result => exact .invalidated result
  | fedBack result => exact .fedBack result

/-- The cache after a history. -/
def reached (cache : SemanticCache Response Score Time config.index.State) :
    List (Event config Response) → SemanticCache Response Score Time config.index.State
  | [] => cache
  | event :: history => reached event.after history

omit [Seconds Time] [LT Score] [LE Score] [DecidableLT Score] [DecidableLE Score] [One Score] in
theorem reached_concat (history : List (Event config Response)) :
    reached cache (history ++ [event]) = event.after := by
  induction history generalizing cache with
  | nil => rfl
  | cons first history ih => exact ih

omit [Seconds Time] [LT Score] [LE Score] [DecidableLT Score] [DecidableLE Score] [One Score] in
theorem addressed_concat (P : PartitionKey)
    (cache : SemanticCache Response Score Time config.index.State)
    (history : List (Event config Response)) (event : Event config Response) :
    addressed P cache (history ++ [event]) =
      addressed P cache history ++
        if event.Addresses P (reached cache history) then [event] else [] := by
  induction history generalizing cache with
  | nil => rfl
  | cons first history ih =>
      rw [List.cons_append, addressed, addressed, ih, reached]
      split
      · rfl
      · rfl

/-- A run reaches the state after its last operation. -/
theorem run_reached {history : List (Event config Response)}
    (run : (inUse config Response).Run history cache) : reached {} history = cache := by
  cases run with
  | start starts => exact starts.symm
  | concat run step => rw [reached_concat, step.2]

omit [LT Score] [LE Score] [DecidableLT Score] [DecidableLE Score] [One Score] [Seconds Time] in
theorem agree_concat {events others : List (Event config Response)}
    (agree : Agree (events ++ [event]) others) :
    ∃ others' event', others = others' ++ [event'] ∧ Agree events others' ∧
      event.Alike (Named events others') event' := by
  generalize all : events ++ [event] = labels at agree
  cases agree with
  | start => exact absurd all (by simp)
  | @concat earlier others' last event' agree same =>
      obtain ⟨rfl, last⟩ := List.append_inj' all rfl
      obtain rfl := List.singleton_inj.mp last
      exact ⟨others', event', rfl, agree, same⟩

omit [LT Score] [LE Score] [DecidableLT Score] [DecidableLE Score] [One Score] [Seconds Time] in
theorem Agree.length_eq {events others : List (Event config Response)}
    (agree : Agree events others) : events.length = others.length := by
  induction agree with
  | start => rfl
  | concat _ _ ih => rw [List.length_append, List.length_append, ih]; rfl

/-- Events that have been answered alike, and have left the partition alike. -/
def AnsweredAlike (blind : IdBlind config.index) (names : Names) (P : PartitionKey)
    (event event' : Event config Response) : Prop :=
  event.reply.Alike names event'.reply ∧ AlikeIn blind names P event.after event'.after

omit [LT Score] [LE Score] [DecidableLT Score] [DecidableLE Score] [One Score] [Seconds Time] in
theorem AnsweredAlike.mono {names' : Names}
    (wider : ∀ id id', names id id' → names' id id')
    (alike : AnsweredAlike blind names P event event') :
    AnsweredAlike blind names' P event event' :=
  ⟨alike.1.mono wider, alike.2.mono wider⟩

omit [LT Score] [LE Score] [DecidableLT Score] [DecidableLE Score] [One Score] [Seconds Time] in
/-- What corresponding stores return is named. -/
theorem named_of_answered {events others : List (Event config Response)}
    (answered : List.Forall₂ (AnsweredAlike blind names P) events others) {id id' : String}
    (named : Named events others id id') : names id id' := by
  obtain ⟨pair, among, stored, stored'⟩ := named
  obtain ⟨replies, -⟩ := List.forall₂_zip answered among
  rw [stored, stored'] at replies
  cases replies with
  | stored named => exact named

omit [LT Score] [LE Score] [DecidableLT Score] [DecidableLE Score] [One Score] [Seconds Time] in
theorem Operation.Alike.mono {names' : Names}
    {operation operation' : Operation Temperature Response Time}
    (same : operation.Alike names operation') (wider : ∀ id id', names id id' → names' id id') :
    operation.Alike names' operation' := by
  cases same with
  | lookup request => exact .lookup request
  | store request response ttl => exact .store request response ttl
  | invalidate named => exact .invalidate (wider _ _ named)
  | feedback named good => exact .feedback (wider _ _ named) good

/-- A history is empty, ends elsewhere, or ends with an event about the partition. -/
theorem run_cases (P : PartitionKey) {history : List (Event config Response)}
    (run : (inUse config Response).Run history next) :
    (addressed P {} history = [] ∧ next = {}) ∨
      (∃ earlier event cache, history = earlier ++ [event] ∧
        (inUse config Response).Run earlier cache ∧
        (inUse config Response).step cache event next ∧ ¬ event.Addresses P cache ∧
        addressed P {} history = addressed P {} earlier) ∨
      ∃ earlier event cache, history = earlier ++ [event] ∧
        (inUse config Response).Run earlier cache ∧
        (inUse config Response).step cache event next ∧ event.Addresses P cache ∧
        addressed P {} history = addressed P {} earlier ++ [event] := by
  cases run with
  | start starts => exact Or.inl ⟨rfl, starts⟩
  | @concat earlier cache _ event run step =>
      have split := addressed_concat P {} earlier event
      rw [run_reached run] at split
      by_cases concerns : event.Addresses P cache
      · rw [if_pos concerns] at split
        exact Or.inr (Or.inr ⟨earlier, event, cache, rfl, run, step, concerns, split⟩)
      · rw [if_neg concerns, List.append_nil] at split
        exact Or.inr (Or.inl ⟨earlier, event, cache, rfl, run, step, concerns, split⟩)

/-- An event elsewhere in the left run. -/
theorem Isolated.elsewhere_left (isolated : Isolated blind P names left right)
    (step : (inUse config Response).step left event leftNext)
    (elsewhere : ¬ event.Addresses P left) : Isolated blind P names leftNext right := by
  have confined := step_confined step
  refine isolated.keep ?_ confined.nextId (Nat.le_refl _)
  have alike := isolated.alike
  unfold AlikeIn at alike ⊢
  rw [confined.elsewhere P elsewhere]
  exact alike

/-- An event elsewhere in the right run. -/
theorem Isolated.elsewhere_right (isolated : Isolated blind P names left right)
    (step : (inUse config Response).step right event rightNext)
    (elsewhere : ¬ event.Addresses P right) : Isolated blind P names left rightNext := by
  have confined := step_confined step
  refine isolated.keep ?_ (Nat.le_refl _) confined.nextId
  have alike := isolated.alike
  unfold AlikeIn at alike ⊢
  rw [confined.elsewhere P elsewhere]
  exact alike

/-- The invariant of two runs that agree on a partition. -/
theorem runs_isolated (blind : IdBlind config.index)
    {history history' : List (Event config Response)} (run : (inUse config Response).Run history left)
    (run' : (inUse config Response).Run history' right)
    (agree : Agree (addressed P {} history) (addressed P {} history')) :
    ∃ names : Names, Isolated blind P names left right ∧
      List.Forall₂ (AnsweredAlike blind names P) (addressed P {} history)
        (addressed P {} history') := by
  -- The last event of one history is left out when it is elsewhere; when neither is, the
  -- last events of both are.
  induction total : history.length + history'.length using Nat.strong_induction_on
    generalizing history history' left right with
  | _ total ih =>
      obtain start | ⟨earlier, event, cache, rfl, before, step, elsewhere, split⟩ |
        ⟨earlier, event, cache, rfl, before, step, concerns, split⟩ := run_cases P run
      · obtain start' | ⟨earlier', event', cache', rfl, before', step', elsewhere', split'⟩ |
          ⟨earlier', event', cache', rfl, before', step', concerns', split'⟩ := run_cases P run'
        · obtain ⟨none, rfl⟩ := start
          obtain ⟨none', rfl⟩ := start'
          rw [none, none']
          exact ⟨fun _ _ => False, ⟨⟨nofun, nofun⟩, Or.inl ⟨rfl, rfl⟩, nofun⟩, .nil⟩
        · rw [split'] at agree ⊢
          obtain ⟨names, isolated, answered⟩ := ih _ (by simp [← total]) run before' agree rfl
          exact ⟨names, isolated.elsewhere_right step' elsewhere', answered⟩
        · rw [start.1, split'] at agree
          exact absurd agree.length_eq (by simp)
      · rw [split] at agree ⊢
        obtain ⟨names, isolated, answered⟩ := ih _ (by simp [← total]) before run' agree rfl
        exact ⟨names, isolated.elsewhere_left step elsewhere, answered⟩
      · obtain start' | ⟨earlier', event', cache', rfl, before', step', elsewhere', split'⟩ |
          ⟨earlier', event', cache', rfl, before', step', concerns', split'⟩ := run_cases P run'
        · rw [start'.1, split] at agree
          exact absurd agree.length_eq (by simp)
        · rw [split'] at agree ⊢
          obtain ⟨names, isolated, answered⟩ := ih _ (by simp [← total]) run before' agree rfl
          exact ⟨names, isolated.elsewhere_right step' elsewhere', answered⟩
        · rw [split, split'] at agree ⊢
          obtain ⟨others, other, parts, agree, same⟩ := agree_concat agree
          obtain ⟨rfl, last⟩ := List.append_inj' parts rfl
          obtain rfl := List.singleton_inj.mp last
          obtain ⟨names, isolated, answered⟩ :=
            ih (earlier.length + earlier'.length) (by simp [← total]; omega) before before' agree rfl
          obtain ⟨now, answers, operations⟩ := same
          obtain ⟨names', wider, isolated', replies⟩ := step_alike isolated step step' concerns
            concerns' ⟨now, answers, operations.mono fun _ _ => named_of_answered answered⟩
          refine ⟨names', isolated', List.rel_append (answered.imp fun _ _ => .mono wider)
            (.cons ⟨replies, ?_⟩ .nil)⟩
          rw [← step.2, ← step'.2]
          exact isolated'.alike

/-- **Partitions do not interfere.** Two runs in which the same happens to a partition,
whatever happens to the others, answer alike whatever is asked of the partition, and
leave it alike after every such event: the same entries in the same order. The names
under which they do so pair the ids one to one. -/
theorem partition_isolated (blind : IdBlind config.index)
    {history history' : List (Event config Response)} (run : (inUse config Response).Run history left)
    (run' : (inUse config Response).Run history' right)
    (agree : Agree (addressed P {} history) (addressed P {} history')) :
    ∃ names : Names, Relator.BiUnique names ∧ AlikeIn blind names P left right ∧
      List.Forall₂ (AnsweredAlike blind names P) (addressed P {} history)
        (addressed P {} history') := by
  obtain ⟨names, isolated, answered⟩ := runs_isolated blind run run' agree
  exact ⟨names, isolated.unique, isolated.alike, answered⟩

end Runs

/-- Products of whole numbers. -/
def products : Numpy Int Int where
  isFinite _ := true
  top matrix vector count :=
    (((List.finRange matrix.length).map fun i =>
      (i, ((matrix.get i).zipWith (· * ·) vector).sum)).insertionSort
        fun first second => second.2 ≤ first.2).take count

/-- A cache whose vectors are a single number. -/
def singles : Config (List Int) Int WholeSeconds Unit where
  modelId := "length"
  embed query := .ok [(query.length : Int)]
  index := numpyIndex products 1
  sameIntent _ _ := .ok false
  firstFailure _ _ := none
  isCacheable _ := { cacheable := true, reason := none }
  exactHash query := query
  tauHit := 4
  tauVerify := 2
  topK := 3
  capacity := 2
  defaultTtl := none
  mode := .serve
  shadowLogCapacity := 1

/-- The components as the configuration has them. -/
def singleAnswers : Answers (List Int) where
  embed := singles.embed
  sameIntent := singles.sameIntent

/-- A request of a tenant. -/
def requestOf (tenant query : String) : Request Unit where
  query := query
  ctx := { tenant, model := "m", systemPromptHash := "", paramsHash := "" }
  hasTools := false
  temperature := ()

/-- An operation on a cache, carried out. -/
def carriedOut (cache : SemanticCache Nat Int WholeSeconds singles.index.State)
    (operation : Operation Unit Nat WholeSeconds) : Event singles Nat :=
  let outcome := cache.step (singles.answering singleAnswers) (.of 0) operation
  { now := .of 0, answers := singleAnswers, operation, reply := outcome.1, after := outcome.2 }

/-- A store of a tenant. -/
def aloneStored : Event singles Nat :=
  carriedOut {} (.store (requestOf "t" "hi") 7 .useDefault)

/-- A store of another tenant. -/
def strangerStored : Event singles Nat :=
  carriedOut {} (.store (requestOf "u" "hi") 8 .useDefault)

/-- The store of the tenant after that of the other. -/
def lateStored : Event singles Nat :=
  carriedOut strangerStored.after (.store (requestOf "t" "hi") 7 .useDefault)

/-- After a stranger's entry the partition is the same but for the identifier of its own. -/
theorem partition_isolated_stranger : ∃ names : Names, Relator.BiUnique names ∧
    names "t:1" "t:2" ∧
      AlikeIn (numpyIndex_blind products 1) names (partitionKeyFor singles (requestOf "t" "").ctx)
        aloneStored.after lateStored.after := by
  have run : (inUse singles Nat).Run [aloneStored] aloneStored.after :=
    .concat (.start rfl) ⟨rfl, rfl⟩
  have before : (inUse singles Nat).Run [strangerStored] strangerStored.after :=
    .concat (.start rfl) ⟨rfl, rfl⟩
  have run' : (inUse singles Nat).Run [strangerStored, lateStored] lateStored.after :=
    .concat before ⟨rfl, rfl⟩
  have agree : Agree (addressed (partitionKeyFor singles (requestOf "t" "").ctx) {} [aloneStored])
      (addressed (partitionKeyFor singles (requestOf "t" "").ctx) {}
        [strangerStored, lateStored]) :=
    .concat .start ⟨rfl, rfl, .store _ _ _⟩
  obtain ⟨names, unique, alike, answered⟩ :=
    partition_isolated (numpyIndex_blind products 1) run run' agree
  refine ⟨names, unique, ?_, alike⟩
  apply named_of_answered answered
  exact ⟨(aloneStored, lateStored), List.mem_singleton.mpr rfl, rfl, rfl⟩

end Semantic
