import Anviq.Json.Number
import Anviq.Lru.Cache
import Mathlib.Algebra.Notation.Defs

/-! # The semantic cache

`SemanticCache` with its partitions. The embedder, the vector index, the verifier,
the guards and the cacheability policy are parameters; so are vectors, scores and
numbers of seconds. An operation is carried out at one time. An exception leaves the
state as it is at that moment.
-/

namespace Semantic

open Lru (Seconds Ttl expired validTtl)

/-! ## Requests -/

/-- `CacheContext`. -/
structure CacheContext where
  tenant : String
  model : String
  systemPromptHash : String
  paramsHash : String
deriving DecidableEq

/-- What a lookup or a store is asked about. -/
structure Request (Temperature : Type) where
  query : String
  ctx : CacheContext
  hasTools : Bool
  temperature : Temperature

/-- `PolicyDecision`. -/
structure PolicyDecision where
  cacheable : Bool
  reason : Option String

/-- `decision.reason or "not_cacheable"`. -/
def PolicyDecision.text (decision : PolicyDecision) : String :=
  match decision.reason with
  | some reason => if reason = "" then "not_cacheable" else reason
  | none => "not_cacheable"

/-- `PartitionKey`. -/
structure PartitionKey where
  tenant : String
  model : String
  systemPromptHash : String
  paramsHash : String
  modelId : String
deriving DecidableEq

/-- An exception: one of the cache's own, or of a component. -/
inductive Failure where
  | keyError
  | valueError
  | component (message : String)

/-! ## Components -/

/-- `VectorIndex`: an index may raise, and what it then holds is its own affair. -/
structure VectorIndex (Vector Score : Type) where
  State : Type
  empty : State
  add : State → String → Vector → State × Option Failure
  search : State → Vector → Nat → Except Failure (List (String × Score))
  remove : State → String → State

inductive Mode where
  | serve
  | shadow
deriving DecidableEq

/-- The arguments of `SemanticCache`, and the functions it calls. -/
structure Config (Vector Score Time Temperature : Type) where
  modelId : String
  embed : String → Except Failure Vector
  index : VectorIndex Vector Score
  sameIntent : String → String → Except Failure Bool
  firstFailure : String → String → Option (String × String)
  isCacheable : Request Temperature → PolicyDecision
  exactHash : String → String
  tauHit : Score
  tauVerify : Score
  topK : Nat
  capacity : Nat
  defaultTtl : Option Time
  mode : Mode
  shadowLogCapacity : Nat

/-! ## State -/

/-- `_Entry`. -/
structure Entry (Response Time : Type) where
  id : String
  query : String
  normalizedHash : String
  response : Response
  ctx : CacheContext
  createdAt : Time
  expiresAt : Option Time
  goodFeedback : Nat := 0
  badFeedback : Nat := 0

/-- `_Partition`. -/
structure Partition (Response Time IndexState : Type) where
  entries : Dict String (Entry Response Time)
  order : Dict String Unit
  exactIndex : Dict String String
  index : IndexState

/-- `Hit`. -/
structure Hit (Response Score : Type) where
  response : Response
  score : Score
  matchedQuery : String
  reason : String
  entryId : String

/-- `Miss`. -/
structure Miss (Score : Type) where
  reason : String
  bestScore : Option Score := none

/-- What a lookup comes to. -/
inductive Lookup (Response Score : Type) where
  | hit (hit : Hit Response Score)
  | miss (miss : Miss Score)
  | raised (failure : Failure)

/-- A `Counter`. -/
abbrev Counter := Dict String Nat

/-- `counter[key] += 1`. -/
def bump (counter : Counter) (key : String) : Counter :=
  counter.assign key ((counter.get? key).getD 0 + 1)

/-- `Metrics`. -/
structure Metrics where
  hitsExact : Nat := 0
  hitsSemantic : Nat := 0
  misses : Counter := .empty
  guardRejections : Counter := .empty
  verifierCalls : Nat := 0
  capacityEvictions : Nat := 0
  ttlExpirations : Nat := 0
  badFeedbackEvictions : Nat := 0
  storeRejections : Counter := .empty
  shadowWouldHit : Nat := 0
  shadowWouldMiss : Nat := 0

/-- `self.metrics.misses[reason] += 1`. -/
def Metrics.miss (metrics : Metrics) (reason : String) : Metrics :=
  { metrics with misses := bump metrics.misses reason }

/-- `ShadowLogEntry`. -/
structure ShadowLogEntry (Response Score Time : Type) where
  at' : Time
  query : String
  ctx : CacheContext
  wouldBe : Lookup Response Score

/-- What an operation on one partition may touch: the partition, the map from ids to
partitions, and the metrics. -/
structure Scope (Response Time IndexState : Type) where
  partition : Partition Response Time IndexState
  entryPartition : Dict String PartitionKey
  metrics : Metrics

/-- `SemanticCache`. -/
structure SemanticCache (Response Score Time IndexState : Type) where
  partitions : Dict PartitionKey (Partition Response Time IndexState) := .empty
  entryPartition : Dict String PartitionKey := .empty
  nextId : Nat := 1
  metrics : Metrics := {}
  shadowLog : List (ShadowLogEntry Response Score Time) := []

variable {Vector Score Time Temperature Response : Type} [Seconds Time]

/-! ## Inside a partition -/

section Locked

variable (config : Config Vector Score Time Temperature)

/-- `_remove_entry`: the entry removed, if there was one. -/
def removeEntry (scope : Scope Response Time config.index.State) (id : String) :
    Option (Entry Response Time) × Scope Response Time config.index.State :=
  let partition := scope.partition
  let entry := partition.entries.get? id
  let exactIndex :=
    match entry with
    | some entry =>
        if partition.exactIndex.get? entry.normalizedHash = some id then
          partition.exactIndex.erase entry.normalizedHash
        else partition.exactIndex
    | none => partition.exactIndex
  (entry,
    { scope with
      partition :=
        { entries := partition.entries.erase id
          order := partition.order.erase id
          exactIndex
          index := config.index.remove partition.index id }
      entryPartition := scope.entryPartition.erase id })

/-- `_purge_expired`. -/
def purgeExpired (scope : Scope Response Time config.index.State) (id : String) :
    Scope Response Time config.index.State :=
  match removeEntry config scope id with
  | (some _, scope) =>
      { scope with
        metrics := { scope.metrics with ttlExpirations := scope.metrics.ttlExpirations + 1 } }
  | (none, scope) => scope

/-- `_evict_lru`. -/
def evictLru (scope : Scope Response Time config.index.State) :
    Scope Response Time config.index.State :=
  match scope.partition.order.items with
  | [] => scope
  | (id, _) :: _ =>
      match removeEntry config scope id with
      | (some _, scope) =>
          { scope with
            metrics :=
              { scope.metrics with capacityEvictions := scope.metrics.capacityEvictions + 1 } }
      | (none, scope) => scope

/-- `partition.touch`. -/
def touch {IndexState : Type} (partition : Partition Response Time IndexState) (id : String) :
    Except Failure (Partition Response Time IndexState) :=
  if id ∈ partition.order.keys then
    .ok { partition with order := partition.order.moveToEnd id }
  else .error .keyError

/-- The loop over the candidates: the first live one, purging expired ones before it. -/
def firstLive (now : Time) : List (String × Score) → Scope Response Time config.index.State →
    Option (String × Score × Entry Response Time) × Scope Response Time config.index.State
  | [], scope => (none, scope)
  | (id, score) :: candidates, scope =>
      match scope.partition.entries.get? id with
      | none => firstLive now candidates scope
      | some entry =>
          if expired now entry.expiresAt then firstLive now candidates (purgeExpired config scope id)
          else (some (id, score, entry), scope)

/-- Touch an entry and serve it. -/
def serve {IndexState : Type} (scope : Scope Response Time IndexState)
    (entry : Entry Response Time) (id : String) (score : Score) (reason : String)
    (count : Metrics → Metrics) :
    Lookup Response Score × Scope Response Time IndexState :=
  match touch scope.partition id with
  | .error failure => (.raised failure, scope)
  | .ok partition =>
      (.hit
        { response := entry.response, score, matchedQuery := entry.query, reason,
          entryId := entry.id },
        { scope with partition, metrics := count scope.metrics })

/-- A miss, which is counted. -/
def missed {IndexState : Type} (scope : Scope Response Time IndexState) (counted reason : String)
    (bestScore : Option Score) : Lookup Response Score × Scope Response Time IndexState :=
  (.miss { reason, bestScore }, { scope with metrics := scope.metrics.miss counted })

section Scores

-- nothing is assumed of the comparisons: a `NaN` is neither below a threshold nor at least it
variable [LT Score] [LE Score] [DecidableLT Score] [DecidableLE Score]

/-- What becomes of the best live candidate: threshold, guards, and the grey zone. -/
def judge (query : String) (id : String) (score : Score) (entry : Entry Response Time)
    (scope : Scope Response Time config.index.State) :
    Lookup Response Score × Scope Response Time config.index.State :=
  let semantic (metrics : Metrics) : Metrics :=
    { metrics with hitsSemantic := metrics.hitsSemantic + 1 }
  if score < config.tauVerify then missed scope "below_threshold" "below_threshold" (some score)
  else
    match config.firstFailure query entry.query with
    | some (guardName, guardReason) =>
        let scope :=
          { scope with
            metrics :=
              { scope.metrics with
                guardRejections := bump scope.metrics.guardRejections guardName } }
        missed scope ("guard:" ++ guardName) ("guard:" ++ guardName ++ ": " ++ guardReason)
          (some score)
    | none =>
        if config.tauHit ≤ score then serve scope entry id score "semantic" semantic
        else
          let scope :=
            { scope with
              metrics :=
                { scope.metrics with verifierCalls := scope.metrics.verifierCalls + 1 } }
          match config.sameIntent query entry.query with
          | .error failure => (.raised failure, scope)
          | .ok true => serve scope entry id score "semantic+verified" semantic
          | .ok false => missed scope "verifier_rejected" "verifier_rejected" (some score)

/-- The semantic path of `_lookup_internal`. -/
def searchLocked (now : Time) (query : String) (scope : Scope Response Time config.index.State) :
    Lookup Response Score × Scope Response Time config.index.State :=
  if scope.partition.entries.items = [] then
    missed scope "empty_partition" "empty_partition" none
  else
    match config.embed query with
    | .error failure => (.raised failure, scope)
    | .ok vector =>
        match config.index.search scope.partition.index vector config.topK with
        | .error failure => (.raised failure, scope)
        | .ok candidates =>
            match firstLive config now candidates scope with
            | (none, scope) => missed scope "no_live_candidates" "no_live_candidates" none
            | (some (id, score, entry), scope) => judge config query id score entry scope

/-- `_lookup_internal` under the lock of the partition. -/
def lookupLocked [One Score] (now : Time) (query : String)
    (scope : Scope Response Time config.index.State) :
    Lookup Response Score × Scope Response Time config.index.State :=
  match scope.partition.exactIndex.get? (config.exactHash query) with
  | none => searchLocked config now query scope
  | some id =>
      match scope.partition.entries.get? id with
      | none => searchLocked config now query scope
      | some entry =>
          if expired now entry.expiresAt then
            searchLocked config now query (purgeExpired config scope id)
          else
            serve scope entry id 1 "exact" fun metrics =>
              { metrics with hitsExact := metrics.hitsExact + 1 }

end Scores

/-- `store` under the lock of the partition: the id, and whether the counter went on. -/
def storeLocked (now : Time) (request : Request Temperature) (response : Response)
    (expiresAt : Option Time) (vector : Vector) (key : PartitionKey) (freshId : String)
    (scope : Scope Response Time config.index.State) :
    Except Failure String × Bool × Scope Response Time config.index.State :=
  let hash := config.exactHash request.query
  let partition := scope.partition
  let existing := (partition.exactIndex.get? hash).bind fun id =>
    (partition.entries.get? id).map fun entry => (id, entry)
  match existing with
  | some (id, entry) =>
      match config.index.add partition.index id vector with
      | (index, some failure) =>
          (.error failure, false, { scope with partition := { partition with index } })
      | (index, none) =>
          let entry :=
            { entry with query := request.query, response, createdAt := now, expiresAt }
          let partition :=
            { partition with index, entries := partition.entries.replace id entry }
          match touch partition id with
          | .error failure => (.error failure, false, { scope with partition })
          | .ok partition => (.ok id, false, { scope with partition })
  | none =>
      match config.index.add partition.index freshId vector with
      | (index, some failure) =>
          (.error failure, true, { scope with partition := { partition with index } })
      | (index, none) =>
          let scope := { scope with partition := { partition with index } }
          let scope :=
            if config.capacity ≤ scope.partition.entries.size then evictLru config scope
            else scope
          let partition := scope.partition
          let entry : Entry Response Time :=
            { id := freshId, query := request.query, normalizedHash := hash, response,
              ctx := request.ctx, createdAt := now, expiresAt }
          (.ok freshId, true,
            { scope with
              partition :=
                { partition with
                  entries := partition.entries.assign freshId entry
                  exactIndex := partition.exactIndex.assign hash freshId
                  order := partition.order.assign freshId () }
              entryPartition := scope.entryPartition.assign freshId key })

end Locked

/-! ## Operations -/

section Operations

variable (config : Config Vector Score Time Temperature)

/-- `partition_key_for`. -/
def partitionKeyFor (ctx : CacheContext) : PartitionKey where
  tenant := ctx.tenant
  model := ctx.model
  systemPromptHash := ctx.systemPromptHash
  paramsHash := ctx.paramsHash
  modelId := config.modelId

/-- The id of the next entry. -/
def entryId (key : PartitionKey) (number : Nat) : String :=
  String.ofList (key.tenant.toList ++ ':' :: natText number)

/-- A new partition. -/
def newPartition : Partition Response Time config.index.State where
  entries := .empty
  order := .empty
  exactIndex := .empty
  index := config.index.empty

namespace SemanticCache

variable (cache : SemanticCache Response Score Time config.index.State)

/-- The partition with the maps an operation on it may touch. -/
def scope (partition : Partition Response Time config.index.State) :
    Scope Response Time config.index.State where
  partition := partition
  entryPartition := cache.entryPartition
  metrics := cache.metrics

/-- The cache after an operation on a partition. -/
def put (key : PartitionKey) (scope : Scope Response Time config.index.State) :
    SemanticCache Response Score Time config.index.State :=
  { cache with
    partitions := cache.partitions.assign key scope.partition
    entryPartition := scope.entryPartition
    metrics := scope.metrics }

/-- A miss before any partition is locked. -/
def missed (reason : String) :
    Lookup Response Score × SemanticCache Response Score Time config.index.State :=
  (.miss { reason }, { cache with metrics := cache.metrics.miss reason })

section Lookups

variable [LT Score] [LE Score] [DecidableLT Score] [DecidableLE Score] [One Score]

/-- `_lookup_internal`. -/
def lookupInternal (now : Time) (request : Request Temperature) :
    Lookup Response Score × SemanticCache Response Score Time config.index.State :=
  let decision := config.isCacheable request
  if !decision.cacheable then cache.missed config decision.text
  else
    let key := partitionKeyFor config request.ctx
    match cache.partitions.get? key with
    | none => cache.missed config "empty_partition"
    | some partition =>
        if partition.entries.items = [] then cache.missed config "empty_partition"
        else
          let (result, scope) := lookupLocked config now request.query (cache.scope config partition)
          (result, cache.put config key scope)

/-- `lookup`. -/
def lookup (now : Time) (request : Request Temperature) :
    Lookup Response Score × SemanticCache Response Score Time config.index.State :=
  let decision := config.isCacheable request
  if !decision.cacheable then cache.missed config decision.text
  else
    let (result, cache) := cache.lookupInternal config now request
    match config.mode, result with
    | .serve, result => (result, cache)
    | .shadow, .raised failure => (.raised failure, cache)
    | .shadow, .hit hit =>
        let log := cache.shadowLog ++
          [{ at' := now, query := request.query, ctx := request.ctx, wouldBe := .hit hit }]
        (.miss { reason := "shadow_mode", bestScore := some hit.score },
          { cache with
            shadowLog := log.drop (log.length - config.shadowLogCapacity)
            metrics :=
              { cache.metrics with shadowWouldHit := cache.metrics.shadowWouldHit + 1 } })
    | .shadow, .miss miss =>
        let log := cache.shadowLog ++
          [{ at' := now, query := request.query, ctx := request.ctx, wouldBe := .miss miss }]
        (.miss miss,
          { cache with
            shadowLog := log.drop (log.length - config.shadowLogCapacity)
            metrics :=
              { cache.metrics with shadowWouldMiss := cache.metrics.shadowWouldMiss + 1 } })

end Lookups

/-- `store`: the id, or nothing when the request is not cacheable. -/
def store (now : Time) (request : Request Temperature) (response : Response) (ttl : Ttl Time) :
    Except Failure (Option String) × SemanticCache Response Score Time config.index.State :=
  let decision := config.isCacheable request
  if !decision.cacheable then
    (.ok none,
      { cache with
        metrics :=
          { cache.metrics with
            storeRejections := bump cache.metrics.storeRejections decision.text } })
  else
    let resolved := ttl.effective config.defaultTtl
    if !validTtl resolved then (.error .valueError, cache)
    else
      let expiresAt := resolved.map (Seconds.add now)
      let key := partitionKeyFor config request.ctx
      let partition := (cache.partitions.get? key).getD (newPartition config)
      let cache := cache.put config key (cache.scope config partition)
      match config.embed request.query with
      | .error failure => (.error failure, cache)
      | .ok vector =>
          let (result, counted, scope) :=
            storeLocked config now request response expiresAt vector key
              (entryId key cache.nextId) (cache.scope config partition)
          let cache := cache.put config key scope
          (result.map some,
            { cache with nextId := if counted then cache.nextId + 1 else cache.nextId })

/-- `invalidate`. -/
def invalidate (id : String) :
    Except Failure Bool × SemanticCache Response Score Time config.index.State :=
  match cache.entryPartition.get? id with
  | none => (.ok false, cache)
  | some key =>
      match cache.partitions.get? key with
      | none => (.error .keyError, cache)
      | some partition =>
          let (entry, scope) := removeEntry config (cache.scope config partition) id
          (.ok entry.isSome, cache.put config key scope)

/-- `feedback`. -/
def feedback (id : String) (good : Bool) :
    Except Failure Unit × SemanticCache Response Score Time config.index.State :=
  match cache.entryPartition.get? id with
  | none => (.ok (), cache)
  | some key =>
      match cache.partitions.get? key with
      | none => (.error .keyError, cache)
      | some partition =>
          match partition.entries.get? id with
          | none => (.ok (), cache)
          | some entry =>
              if good then
                let entry := { entry with goodFeedback := entry.goodFeedback + 1 }
                let partition :=
                  { partition with entries := partition.entries.replace id entry }
                (.ok (), cache.put config key (cache.scope config partition))
              else
                let entry := { entry with badFeedback := entry.badFeedback + 1 }
                let partition :=
                  { partition with entries := partition.entries.replace id entry }
                let (_, scope) := removeEntry config (cache.scope config partition) id
                let metrics :=
                  { scope.metrics with
                    badFeedbackEvictions := scope.metrics.badFeedbackEvictions + 1 }
                (.ok (), cache.put config key { scope with metrics })

end SemanticCache

/-- An operation on the cache. -/
inductive Operation (Temperature Response Time : Type) where
  | lookup (request : Request Temperature)
  | store (request : Request Temperature) (response : Response) (ttl : Ttl Time)
  | invalidate (id : String)
  | feedback (id : String) (good : Bool)

/-- What an operation returns or raises. -/
inductive Reply (Response Score : Type) where
  | looked (result : Lookup Response Score)
  | stored (result : Except Failure (Option String))
  | invalidated (result : Except Failure Bool)
  | fedBack (result : Except Failure Unit)

/-- An operation at a time. -/
def SemanticCache.step [LT Score] [LE Score] [DecidableLT Score] [DecidableLE Score] [One Score]
    (cache : SemanticCache Response Score Time config.index.State) (now : Time)
    (operation : Operation Temperature Response Time) :
    Reply Response Score × SemanticCache Response Score Time config.index.State :=
  match operation with
  | .lookup request =>
      let (result, cache) := cache.lookup config now request
      (.looked result, cache)
  | .store request response ttl =>
      let (result, cache) := cache.store config now request response ttl
      (.stored result, cache)
  | .invalidate id =>
      let (result, cache) := cache.invalidate config id
      (.invalidated result, cache)
  | .feedback id good =>
      let (result, cache) := cache.feedback config id good
      (.fedBack result, cache)

end Operations

end Semantic
