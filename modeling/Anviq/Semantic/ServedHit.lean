import Anviq.Lru.Refinement
import Anviq.Machine.Run
import Anviq.Semantic.Steps

/-! # A served hit is justified and current

The runs of a semantic cache, and where the entry behind a hit comes from: the last
store of its text in the partition of the request, since which nothing has withdrawn
it and it has been there all the time.
-/

namespace Semantic

open Lru (Seconds Ttl WholeSeconds expired)

/-! ## Runs -/

/-- What the components that may answer otherwise the next time say in the course of
one operation. -/
structure Answers (Vector : Type) where
  embed : String → Except Failure Vector
  sameIntent : String → String → Except Failure Bool

variable {Vector Score Time Temperature Response : Type} [Seconds Time]

/-- The cache with these answers. -/
abbrev Config.answering (config : Config Vector Score Time Temperature)
    (answers : Answers Vector) : Config Vector Score Time Temperature :=
  { config with embed := answers.embed, sameIntent := answers.sameIntent }

/-- An operation that has been carried out. -/
structure Event (config : Config Vector Score Time Temperature) (Response : Type) where
  now : Time
  answers : Answers Vector
  operation : Operation Temperature Response Time
  reply : Reply Response Score
  after : SemanticCache Response Score Time config.index.State

/-- A cache in use, from the beginning. -/
def inUse [LT Score] [LE Score] [DecidableLT Score] [DecidableLE Score] [One Score]
    (config : Config Vector Score Time Temperature)
    (Response : Type) :
    Machine (SemanticCache Response Score Time config.index.State) (Event config Response) where
  start cache := cache = {}
  step cache event next :=
    cache.step (config.answering event.answers) event.now event.operation =
        (event.reply, event.after) ∧ next = event.after

variable {config : Config Vector Score Time Temperature}

namespace Event

variable (event : Event config Response)

/-- A store that returned an id: the answer to a text, and its expiry, in a partition. -/
def Stores (key : PartitionKey) (query : String) (response : Response)
    (expiresAt : Option Time) (id : String) : Prop :=
  ∃ request ttl, event.operation = .store request response ttl ∧
    event.reply = .stored (.ok (some id)) ∧ request.query = query ∧
    partitionKeyFor config request.ctx = key ∧
    (ttl.effective config.defaultTtl).map (Seconds.add event.now) = expiresAt

variable {event} in
theorem not_stores {key : PartitionKey} {query : String} {response : Response}
    {expiresAt : Option Time} {id : String}
    (other : ∀ request response ttl, event.operation ≠ .store request response ttl) :
    ¬ event.Stores key query response expiresAt id := by
  intro stores
  obtain ⟨request, ttl, operated, -⟩ := stores
  exact other request response ttl operated

omit [Seconds Time] in
/-- The entry with this id is invalidated, or rated badly. -/
def Withdraws (id : String) : Prop :=
  event.operation = .invalidate id ∨ event.operation = .feedback id false

/-- Since the store of a text, nothing has been stored for it in the partition, its
entry has not been withdrawn, and it is there. -/
structure Spares (key : PartitionKey) (query : String) (id : String) : Prop where
  latest : ∀ response expiresAt id', ¬ event.Stores key query response expiresAt id'
  standing : ¬ event.Withdraws id
  held : ∃ entry, event.after.entryAt? key id = some entry

end Event

/-! ## One event -/

omit [Seconds Time] in
/-- The answers of the moment do not decide whether a cache is consistent. -/
theorem consistent_answering (answers : Answers Vector)
    {cache : SemanticCache Response Score Time config.index.State} :
    cache.Consistent (config.answering answers) ↔ cache.Consistent config := by
  constructor
  · intro consistent
    refine ⟨?_, consistent.placed, consistent.known, consistent.numbered⟩
    intro key partition held
    obtain ⟨id, hash, indexed, exact', order⟩ := consistent.fits key partition held
    exact ⟨id, hash, indexed, exact', order⟩
  · intro consistent
    refine ⟨?_, consistent.placed, consistent.known, consistent.numbered⟩
    intro key partition held
    obtain ⟨id, hash, indexed, exact', order⟩ := consistent.fits key partition held
    exact ⟨id, hash, indexed, exact', order⟩

/-- What has not expired had not expired before. -/
theorem expired_earlier
    (transitive : ∀ first second third : Time, Seconds.le first second = true →
      Seconds.le second third = true → Seconds.le first third = true)
    {earlier now : Time} {expiresAt : Option Time} (before : Seconds.le earlier now = true)
    (current : expired now expiresAt = false) : expired earlier expiresAt = false := by
  cases expiresAt with
  | none => rfl
  | some expiresAt =>
      apply Bool.eq_false_iff.mpr
      intro late
      exact Bool.false_ne_true (current.symm.trans (transitive _ _ _ late before))

/-- What an event does to the entries. -/
structure Evolves (cache : SemanticCache Response Score Time config.index.State)
    (event : Event config Response) : Prop where
  consistent : event.after.Consistent config
  origin : ∀ key id entry, event.after.entryAt? key id = some entry →
    event.Stores key entry.query entry.response entry.expiresAt id ∨
      ((∃ old, cache.entryAt? key id = some old ∧ old.query = entry.query ∧
        old.response = entry.response ∧ old.expiresAt = entry.expiresAt) ∧ ¬ event.Withdraws id)
  stored : ∀ key query response expiresAt id, event.Stores key query response expiresAt id →
    ∃ entry, event.after.entryAt? key id = some entry ∧ entry.query = query ∧
      entry.response = response ∧ entry.expiresAt = expiresAt

section Runs

variable [LT Score] [LE Score] [DecidableLT Score] [DecidableLE Score] [One Score]

theorem step_evolves {cache next : SemanticCache Response Score Time config.index.State}
    {event : Event config Response} (consistent : cache.Consistent config)
    (step : (inUse config Response).step cache event next) : Evolves cache event := by
  obtain ⟨now, answers, operation, reply, after⟩ := event
  obtain ⟨stepped, -⟩ := step
  change cache.step (config.answering answers) now operation = (reply, after) at stepped
  have inside := (consistent_answering answers).mpr consistent
  cases operation with
  | lookup request =>
      have outcome := SemanticCache.lookup_looked inside now request
      rw [SemanticCache.step_lookup, Prod.mk.injEq] at stepped
      obtain ⟨rfl, rfl⟩ := stepped
      refine ⟨(consistent_answering answers).mp outcome.consistent, ?_, ?_⟩
      · intro key id entry found
        refine Or.inr ⟨outcome.keeps key id entry found, ?_⟩
        simp [Event.Withdraws]
      · intro key query response expiresAt id stores
        exact absurd stores (Event.not_stores nofun)
  | store request response ttl =>
      have outcome := SemanticCache.store_storing inside now request response ttl
      rw [SemanticCache.step_store, Prod.mk.injEq] at stepped
      generalize cache.store (config.answering answers) now request response ttl = stored
        at outcome stepped
      cases outcome with
      | nothing unstored consistent' keeps =>
          obtain ⟨rfl, rfl⟩ := stepped
          refine ⟨(consistent_answering answers).mp consistent', ?_, ?_⟩
          · intro key id entry found
            refine Or.inr ⟨keeps key id entry found, ?_⟩
            simp [Event.Withdraws]
          · intro key query response' expiresAt id stores
            obtain ⟨request', ttl', _, replied, -⟩ := stores
            exact absurd (Reply.stored.inj replied) (unstored id)
      | stored consistent' query answer expiry found keeps =>
          obtain ⟨rfl, rfl⟩ := stepped
          refine ⟨(consistent_answering answers).mp consistent', ?_, ?_⟩
          · intro key name held held'
            obtain ⟨rfl, rfl, rfl⟩ | old := keeps key name held held'
            · exact Or.inl ⟨request, ttl, by rw [answer], rfl, query.symm, rfl, expiry.symm⟩
            · refine Or.inr ⟨⟨held, old, rfl, rfl, rfl⟩, ?_⟩
              simp [Event.Withdraws]
          · intro key query' response' expiresAt id' stores
            obtain ⟨request', ttl', operated, replied, rfl, rfl, rfl⟩ := stores
            cases operated
            cases replied
            exact ⟨_, found, query, answer, expiry⟩
  | invalidate id =>
      have outcome := SemanticCache.invalidate_withdrawing inside id
      rw [SemanticCache.step_invalidate, Prod.mk.injEq] at stepped
      obtain ⟨rfl, rfl⟩ := stepped
      refine ⟨(consistent_answering answers).mp outcome.consistent, ?_, ?_⟩
      · intro key other entry found
        refine Or.inr ⟨outcome.keeps key other entry found, ?_⟩
        intro withdraws
        obtain withdrawn | absurdity := withdraws
        · cases withdrawn
          cases (outcome.gone key).symm.trans found
        · cases absurdity
      · intro key query response expiresAt id stores
        exact absurd stores (Event.not_stores nofun)
  | feedback id good =>
      rw [SemanticCache.step_feedback, Prod.mk.injEq] at stepped
      obtain ⟨rfl, rfl⟩ := stepped
      cases good with
      | true =>
          obtain ⟨later, keeps⟩ := SemanticCache.feedback_good inside id
          refine ⟨(consistent_answering answers).mp later, ?_, ?_⟩
          · intro key other entry found
            refine Or.inr ⟨keeps key other entry found, ?_⟩
            simp [Event.Withdraws]
          · intro key query response expiresAt id' stores
            exact absurd stores (Event.not_stores nofun)
      | false =>
          have outcome := SemanticCache.feedback_withdrawing inside id
          refine ⟨(consistent_answering answers).mp outcome.consistent, ?_, ?_⟩
          · intro key other entry found
            refine Or.inr ⟨outcome.keeps key other entry found, ?_⟩
            intro withdraws
            obtain absurdity | withdrawn := withdraws
            · cases absurdity
            · cases withdrawn
              cases (outcome.gone key).symm.trans found
          · intro key query response expiresAt id' stores
            exact absurd stores (Event.not_stores nofun)

omit [LT Score] [LE Score] [DecidableLT Score] [DecidableLE Score] [One Score] in
/-- An entry was there before and has been spared, or the event stored it. -/
theorem Evolves.latest {cache : SemanticCache Response Score Time config.index.State}
    {event : Event config Response} (evolves : Evolves cache event) {key : PartitionKey}
    {id : String} {entry : Entry Response Time} (found : event.after.entryAt? key id = some entry) :
    event.Stores key entry.query entry.response entry.expiresAt id ∨
      (∃ old, cache.entryAt? key id = some old ∧ old.query = entry.query ∧
        old.response = entry.response ∧ old.expiresAt = entry.expiresAt) ∧
      event.Spares key entry.query id := by
  obtain stores | ⟨kept, standing⟩ := evolves.origin key id entry found
  · exact Or.inl stores
  · by_cases again : ∃ response expiresAt id', event.Stores key entry.query response expiresAt id'
    · obtain ⟨response, expiresAt, id', stores⟩ := again
      obtain ⟨fresh, freshFound, query, answer, expiry⟩ := evolves.stored _ _ _ _ _ stores
      obtain rfl : id = id' := evolves.consistent.sameText found freshFound query.symm
      obtain rfl : entry = fresh := Option.some.inj (found.symm.trans freshFound)
      rw [answer, expiry]
      exact Or.inl stores
    · refine Or.inr ⟨kept, ?_, standing, entry, found⟩
      intro response expiresAt id' stores
      exact again ⟨response, expiresAt, id', stores⟩

/-- Every entry was stored, and has been spared since. -/
def Sourced (history : List (Event config Response))
    (cache : SemanticCache Response Score Time config.index.State) : Prop :=
  ∀ key id entry, cache.entryAt? key id = some entry → ∃ before stored after,
    history = before ++ stored :: after ∧
      stored.Stores key entry.query entry.response entry.expiresAt id ∧
      ∀ event ∈ after, event.Spares key entry.query id

/-- In every run the cache is consistent, and its entries are sourced. -/
theorem run_sourced {history : List (Event config Response)}
    {cache : SemanticCache Response Score Time config.index.State}
    (run : (inUse config Response).Run history cache) :
    cache.Consistent config ∧ Sourced history cache := by
  refine run.invariant (P := fun history cache => cache.Consistent config ∧ Sourced history cache)
    ?_ ?_
  · intro cache starts
    cases starts
    exact ⟨.initial, nofun⟩
  · intro history cache event next holds step
    obtain ⟨consistent, sourced⟩ := holds
    have evolves := step_evolves consistent step
    obtain ⟨-, rfl⟩ := step
    refine ⟨evolves.consistent, ?_⟩
    intro key id entry found
    obtain stores | ⟨⟨old, oldFound, query, answer, expiry⟩, spares⟩ := evolves.latest found
    · exact ⟨history, event, [], rfl, stores, nofun⟩
    · obtain ⟨before, stored, after, parts, stores, spared⟩ := sourced key id old oldFound
      refine ⟨before, stored, after ++ [event], ?_, ?_, ?_⟩
      · rw [parts, List.append_assoc, List.cons_append]
      · rw [← query, ← answer, ← expiry]
        exact stores
      · intro other among
        obtain earlier | last := List.mem_append.mp among
        · exact query ▸ spared other earlier
        · rw [List.mem_singleton.mp last]
          exact spares

/-! ## Hits -/

/-- **A served hit is justified and current.** Whatever has been stored, looked up,
withdrawn and rated: a lookup serves a request the policy lets it serve; what it serves
comes from the last store of its text in the partition of the request, the entry of
which has been there ever since, not withdrawn and not expired; and that text is the
query, or its score is not below `tau_verify`, and the guards, and `tau_hit` or the
verifier, let it answer the query. -/
theorem served_hit {history : List (Event config Response)}
    {cache next : SemanticCache Response Score Time config.index.State}
    (run : (inUse config Response).Run history cache)
    (injective : Function.Injective config.exactHash)
    (transitive : ∀ first second third : Time, Seconds.le first second = true →
      Seconds.le second third = true → Seconds.le first third = true)
    {now : Time} {answers : Answers Vector} {request : Request Temperature}
    {hit : Hit Response Score}
    (looked : cache.lookup (config.answering answers) now request = (.hit hit, next)) :
    (config.isCacheable request).cacheable = true ∧
      (∃ before stored after expiresAt, history = before ++ stored :: after ∧
        stored.Stores (partitionKeyFor config request.ctx) hit.matchedQuery hit.response
          expiresAt hit.entryId ∧
        (∀ event ∈ after,
          event.Spares (partitionKeyFor config request.ctx) hit.matchedQuery hit.entryId) ∧
        expired now expiresAt = false ∧
        ∀ event ∈ after, Seconds.le event.now now = true → expired event.now expiresAt = false) ∧
      (hit.matchedQuery = request.query ∨
        ∃ partition index,
          cache.partitions.get? (partitionKeyFor config request.ctx) = some partition ∧
            Searched (config.answering answers) partition index ∧
            Resembles (config.answering answers) index request.query hit.matchedQuery hit.entryId
              hit.score) := by
  obtain ⟨consistent, sourced⟩ := run_sourced run
  have outcome := SemanticCache.lookup_looked ((consistent_answering answers).mpr consistent) now
    request
  rw [looked] at outcome
  obtain ⟨cacheable, ⟨entry, found, current, query, response⟩, why⟩ := outcome.serves hit rfl
  obtain ⟨before, stored, after, parts, stores, spared⟩ := sourced _ _ entry found
  refine ⟨cacheable, ⟨before, stored, after, entry.expiresAt, parts, ?_, ?_, current, ?_⟩, ?_⟩
  · rw [query, response]
    exact stores
  · rw [query]
    exact spared
  · intro event among earlier
    exact expired_earlier transitive earlier current
  · obtain same | resembles := why
    · exact Or.inl (injective same).symm
    · exact Or.inr resembles

end Runs

/-- Texts of the same length are alike, and nobody objects. -/
def lengths : Config Nat Nat WholeSeconds Unit where
  modelId := "length"
  embed query := .ok query.length
  index :=
    { State := List (String × Nat)
      empty := []
      add := fun rows id vector => (rows.filter (fun row => row.1 ≠ id) ++ [(id, vector)], none)
      search := fun rows vector count =>
        .ok (((rows.filter fun row => row.2 = vector).map fun row => (row.1, 1)).take count)
      remove := fun rows id => rows.filter fun row => row.1 ≠ id }
  sameIntent _ _ := .ok false
  firstFailure _ _ := none
  isCacheable _ := { cacheable := true, reason := none }
  exactHash query := query
  tauHit := 1
  tauVerify := 1
  topK := 3
  capacity := 2
  defaultTtl := some (.of 10)
  mode := .serve
  shadowLogCapacity := 1

/-- A request of no particular kind. -/
def asking (query : String) : Request Unit where
  query := query
  ctx := { tenant := "t", model := "m", systemPromptHash := "", paramsHash := "" }
  hasTools := false
  temperature := ()

/-- The components as the configuration has them. -/
def plainAnswers : Answers Nat where
  embed := lengths.embed
  sameIntent := lengths.sameIntent

/-- A store in a new cache. -/
def greeted : Event lengths Nat :=
  let outcome := SemanticCache.step (lengths.answering plainAnswers)
    ({} : SemanticCache Nat Nat WholeSeconds lengths.index.State) (.of 0)
    (.store (asking "hi") 7 .useDefault)
  { now := .of 0, answers := plainAnswers, operation := .store (asking "hi") 7 .useDefault,
    reply := outcome.1, after := outcome.2 }

/-- The hit is served from the store of the greeting. -/
theorem served_hit_alike : ∃ before stored after expiresAt, [greeted] = before ++ stored :: after ∧
    stored.Stores (partitionKeyFor lengths (asking "ho").ctx) "hi" 7 expiresAt "t:1" := by
  have run : (inUse lengths Nat).Run [greeted] greeted.after :=
    .concat (.start rfl) ⟨rfl, rfl⟩
  have transitive : ∀ first second third : WholeSeconds, Seconds.le first second = true →
      Seconds.le second third = true → Seconds.le first third = true := by
    intro first second third
    cases first <;> cases second <;> cases third <;> simp [Seconds.le]
    exact Nat.le_trans
  have looked : greeted.after.lookup (lengths.answering plainAnswers) (.of 9) (asking "ho") =
      (.hit { response := 7, score := 1, matchedQuery := "hi", reason := "semantic",
              entryId := "t:1" }, _) := rfl
  obtain ⟨-, ⟨before, stored, after, expiresAt, parts, stores, -⟩, -⟩ :=
    served_hit run (fun _ _ same => same) transitive looked
  exact ⟨before, stored, after, expiresAt, parts, stores⟩

/-- A score as Python compares it: `NaN` is neither below a number nor at least one. -/
inductive Similarity where
  | percent (value : Nat)
  | nan

namespace Similarity

instance : One Similarity where
  one := .percent 100

instance : LT Similarity where
  lt
    | .percent first, .percent second => first < second
    | _, _ => False

instance : LE Similarity where
  le
    | .percent first, .percent second => first ≤ second
    | _, _ => False

instance : DecidableLT Similarity
  | .percent first, .percent second => inferInstanceAs (Decidable (first < second))
  | .percent _, .nan => .isFalse id
  | .nan, _ => .isFalse id

instance : DecidableLE Similarity
  | .percent first, .percent second => inferInstanceAs (Decidable (first ≤ second))
  | .percent _, .nan => .isFalse id
  | .nan, _ => .isFalse id

end Similarity

/-- Vectors whose product overflows: `inf - inf` is the score of every row. -/
def overflowing : Config Unit Similarity WholeSeconds Unit where
  modelId := "overflow"
  embed _ := .ok ()
  index :=
    { State := List String
      empty := []
      add := fun rows id _ => (rows.filter (· ≠ id) ++ [id], none)
      search := fun rows _ count => .ok ((rows.take count).map fun id => (id, .nan))
      remove := fun rows id => rows.filter (· ≠ id) }
  sameIntent _ _ := .ok true
  firstFailure _ _ := none
  isCacheable _ := { cacheable := true, reason := none }
  exactHash query := query
  tauHit := .percent 92
  tauVerify := .percent 80
  topK := 5
  capacity := 2
  defaultTtl := none
  mode := .serve
  shadowLogCapacity := 1

/-- The components as the configuration has them. -/
def overflowingAnswers : Answers Unit where
  embed := overflowing.embed
  sameIntent := overflowing.sameIntent

/-- A store in a new cache. -/
def overflown : Event overflowing Nat :=
  let outcome := SemanticCache.step (overflowing.answering overflowingAnswers)
    ({} : SemanticCache Nat Similarity WholeSeconds overflowing.index.State) (.of 0)
    (.store (asking "hi") 7 .useDefault)
  { now := .of 0, answers := overflowingAnswers,
    operation := .store (asking "hi") 7 .useDefault, reply := outcome.1, after := outcome.2 }

/-- A score that is `NaN` passes `score < tau_verify`, and the verifier serves the entry. -/
theorem served_hit_nan : ∃ hit next,
    (inUse overflowing Nat).Run [overflown] overflown.after ∧
      overflown.after.lookup (overflowing.answering overflowingAnswers) (.of 9) (asking "ho") =
        (.hit hit, next) ∧
      hit.matchedQuery ≠ "ho" ∧ ¬ overflowing.tauVerify ≤ hit.score :=
  ⟨{ response := 7, score := .nan, matchedQuery := "hi", reason := "semantic+verified",
     entryId := "t:1" }, _, .concat (.start rfl) ⟨rfl, rfl⟩, rfl, by decide, id⟩

end Semantic
