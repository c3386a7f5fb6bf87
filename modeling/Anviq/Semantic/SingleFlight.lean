import Anviq.Semantic.Client
import Mathlib.Algebra.Order.BigOperators.Group.Finset
import Mathlib.Data.Fintype.Basic

/-! # One call upstream

Callers with the same query share one call upstream, and all return its response,
exactly when no caller stands between its lookup and its check of the registry at the
moment when a flight is deleted from there.
-/

namespace Semantic

open Lru (Seconds Ttl WholeSeconds expired validTtl)

variable {Vector Score Time Temperature Response Caller : Type} [Seconds Time]
  {config : Config Vector Score Time Temperature}

/-! ## The cache -/

namespace SemanticCache

variable {cache next : SemanticCache Response Score Time config.index.State} {key : PartitionKey}
  {query : String} {response : Response}

/-- The cache has an answer to the query in the partition. -/
def Holds (config : Config Vector Score Time Temperature) (key : PartitionKey) (query : String)
    (response : Response) (cache : SemanticCache Response Score Time config.index.State) : Prop :=
  cache.Consistent config ∧ ∃ id entry, cache.entryAt? key id = some entry ∧
    entry.query = query ∧ entry.response = response

section Lookups

variable [LT Score] [LE Score] [DecidableLT Score] [DecidableLE Score] [One Score]
  {request : Request Temperature}

variable (config) in
/-- Nothing is found where no partition is. -/
theorem lookup_absent (now : Time) (serving : config.mode = .serve)
    (cacheable : (config.isCacheable request).cacheable = true)
    (absent : cache.partitions.get? (partitionKeyFor config request.ctx) = none) :
    cache.lookup config now request = cache.missed config "empty_partition" := by
  unfold lookup lookupInternal
  simp only [cacheable, absent, serving, Bool.not_true, Bool.false_eq_true, ↓reduceIte]

variable (config) in
/-- What the cache holds and has not expired is found, and held on. -/
theorem lookup_holds (now : Time) (serving : config.mode = .serve)
    (cacheable : (config.isCacheable request).cacheable = true)
    (holds : Holds config (partitionKeyFor config request.ctx) request.query response cache)
    (current : ∀ id entry,
      cache.entryAt? (partitionKeyFor config request.ctx) id = some entry →
        expired now entry.expiresAt = false) :
    ∃ hit next, cache.lookup config now request = (.hit hit, next) ∧ hit.response = response ∧
      Holds config (partitionKeyFor config request.ctx) request.query response next := by
  obtain ⟨consistent, id, entry, found, query, answer⟩ := holds
  obtain ⟨partition, held, here⟩ := Option.bind_eq_some_iff.mp found
  have fits : (cache.scope config partition).partition.Fits config := consistent.fits _ _ held
  have indexed : partition.exactIndex.get? (config.exactHash request.query) = some id := by
    rw [← query]
    exact fits.indexed id entry here
  have standing : partition.entries.items ≠ [] :=
    List.ne_nil_of_mem (Dict.get?_eq_some.mp here)
  obtain ⟨hit, served, -, named, from'⟩ :=
    serve_servedFrom fits here (current id entry found) (1 : Score) "exact" fun metrics =>
      { metrics with hitsExact := metrics.hitsExact + 1 }
  have locked : lookupLocked config now request.query (cache.scope config partition) =
      serve (cache.scope config partition) entry id 1 "exact" fun metrics =>
        { metrics with hitsExact := metrics.hitsExact + 1 } := by
    unfold lookupLocked
    have index : (cache.scope config partition).partition.exactIndex.get?
        (config.exactHash request.query) = some id := indexed
    have entries : (cache.scope config partition).partition.entries.get? id = some entry := here
    rw [index]
    dsimp only
    rw [entries]
    dsimp only
    rw [current id entry found, if_neg Bool.false_ne_true]
  have looked := lookup_looked consistent now request
  have inside : cache.lookup config now request =
      (.hit hit, cache.put config (partitionKeyFor config request.ctx)
        (lookupLocked config now request.query (cache.scope config partition)).2) := by
    unfold lookup lookupInternal
    simp only [cacheable, held, standing, serving, Bool.not_true, Bool.false_eq_true, ↓reduceIte]
    rw [locked, served]
  rw [inside] at looked
  refine ⟨hit, _, inside, from'.response.trans answer, looked.consistent, id, entry, ?_, query,
    answer⟩
  rw [entryAt?_put, if_pos rfl, locked]
  exact named ▸ from'.after

end Lookups

omit [Seconds Time] in
theorem map_some_ne_none (outcome : Except Failure String) : outcome.map some ≠ .ok none := by
  cases outcome <;> simp [Except.map]

/-- A store that returns has put the answer in the cache. -/
theorem store_holds {request : Request Temperature} {now : Time} {ttl : Ttl Time}
    {result : Option String} (consistent : cache.Consistent config)
    (cacheable : (config.isCacheable request).cacheable = true)
    (stored : cache.store config now request response ttl = (.ok result, next)) :
    Holds config (partitionKeyFor config request.ctx) request.query response next := by
  have outcome := store_storing consistent now request response ttl
  have returned : result ≠ none := by
    intro none
    rw [none] at stored
    have answered := congrArg Prod.fst stored
    unfold store at answered
    dsimp only at answered
    rw [cacheable] at answered
    simp only [Bool.not_true, Bool.false_eq_true, ↓reduceIte] at answered
    split at answered
    · cases answered
    · split at answered
      · cases answered
      · exact map_some_ne_none _ answered
  rw [stored] at outcome
  cases outcome with
  | nothing unstored _ _ =>
      obtain ⟨id, some⟩ := Option.ne_none_iff_exists'.mp returned
      exact absurd (congrArg _ some) (unstored id)
  | stored consistent' query answer _ found _ =>
      exact ⟨consistent', _, _, found, query, answer⟩

end SemanticCache

/-! ## Turns -/

section Turns

variable [LT Score] [LE Score] [DecidableLT Score] [DecidableLE Score] [One Score]
  [DecidableEq Caller]
  {requests : Caller → Request Temperature}
  {client next : CachedLLM Response Score Time config.index.State Caller}
  {turn : Turn Vector Time Response Caller}

/-- Where a lookup leads. -/
def Stage.afterLookup (cacheable : Bool) : Lookup Response Score → Stage Response Score
  | .raised failure => .raised failure
  | .hit hit => .returned (.ofHit hit)
  | .miss miss => if cacheable then .missed miss else .bypassing miss

/-- What a turn can do. -/
inductive Move (config : Config Vector Score Time Temperature)
    (requests : Caller → Request Temperature)
    (client : CachedLLM Response Score Time config.index.State Caller)
    (turn : Turn Vector Time Response Caller) :
    CachedLLM Response Score Time config.index.State Caller → Prop where
  | looked (at' : client.stage turn.caller = .entered) :
      Move config requests client turn
        (({ client with
            cache := (client.cache.lookup (config.answering turn.answers) turn.now
              (requests turn.caller)).2 } :
          CachedLLM Response Score Time config.index.State Caller).goto turn.caller
          (.afterLookup (config.isCacheable (requests turn.caller)).cacheable
            (client.cache.lookup (config.answering turn.answers) turn.now
              (requests turn.caller)).1))
  | bypassed {miss : Miss Score} (at' : client.stage turn.caller = .bypassing miss) :
      Move config requests client turn (client.goto turn.caller
        (.final (turn.upstream.map fun response => .ofMiss miss (some response))))
  | joined {miss : Miss Score} {flight : Nat} (at' : client.stage turn.caller = .missed miss)
      (registered : client.inflight.get? (flightKey config (requests turn.caller)) = some flight) :
      Move config requests client turn (client.goto turn.caller (.waiting flight miss))
  | led {miss : Miss Score} (at' : client.stage turn.caller = .missed miss)
      (unregistered : client.inflight.get? (flightKey config (requests turn.caller)) = none) :
      Move config requests client turn
        ((({ client with
            inflight :=
              client.inflight.assign (flightKey config (requests turn.caller)) client.flown
            flown := client.flown + 1 } :
          CachedLLM Response Score Time config.index.State Caller).setFlight
            client.flown {}).goto turn.caller (.leading client.flown miss))
  | answered {flight : Nat} {miss : Miss Score} {response : Response}
      (at' : client.stage turn.caller = .leading flight miss)
      (upstream : turn.upstream = .ok response) :
      Move config requests client turn
        ((client.setFlight flight
          { client.flights flight with response := some response }).goto turn.caller
            (.storing flight miss response))
  | unanswered {flight : Nat} {miss : Miss Score} {failure : Failure}
      (at' : client.stage turn.caller = .leading flight miss)
      (upstream : turn.upstream = .error failure) :
      Move config requests client turn
        ((client.setFlight flight
          { client.flights flight with error := some failure }).goto turn.caller
            (.leaving flight (.error failure)))
  | stored {flight : Nat} {miss : Miss Score} {response : Response} {result : Option String}
      {cache : SemanticCache Response Score Time config.index.State}
      (at' : client.stage turn.caller = .storing flight miss response)
      (stored : client.cache.store (config.answering turn.answers) turn.now (requests turn.caller)
        response .useDefault = (.ok result, cache)) :
      Move config requests client turn
        (({ client with cache } :
          CachedLLM Response Score Time config.index.State Caller).goto turn.caller
            (.leaving flight (.ok (.ofMiss miss (some response)))))
  | unstored {flight : Nat} {miss : Miss Score} {response : Response} {failure : Failure}
      {cache : SemanticCache Response Score Time config.index.State}
      (at' : client.stage turn.caller = .storing flight miss response)
      (stored : client.cache.store (config.answering turn.answers) turn.now (requests turn.caller)
        response .useDefault = (.error failure, cache)) :
      Move config requests client turn
        ((({ client with cache } :
          CachedLLM Response Score Time config.index.State Caller).setFlight flight
            { client.flights flight with error := some failure }).goto turn.caller
              (.leaving flight (.error failure)))
  | left {flight : Nat} {outcome : Except Failure (CachedResponse Response Score)}
      (at' : client.stage turn.caller = .leaving flight outcome) :
      Move config requests client turn
        (({ client with
            inflight := client.inflight.erase (flightKey config (requests turn.caller)) } :
          CachedLLM Response Score Time config.index.State Caller).goto turn.caller
            (.signalling flight outcome))
  | signalled {flight : Nat} {outcome : Except Failure (CachedResponse Response Score)}
      (at' : client.stage turn.caller = .signalling flight outcome) :
      Move config requests client turn
        ((client.setFlight flight { client.flights flight with done := true }).goto turn.caller
          (.final outcome))
  | woken {flight : Nat} {miss : Miss Score}
      (at' : client.stage turn.caller = .waiting flight miss)
      (done : (client.flights flight).done = true) :
      Move config requests client turn
        (client.goto turn.caller
          (match (client.flights flight).error with
            | some failure => .raised failure
            | none => .returned (.ofMiss miss (client.flights flight).response)))

/-- What a caller does in a turn is one of the moves. -/
theorem advance_move (advanced : client.advance config requests turn = some next) :
    Move config requests client turn next := by
  unfold CachedLLM.advance at advanced
  dsimp only at advanced
  cases at' : client.stage turn.caller with
  | entered =>
      rw [at'] at advanced
      dsimp only at advanced
      have moved : Move config requests client turn _ := .looked at'
      generalize client.cache.lookup (config.answering turn.answers) turn.now
        (requests turn.caller) = outcome at advanced moved
      obtain ⟨result, cache⟩ := outcome
      cases result with
      | hit hit =>
          cases advanced
          exact moved
      | raised failure =>
          cases advanced
          exact moved
      | miss miss =>
          cases cacheable : (config.isCacheable (requests turn.caller)).cacheable with
          | false =>
              simp only [cacheable, Bool.not_false, ↓reduceIte, Option.some.injEq] at advanced
              rw [cacheable] at moved
              exact advanced ▸ moved
          | true =>
              simp only [cacheable, Bool.not_true, Bool.false_eq_true, ↓reduceIte,
                Option.some.injEq] at advanced
              rw [cacheable] at moved
              exact advanced ▸ moved
  | bypassing miss =>
      rw [at'] at advanced
      cases advanced
      exact .bypassed at'
  | missed miss =>
      rw [at'] at advanced
      dsimp only at advanced
      split at advanced
      · next flight registered =>
          cases advanced
          exact .joined at' registered
      · next unregistered =>
          cases advanced
          exact .led at' unregistered
  | leading flight miss =>
      rw [at'] at advanced
      dsimp only at advanced
      split at advanced
      · next response upstream =>
          cases advanced
          exact .answered at' upstream
      · next failure upstream =>
          cases advanced
          exact .unanswered at' upstream
  | storing flight miss response =>
      rw [at'] at advanced
      dsimp only at advanced
      cases outcome : client.cache.store (config.answering turn.answers) turn.now
        (requests turn.caller) response .useDefault with
      | mk result cache =>
          rw [outcome] at advanced
          cases result with
          | ok stored =>
              cases advanced
              exact .stored at' outcome
          | error failure =>
              cases advanced
              exact .unstored at' outcome
  | leaving flight outcome =>
      rw [at'] at advanced
      cases advanced
      exact .left at'
  | signalling flight outcome =>
      rw [at'] at advanced
      cases advanced
      exact .signalled at'
  | waiting flight miss =>
      rw [at'] at advanced
      dsimp only at advanced
      split at advanced
      · next done =>
          have moved : Move config requests client turn _ := .woken at' done
          split at advanced
          · next failure error =>
              rw [error] at moved
              cases advanced
              exact moved
          · next error =>
              rw [error] at moved
              cases advanced
              exact moved
      · cases advanced
  | returned result =>
      rw [at'] at advanced
      cases advanced
  | raised failure =>
      rw [at'] at advanced
      cases advanced

/-! ## The registry -/

/-- All callers ask the same cacheable query in the same partition. -/
structure Together (config : Config Vector Score Time Temperature)
    (requests : Caller → Request Temperature) (key : PartitionKey) (query : String) : Prop where
  cacheable : ∀ caller, (config.isCacheable (requests caller)).cacheable = true
  partition : ∀ caller, partitionKeyFor config (requests caller).ctx = key
  query : ∀ caller, (requests caller).query = query

/-- The flight a caller has registered and not yet deleted. -/
def Stage.carried : Stage Response Score → Option Nat
  | .leading flight _ => some flight
  | .storing flight _ _ => some flight
  | .leaving flight _ => some flight
  | _ => none

/-- The stage is on the way past the registry. -/
def Stage.Bypassing (stage : Stage Response Score) : Prop := ∃ miss, stage = .bypassing miss

/-- The registry knows the flight somebody carries, and nobody else carries one. -/
structure Orderly (key : FlightKey)
    (client : CachedLLM Response Score Time config.index.State Caller) : Prop where
  registered : ∀ caller flight, (client.stage caller).carried = some flight →
    client.inflight.get? key = some flight
  alone : ∀ caller other flight flight', (client.stage caller).carried = some flight →
    (client.stage other).carried = some flight' → caller = other
  numbered : ∀ caller flight, (client.stage caller).carried = some flight → flight < client.flown
  direct : ∀ caller, ¬ (client.stage caller).Bypassing

variable {key : PartitionKey} {query : String}

omit [Seconds Time] [LT Score] [LE Score] [DecidableLT Score] [DecidableLE Score] [One Score] in
/-- A caller carries on with what it carries, or with nothing. -/
theorem Orderly.settle {flightKey : FlightKey} (orderly : Orderly flightKey client)
    {caller : Caller} {stage : Stage Response Score} (inflight : next.inflight = client.inflight)
    (flown : next.flown = client.flown)
    (moved : next.stage = Function.update client.stage caller stage)
    (carried : ∀ flight, stage.carried = some flight →
      (client.stage caller).carried = some flight)
    (direct : ¬ stage.Bypassing) : Orderly flightKey next := by
  have before : ∀ other flight, (next.stage other).carried = some flight →
      (client.stage other).carried = some flight := by
    intro other flight held
    rw [moved, Function.update_apply] at held
    split at held
    · next same => exact same ▸ carried flight held
    · exact held
  refine ⟨?_, ?_, ?_, ?_⟩
  · intro other flight held
    rw [inflight]
    exact orderly.registered other flight (before other flight held)
  · intro first second flight flight' held held'
    exact orderly.alone first second flight flight' (before first flight held)
      (before second flight' held')
  · intro other flight held
    rw [flown]
    exact orderly.numbered other flight (before other flight held)
  · intro other
    rw [moved, Function.update_apply]
    split
    · exact direct
    · exact orderly.direct other

omit [Seconds Time] [LT Score] [LE Score] [DecidableLT Score] [DecidableLE Score] [One Score]
  [DecidableEq Caller] in
/-- Callers together have one key. -/
theorem flightKey_eq (together : Together config requests key query) (caller : Caller) :
    flightKey config (requests caller) = (key, query) := by
  rw [flightKey, together.partition, together.query]

/-- A stage at which a caller carries nothing and does not bypass the registry. -/
def Stage.Grounded (stage : Stage Response Score) : Prop :=
  stage.carried = none ∧ ¬ stage.Bypassing

omit [Seconds Time] [LT Score] [LE Score] [DecidableLT Score] [DecidableLE Score] [One Score]
  [DecidableEq Caller] in
theorem Stage.grounded_afterLookup (result : Lookup Response Score) :
    (Stage.afterLookup true result).Grounded := by
  cases result <;> exact ⟨rfl, nofun⟩

omit [Seconds Time] [LT Score] [LE Score] [DecidableLT Score] [DecidableLE Score] [One Score]
  [DecidableEq Caller] in
theorem Stage.grounded_final (outcome : Except Failure (CachedResponse Response Score)) :
    (Stage.final outcome).Grounded := by
  cases outcome <;> exact ⟨rfl, nofun⟩

omit [Seconds Time] [LT Score] [LE Score] [DecidableLT Score] [DecidableLE Score] [One Score] in
/-- A caller carries nothing any more. -/
theorem Orderly.ground {flightKey : FlightKey} (orderly : Orderly flightKey client)
    {caller : Caller} {stage : Stage Response Score} (inflight : next.inflight = client.inflight)
    (flown : next.flown = client.flown)
    (moved : next.stage = Function.update client.stage caller stage) (grounded : stage.Grounded) :
    Orderly flightKey next := by
  refine orderly.settle inflight flown moved ?_ grounded.2
  intro flight held
  rw [grounded.1] at held
  cases held

omit [Seconds Time] [LT Score] [LE Score] [DecidableLT Score] [DecidableLE Score] [One Score] in
/-- A caller registers a flight when none is registered. -/
theorem Orderly.lead {flightKey : FlightKey} (orderly : Orderly flightKey client) {caller : Caller}
    {miss : Miss Score} (unregistered : client.inflight.get? flightKey = none)
    (inflight : next.inflight = client.inflight.assign flightKey client.flown)
    (flown : next.flown = client.flown + 1)
    (moved : next.stage = Function.update client.stage caller (.leading client.flown miss)) :
    Orderly flightKey next := by
  have only : ∀ other flight, (next.stage other).carried = some flight →
      other = caller ∧ flight = client.flown := by
    intro other flight held
    rw [moved, Function.update_apply] at held
    split at held
    · next same => exact ⟨same, (Option.some.inj held).symm⟩
    · have registered := orderly.registered other flight held
      rw [unregistered] at registered
      cases registered
  refine ⟨?_, ?_, ?_, ?_⟩
  · intro other flight held
    rw [inflight, Dict.get?_assign, if_pos rfl, (only other flight held).2]
  · intro first second flight flight' held held'
    rw [(only first flight held).1, (only second flight' held').1]
  · intro other flight held
    rw [flown, (only other flight held).2]
    exact Nat.lt_succ_self _
  · intro other
    rw [moved, Function.update_apply]
    split
    · exact nofun
    · exact orderly.direct other

omit [Seconds Time] [LT Score] [LE Score] [DecidableLT Score] [DecidableLE Score] [One Score] in
/-- The caller that carries the flight deletes it. -/
theorem Orderly.leave {flightKey : FlightKey} (orderly : Orderly flightKey client) {caller : Caller}
    {flight : Nat} {outcome : Except Failure (CachedResponse Response Score)}
    (at' : client.stage caller = .leaving flight outcome)
    (moved : next.stage = Function.update client.stage caller (.signalling flight outcome)) :
    Orderly flightKey next := by
  have nobody : ∀ other flight', (next.stage other).carried ≠ some flight' := by
    intro other flight' held
    rw [moved, Function.update_apply] at held
    split at held
    · cases held
    · next apart =>
        exact apart (orderly.alone other caller flight' flight held (by rw [at']; rfl))
  refine ⟨?_, ?_, ?_, ?_⟩
  · intro other flight' held
    exact absurd held (nobody other flight')
  · intro first second flight' flight'' held
    exact absurd held (nobody first flight')
  · intro other flight' held
    exact absurd held (nobody other flight')
  · intro other
    rw [moved, Function.update_apply]
    split
    · exact nofun
    · exact orderly.direct other

/-- Moves keep the registry in order. -/
theorem Move.orderly (together : Together config requests key query)
    (orderly : Orderly (key, query) client) (move : Move config requests client turn next) :
    Orderly (key, query) next := by
  cases move with
  | looked at' =>
      refine orderly.ground rfl rfl rfl ?_
      rw [together.cacheable]
      exact Stage.grounded_afterLookup _
  | bypassed at' => exact absurd ⟨_, at'⟩ (orderly.direct turn.caller)
  | joined at' registered => exact orderly.ground rfl rfl rfl ⟨rfl, nofun⟩
  | led at' unregistered =>
      rw [flightKey_eq together] at unregistered ⊢
      exact orderly.lead unregistered rfl rfl rfl
  | answered at' upstream =>
      exact orderly.settle rfl rfl rfl (fun _ held => at' ▸ held) nofun
  | unanswered at' upstream =>
      exact orderly.settle rfl rfl rfl (fun _ held => at' ▸ held) nofun
  | stored at' stored =>
      exact orderly.settle rfl rfl rfl (fun _ held => at' ▸ held) nofun
  | unstored at' stored =>
      exact orderly.settle rfl rfl rfl (fun _ held => at' ▸ held) nofun
  | left at' => exact orderly.leave at' rfl
  | signalled at' => exact orderly.ground rfl rfl rfl (Stage.grounded_final _)
  | woken at' done =>
      refine orderly.ground rfl rfl rfl ?_
      split <;> exact ⟨rfl, nofun⟩

/-! ## Calls upstream -/

/-- The stage before the call upstream. -/
def Stage.Leading (stage : Stage Response Score) : Prop :=
  ∃ flight miss, stage = .leading flight miss

/-- Every flight has been called upstream for, but that of a caller about to call. -/
def Counted (calls : Nat)
    (client : CachedLLM Response Score Time config.index.State Caller) : Prop :=
  ((∃ caller, (client.stage caller).Leading) ∧ client.flown = calls + 1) ∨
    ((∀ caller, ¬ (client.stage caller).Leading) ∧ client.flown = calls)

omit [Seconds Time] [LT Score] [LE Score] [DecidableLT Score] [DecidableLE Score] [One Score] in
/-- A caller goes from one stage to another, neither before the call. -/
theorem Counted.settle {calls : Nat} (counted : Counted calls client) {caller : Caller}
    {stage : Stage Response Score} (flown : next.flown = client.flown)
    (moved : next.stage = Function.update client.stage caller stage)
    (before : ¬ (client.stage caller).Leading) (after : ¬ stage.Leading) : Counted calls next := by
  have same : ∀ other, (next.stage other).Leading ↔ (client.stage other).Leading := by
    intro other
    rw [moved, Function.update_apply]
    split
    · next equal => simp only [equal, before, after]
    · rfl
  unfold Counted at counted ⊢
  simp only [same, flown]
  exact counted

omit [Seconds Time] [LT Score] [LE Score] [DecidableLT Score] [DecidableLE Score] [One Score] in
/-- A caller calls upstream. -/
theorem Counted.call {calls : Nat} {flightKey : FlightKey} (orderly : Orderly flightKey client)
    (counted : Counted calls client) {caller : Caller} {stage : Stage Response Score}
    {flight : Nat} {miss : Miss Score} (flown : next.flown = client.flown)
    (moved : next.stage = Function.update client.stage caller stage)
    (before : client.stage caller = .leading flight miss) (after : ¬ stage.Leading) :
    Counted (calls + 1) next := by
  obtain ⟨-, number⟩ | ⟨nobody, -⟩ := counted
  · refine Or.inr ⟨?_, flown.trans number⟩
    intro other leading
    rw [moved, Function.update_apply] at leading
    split at leading
    · exact after leading
    · next apart =>
        obtain ⟨flight', miss', at'⟩ := leading
        exact apart (orderly.alone other caller flight' flight (by rw [at']; rfl)
          (by rw [before]; rfl))
  · exact absurd ⟨flight, miss, before⟩ (nobody caller)

omit [Seconds Time] [LT Score] [LE Score] [DecidableLT Score] [DecidableLE Score] [One Score] in
/-- A caller registers a flight. -/
theorem Counted.lead {calls : Nat} {flightKey : FlightKey} (orderly : Orderly flightKey client)
    (counted : Counted calls client) {caller : Caller} {flight : Nat} {miss : Miss Score}
    (unregistered : client.inflight.get? flightKey = none)
    (flown : next.flown = client.flown + 1)
    (moved : next.stage = Function.update client.stage caller (.leading flight miss)) :
    Counted calls next := by
  obtain ⟨⟨other, flight', miss', at'⟩, -⟩ | ⟨-, number⟩ := counted
  · have registered := orderly.registered other flight' (by rw [at']; rfl)
    rw [unregistered] at registered
    cases registered
  · refine Or.inl ⟨⟨caller, flight, miss, ?_⟩, by rw [flown, number]⟩
    rw [moved, Function.update_self]

omit [Seconds Time] [LT Score] [LE Score] [DecidableLT Score] [DecidableLE Score] [One Score]
  [DecidableEq Caller] in
/-- Only two stages call upstream. -/
theorem call?_eq_none (leading : ¬ (client.stage turn.caller).Leading)
    (bypassing : ¬ (client.stage turn.caller).Bypassing) : client.call? turn = none := by
  unfold CachedLLM.call?
  split
  · next miss at' => exact absurd ⟨miss, at'⟩ bypassing
  · next flight miss at' => exact absurd ⟨flight, miss, at'⟩ leading
  · rfl

omit [Seconds Time] [LT Score] [LE Score] [DecidableLT Score] [DecidableLE Score] [One Score]
  [DecidableEq Caller] in
theorem call?_leading {flight : Nat} {miss : Miss Score}
    (at' : client.stage turn.caller = .leading flight miss) :
    client.call? turn = some turn.upstream := by
  unfold CachedLLM.call?
  rw [at']

/-- A call upstream is counted as it is made. -/
theorem Move.counted {calls : Nat} (together : Together config requests key query)
    (orderly : Orderly (key, query) client) (move : Move config requests client turn next)
    (counted : Counted calls client) :
    Counted (calls + (client.call? turn).toList.length) next := by
  have called : ∀ stage, client.stage turn.caller = stage → ¬ stage.Leading → ¬ stage.Bypassing →
      client.call? turn = none := by
    intro stage at' leading bypassing
    exact call?_eq_none (at' ▸ leading) (at' ▸ bypassing)
  cases move with
  | looked at' =>
      rw [called _ at' nofun nofun]
      refine counted.settle rfl rfl (by rw [at']; exact nofun) ?_
      rw [together.cacheable]
      generalize (client.cache.lookup (config.answering turn.answers) turn.now
        (requests turn.caller)).1 = result
      cases result <;> exact nofun
  | bypassed at' => exact absurd ⟨_, at'⟩ (orderly.direct turn.caller)
  | joined at' registered =>
      rw [called _ at' nofun nofun]
      exact counted.settle rfl rfl (by rw [at']; exact nofun) nofun
  | led at' unregistered =>
      rw [called _ at' nofun nofun]
      rw [flightKey_eq together] at unregistered
      exact counted.lead orderly unregistered rfl rfl
  | answered at' upstream =>
      rw [call?_leading at']
      exact counted.call orderly rfl rfl at' nofun
  | unanswered at' upstream =>
      rw [call?_leading at']
      exact counted.call orderly rfl rfl at' nofun
  | stored at' stored =>
      rw [called _ at' nofun nofun]
      exact counted.settle rfl rfl (by rw [at']; exact nofun) nofun
  | unstored at' stored =>
      rw [called _ at' nofun nofun]
      exact counted.settle rfl rfl (by rw [at']; exact nofun) nofun
  | left at' =>
      rw [called _ at' nofun nofun]
      exact counted.settle rfl rfl (by rw [at']; exact nofun) nofun
  | @signalled flight outcome at' =>
      rw [called _ at' nofun nofun]
      refine counted.settle rfl rfl (by rw [at']; exact nofun) ?_
      cases outcome <;> exact nofun
  | woken at' done =>
      rw [called _ at' nofun nofun]
      refine counted.settle rfl rfl (by rw [at']; exact nofun) ?_
      split <;> exact nofun

/-! ## Late callers -/

/-- Two flights have been registered; or one has, and a caller that has missed finds none. -/
def Late (flightKey : FlightKey) (caller : Caller)
    (client : CachedLLM Response Score Time config.index.State Caller) : Prop :=
  2 ≤ client.flown ∨ (client.inflight.get? flightKey = none ∧ 1 ≤ client.flown ∧
    ∃ miss, client.stage caller = .missed miss)

omit [Seconds Time] [LT Score] [LE Score] [DecidableLT Score] [DecidableLE Score] [One Score] in
/-- Another caller takes a turn that does not register. -/
theorem Late.settle {flightKey : FlightKey} {late caller : Caller}
    (before : Late flightKey late client) {stage : Stage Response Score}
    (inflight : client.inflight.get? flightKey = none → next.inflight.get? flightKey = none)
    (flown : next.flown = client.flown)
    (moved : next.stage = Function.update client.stage caller stage)
    (elsewhere : ∀ miss, client.stage caller ≠ .missed miss) : Late flightKey late next := by
  obtain two | ⟨none, one, miss, at'⟩ := before
  · exact Or.inl (flown ▸ two)
  · refine Or.inr ⟨inflight none, flown ▸ one, miss, ?_⟩
    have apart : late ≠ caller := by
      intro same
      exact elsewhere miss (same ▸ at')
    rw [moved, Function.update_of_ne apart]
    exact at'

theorem Move.late (together : Together config requests key query) {late : Caller}
    (before : Late (key, query) late client) (move : Move config requests client turn next) :
    Late (key, query) late next := by
  cases move with
  | looked at' => exact before.settle id rfl rfl (by rw [at']; exact nofun)
  | bypassed at' => exact before.settle id rfl rfl (by rw [at']; exact nofun)
  | joined at' registered =>
      obtain two | ⟨none, -⟩ := before
      · exact Or.inl two
      · rw [flightKey_eq together, none] at registered
        cases registered
  | led at' unregistered =>
      refine Or.inl ?_
      obtain two | ⟨-, one, -⟩ := before
      · exact Nat.le_succ_of_le two
      · exact Nat.succ_le_succ one
  | answered at' upstream => exact before.settle id rfl rfl (by rw [at']; exact nofun)
  | unanswered at' upstream => exact before.settle id rfl rfl (by rw [at']; exact nofun)
  | stored at' stored => exact before.settle id rfl rfl (by rw [at']; exact nofun)
  | unstored at' stored => exact before.settle id rfl rfl (by rw [at']; exact nofun)
  | left at' =>
      refine before.settle ?_ rfl rfl (by rw [at']; exact nofun)
      intro none
      refine Dict.get?_erase.trans ?_
      rw [none, ite_self]
  | signalled at' => exact before.settle id rfl rfl (by rw [at']; exact nofun)
  | woken at' done => exact before.settle id rfl rfl (by rw [at']; exact nofun)

/-! ## One flight -/

/-- What the cache is stocked with: nothing in the partition, or an answer to the query. -/
def Stocked (config : Config Vector Score Time Temperature) (key : PartitionKey) (query : String)
    (answer : Option Response) (cache : SemanticCache Response Score Time config.index.State) :
    Prop :=
  match answer with
  | none => cache.Consistent config ∧ cache.partitions.get? key = none
  | some response => SemanticCache.Holds config key query response cache

/-- A caller beside the one that flies: about to look up, about to check the registry
while that is open, waiting, or back with the answer. -/
inductive Stage.Aside (looking : Prop) (answer : Option Response) :
    Stage Response Score → Prop where
  | entered : Stage.Aside looking answer .entered
  | missed (miss : Miss Score) (open' : looking) : Stage.Aside looking answer (.missed miss)
  | waiting (miss : Miss Score) : Stage.Aside looking answer (.waiting 0 miss)
  | returned {result : CachedResponse Response Score} {response : Response}
      (known : answer = some response) (same : result.response = some response) :
      Stage.Aside looking answer (.returned result)

/-- The caller that flies: the calls it has made, whether others may still check the
registry, what the cache has, and what the flight shows. -/
inductive Stage.Flies : Stage Response Score → List (Except Failure Response) → Prop →
    Option Response → InFlight Response → Prop where
  | leading (miss : Miss Score) : Stage.Flies (.leading 0 miss) [] True none {}
  | storing (miss : Miss Score) (response : Response) :
      Stage.Flies (.storing 0 miss response) [.ok response] True none { response := some response }
  | leaving {result : CachedResponse Response Score} {response : Response}
      (same : result.response = some response) :
      Stage.Flies (.leaving 0 (.ok result)) [.ok response] True (some response)
        { response := some response }
  | signalling {result : CachedResponse Response Score} {response : Response}
      (same : result.response = some response) :
      Stage.Flies (.signalling 0 (.ok result)) [.ok response] False (some response)
        { response := some response }

/-- The course of a single flight. -/
inductive Phase (config : Config Vector Score Time Temperature) (key : PartitionKey)
    (query : String) : List (Except Failure Response) →
      CachedLLM Response Score Time config.index.State Caller → Prop where
  | idle {client : CachedLLM Response Score Time config.index.State Caller}
      (all : ∀ caller, client.stage caller = .entered ∨ ∃ miss, client.stage caller = .missed miss)
      (unregistered : client.inflight.get? (key, query) = none) (first : client.flown = 0)
      (stocked : Stocked config key query none client.cache) : Phase config key query [] client
  | flight {client : CachedLLM Response Score Time config.index.State Caller} {leader : Caller}
      {calls : List (Except Failure Response)} {looking : Prop} {answer : Option Response}
      {stage : Stage Response Score} {slot : InFlight Response}
      (flies : stage.Flies calls looking answer slot) (at' : client.stage leader = stage)
      (shows : client.flights 0 = slot)
      (others : ∀ caller, caller ≠ leader → (client.stage caller).Aside looking answer)
      (registry : looking → client.inflight.get? (key, query) = some 0)
      (stocked : Stocked config key query answer client.cache) : Phase config key query calls client
  | landed {client : CachedLLM Response Score Time config.index.State Caller} {response : Response}
      (all : ∀ caller, (client.stage caller).Aside False (some response))
      (slot : client.flights 0 = { done := true, response := some response })
      (stocked : Stocked config key query (some response) client.cache) :
      Phase config key query [.ok response] client

omit [Seconds Time] [LT Score] [LE Score] [DecidableLT Score] [DecidableLE Score] [One Score]
  [DecidableEq Caller] in
/-- What a caller finds in the cache is there for all. -/
theorem Together.stocked (together : Together config requests key query) (caller : Caller)
    {answers : Answers Vector} {response : Response}
    {cache : SemanticCache Response Score Time config.index.State}
    (holds : SemanticCache.Holds (config.answering answers)
      (partitionKeyFor config (requests caller).ctx) (requests caller).query response cache) :
    Stocked config key query (some response) cache := by
  rw [together.partition, together.query] at holds
  exact ⟨(consistent_answering answers).mp holds.1, holds.2⟩

omit [DecidableEq Caller] in
/-- A lookup beside the flight. -/
theorem lookup_aside {looking : Prop} {answer : Option Response}
    (together : Together config requests key query) (serving : config.mode = .serve)
    (stocked : Stocked config key query answer client.cache) (open' : answer = none → looking)
    (current : ∀ id entry, client.cache.entryAt? key id = some entry →
      expired turn.now entry.expiresAt = false) :
    (Stage.afterLookup true
        (client.cache.lookup (config.answering turn.answers) turn.now
          (requests turn.caller)).1).Aside looking answer ∧
      Stocked config key query answer
        (client.cache.lookup (config.answering turn.answers) turn.now
          (requests turn.caller)).2 := by
  have cacheable : ((config.answering turn.answers).isCacheable
      (requests turn.caller)).cacheable = true := together.cacheable turn.caller
  have partition : partitionKeyFor (config.answering turn.answers) (requests turn.caller).ctx =
      key := together.partition turn.caller
  cases answer with
  | none =>
      obtain ⟨consistent, absent⟩ := stocked
      rw [SemanticCache.lookup_absent (config.answering turn.answers) turn.now serving cacheable (partition ▸ absent)]
      exact ⟨.missed _ (open' rfl), consistent.congr rfl rfl (Nat.le_refl _), absent⟩
  | some response =>
      obtain ⟨consistent, entry⟩ := stocked
      have holds : SemanticCache.Holds (config.answering turn.answers)
          (partitionKeyFor (config.answering turn.answers) (requests turn.caller).ctx)
          (requests turn.caller).query response client.cache := by
        rw [partition, together.query]
        exact ⟨(consistent_answering turn.answers).mpr consistent, entry⟩
      obtain ⟨hit, cache, looked, same, held⟩ :=
        SemanticCache.lookup_holds (config.answering turn.answers) turn.now serving cacheable holds
          (partition ▸ current)
      rw [looked]
      exact ⟨.returned rfl (congrArg some same), together.stocked turn.caller held⟩

/-- A turn of a caller beside the flight. -/
theorem Move.aside {looking : Prop} {answer : Option Response}
    (together : Together config requests key query) (serving : config.mode = .serve)
    (beside : (client.stage turn.caller).Aside looking answer)
    (registry : looking → client.inflight.get? (key, query) = some 0)
    (open' : answer = none → looking) (stocked : Stocked config key query answer client.cache)
    (landed : (client.flights 0).done = true → ∃ response, answer = some response ∧
      client.flights 0 = { done := true, response := some response })
    (current : client.stage turn.caller = .entered → ∀ id entry,
      client.cache.entryAt? key id = some entry → expired turn.now entry.expiresAt = false)
    (move : Move config requests client turn next) :
    ∃ stage, stage.Aside looking answer ∧
      next.stage = Function.update client.stage turn.caller stage ∧
      next.inflight = client.inflight ∧ next.flights = client.flights ∧
      Stocked config key query answer next.cache ∧ client.call? turn = none := by
  have silent : client.call? turn = none := by
    apply call?_eq_none
    · intro leading
      obtain ⟨flight, miss, at'⟩ := leading
      rw [at'] at beside
      cases beside
    · intro bypassing
      obtain ⟨miss, at'⟩ := bypassing
      rw [at'] at beside
      cases beside
  cases move with
  | looked at' =>
      obtain ⟨after, held⟩ := lookup_aside together serving stocked open' (current at')
      rw [together.cacheable]
      exact ⟨_, after, rfl, rfl, rfl, held, silent⟩
  | @joined miss flight at' registered =>
      rw [at'] at beside
      cases beside with
      | missed _ open' =>
          rw [flightKey_eq together, registry open'] at registered
          obtain rfl := Option.some.inj registered
          exact ⟨_, .waiting miss, rfl, rfl, rfl, stocked, silent⟩
  | led at' unregistered =>
      rw [at'] at beside
      cases beside with
      | missed _ open' =>
          rw [flightKey_eq together, registry open'] at unregistered
          cases unregistered
  | @woken flight miss at' done =>
      rw [at'] at beside
      cases beside
      obtain ⟨response, known, slot⟩ := landed done
      simp only [slot]
      exact ⟨_, .returned known rfl, rfl, rfl, rfl, stocked, silent⟩
  | bypassed at' => rw [at'] at beside; cases beside
  | answered at' upstream => rw [at'] at beside; cases beside
  | unanswered at' upstream => rw [at'] at beside; cases beside
  | stored at' stored => rw [at'] at beside; cases beside
  | unstored at' stored => rw [at'] at beside; cases beside
  | left at' => rw [at'] at beside; cases beside
  | signalled at' => rw [at'] at beside; cases beside

omit [Seconds Time] [LT Score] [LE Score] [DecidableLT Score] [DecidableLE Score] [One Score]
  [DecidableEq Caller] in
/-- An answer that has come does not disturb those beside the flight. -/
theorem Stage.Aside.stock {looking : Prop} {stage : Stage Response Score} {response : Response}
    (aside : stage.Aside looking none) : stage.Aside looking (some response) := by
  cases aside with
  | entered => exact .entered
  | missed miss open' => exact .missed miss open'
  | waiting miss => exact .waiting miss
  | returned known same => cases known

omit [Seconds Time] [LT Score] [LE Score] [DecidableLT Score] [DecidableLE Score] [One Score]
  [DecidableEq Caller] in
/-- The registry closes when nobody is about to check it. -/
theorem Stage.Aside.close {looking : Prop} {answer : Option Response} {stage : Stage Response Score}
    (aside : stage.Aside looking answer) (elsewhere : ∀ miss, stage ≠ .missed miss) :
    stage.Aside False answer := by
  cases aside with
  | entered => exact .entered
  | missed miss open' => exact absurd rfl (elsewhere miss)
  | waiting miss => exact .waiting miss
  | returned known same => exact .returned known same

/-- Somebody has failed, or is about to. -/
def Stage.Failing : Stage Response Score → Prop
  | .raised _ => True
  | .leaving _ (.error _) => True
  | .signalling _ (.error _) => True
  | _ => False

/-- A call has failed. -/
def CachedLLM.Failing (client : CachedLLM Response Score Time config.index.State Caller) : Prop :=
  ∃ caller, (client.stage caller).Failing

omit [Seconds Time] [LT Score] [LE Score] [DecidableLT Score] [DecidableLE Score] [One Score] in
theorem others_update {looking : Prop} {answer : Option Response} {leader : Caller}
    {stage : Stage Response Score}
    (others : ∀ caller, caller ≠ leader → (client.stage caller).Aside looking answer)
    (moved : next.stage = Function.update client.stage leader stage) :
    ∀ caller, caller ≠ leader → (next.stage caller).Aside looking answer := by
  intro caller apart
  rw [moved, Function.update_of_ne apart]
  exact others caller apart

/-- A turn of the caller that flies. -/
theorem advance_flies {calls : List (Except Failure Response)} {looking : Prop}
    {answer : Option Response} {stage : Stage Response Score} {slot : InFlight Response}
    (together : Together config requests key query)
    (flies : stage.Flies calls looking answer slot) (at' : client.stage turn.caller = stage)
    (shows : client.flights 0 = slot)
    (others : ∀ caller, caller ≠ turn.caller → (client.stage caller).Aside looking answer)
    (registry : looking → client.inflight.get? (key, query) = some 0)
    (stocked : Stocked config key query answer client.cache)
    (closing : (∃ flight outcome, client.stage turn.caller = .leaving flight outcome) →
      ¬ client.Between)
    (advanced : client.advance config requests turn = some next) :
    next.Failing ∨ Phase config key query (calls ++ (client.call? turn).toList) next := by
  unfold CachedLLM.advance at advanced
  rw [at'] at advanced
  cases flies with
  | leading miss =>
      rw [call?_leading at']
      cases upstream : turn.upstream with
      | ok response =>
          simp only [upstream, Option.some.injEq] at advanced
          subst advanced
          refine Or.inr (.flight (.storing miss response) (CachedLLM.goto_stage ..) ?_
            (others_update others rfl) registry stocked)
          simp [shows]
      | error failure =>
          simp only [upstream, Option.some.injEq] at advanced
          subst advanced
          exact Or.inl ⟨turn.caller, by rw [CachedLLM.goto_stage]; trivial⟩
  | storing miss response =>
      rw [call?_eq_none (by rw [at']; exact nofun) (by rw [at']; exact nofun)]
      dsimp only at advanced
      cases stored : client.cache.store (config.answering turn.answers) turn.now
        (requests turn.caller) response .useDefault with
      | mk result cache =>
          rw [stored] at advanced
          cases result with
          | ok id =>
              obtain rfl := Option.some.inj advanced
              have holds := SemanticCache.store_holds
                ((consistent_answering turn.answers).mpr stocked.1)
                (together.cacheable turn.caller) stored
              exact Or.inr (.flight (.leaving rfl) (CachedLLM.goto_stage ..) shows
                (others_update (fun caller apart => (others caller apart).stock) rfl) registry
                (together.stocked turn.caller holds))
          | error failure =>
              obtain rfl := Option.some.inj advanced
              exact Or.inl ⟨turn.caller, by rw [CachedLLM.goto_stage]; trivial⟩
  | leaving same =>
      rw [call?_eq_none (by rw [at']; exact nofun) (by rw [at']; exact nofun)]
      obtain rfl := Option.some.inj advanced
      have nobody := closing ⟨_, _, at'⟩
      refine Or.inr (.flight (.signalling same) (CachedLLM.goto_stage ..) shows
        (others_update ?_ rfl) nofun stocked)
      intro caller apart
      exact (others caller apart).close fun miss missed => nobody ⟨caller, miss, missed⟩
  | signalling same =>
      rw [call?_eq_none (by rw [at']; exact nofun) (by rw [at']; exact nofun)]
      obtain rfl := Option.some.inj advanced
      refine Or.inr (.landed ?_ ?_ stocked)
      · intro caller
        by_cases mine : caller = turn.caller
        · rw [mine, CachedLLM.goto_stage]
          exact .returned rfl same
        · exact others_update others rfl caller mine
      · simp [shows]

/-- A turn before any flight has been registered. -/
theorem advance_idle (together : Together config requests key query)
    (serving : config.mode = .serve)
    (all : ∀ caller, client.stage caller = .entered ∨ ∃ miss, client.stage caller = .missed miss)
    (unregistered : client.inflight.get? (key, query) = none) (first : client.flown = 0)
    (stocked : Stocked config key query none client.cache)
    (advanced : client.advance config requests turn = some next) :
    Phase config key query (client.call? turn).toList next := by
  unfold CachedLLM.advance at advanced
  obtain at' | ⟨miss, at'⟩ := all turn.caller
  · rw [call?_eq_none (by rw [at']; exact nofun) (by rw [at']; exact nofun)]
    have cacheable : (config.isCacheable (requests turn.caller)).cacheable = true :=
      together.cacheable turn.caller
    have absent : client.cache.partitions.get? (partitionKeyFor
        (config.answering turn.answers) (requests turn.caller).ctx) = none :=
      (together.partition turn.caller).symm ▸ stocked.2
    rw [at'] at advanced
    simp only [SemanticCache.lookup_absent (config.answering turn.answers) turn.now serving
      cacheable absent, SemanticCache.missed, cacheable, Bool.not_true, Bool.false_eq_true,
      ↓reduceIte, Option.some.injEq] at advanced
    subst advanced
    refine .idle ?_ unregistered first ⟨stocked.1.congr rfl rfl (Nat.le_refl _), stocked.2⟩
    intro caller
    by_cases mine : caller = turn.caller
    · rw [mine, CachedLLM.goto_stage]
      exact Or.inr ⟨_, rfl⟩
    · rw [CachedLLM.goto_stage_of_ne _ _ _ mine]
      exact all caller
  · rw [call?_eq_none (by rw [at']; exact nofun) (by rw [at']; exact nofun)]
    rw [at'] at advanced
    simp only [flightKey_eq together, unregistered, first, Option.some.injEq] at advanced
    subst advanced
    refine .flight (.leading miss) (CachedLLM.goto_stage ..) (by simp) ?_ ?_ stocked
    · intro caller apart
      rw [CachedLLM.goto_stage_of_ne _ _ _ apart]
      obtain entered | ⟨miss', missed⟩ := all caller
      · exact entered ▸ .entered
      · exact missed ▸ .missed miss' trivial
    · intro _
      refine Dict.get?_assign.trans ?_
      rw [if_pos rfl]

/-- A turn in the course of a single flight. -/
theorem advance_phase {calls : List (Except Failure Response)}
    (together : Together config requests key query) (serving : config.mode = .serve)
    (phase : Phase config key query calls client)
    (current : client.stage turn.caller = .entered → ∀ id entry,
      client.cache.entryAt? key id = some entry → expired turn.now entry.expiresAt = false)
    (closing : (∃ flight outcome, client.stage turn.caller = .leaving flight outcome) →
      ¬ client.Between)
    (advanced : client.advance config requests turn = some next) :
    next.Failing ∨ Phase config key query (calls ++ (client.call? turn).toList) next := by
  have move := advance_move advanced
  cases phase with
  | idle all unregistered first stocked =>
      exact Or.inr (advance_idle together serving all unregistered first stocked advanced)
  | @flight _ leader _ looking answer stage slot flies at' shows others registry stocked =>
      by_cases mine : turn.caller = leader
      · subst mine
        exact advance_flies together flies at' shows others registry stocked closing advanced
      · have undone : (client.flights 0).done = true → False := by
          rw [shows]
          cases flies <;> exact nofun
        have open' : answer = none → looking := by
          intro none
          cases flies with
          | leading => trivial
          | storing => trivial
          | leaving => cases none
          | signalling => cases none
        obtain ⟨after, aside, moved, inflight, flights, held, silent⟩ :=
          move.aside together serving (others turn.caller mine) registry open' stocked
            (fun done => (undone done).elim) current
        rw [silent, Option.toList_none, List.append_nil]
        have kept : next.stage leader = stage := by
          rw [moved, Function.update_of_ne (Ne.symm mine)]
          exact at'
        refine Or.inr (.flight flies kept (flights ▸ shows) ?_ ?_ held)
        · intro caller apart
          rw [moved, Function.update_apply]
          split
          · exact aside
          · exact others caller apart
        · rw [inflight]
          exact registry
  | @landed _ response all slot stocked =>
      obtain ⟨after, aside, moved, inflight, flights, held, silent⟩ :=
        move.aside together serving (all turn.caller) False.elim nofun stocked
          (fun _ => ⟨response, rfl, slot⟩) current
      rw [silent, Option.toList_none, List.append_nil]
      refine Or.inr (.landed ?_ (flights ▸ slot) held)
      intro caller
      rw [moved, Function.update_apply]
      split
      · exact aside
      · exact all caller

/-! ## Every turn is a step forward -/

/-- How many steps a caller may still take. -/
def Stage.rank : Stage Response Score → Nat
  | .entered => 6
  | .missed _ => 5
  | .leading _ _ => 4
  | .storing _ _ _ => 3
  | .leaving _ _ => 2
  | .signalling _ _ => 1
  | .bypassing _ => 1
  | .waiting _ _ => 1
  | .returned _ => 0
  | .raised _ => 0

omit [Seconds Time] [LT Score] [LE Score] [DecidableLT Score] [DecidableLE Score] [One Score]
  [DecidableEq Caller] in
theorem Stage.rank_final (outcome : Except Failure (CachedResponse Response Score)) :
    (Stage.final outcome).rank = 0 := by
  cases outcome <;> rfl

omit [Seconds Time] [LT Score] [LE Score] [DecidableLT Score] [DecidableLE Score] [One Score]
  [DecidableEq Caller] in
theorem Stage.rank_afterLookup (cacheable : Bool) (result : Lookup Response Score) :
    (Stage.afterLookup cacheable result).rank < 6 := by
  cases result with
  | miss miss => cases cacheable <;> exact (by simp [Stage.afterLookup, Stage.rank])
  | _ => exact (by simp [Stage.afterLookup, Stage.rank])

/-- A turn takes its caller further, and a failure is never forgotten. -/
theorem Move.onward (move : Move config requests client turn next) :
    ∃ stage, next.stage = Function.update client.stage turn.caller stage ∧
      stage.rank < (client.stage turn.caller).rank ∧
      ((client.stage turn.caller).Failing → stage.Failing) := by
  cases move with
  | looked at' =>
      refine ⟨_, rfl, ?_, ?_⟩
      · rw [at']
        exact Stage.rank_afterLookup _ _
      · rw [at']
        exact nofun
  | bypassed at' =>
      refine ⟨_, rfl, ?_, ?_⟩
      · rw [at', Stage.rank_final]
        exact Nat.zero_lt_one
      · rw [at']
        exact nofun
  | joined at' registered => exact ⟨_, rfl, by rw [at']; simp [Stage.rank], by rw [at']; exact nofun⟩
  | led at' unregistered => exact ⟨_, rfl, by rw [at']; simp [Stage.rank], by rw [at']; exact nofun⟩
  | answered at' upstream => exact ⟨_, rfl, by rw [at']; simp [Stage.rank], by rw [at']; exact nofun⟩
  | unanswered at' upstream =>
      exact ⟨_, rfl, by rw [at']; simp [Stage.rank], by rw [at']; exact nofun⟩
  | stored at' stored => exact ⟨_, rfl, by rw [at']; simp [Stage.rank], by rw [at']; exact nofun⟩
  | unstored at' stored => exact ⟨_, rfl, by rw [at']; simp [Stage.rank], by rw [at']; exact nofun⟩
  | @left flight outcome at' =>
      refine ⟨_, rfl, ?_, ?_⟩
      · rw [at']
        exact Nat.one_lt_two
      · rw [at']
        cases outcome <;> exact id
  | @signalled flight outcome at' =>
      refine ⟨_, rfl, ?_, ?_⟩
      · rw [at', Stage.rank_final]
        exact Nat.zero_lt_one
      · rw [at']
        cases outcome <;> exact id
  | woken at' done =>
      refine ⟨_, rfl, ?_, ?_⟩
      · rw [at']
        split <;> simp [Stage.rank]
      · rw [at']
        exact nofun

theorem Move.failing (move : Move config requests client turn next) (failing : client.Failing) :
    next.Failing := by
  obtain ⟨stage, moved, -, kept⟩ := move.onward
  obtain ⟨caller, failed⟩ := failing
  refine ⟨caller, ?_⟩
  rw [moved, Function.update_apply]
  split
  · next same => exact kept (same ▸ failed)
  · exact failed

/-- What is left to do of all callers together. -/
def CachedLLM.remaining [Fintype Caller]
    (client : CachedLLM Response Score Time config.index.State Caller) : Nat :=
  ∑ caller, (client.stage caller).rank

/-- Every move leaves less to do. -/
theorem Move.remaining [Fintype Caller] (move : Move config requests client turn next) :
    next.remaining < client.remaining := by
  obtain ⟨stage, moved, less, -⟩ := move.onward
  apply Finset.sum_lt_sum
  · intro caller _
    rw [moved, Function.update_apply]
    split
    · next same => exact same ▸ Nat.le_of_lt less
    · exact Nat.le_refl _
  · refine ⟨turn.caller, Finset.mem_univ _, ?_⟩
    rw [moved, Function.update_self]
    exact less

/-! ## Runs -/

variable {history : List (Taken config Response Caller)}

/-- No entry of the partition expires before a lookup. -/
def Lasting (key : PartitionKey) (history : List (Taken config Response Caller)) : Prop :=
  ∀ taken ∈ history, taken.before.stage taken.caller = .entered → ∀ id entry,
    taken.before.cache.entryAt? key id = some entry → expired taken.now entry.expiresAt = false

/-- One call upstream has been made, and every caller has returned its response. -/
def PaidOnce (history : List (Taken config Response Caller))
    (client : CachedLLM Response Score Time config.index.State Caller) : Prop :=
  ∃ response, history.filterMap Taken.upstream? = [.ok response] ∧
    ∀ caller, ∃ result, client.stage caller = .returned result ∧ result.response = some response

omit [Seconds Time] [LT Score] [LE Score] [DecidableLT Score] [DecidableLE Score] [One Score]
  [DecidableEq Caller] in
theorem upstream_concat (history : List (Taken config Response Caller))
    (taken : Taken config Response Caller) :
    (history ++ [taken]).filterMap Taken.upstream? =
      history.filterMap Taken.upstream? ++ (taken.before.call? taken.toTurn).toList := by
  rw [List.filterMap_append]
  cases called : taken.before.call? taken.toTurn <;> simp [Taken.upstream?, called]

/-- A run is no longer than six moves for every caller. -/
theorem run_remaining [Fintype Caller] (run : (flying config requests).Run history client) :
    history.length + client.remaining ≤ 6 * Fintype.card Caller := by
  refine run.invariant
    (P := fun history client => history.length + client.remaining ≤ 6 * Fintype.card Caller) ?_ ?_
  · intro client starts
    obtain rfl : client = {} := starts
    simp [CachedLLM.remaining, Stage.rank, Nat.mul_comm]
  · intro labels client taken next bounded step
    obtain ⟨rfl, advanced⟩ := step
    have less := (advance_move advanced).remaining
    rw [List.length_append, List.length_singleton]
    omega

/-- While no flight is deleted before a caller's eyes, there is a single one. -/
theorem run_phase (together : Together config requests key query) (serving : config.mode = .serve)
    (run : (flying config requests).Run history client) (lasting : Lasting key history)
    (closing : ∀ taken ∈ history, taken.Deletes → ¬ taken.before.Between) :
    client.Failing ∨ Phase config key query (history.filterMap Taken.upstream?) client := by
  refine run.invariant (P := fun history client => Lasting key history →
    (∀ taken ∈ history, taken.Deletes → ¬ taken.before.Between) →
      client.Failing ∨ Phase config key query (history.filterMap Taken.upstream?) client)
    ?_ ?_ lasting closing
  · intro client starts _ _
    obtain rfl : client = {} := starts
    exact Or.inr (.idle (fun _ => Or.inl rfl) rfl rfl ⟨.initial, rfl⟩)
  · intro labels client taken next ih step lasting closing
    obtain ⟨rfl, advanced⟩ := step
    have earlier := ih (fun taken among => lasting taken (List.mem_append_left _ among))
      fun taken among => closing taken (List.mem_append_left _ among)
    have last : taken ∈ labels ++ [taken] := List.mem_append_right _ List.mem_cons_self
    obtain failing | phase := earlier
    · exact Or.inl ((advance_move advanced).failing failing)
    · rw [upstream_concat]
      exact advance_phase together serving phase (lasting taken last) (closing taken last) advanced

/-- What the registry and the calls are like in every run. -/
theorem run_counted (together : Together config requests key query)
    (run : (flying config requests).Run history client) :
    Orderly (key, query) client ∧ Counted (history.filterMap Taken.upstream?).length client := by
  refine run.invariant (P := fun history client => Orderly (key, query) client ∧
    Counted (history.filterMap Taken.upstream?).length client) ?_ ?_
  · intro client starts
    obtain rfl : client = {} := starts
    exact ⟨⟨nofun, nofun, nofun, fun _ => nofun⟩, Or.inr ⟨fun _ => nofun, rfl⟩⟩
  · intro labels client taken next holds step
    obtain ⟨rfl, advanced⟩ := step
    have move := advance_move advanced
    rw [upstream_concat, List.length_append]
    exact ⟨move.orderly together holds.1, move.counted together holds.1 holds.2⟩

/-- A deletion from the registry leaves those late who have missed. -/
theorem advance_late (together : Together config requests key query)
    (orderly : Orderly (key, query) client) {flight : Nat}
    {outcome : Except Failure (CachedResponse Response Score)}
    (at' : client.stage turn.caller = .leaving flight outcome)
    (advanced : client.advance config requests turn = some next) {late : Caller}
    {miss : Miss Score} (missed : client.stage late = .missed miss) :
    Late (key, query) late next := by
  have apart : late ≠ turn.caller := by
    intro same
    rw [same, at'] at missed
    cases missed
  unfold CachedLLM.advance at advanced
  rw [at'] at advanced
  obtain rfl := Option.some.inj advanced
  refine Or.inr ⟨?_, ?_, miss, ?_⟩
  · refine Dict.get?_erase.trans ?_
    rw [flightKey_eq together, if_pos rfl]
  · have flown := orderly.numbered turn.caller flight (by rw [at']; rfl)
    exact Nat.one_le_of_lt flown
  · rw [CachedLLM.goto_stage_of_ne _ _ _ apart]
    exact missed

/-- A caller that had missed when a flight was deleted is late for ever. -/
theorem run_late (together : Together config requests key query)
    (run : (flying config requests).Run history client) {taken : Taken config Response Caller}
    (among : taken ∈ history) (deletes : taken.Deletes) {late : Caller} {miss : Miss Score}
    (missed : taken.before.stage late = .missed miss) : Late (key, query) late client := by
  induction run with
  | start _ => cases among
  | concat run step ih =>
      obtain ⟨rfl, advanced⟩ := step
      obtain earlier | last := List.mem_append.mp among
      · exact (advance_move advanced).late together (ih earlier)
      · obtain rfl := List.mem_singleton.mp last
        obtain ⟨flight, outcome, at'⟩ := deletes
        exact advance_late together (run_counted together run).1 at' advanced missed

/-- A caller that can take no turn is through, or waits for a flight that is not done. -/
theorem stage_of_stuck (stuck : ∀ turn, client.advance config requests turn = none)
    (caller : Caller) : (∃ result, client.stage caller = .returned result) ∨
      (∃ failure, client.stage caller = .raised failure) ∨
      ∃ flight miss, client.stage caller = .waiting flight miss ∧
        (client.flights flight).done = false := by
  have still := stuck
    { caller, now := Seconds.zero, upstream := .error .keyError,
      answers := { embed := fun _ => .error .keyError, sameIntent := fun _ _ => .error .keyError } }
  unfold CachedLLM.advance at still
  dsimp only at still
  cases at' : client.stage caller with
  | returned result => exact Or.inl ⟨result, rfl⟩
  | raised failure => exact Or.inr (Or.inl ⟨failure, rfl⟩)
  | waiting flight miss =>
      refine Or.inr (Or.inr ⟨flight, miss, rfl, ?_⟩)
      rw [at'] at still
      dsimp only at still
      split at still
      · split at still <;> cases still
      · next undone => exact Bool.eq_false_iff.mpr undone
  | entered =>
      rw [at'] at still
      dsimp only at still
      split at still
      · cases still
      · cases still
      · split at still <;> cases still
  | missed miss =>
      rw [at'] at still
      dsimp only at still
      split at still <;> cases still
  | storing flight miss response =>
      rw [at'] at still
      dsimp only at still
      split at still <;> cases still
  | bypassing miss => rw [at'] at still; cases still
  | leading flight miss => rw [at'] at still; cases still
  | leaving flight outcome => rw [at'] at still; cases still
  | signalling flight outcome => rw [at'] at still; cases still

/-- The course of a single flight ends with one call upstream. -/
theorem Phase.paid [Nonempty Caller] (phase : Phase config key query
      (history.filterMap Taken.upstream?) client)
    (stuck : ∀ turn, client.advance config requests turn = none)
    (unfailing : ∀ caller failure, client.stage caller ≠ .raised failure) :
    PaidOnce history client := by
  generalize calls : history.filterMap Taken.upstream? = upstream at phase
  have settled := stage_of_stuck stuck
  cases phase with
  | idle all =>
      have caller := Classical.arbitrary Caller
      obtain ⟨result, through⟩ | ⟨failure, through⟩ | ⟨flight, miss, through, -⟩ := settled caller
      all_goals
        obtain at' | ⟨miss', at'⟩ := all caller <;> rw [through] at at' <;> cases at'
  | @flight _ leader _ _ _ stage _ flies at' _ _ _ _ =>
      obtain ⟨result, through⟩ | ⟨failure, through⟩ | ⟨flight, miss, through, -⟩ := settled leader
      all_goals
        rw [through] at at'
        subst at'
        cases flies
  | @landed _ response all slot _ =>
      refine ⟨response, calls, ?_⟩
      intro caller
      have aside := all caller
      obtain ⟨result, at'⟩ | ⟨failure, at'⟩ | ⟨flight, miss, at', undone⟩ := settled caller
      · rw [at'] at aside
        cases aside with
        | returned known same =>
            obtain rfl := Option.some.inj known
            exact ⟨result, at', same⟩
      · exact absurd at' (unfailing caller failure)
      · rw [at'] at aside
        cases aside
        rw [slot] at undone
        cases undone

/-- **One call upstream.** Callers with one cacheable query in one partition of a cache
that is empty at first take finitely many turns. When all are through and none has
failed, and nothing has expired, one call upstream has been made and all have returned
its response, exactly when no flight was deleted from the registry while a caller stood
between its lookup and its check of the registry. -/
theorem single_flight [Fintype Caller] [Nonempty Caller]
    (together : Together config requests key query) (serving : config.mode = .serve)
    (run : (flying config requests).Run history client) :
    history.length ≤ 6 * Fintype.card Caller ∧
      ((∀ turn, client.advance config requests turn = none) →
        (∀ caller failure, client.stage caller ≠ .raised failure) → Lasting key history →
        (PaidOnce history client ↔
          ∀ taken ∈ history, taken.Deletes → ¬ taken.before.Between)) := by
  refine ⟨Nat.le_of_add_right_le (run_remaining run), ?_⟩
  intro stuck unfailing lasting
  constructor
  · intro paid taken among deletes between
    obtain ⟨response, calls, back⟩ := paid
    obtain ⟨late, miss, missed⟩ := between
    obtain ⟨-, counted⟩ := run_counted together run
    rw [calls] at counted
    obtain ⟨result, returned, -⟩ := back late
    obtain two | ⟨-, -, miss', missing⟩ := run_late together run among deletes missed
    · obtain ⟨⟨caller, flight, miss', leading⟩, -⟩ | ⟨-, flown⟩ := counted
      · obtain ⟨result, returned, -⟩ := back caller
        rw [returned] at leading
        cases leading
      · rw [flown] at two
        exact absurd two (by simp)
    · rw [returned] at missing
      cases missing
  · intro closing
    obtain ⟨caller, failing⟩ | phase := run_phase together serving run lasting closing
    · obtain ⟨result, at'⟩ | ⟨failure, at'⟩ | ⟨flight, miss, at', -⟩ := stage_of_stuck stuck caller
      · rw [at'] at failing
        exact failing.elim
      · exact absurd at' (unfailing caller failure)
      · rw [at'] at failing
        exact failing.elim
    · exact phase.paid stuck unfailing

/-! ## Runs that are computed -/

section Computed

variable (config requests)

/-- The client after some turns, the last of them first. -/
def flight :
    List (Turn Vector Time Response Caller) → CachedLLM Response Score Time config.index.State Caller
  | [] => {}
  | turn :: earlier => ((flight earlier).advance config requests turn).getD {}

/-- The turns as they have been taken. -/
def logged : List (Turn Vector Time Response Caller) → List (Taken config Response Caller)
  | [] => []
  | turn :: earlier => logged earlier ++ [⟨turn, flight config requests earlier⟩]

/-- A lookup at this time finds no entry of the partition expired. -/
def CachedLLM.freshAt {IndexState : Type} (key : PartitionKey) (now : Time)
    (client : CachedLLM Response Score Time IndexState Caller) : Bool :=
  match client.cache.partitions.get? key with
  | none => true
  | some partition => partition.entries.items.all fun item => !expired now item.2.expiresAt

/-- The turns can be taken, and nothing expires. -/
def legal (key : PartitionKey) : List (Turn Vector Time Response Caller) → Bool
  | [] => true
  | turn :: earlier =>
      legal key earlier && (flight config requests earlier).freshAt key turn.now &&
        ((flight config requests earlier).advance config requests turn).isSome

/-- Turns that pass the check are a run. -/
theorem run_of_legal {turns : List (Turn Vector Time Response Caller)}
    (taken : legal config requests key turns = true) :
    (flying config requests).Run (logged config requests turns) (flight config requests turns) ∧
      Lasting key (logged config requests turns) := by
  induction turns with
  | nil => exact ⟨.start rfl, nofun⟩
  | cons turn earlier ih =>
      rw [legal, Bool.and_eq_true, Bool.and_eq_true] at taken
      obtain ⟨⟨before, fresh⟩, advances⟩ := taken
      obtain ⟨run, lasting⟩ := ih before
      obtain ⟨next, advanced⟩ := Option.isSome_iff_exists.mp advances
      refine ⟨run.concat ⟨rfl, ?_⟩, ?_⟩
      · rw [flight, advanced, Option.getD_some]
      · intro taken among entered id entry found
        obtain past | last := List.mem_append.mp among
        · exact lasting taken past entered id entry found
        · obtain rfl := List.mem_singleton.mp last
          obtain ⟨partition, held, here⟩ := Option.bind_eq_some_iff.mp found
          unfold CachedLLM.freshAt at fresh
          dsimp only at held
          rw [held] at fresh
          simpa using List.all_eq_true.mp fresh _ (Dict.get?_eq_some.mp here)

end Computed

end Turns

/-- A turn of one of two callers, whose calls upstream return this number. -/
def turnOf (caller : Bool) (response : Nat) : Turn Nat WholeSeconds Nat Bool where
  caller := caller
  now := .of 0
  answers := plainAnswers
  upstream := .ok response

/-- The second caller checks the registry while the first calls upstream. -/
def sharedTurns : List (Turn Nat WholeSeconds Nat Bool) :=
  [turnOf true 8, turnOf false 7, turnOf false 7, turnOf false 7, turnOf true 8, turnOf false 7,
    turnOf false 7, turnOf true 8, turnOf false 7]

/-- The second caller has missed, and checks the registry when the first is through. -/
def lateTurns : List (Turn Nat WholeSeconds Nat Bool) :=
  [turnOf true 8, turnOf true 8, turnOf true 8, turnOf true 8, turnOf true 8, turnOf false 7,
    turnOf false 7, turnOf false 7, turnOf false 7, turnOf false 7, turnOf true 8, turnOf false 7]

/-- Both callers ask the same. -/
def askingBoth (_ : Bool) : Request Unit := asking "hi"

/-- Two callers with one question both pay for it when one of them has missed and checks the
registry after the other is through. -/
theorem single_flight_apart : ∃ (history : List (Taken lengths Nat Bool))
    (client : CachedLLM Nat Nat WholeSeconds lengths.index.State Bool),
    (flying lengths askingBoth).Run history client ∧
      (∀ turn, client.advance lengths askingBoth turn = none) ∧
      (∀ caller failure, client.stage caller ≠ .raised failure) ∧
      Lasting (partitionKeyFor lengths (asking "hi").ctx) history ∧ ¬ PaidOnce history client := by
  obtain ⟨run, lasting⟩ := run_of_legal lengths askingBoth
    (show legal lengths askingBoth (partitionKeyFor lengths (asking "hi").ctx) lateTurns = true from rfl)
  refine ⟨_, _, run, ?_, ?_, lasting, ?_⟩
  · intro turn
    obtain ⟨caller, now, answers, upstream⟩ := turn
    cases caller <;> rfl
  · intro caller failure
    cases caller <;> exact nofun
  · intro paid
    obtain ⟨response, calls, -⟩ := paid
    have two : ((logged lengths askingBoth lateTurns).filterMap Taken.upstream?).length = 2 := rfl
    rw [calls] at two
    cases two

/-- Two callers that share a flight pay once. -/
theorem single_flight_together :
    PaidOnce (logged lengths askingBoth sharedTurns) (flight lengths askingBoth sharedTurns) ∧
      ∀ taken ∈ logged lengths askingBoth sharedTurns,
        taken.Deletes → ¬ taken.before.Between := by
  obtain ⟨run, lasting⟩ := run_of_legal lengths askingBoth
    (show legal lengths askingBoth (partitionKeyFor lengths (asking "hi").ctx) sharedTurns = true
      from rfl)
  have same : Together lengths askingBoth (partitionKeyFor lengths (asking "hi").ctx) "hi" :=
    ⟨fun _ => rfl, fun _ => rfl, fun _ => rfl⟩
  have back : ∀ caller, ∃ result,
      (flight lengths askingBoth sharedTurns).stage caller = .returned result ∧
        result.response = some 7 := by
    intro caller
    cases caller <;> exact ⟨_, rfl, rfl⟩
  have paid : PaidOnce (logged lengths askingBoth sharedTurns)
      (flight lengths askingBoth sharedTurns) := ⟨7, rfl, back⟩
  refine ⟨paid, ((single_flight same rfl run).2 ?_ ?_ lasting).mp paid⟩
  · intro turn
    obtain ⟨caller, now, answers, upstream⟩ := turn
    cases caller <;> rfl
  · intro caller failure raised
    obtain ⟨result, returned, -⟩ := back caller
    rw [raised] at returned
    cases returned

end Semantic
