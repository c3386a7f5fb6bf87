import Anviq.Semantic.ServedHit

/-! # The caching client

`CachedLLM.call` by any number of callers at once. A caller does its steps in the
order of the source, and the steps of different callers come in any order: the lookup,
the check of the registry, the call upstream, the store, the deletion from the
registry, the signal, and the end of a wait.
-/

namespace Semantic

open Lru (Seconds Ttl WholeSeconds expired)

variable {Vector Score Time Temperature Response Caller : Type} [Seconds Time]

/-- `CachedResponse.status`. -/
inductive Status where
  | hitExact
  | hitSemantic
  | miss
deriving DecidableEq

/-- `CachedResponse`; the response of a flight that has set none is missing. -/
structure CachedResponse (Response Score : Type) where
  response : Option Response
  status : Status
  score : Option Score
  reason : String
  entryId : Option String

/-- `_InFlight`. -/
structure InFlight (Response : Type) where
  done : Bool := false
  response : Option Response := none
  error : Option Failure := none

/-- Where a caller is in `call`. A flight is known by its number. -/
inductive Stage (Response Score : Type) where
  | entered
  | bypassing (miss : Miss Score)
  | missed (miss : Miss Score)
  | leading (flight : Nat) (miss : Miss Score)
  | storing (flight : Nat) (miss : Miss Score) (response : Response)
  | leaving (flight : Nat) (outcome : Except Failure (CachedResponse Response Score))
  | signalling (flight : Nat) (outcome : Except Failure (CachedResponse Response Score))
  | waiting (flight : Nat) (miss : Miss Score)
  | returned (result : CachedResponse Response Score)
  | raised (failure : Failure)

/-- `(partition_key, normalize_query(query))`. -/
abbrev FlightKey := PartitionKey × String

/-- The client, its cache, and its callers. -/
structure CachedLLM (Response Score Time IndexState Caller : Type) where
  cache : SemanticCache Response Score Time IndexState := {}
  inflight : Dict FlightKey Nat := .empty
  flights : Nat → InFlight Response := fun _ => {}
  flown : Nat := 0
  stage : Caller → Stage Response Score := fun _ => .entered

/-- How a caller leaves `call`. -/
def Stage.final : Except Failure (CachedResponse Response Score) → Stage Response Score
  | .ok result => .returned result
  | .error failure => .raised failure

/-- A response that did not come from the cache. -/
def CachedResponse.ofMiss (miss : Miss Score) (response : Option Response) :
    CachedResponse Response Score where
  response := response
  status := .miss
  score := miss.bestScore
  reason := miss.reason
  entryId := none

/-- A response that came from the cache. -/
def CachedResponse.ofHit (hit : Hit Response Score) : CachedResponse Response Score where
  response := some hit.response
  status := if hit.reason = "exact" then .hitExact else .hitSemantic
  score := some hit.score
  reason := hit.reason
  entryId := some hit.entryId

namespace CachedLLM

variable [DecidableEq Caller] {IndexState : Type}

/-- The caller goes on. -/
def goto (client : CachedLLM Response Score Time IndexState Caller) (caller : Caller)
    (stage : Stage Response Score) : CachedLLM Response Score Time IndexState Caller :=
  { client with stage := Function.update client.stage caller stage }

/-- A flight is changed. -/
def setFlight (client : CachedLLM Response Score Time IndexState Caller) (flight : Nat)
    (slot : InFlight Response) : CachedLLM Response Score Time IndexState Caller :=
  { client with flights := Function.update client.flights flight slot }

variable (client : CachedLLM Response Score Time IndexState Caller) (caller : Caller)
  (stage : Stage Response Score) (flight : Nat) (slot : InFlight Response)

omit [Seconds Time] in
@[simp] theorem goto_stage : (client.goto caller stage).stage caller = stage :=
  Function.update_self ..

omit [Seconds Time] in
theorem goto_stage_of_ne {other : Caller} (apart : other ≠ caller) :
    (client.goto caller stage).stage other = client.stage other :=
  Function.update_of_ne apart ..

omit [Seconds Time] in
@[simp] theorem goto_flights : (client.goto caller stage).flights = client.flights := rfl

omit [Seconds Time] [DecidableEq Caller] in
@[simp] theorem setFlight_flights : (client.setFlight flight slot).flights flight = slot :=
  Function.update_self ..

end CachedLLM

/-- A step of a caller: the time, what the components answer, and what the call upstream
comes to if this step is one. -/
structure Turn (Vector Time Response Caller : Type) where
  caller : Caller
  now : Time
  answers : Answers Vector
  upstream : Except Failure Response

section Steps

variable [LT Score] [LE Score] [DecidableLT Score] [DecidableLE Score] [One Score]
  [DecidableEq Caller]
  (config : Config Vector Score Time Temperature) (requests : Caller → Request Temperature)

/-- The key of a caller's flight. -/
def flightKey (request : Request Temperature) : FlightKey :=
  (partitionKeyFor config request.ctx, request.query)

/-- The next step of a caller, unless it waits or is through. -/
def CachedLLM.advance (client : CachedLLM Response Score Time config.index.State Caller)
    (turn : Turn Vector Time Response Caller) :
    Option (CachedLLM Response Score Time config.index.State Caller) :=
  let request := requests turn.caller
  match client.stage turn.caller with
  | .entered =>
      let (result, cache) := client.cache.lookup (config.answering turn.answers) turn.now request
      let client := { client with cache }
      match result with
      | .raised failure => some (client.goto turn.caller (.raised failure))
      | .hit hit => some (client.goto turn.caller (.returned (.ofHit hit)))
      | .miss miss =>
          if !(config.isCacheable request).cacheable then
            some (client.goto turn.caller (.bypassing miss))
          else some (client.goto turn.caller (.missed miss))
  | .bypassing miss =>
      some (client.goto turn.caller
        (.final (turn.upstream.map fun response => .ofMiss miss (some response))))
  | .missed miss =>
      match client.inflight.get? (flightKey config request) with
      | some flight => some (client.goto turn.caller (.waiting flight miss))
      | none =>
          let flight := client.flown
          let client := { client with
            inflight := client.inflight.assign (flightKey config request) flight
            flown := flight + 1 }
          some ((client.setFlight flight {}).goto turn.caller (.leading flight miss))
  | .leading flight miss =>
      match turn.upstream with
      | .ok response =>
          let slot := { client.flights flight with response := some response }
          some ((client.setFlight flight slot).goto turn.caller (.storing flight miss response))
      | .error failure =>
          let slot := { client.flights flight with error := some failure }
          some ((client.setFlight flight slot).goto turn.caller (.leaving flight (.error failure)))
  | .storing flight miss response =>
      let (result, cache) := client.cache.store (config.answering turn.answers) turn.now request
        response .useDefault
      let client := { client with cache }
      match result with
      | .ok _ =>
          some (client.goto turn.caller (.leaving flight (.ok (.ofMiss miss (some response)))))
      | .error failure =>
          let slot := { client.flights flight with error := some failure }
          some ((client.setFlight flight slot).goto turn.caller (.leaving flight (.error failure)))
  | .leaving flight outcome =>
      let client := { client with inflight := client.inflight.erase (flightKey config request) }
      some (client.goto turn.caller (.signalling flight outcome))
  | .signalling flight outcome =>
      let slot := { client.flights flight with done := true }
      some ((client.setFlight flight slot).goto turn.caller (.final outcome))
  | .waiting flight miss =>
      let slot := client.flights flight
      if slot.done then
        match slot.error with
        | some failure => some (client.goto turn.caller (.raised failure))
        | none => some (client.goto turn.caller (.returned (.ofMiss miss slot.response)))
      else none
  | .returned _ => none
  | .raised _ => none

/-- A turn that has been taken, and where. -/
structure Taken (config : Config Vector Score Time Temperature) (Response Caller : Type) extends
    Turn Vector Time Response Caller where
  before : CachedLLM Response Score Time config.index.State Caller

/-- The client in use, from the beginning. -/
def flying : Machine (CachedLLM Response Score Time config.index.State Caller)
    (Taken config Response Caller) where
  start client := client = {}
  step client taken next :=
    taken.before = client ∧ client.advance config requests taken.toTurn = some next

variable {config}

/-- The call upstream that a turn is, if it is one. -/
def CachedLLM.call? (client : CachedLLM Response Score Time config.index.State Caller)
    (turn : Turn Vector Time Response Caller) : Option (Except Failure Response) :=
  match client.stage turn.caller with
  | .bypassing _ => some turn.upstream
  | .leading _ _ => some turn.upstream
  | _ => none

/-- The call upstream of a turn that has been taken. -/
def Taken.upstream? (taken : Taken config Response Caller) : Option (Except Failure Response) :=
  taken.before.call? taken.toTurn

/-- The turn is a deletion from the registry. -/
def Taken.Deletes (taken : Taken config Response Caller) : Prop :=
  ∃ flight outcome, taken.before.stage taken.caller = .leaving flight outcome

/-- A caller has missed in the cache and not yet checked the registry. -/
def CachedLLM.Between (client : CachedLLM Response Score Time config.index.State Caller) : Prop :=
  ∃ caller miss, client.stage caller = .missed miss

end Steps

end Semantic
