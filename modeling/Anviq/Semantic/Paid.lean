import Anviq.Semantic.Coalescing

/-! # Every response was paid for

Where the responses that `CachedLLM.call` returns come from: a call upstream that was made, for the
query or one that it resembles, by a caller in the same partition, and that the cache, if it came
from there, had held no longer than its time to live.
-/

namespace Semantic

open Lru (Seconds Ttl WholeSeconds expired)

variable {Vector Score Time Temperature Response Caller : Type} [Seconds Time]
  {config : Config Vector Score Time Temperature}

section Payments

variable [LT Score] [LE Score] [DecidableLT Score] [DecidableLE Score] [One Score]
  [DecidableEq Caller]
  {requests : Caller → Request Temperature}
  {client next : CachedLLM Response Score Time config.index.State Caller}
  {turn : Turn Vector Time Response Caller} {history : List (Taken config Response Caller)}
  {caller : Caller} {flight : Nat} {key : FlightKey} {response : Response}
  {result : CachedResponse Response Score}

/-! ## Payments -/

/-- The leader of a flight made a call upstream for the key, and this came back. -/
def Paid (requests : Caller → Request Temperature) (history : List (Taken config Response Caller))
    (key : FlightKey) (response : Response) : Prop :=
  ∃ taken ∈ history, (∃ flight miss, taken.before.stage taken.caller = .leading flight miss) ∧
    taken.upstream = .ok response ∧ flightKey config (requests taken.caller) = key ∧
    (config.isCacheable (requests taken.caller)).cacheable = true

/-- A caller made a call upstream for itself, and this came back. -/
def PaidAlone (history : List (Taken config Response Caller)) (caller : Caller)
    (response : Response) : Prop :=
  ∃ taken ∈ history, taken.caller = caller ∧
    (∃ miss, taken.before.stage taken.caller = .bypassing miss) ∧ taken.upstream = .ok response

/-- A response that was paid for was stored by a caller for the key, to expire when the default
says. -/
structure Bought (requests : Caller → Request Temperature)
    (history : List (Taken config Response Caller)) (key : FlightKey) (response : Response)
    (expiresAt : Option Time) : Prop where
  paid : Paid requests history key response
  stored : ∃ taken ∈ history,
    (∃ flight miss, taken.before.stage taken.caller = .storing flight miss response) ∧
      flightKey config (requests taken.caller) = key ∧
      expiresAt = config.defaultTtl.map (Seconds.add taken.now)

/-- Why a caller is given this response. -/
inductive CachedResponse.Justified (requests : Caller → Request Temperature)
    (history : List (Taken config Response Caller)) (caller : Caller)
    (result : CachedResponse Response Score) : Prop
  /-- A call upstream of its own, when the request is not cacheable. -/
  | alone {response : Response} (status : result.status = .miss)
      (answer : result.response = some response)
      (refused : (config.isCacheable (requests caller)).cacheable = false)
      (paid : PaidAlone history caller response)
  /-- The call upstream of a flight, the caller's own or one it waited for. -/
  | called {response : Response} (status : result.status = .miss)
      (answer : result.response = some response)
      (paid : Paid requests history (flightKey config (requests caller)) response)
  /-- An entry of the partition that had not expired when the caller looked it up. -/
  | cached {query : String} {response : Response} {expiresAt : Option Time}
      {looked : Taken config Response Caller} (status : result.status ≠ .miss)
      (answer : result.response = some response) (serving : config.mode = .serve)
      (cacheable : (config.isCacheable (requests caller)).cacheable = true)
      (bought : Bought requests history (partitionKeyFor config (requests caller).ctx, query)
        response expiresAt)
      (among : looked ∈ history) (own : looked.caller = caller)
      (current : expired looked.now expiresAt = false)
      (alike : config.exactHash (requests caller).query = config.exactHash query ∨
        config.firstFailure (requests caller).query query = none ∧
          ∃ score, result.score = some score ∧ ¬ score < config.tauVerify ∧
            (config.tauHit ≤ score ∨
              looked.answers.sameIntent (requests caller).query query = .ok true))

/-- What a caller carries with it, or has returned, is justified. -/
def Stage.Justified (requests : Caller → Request Temperature)
    (history : List (Taken config Response Caller)) (caller : Caller) :
    Stage Response Score → Prop
  | .bypassing _ => (config.isCacheable (requests caller)).cacheable = false
  | .missed _ => (config.isCacheable (requests caller)).cacheable = true
  | .leading _ _ => (config.isCacheable (requests caller)).cacheable = true
  | .storing _ _ response => Paid requests history (flightKey config (requests caller)) response
  | .leaving _ (.ok result) => result.Justified requests history caller
  | .signalling _ (.ok result) => result.Justified requests history caller
  | .returned result => result.Justified requests history caller
  | _ => True

/-- The flight is that of a caller for the key, or one waits for it. -/
inductive CachedLLM.Concerns (requests : Caller → Request Temperature)
    (client : CachedLLM Response Score Time config.index.State Caller) (flight : Nat) :
    FlightKey → Prop
  | owned {caller : Caller} (owns : (client.stage caller).owned = some flight) :
      Concerns requests client flight (flightKey config (requests caller))
  | awaited {caller : Caller} {miss : Miss Score}
      (waits : client.stage caller = .waiting flight miss) :
      Concerns requests client flight (flightKey config (requests caller))

/-- The responses in the cache, in the flights and with the callers are paid for. -/
structure AllPaid (requests : Caller → Request Temperature)
    (history : List (Taken config Response Caller))
    (client : CachedLLM Response Score Time config.index.State Caller) : Prop where
  consistent : client.cache.Consistent config
  entries : ∀ key id entry, client.cache.entryAt? key id = some entry →
    Bought requests history (key, entry.query) entry.response entry.expiresAt
  flights : ∀ flight key response, client.Concerns requests flight key →
    (client.flights flight).response = some response → Paid requests history key response
  stages : ∀ caller, (client.stage caller).Justified requests history caller

/-! ## Later -/

section Later

variable (taken : Taken config Response Caller)

omit [Seconds Time] [LT Score] [LE Score] [DecidableLT Score] [DecidableLE Score] [One Score]
  [DecidableEq Caller] in
theorem Paid.later (paid : Paid requests history key response) :
    Paid requests (history ++ [taken]) key response := by
  rcases paid with ⟨earlier, among, rest⟩
  exact ⟨earlier, List.mem_append_left _ among, rest⟩

omit [LT Score] [LE Score] [DecidableLT Score] [DecidableLE Score] [One Score]
  [DecidableEq Caller] in
theorem Bought.later {expiresAt : Option Time}
    (bought : Bought requests history key response expiresAt) :
    Bought requests (history ++ [taken]) key response expiresAt := by
  rcases bought with ⟨paid, earlier, among, rest⟩
  exact ⟨paid.later taken, earlier, List.mem_append_left _ among, rest⟩

omit [DecidableLT Score] [DecidableLE Score] [One Score] [DecidableEq Caller] in
theorem CachedResponse.Justified.later (justified : result.Justified requests history caller) :
    result.Justified requests (history ++ [taken]) caller := by
  cases justified with
  | alone status answer refused paid =>
      rcases paid with ⟨earlier, among, rest⟩
      exact .alone status answer refused ⟨earlier, List.mem_append_left _ among, rest⟩
  | called status answer paid => exact .called status answer (paid.later taken)
  | cached status answer serving cacheable bought among own current alike =>
      exact .cached status answer serving cacheable (bought.later taken)
        (List.mem_append_left _ among) own current alike

omit [DecidableLT Score] [DecidableLE Score] [One Score] [DecidableEq Caller] in
theorem Stage.Justified.later {stage : Stage Response Score}
    (justified : stage.Justified requests history caller) :
    stage.Justified requests (history ++ [taken]) caller := by
  cases stage with
  | bypassing miss => exact justified
  | missed miss => exact justified
  | leading flight miss => exact justified
  | storing flight miss response => exact Paid.later taken justified
  | leaving flight outcome =>
      cases outcome with
      | ok result => exact CachedResponse.Justified.later taken justified
      | error failure => trivial
  | signalling flight outcome =>
      cases outcome with
      | ok result => exact CachedResponse.Justified.later taken justified
      | error failure => trivial
  | returned result => exact CachedResponse.Justified.later taken justified
  | _ => trivial

end Later

omit [DecidableLT Score] [DecidableLE Score] [One Score] [DecidableEq Caller] in
/-- A caller leaves with what it comes to. -/
theorem Stage.justified_final {outcome : Except Failure (CachedResponse Response Score)}
    (justified : ∀ result, outcome = .ok result → result.Justified requests history caller) :
    (Stage.final outcome).Justified requests history caller := by
  cases outcome with
  | ok result => exact justified result rfl
  | error failure => trivial

/-! ## Flights -/

omit [Seconds Time] [LT Score] [LE Score] [DecidableLT Score] [DecidableLE Score] [One Score]
  [DecidableEq Caller] in
/-- A flight is for one key. -/
theorem Coalesced.sameKey (coalesced : Coalesced requests history client) {other : FlightKey}
    (concerns : client.Concerns requests flight key)
    (concerns' : client.Concerns requests flight other) : key = other := by
  have leads {found : FlightKey} (concerns : client.Concerns requests flight found) :
      flight < client.flown := by
    cases concerns with
    | owned owns => exact coalesced.owned _ flight owns
    | awaited waits => exact coalesced.awaited _ flight _ waits
  rcases coalesced.led flight (leads concerns) with ⟨leader, -, -, alone, waiting⟩
  have same {found : FlightKey} (concerns : client.Concerns requests flight found) :
      found = flightKey config (requests leader) := by
    cases concerns with
    | owned owns => rw [alone _ owns]
    | awaited waits => exact waiting _ _ waits
  exact (same concerns).trans (same concerns').symm

omit [Seconds Time] [LT Score] [LE Score] [DecidableLT Score] [DecidableLE Score] [One Score] in
/-- A caller that goes on with the flight it had concerns no other. -/
theorem concerns_before {stage : Stage Response Score}
    (moved : next.stage = Function.update client.stage caller stage)
    (owned : stage.owned = some flight → (client.stage caller).owned = some flight)
    (waits : ∀ miss, stage = .waiting flight miss →
      client.Concerns requests flight (flightKey config (requests caller)))
    (concerns : next.Concerns requests flight key) : client.Concerns requests flight key := by
  cases concerns with
  | @owned other owns =>
      rw [moved] at owns
      by_cases same : other = caller
      · subst same
        rw [Function.update_self] at owns
        exact .owned (owned owns)
      · rw [Function.update_of_ne same] at owns
        exact .owned owns
  | @awaited other miss waiting =>
      rw [moved] at waiting
      by_cases same : other = caller
      · subst same
        rw [Function.update_self] at waiting
        exact waits miss waiting
      · rw [Function.update_of_ne same] at waiting
        exact .awaited waiting

omit [Seconds Time] [LT Score] [LE Score] [DecidableLT Score] [DecidableLE Score] [One Score]
  [DecidableEq Caller] in
/-- A flight that is given another error or the signal keeps its response. -/
theorem response_kept {slot : InFlight Response} (flight : Nat)
    (same : slot.response = (client.flights flight).response) (other : Nat) :
    ((client.setFlight flight slot).flights other).response = (client.flights other).response := by
  by_cases own : other = flight
  · subst own
    rw [CachedLLM.setFlight_flights, same]
  · exact congrArg InFlight.response (Function.update_of_ne own ..)

omit [DecidableLT Score] [DecidableLE Score] [One Score] [DecidableEq Caller] in
/-- A justified response is one. -/
theorem CachedResponse.Justified.answered (justified : result.Justified requests history caller) :
    result.response.isSome = true := by
  cases justified with
  | alone _ answer _ _ => rw [answer, Option.isSome_some]
  | called _ answer _ => rw [answer, Option.isSome_some]
  | cached _ answer _ _ _ _ _ _ _ => rw [answer, Option.isSome_some]

namespace AllPaid

variable {stage : Stage Response Score} {taken : Taken config Response Caller}

omit [DecidableLT Score] [DecidableLE Score] [One Score] in
/-- The stages after one caller has gone on. -/
theorem stages_moved (allPaid : AllPaid requests history client)
    (moved : next.stage = Function.update client.stage caller stage)
    (justified : stage.Justified requests (history ++ [taken]) caller) (other : Caller) :
    (next.stage other).Justified requests (history ++ [taken]) other := by
  rw [moved]
  by_cases same : other = caller
  · subst same
    rw [Function.update_self]
    exact justified
  · rw [Function.update_of_ne same]
    exact (allPaid.stages other).later taken

omit [DecidableLT Score] [DecidableLE Score] [One Score] [DecidableEq Caller] in
/-- The flights after a step that gives none of them a response. -/
theorem flights_kept (allPaid : AllPaid requests history client)
    (concerns : ∀ flight key, next.Concerns requests flight key →
      client.Concerns requests flight key)
    (responses : ∀ flight, (next.flights flight).response = (client.flights flight).response)
    (flight : Nat) (key : FlightKey) (response : Response)
    (concerned : next.Concerns requests flight key)
    (answered : (next.flights flight).response = some response) :
    Paid requests (history ++ [taken]) key response :=
  (allPaid.flights flight key response (concerns flight key concerned)
    ((responses flight).symm.trans answered)).later taken

omit [DecidableLT Score] [DecidableLE Score] [One Score] in
/-- A step of a caller with the cache and the flights as they are. -/
theorem pass (allPaid : AllPaid requests history client) (cache : next.cache = client.cache)
    (moved : next.stage = Function.update client.stage caller stage)
    (responses : ∀ flight, (next.flights flight).response = (client.flights flight).response)
    (owned : ∀ flight, stage.owned = some flight → (client.stage caller).owned = some flight)
    (waits : ∀ flight miss, stage = .waiting flight miss →
      client.Concerns requests flight (flightKey config (requests caller)))
    (justified : stage.Justified requests (history ++ [taken]) caller) :
    AllPaid requests (history ++ [taken]) next where
  consistent := cache ▸ allPaid.consistent
  entries := by
    intro key id entry found
    rw [cache] at found
    exact (allPaid.entries key id entry found).later taken
  flights := allPaid.flights_kept
    (fun flight _ => concerns_before moved (owned flight) (waits flight)) responses
  stages := allPaid.stages_moved moved justified

end AllPaid

/-! ## The cache -/

omit [DecidableEq Caller] in
/-- Only a cache that serves hits. -/
theorem SemanticCache.lookup_serving
    {cache after : SemanticCache Response Score Time config.index.State} {now : Time}
    {request : Request Temperature} {hit : Hit Response Score}
    (looked : cache.lookup config now request = (.hit hit, after)) : config.mode = .serve := by
  cases mode : config.mode with
  | serve => rfl
  | shadow =>
      unfold lookup at looked
      dsimp only at looked
      rw [mode] at looked
      generalize cache.lookupInternal config now request = outcome at looked
      rcases outcome with ⟨result, inside⟩
      split at looked
      · cases looked
      · cases result <;> cases looked

omit [DecidableEq Caller] in
/-- What a caller finds in the cache was bought for its partition. -/
theorem AllPaid.hit (allPaid : AllPaid requests history client)
    {taken : Taken config Response Caller} {hit : Hit Response Score}
    {after : SemanticCache Response Score Time config.index.State}
    (looked : client.cache.lookup (config.answering taken.answers) taken.now
      (requests taken.caller) = (.hit hit, after)) :
    (CachedResponse.ofHit hit).Justified requests (history ++ [taken]) taken.caller := by
  have outcome := SemanticCache.lookup_looked
    ((consistent_answering taken.answers).mpr allPaid.consistent) taken.now
    (requests taken.caller)
  have serving := SemanticCache.lookup_serving looked
  rw [looked] at outcome
  rcases outcome.serves hit rfl with ⟨cacheable, ⟨entry, found, current, query, answer⟩, why⟩
  have bought := (allPaid.entries _ _ entry found).later taken
  have status : (CachedResponse.ofHit hit).status ≠ .miss := by
    unfold CachedResponse.ofHit
    dsimp only
    split <;> exact fun absurdity => Status.noConfusion absurdity
  refine .cached status (congrArg some answer) serving cacheable bought
    (List.mem_append_right _ List.mem_cons_self) rfl current ?_
  rw [← query]
  rcases why with same | ⟨_, _, _, _, resembles⟩
  · exact .inl same
  · exact .inr ⟨resembles.guards, hit.score, rfl, resembles.threshold, resembles.confident⟩

omit [DecidableLT Score] [DecidableLE Score] [One Score] [DecidableEq Caller] in
/-- What a caller stores has been bought. -/
theorem AllPaid.store (allPaid : AllPaid requests history client)
    {taken : Taken config Response Caller} (here : taken.before = client) {miss : Miss Score}
    (at' : client.stage taken.caller = .storing flight miss response) :
    let outcome := client.cache.store (config.answering taken.answers) taken.now
      (requests taken.caller) response .useDefault
    outcome.2.Consistent config ∧ ∀ key id entry, outcome.2.entryAt? key id = some entry →
      Bought requests (history ++ [taken]) (key, entry.query) entry.response
        entry.expiresAt := by
  have outcome := SemanticCache.store_storing
    ((consistent_answering taken.answers).mpr allPaid.consistent) taken.now
    (requests taken.caller) response .useDefault
  dsimp only
  generalize client.cache.store (config.answering taken.answers) taken.now
    (requests taken.caller) response .useDefault = stored at outcome
  cases outcome with
  | nothing _ consistent keeps =>
      refine ⟨(consistent_answering taken.answers).mp consistent, fun key id entry found => ?_⟩
      rcases keeps key id entry found with ⟨old, before, query, answer, expiry⟩
      rw [← query, ← answer, ← expiry]
      exact (allPaid.entries key id old before).later taken
  | stored consistent query answer expiry _ keeps =>
      refine ⟨(consistent_answering taken.answers).mp consistent, fun key id entry found => ?_⟩
      rcases keeps key id entry found with ⟨rfl, rfl, rfl⟩ | before
      · have paid : Paid requests history (flightKey config (requests taken.caller)) response := by
          have justified := allPaid.stages taken.caller
          rw [at'] at justified
          exact justified
        rw [query, answer, expiry]
        refine ⟨paid.later taken, taken, List.mem_append_right _ List.mem_cons_self, ?_, rfl, rfl⟩
        rw [here]
        exact ⟨flight, miss, at'⟩
      · exact (allPaid.entries key id entry before).later taken

/-! ## Steps -/

theorem AllPaid.step {taken : Taken config Response Caller}
    (coalesced : Coalesced requests history client) (allPaid : AllPaid requests history client)
    (here : taken.before = client)
    (advanced : client.advance config requests taken.toTurn = some next) :
    AllPaid requests (history ++ [taken]) next := by
  have last : taken ∈ history ++ [taken] := List.mem_append_right _ List.mem_cons_self
  have justified := allPaid.stages taken.caller
  cases advance_move advanced with
  | looked at' =>
      have looked := SemanticCache.lookup_looked
        ((consistent_answering taken.answers).mpr allPaid.consistent) taken.now
        (requests taken.caller)
      rcases Stage.carried_afterLookup (config.isCacheable (requests taken.caller)).cacheable
        (client.cache.lookup (config.answering taken.answers) taken.now
          (requests taken.caller)).1 with ⟨owned, -, apart⟩
      refine ⟨(consistent_answering taken.answers).mp looked.consistent, ?_, ?_, ?_⟩
      · intro key id entry found
        rcases looked.keeps key id entry found with ⟨old, before, query, answer, expiry⟩
        rw [← query, ← answer, ← expiry]
        exact (allPaid.entries key id old before).later taken
      · refine allPaid.flights_kept (fun flight _ => concerns_before rfl ?_ ?_) fun _ => rfl
        · intro owns
          rw [owned] at owns
          cases owns
        · exact fun miss waits => absurd waits (apart flight miss)
      · refine allPaid.stages_moved rfl ?_
        cases outcome : client.cache.lookup (config.answering taken.answers) taken.now
          (requests taken.caller) with
        | mk result after =>
            cases result with
            | raised failure => trivial
            | hit hit => exact allPaid.hit outcome
            | miss miss =>
                cases cacheable : (config.isCacheable (requests taken.caller)).cacheable with
                | true => exact cacheable
                | false => exact cacheable
  | @bypassed miss at' =>
      rcases Stage.carried_final (taken.upstream.map fun response =>
        CachedResponse.ofMiss miss (some response)) with ⟨owned, -, apart⟩
      refine allPaid.pass rfl rfl (fun _ => rfl) ?_ ?_ (Stage.justified_final ?_)
      · intro flight owns
        rw [owned] at owns
        cases owns
      · exact fun flight miss waits => absurd waits (apart flight miss)
      · intro result answered
        cases upstream : taken.upstream with
        | error failure =>
            rw [upstream] at answered
            cases answered
        | ok response =>
            rw [upstream] at answered
            cases answered
            rw [at'] at justified
            exact .alone rfl rfl justified ⟨taken, last, rfl, ⟨miss, here ▸ at'⟩, upstream⟩
  | joined at' registered =>
      refine allPaid.pass rfl rfl (fun _ => rfl) ?_ ?_ trivial
      · exact fun flight owns => by cases owns
      · rintro flight miss ⟨⟩
        rcases (coalesced.registered _ _).mp registered with ⟨leader, sameKey, carried⟩
        rw [← sameKey]
        exact .owned (Stage.owned_of_carried carried)
  | @led miss at' unregistered =>
      rw [at'] at justified
      refine ⟨allPaid.consistent, ?_, ?_, allPaid.stages_moved rfl justified⟩
      · exact fun key id entry found => (allPaid.entries key id entry found).later taken
      · intro flight key response concerned answered
        by_cases new : flight = client.flown
        · subst new
          change (Function.update client.flights client.flown {} client.flown).response =
            some response at answered
          rw [Function.update_self] at answered
          cases answered
        · change (Function.update client.flights client.flown {} flight).response =
            some response at answered
          rw [Function.update_of_ne new] at answered
          refine (allPaid.flights flight key response (concerns_before rfl ?_ ?_ concerned)
            answered).later taken
          · rintro ⟨⟩
            exact absurd rfl new
          · exact fun miss waits => by cases waits
  | @answered flight miss response at' upstream =>
      rw [at'] at justified
      have paid : Paid requests (history ++ [taken]) (flightKey config (requests taken.caller))
          response := ⟨taken, last, ⟨flight, miss, here ▸ at'⟩, upstream, rfl, justified⟩
      refine ⟨allPaid.consistent, ?_, ?_, allPaid.stages_moved rfl paid⟩
      · exact fun key id entry found => (allPaid.entries key id entry found).later taken
      · intro other key response' concerned told
        have before : client.Concerns requests other key := by
          refine concerns_before rfl ?_ ?_ concerned
          · rintro ⟨⟩
            rw [at']
            rfl
          · exact fun miss waits => by cases waits
        by_cases own : other = flight
        · subst own
          change (Function.update client.flights other _ other).response = some response' at told
          rw [Function.update_self] at told
          cases told
          have owned : client.Concerns requests other (flightKey config (requests taken.caller)) :=
            .owned (by rw [at']; rfl)
          rw [coalesced.sameKey before owned]
          exact paid
        · change (Function.update client.flights flight _ other).response = some response' at told
          rw [Function.update_of_ne own] at told
          exact (allPaid.flights other key response' before told).later taken
  | @unanswered flight miss failure at' upstream =>
      refine allPaid.pass rfl rfl (response_kept _ rfl) ?_ (fun _ _ waits => by cases waits) trivial
      rintro _ ⟨⟩
      rw [at']
      rfl
  | @stored flight miss response outcome cache at' stored =>
      have store := allPaid.store here at'
      rw [stored] at store
      rw [at'] at justified
      refine ⟨store.1, store.2, ?_, ?_⟩
      · refine allPaid.flights_kept (fun _ _ => concerns_before rfl ?_ ?_) fun _ => rfl
        · rintro ⟨⟩
          rw [at']
          rfl
        · exact fun _ waits => by cases waits
      · exact allPaid.stages_moved rfl (.called rfl rfl (Paid.later taken justified))
  | @unstored flight miss response failure cache at' stored =>
      have store := allPaid.store here at'
      have kept : ∀ other, ((client.setFlight flight
          { client.flights flight with error := some failure }).flights other).response =
            (client.flights other).response := response_kept flight rfl
      rw [stored] at store
      refine ⟨store.1, store.2, ?_, allPaid.stages_moved rfl trivial⟩
      refine allPaid.flights_kept (fun _ _ => concerns_before rfl ?_ ?_) kept
      · rintro ⟨⟩
        rw [at']
        rfl
      · exact fun _ waits => by cases waits
  | @left flight outcome at' =>
      rw [at'] at justified
      refine allPaid.pass rfl rfl (fun _ => rfl) ?_ (fun _ _ waits => by cases waits) ?_
      · rintro _ ⟨⟩
        rw [at']
        rfl
      · cases outcome with
        | ok result => exact CachedResponse.Justified.later taken justified
        | error failure => trivial
  | @signalled flight outcome at' =>
      rw [at'] at justified
      rcases Stage.carried_final outcome with ⟨owned, -, apart⟩
      refine allPaid.pass rfl rfl (response_kept flight rfl) ?_ ?_ (Stage.justified_final ?_)
      · intro other owns
        rw [owned] at owns
        cases owns
      · exact fun other miss waits => absurd waits (apart other miss)
      · rintro result rfl
        exact CachedResponse.Justified.later taken justified
  | @woken flight miss at' done =>
      rcases coalesced.led flight (coalesced.awaited _ flight miss at') with
        ⟨leader, -, heading, -, -⟩
      rcases heading.outcome done with ⟨outcome, left, tells⟩
      cases outcome with
      | error failure =>
          rw [show (client.flights flight).error = some failure from tells]
          exact allPaid.pass rfl rfl (fun _ => rfl) (fun _ owns => by cases owns)
            (fun _ _ waits => by cases waits) trivial
      | ok result =>
          rw [tells.1]
          refine allPaid.pass rfl rfl (fun _ => rfl) (fun _ owns => by cases owns)
            (fun _ _ waits => by cases waits) ?_
          have leaders := allPaid.stages leader
          rw [left] at leaders
          rcases Option.isSome_iff_exists.mp (CachedResponse.Justified.answered leaders) with
            ⟨response, answer⟩
          have told := tells.2.trans answer
          have paid := allPaid.flights flight _ response (.awaited at') told
          exact .called rfl told (paid.later taken)

/-- In every run every response is paid for. -/
theorem run_allPaid (run : (flying config requests).Run history client) :
    AllPaid requests history client := by
  induction run with
  | start begins =>
      cases begins
      refine ⟨.initial, (fun _ _ _ absent => by cases absent), ?_, fun _ => trivial⟩
      exact fun _ _ _ _ absent => by cases absent
  | concat run step ih => exact ih.step (run_coalesced run) step.1 step.2

/-- **Every response was paid for.** Whatever `call` returns, to any number of callers at once, came
back from a call upstream: the caller's own if its request is not cacheable, or one by a leader with
a cacheable request for the very partition and query, or, in a cache that serves, one by such a
leader that was stored for the query of an entry, which the caller's own lookup found unexpired and
like its query. -/
theorem responses_paid_for (run : (flying config requests).Run history client)
    (returned : client.stage caller = .returned result) :
    result.Justified requests history caller := by
  have justified := (run_allPaid run).stages caller
  rw [returned] at justified
  exact justified

end Payments

/-- The callers ask different things that the cache takes for alike. -/
def askingAlike (caller : Bool) : Request Unit := asking (if caller then "ho" else "hi")

/-- The first caller pays, and the second comes when it is through. -/
def payingTurns : List (Turn Nat WholeSeconds Nat Bool) :=
  [turnOf true 8, turnOf false 7, turnOf false 7, turnOf false 7, turnOf false 7, turnOf false 7,
    turnOf false 7]

/-- A hit that is served to a second caller was paid for by the first. -/
theorem responses_paid_for_alike :
    ∃ (history : List (Taken lengths Nat Bool)) (result : CachedResponse Nat Nat),
      result.response = some 7 ∧ result.status = .hitSemantic ∧
        result.Justified askingAlike history true := by
  rcases run_of_legal lengths askingAlike
    (show legal lengths askingAlike (partitionKeyFor lengths (asking "hi").ctx) payingTurns = true
      from rfl) with ⟨run, -⟩
  have returned : (flight lengths askingAlike payingTurns).stage true = .returned
      { response := some 7, status := .hitSemantic, score := some 1, reason := "semantic",
        entryId := some "t:1" } := rfl
  exact ⟨_, _, rfl, rfl, responses_paid_for run returned⟩

end Semantic
