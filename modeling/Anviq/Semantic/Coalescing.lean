import Anviq.Semantic.SingleFlight

/-! # Leaders and followers

Every flight has one leader, which registered it under its key. The registry knows the flight
until the leader deletes it, and what the leader comes to is what the flight tells those who
wait for it.
-/

namespace Semantic

open Lru (Seconds WholeSeconds)

variable {Vector Score Time Temperature Response Caller : Type} [Seconds Time]
  {config : Config Vector Score Time Temperature}

section Leaders

variable [LT Score] [LE Score] [DecidableLT Score] [DecidableLE Score] [One Score]
  [DecidableEq Caller]
  {requests : Caller → Request Temperature}
  {client next : CachedLLM Response Score Time config.index.State Caller}
  {turn : Turn Vector Time Response Caller} {history : List (Taken config Response Caller)}
  {leader caller : Caller} {flight : Nat} {key : FlightKey}

/-! ## Flights -/

/-- The caller registered the flight. -/
def Leads (requests : Caller → Request Temperature)
    (history : List (Taken config Response Caller)) (leader : Caller) (flight : Nat) : Prop :=
  ∃ taken ∈ history, taken.caller = leader ∧
    (∃ miss, taken.before.stage leader = .missed miss) ∧
    taken.before.inflight.get? (flightKey config (requests leader)) = none ∧
    taken.before.flown = flight

/-- The flight a caller still has to finish. -/
def Stage.owned : Stage Response Score → Option Nat
  | .leading flight _ => some flight
  | .storing flight _ _ => some flight
  | .leaving flight _ => some flight
  | .signalling flight _ => some flight
  | _ => none

/-- The slot of a flight tells what its leader comes to. -/
def InFlight.Tells (slot : InFlight Response) :
    Except Failure (CachedResponse Response Score) → Prop
  | .ok result => slot.error = none ∧ slot.response = result.response
  | .error failure => slot.error = some failure

/-- The leader of a flight, the slot being what it is. -/
def Stage.Heads (flight : Nat) (slot : InFlight Response) : Stage Response Score → Prop
  | .leading own _ => own = flight ∧ slot = {}
  | .storing own _ response => own = flight ∧ slot = { response := some response }
  | .leaving own outcome => own = flight ∧ slot.done = false ∧ slot.Tells outcome
  | .signalling own outcome => own = flight ∧ slot.done = false ∧ slot.Tells outcome
  | .returned result => slot.done = true ∧ slot.Tells (.ok result)
  | .raised failure => slot.done = true ∧ slot.error = some failure
  | _ => False

/-- The registry knows what callers carry, and every flight has its leader and tells what the
leader comes to. -/
structure Coalesced (requests : Caller → Request Temperature)
    (history : List (Taken config Response Caller))
    (client : CachedLLM Response Score Time config.index.State Caller) : Prop where
  registered : ∀ key flight, client.inflight.get? key = some flight ↔
    ∃ caller, flightKey config (requests caller) = key ∧
      (client.stage caller).carried = some flight
  owned : ∀ caller flight, (client.stage caller).owned = some flight → flight < client.flown
  awaited : ∀ caller flight miss, client.stage caller = .waiting flight miss →
    flight < client.flown
  led : ∀ flight < client.flown, ∃ leader, Leads requests history leader flight ∧
    (client.stage leader).Heads flight (client.flights flight) ∧
    (∀ caller, (client.stage caller).owned = some flight → caller = leader) ∧
    ∀ caller miss, client.stage caller = .waiting flight miss →
      flightKey config (requests caller) = flightKey config (requests leader)

omit [Seconds Time] [LT Score] [LE Score] [DecidableLT Score] [DecidableLE Score] [One Score]
  [DecidableEq Caller] in
/-- What is carried is owned. -/
theorem Stage.owned_of_carried {stage : Stage Response Score}
    (carried : stage.carried = some flight) : stage.owned = some flight := by
  cases stage <;> first | exact carried | cases carried

omit [Seconds Time] [LT Score] [LE Score] [DecidableLT Score] [DecidableLE Score] [One Score]
  [DecidableEq Caller] in
theorem Leads.later (leads : Leads requests history leader flight)
    (taken : Taken config Response Caller) :
    Leads requests (history ++ [taken]) leader flight := by
  obtain ⟨earlier, among, rest⟩ := leads
  exact ⟨earlier, List.mem_append_left _ among, rest⟩

omit [Seconds Time] [LT Score] [LE Score] [DecidableLT Score] [DecidableLE Score] [One Score] in
/-- A caller goes on with what it carries, and changes no flight but its own. -/
theorem Coalesced.settle (coalesced : Coalesced requests history client)
    (taken : Taken config Response Caller) {stage : Stage Response Score}
    (inflight : next.inflight = client.inflight) (flown : next.flown = client.flown)
    (moved : next.stage = Function.update client.stage caller stage)
    (carried : stage.carried = (client.stage caller).carried)
    (owned : ∀ flight, stage.owned = some flight → (client.stage caller).owned = some flight)
    (flights : ∀ flight, (client.stage caller).owned ≠ some flight →
      next.flights flight = client.flights flight)
    (heads : ∀ flight, (client.stage caller).Heads flight (client.flights flight) →
      stage.Heads flight (next.flights flight))
    (joins : ∀ flight miss, stage = .waiting flight miss →
      client.inflight.get? (flightKey config (requests caller)) = some flight) :
    Coalesced requests (history ++ [taken]) next := by
  have self : next.stage caller = stage := by rw [moved, Function.update_self]
  have others : ∀ other, other ≠ caller → next.stage other = client.stage other := by
    intro other apart
    rw [moved, Function.update_of_ne apart]
  have before : ∀ other flight, (next.stage other).owned = some flight →
      (client.stage other).owned = some flight := by
    intro other flight owning
    by_cases same : other = caller
    · rw [same] at owning ⊢
      rw [self] at owning
      exact owned flight owning
    · rw [others other same] at owning
      exact owning
  refine ⟨?_, ?_, ?_, ?_⟩
  · intro key flight
    rw [inflight, coalesced.registered]
    apply exists_congr
    intro other
    by_cases same : other = caller
    · rw [same, self, carried]
    · rw [others other same]
  · intro other flight owning
    rw [flown]
    exact coalesced.owned other flight (before other flight owning)
  · intro other flight miss waiting
    rw [flown]
    by_cases same : other = caller
    · rw [same, self] at waiting
      obtain ⟨carrier, -, carries⟩ := (coalesced.registered _ _).mp (joins flight miss waiting)
      exact coalesced.owned carrier flight (Stage.owned_of_carried carries)
    · rw [others other same] at waiting
      exact coalesced.awaited other flight miss waiting
  · intro flight early
    rw [flown] at early
    obtain ⟨leader, leads, heading, alone, waits⟩ := coalesced.led flight early
    refine ⟨leader, leads.later taken, ?_, ?_, ?_⟩
    · by_cases same : leader = caller
      · rw [same] at heading ⊢
        rw [self]
        exact heads flight heading
      · rw [others leader same, flights flight]
        · exact heading
        · intro owning
          exact same (alone caller owning).symm
    · intro other owning
      exact alone other (before other flight owning)
    · intro other miss waiting
      by_cases same : other = caller
      · rw [same, self] at waiting
        obtain ⟨carrier, sameKey, carries⟩ :=
          (coalesced.registered _ _).mp (joins flight miss waiting)
        rw [same, ← sameKey, alone carrier (Stage.owned_of_carried carries)]
      · rw [others other same] at waiting
        exact waits other miss waiting

omit [Seconds Time] [LT Score] [LE Score] [DecidableLT Score] [DecidableLE Score] [One Score] in
/-- A caller registers a new flight under its key. -/
theorem Coalesced.lead (coalesced : Coalesced requests history client)
    {taken : Taken config Response Caller} {miss : Miss Score}
    (here : taken.before = client) (mover : taken.caller = caller)
    (at' : client.stage caller = .missed miss)
    (unregistered : client.inflight.get? (flightKey config (requests caller)) = none)
    (inflight : next.inflight =
      client.inflight.assign (flightKey config (requests caller)) client.flown)
    (flown : next.flown = client.flown + 1)
    (flights : next.flights = Function.update client.flights client.flown {})
    (moved : next.stage = Function.update client.stage caller (.leading client.flown miss)) :
    Coalesced requests (history ++ [taken]) next := by
  have self : next.stage caller = .leading client.flown miss := by rw [moved, Function.update_self]
  have others : ∀ other, other ≠ caller → next.stage other = client.stage other := by
    intro other apart
    rw [moved, Function.update_of_ne apart]
  refine ⟨?_, ?_, ?_, ?_⟩
  · intro key flight
    rw [inflight, Dict.get?_assign]
    split
    · next same =>
        constructor
        · intro new
          cases new
          exact ⟨caller, same.symm, by rw [self]; rfl⟩
        · intro carrying
          obtain ⟨carrier, about, carries⟩ := carrying
          by_cases mine : carrier = caller
          · rw [mine, self] at carries
            exact carries
          · rw [others carrier mine] at carries
            have known := (coalesced.registered key flight).mpr ⟨carrier, about, carries⟩
            rw [same, unregistered] at known
            cases known
    · next apart =>
        rw [coalesced.registered]
        apply exists_congr
        intro other
        by_cases mine : other = caller
        · rw [mine]
          constructor
          · intro carrying
            rw [at'] at carrying
            cases carrying.2
          · intro carrying
            exact absurd carrying.1.symm apart
        · rw [others other mine]
  · intro other flight owning
    rw [flown]
    by_cases mine : other = caller
    · rw [mine, self] at owning
      cases owning
      exact Nat.lt_succ_self _
    · rw [others other mine] at owning
      exact Nat.lt_succ_of_lt (coalesced.owned other flight owning)
  · intro other flight miss' waiting
    rw [flown]
    by_cases mine : other = caller
    · rw [mine, self] at waiting
      cases waiting
    · rw [others other mine] at waiting
      exact Nat.lt_succ_of_lt (coalesced.awaited other flight miss' waiting)
  · intro flight early
    rw [flown] at early
    obtain known | rfl := Nat.lt_succ_iff_lt_or_eq.mp early
    · obtain ⟨leader, leads, heading, alone, waits⟩ := coalesced.led flight known
      have apart : leader ≠ caller := by
        intro same
        rw [same, at'] at heading
        exact heading
      refine ⟨leader, leads.later taken, ?_, ?_, ?_⟩
      · rw [others leader apart, flights, Function.update_of_ne (Nat.ne_of_lt known)]
        exact heading
      · intro other owning
        by_cases mine : other = caller
        · rw [mine, self] at owning
          cases owning
          exact absurd known (lt_irrefl _)
        · rw [others other mine] at owning
          exact alone other owning
      · intro other miss' waiting
        by_cases mine : other = caller
        · rw [mine, self] at waiting
          cases waiting
        · rw [others other mine] at waiting
          exact waits other miss' waiting
    · refine ⟨caller, ⟨taken, by simp, mover, ?_⟩, ?_, ?_, ?_⟩
      · rw [here]
        exact ⟨⟨miss, at'⟩, unregistered, rfl⟩
      · rw [self, flights, Function.update_self]
        exact ⟨rfl, rfl⟩
      · intro other owning
        by_contra mine
        rw [others other mine] at owning
        exact absurd (coalesced.owned other _ owning) (lt_irrefl _)
      · intro other miss' waiting
        by_cases mine : other = caller
        · rw [mine]
        · rw [others other mine] at waiting
          exact absurd (coalesced.awaited other _ miss' waiting) (lt_irrefl _)

omit [Seconds Time] [LT Score] [LE Score] [DecidableLT Score] [DecidableLE Score] [One Score] in
/-- The leader deletes its flight from the registry. -/
theorem Coalesced.leave (coalesced : Coalesced requests history client)
    (taken : Taken config Response Caller)
    {outcome : Except Failure (CachedResponse Response Score)}
    (at' : client.stage caller = .leaving flight outcome)
    (inflight : next.inflight = client.inflight.erase (flightKey config (requests caller)))
    (flown : next.flown = client.flown) (flights : next.flights = client.flights)
    (moved : next.stage = Function.update client.stage caller (.signalling flight outcome)) :
    Coalesced requests (history ++ [taken]) next := by
  have self : next.stage caller = .signalling flight outcome := by rw [moved, Function.update_self]
  have others : ∀ other, other ≠ caller → next.stage other = client.stage other := by
    intro other apart
    rw [moved, Function.update_of_ne apart]
  have mine : client.inflight.get? (flightKey config (requests caller)) = some flight :=
    (coalesced.registered _ _).mpr ⟨caller, rfl, by rw [at']; rfl⟩
  have before : ∀ other flight, (next.stage other).owned = some flight →
      (client.stage other).owned = some flight := by
    intro other flight' owning
    by_cases same : other = caller
    · rw [same, self] at owning
      rw [same, at']
      exact owning
    · rw [others other same] at owning
      exact owning
  have waited : ∀ other flight' miss, next.stage other = .waiting flight' miss →
      client.stage other = .waiting flight' miss := by
    intro other flight' miss waiting
    by_cases same : other = caller
    · rw [same, self] at waiting
      cases waiting
    · rw [others other same] at waiting
      exact waiting
  refine ⟨?_, ?_, ?_, ?_⟩
  · intro key flight'
    rw [inflight, Dict.get?_erase]
    split
    · next same =>
        constructor
        · intro none
          cases none
        · intro carrying
          obtain ⟨carrier, about, carries⟩ := carrying
          by_cases apart : carrier = caller
          · rw [apart, self] at carries
            cases carries
          · rw [others carrier apart] at carries
            -- Two carriers of one key carry the flight the registry knows.
            have known := (coalesced.registered key flight').mpr ⟨carrier, about, carries⟩
            rw [same, mine] at known
            cases known
            have early : flight < client.flown := coalesced.owned caller flight (by rw [at']; rfl)
            obtain ⟨leader, -, -, alone, -⟩ := coalesced.led flight early
            have first := alone carrier (Stage.owned_of_carried carries)
            have second := alone caller (by rw [at']; rfl)
            exact absurd (first.trans second.symm) apart
    · next apart =>
        rw [coalesced.registered]
        apply exists_congr
        intro other
        by_cases same : other = caller
        · rw [same, self]
          constructor
          · intro carrying
            exact absurd carrying.1.symm apart
          · intro carrying
            cases carrying.2
        · rw [others other same]
  · intro other flight' owning
    rw [flown]
    exact coalesced.owned other flight' (before other flight' owning)
  · intro other flight' miss waiting
    rw [flown]
    exact coalesced.awaited other flight' miss (waited other flight' miss waiting)
  · intro flight' early
    rw [flown] at early
    obtain ⟨leader, leads, heading, alone, waits⟩ := coalesced.led flight' early
    refine ⟨leader, leads.later taken, ?_, ?_, ?_⟩
    · rw [flights]
      by_cases same : leader = caller
      · rw [same, at'] at heading
        rw [same, self]
        exact heading
      · rw [others leader same]
        exact heading
    · intro other owning
      exact alone other (before other flight' owning)
    · intro other miss waiting
      exact waits other miss (waited other flight' miss waiting)

/-! ## Runs -/

omit [Seconds Time] [LT Score] [LE Score] [DecidableLT Score] [DecidableLE Score] [One Score]
  [DecidableEq Caller] in
theorem Stage.carried_afterLookup (cacheable : Bool) (result : Lookup Response Score) :
    (Stage.afterLookup cacheable result).owned = none ∧
      (Stage.afterLookup cacheable result).carried = none ∧
      ∀ flight miss, Stage.afterLookup cacheable result ≠ .waiting flight miss := by
  cases result with
  | raised failure => exact ⟨rfl, rfl, by simp [Stage.afterLookup]⟩
  | hit hit => exact ⟨rfl, rfl, by simp [Stage.afterLookup]⟩
  | miss miss => cases cacheable <;> exact ⟨rfl, rfl, by simp [Stage.afterLookup]⟩

omit [Seconds Time] [LT Score] [LE Score] [DecidableLT Score] [DecidableLE Score] [One Score]
  [DecidableEq Caller] in
theorem Stage.carried_final (outcome : Except Failure (CachedResponse Response Score)) :
    (Stage.final outcome).owned = none ∧ (Stage.final outcome).carried = none ∧
      ∀ flight miss, Stage.final outcome ≠ .waiting flight miss := by
  cases outcome <;> exact ⟨rfl, rfl, by simp [Stage.final]⟩

omit [Seconds Time] [LT Score] [LE Score] [DecidableLT Score] [DecidableLE Score] [One Score] in
/-- A caller that heads no flight goes on, and carries none. -/
theorem Coalesced.pass (coalesced : Coalesced requests history client)
    (taken : Taken config Response Caller) {before stage : Stage Response Score}
    (at' : client.stage caller = before) (inflight : next.inflight = client.inflight)
    (flown : next.flown = client.flown) (flights : next.flights = client.flights)
    (moved : next.stage = Function.update client.stage caller stage)
    (idle : before.carried = none) (heads : ∀ flight slot, ¬ before.Heads flight slot)
    (settled : stage.owned = none ∧ stage.carried = none ∧
      ∀ flight miss, stage = .waiting flight miss →
        client.inflight.get? (flightKey config (requests caller)) = some flight) :
    Coalesced requests (history ++ [taken]) next := by
  obtain ⟨owned, carried, joins⟩ := settled
  refine coalesced.settle taken inflight flown moved ?_ ?_ ?_ ?_ joins
  · rw [carried, at', idle]
  · intro flight owning
    rw [owned] at owning
    cases owning
  · intro flight _
    rw [flights]
  · intro flight heading
    rw [at'] at heading
    exact absurd heading (heads flight _)

omit [Seconds Time] [LT Score] [LE Score] [DecidableLT Score] [DecidableLE Score] [One Score]
  [DecidableEq Caller] in
/-- A leader heads the flight it owns. -/
theorem Stage.Heads.own {stage : Stage Response Score} {other : Nat} {slot : InFlight Response}
    (heading : stage.Heads other slot) (owned : stage.owned = some flight) : other = flight := by
  cases stage with
  | leading own miss =>
      cases owned
      exact heading.1.symm
  | storing own miss response =>
      cases owned
      exact heading.1.symm
  | leaving own outcome =>
      cases owned
      exact heading.1.symm
  | signalling own outcome =>
      cases owned
      exact heading.1.symm
  | _ => cases owned

omit [Seconds Time] [LT Score] [LE Score] [DecidableLT Score] [DecidableLE Score] [One Score] in
/-- A leader writes to its own flight and goes on. -/
theorem Coalesced.proceed (coalesced : Coalesced requests history client)
    (taken : Taken config Response Caller) {before stage : Stage Response Score}
    {slot : InFlight Response} (at' : client.stage caller = before)
    (own : before.owned = some flight) (inflight : next.inflight = client.inflight)
    (flown : next.flown = client.flown)
    (flights : next.flights = Function.update client.flights flight slot)
    (moved : next.stage = Function.update client.stage caller stage)
    (carried : stage.carried = before.carried)
    (owned : stage.owned = some flight ∨ stage.owned = none)
    (heads : before.Heads flight (client.flights flight) → stage.Heads flight slot)
    (apart : ∀ flight miss, stage ≠ .waiting flight miss) :
    Coalesced requests (history ++ [taken]) next := by
  refine coalesced.settle taken inflight flown moved ?_ ?_ ?_ ?_ ?_
  · rw [carried, at']
  · intro other owning
    rw [at', own]
    obtain same | none := owned
    · exact same.symm.trans owning
    · rw [none] at owning
      cases owning
  · intro other distinct
    rw [at', own] at distinct
    rw [flights, Function.update_of_ne (fun same => distinct (congrArg some same.symm))]
  · intro other heading
    rw [at'] at heading
    have same := heading.own own
    subst same
    rw [flights, Function.update_self]
    exact heads heading
  · intro other miss waiting
    exact absurd waiting (apart other miss)

theorem Coalesced.step {taken : Taken config Response Caller}
    (coalesced : Coalesced requests history client) (here : taken.before = client)
    (advanced : client.advance config requests taken.toTurn = some next) :
    Coalesced requests (history ++ [taken]) next := by
  cases advance_move advanced with
  | looked at' =>
      obtain ⟨owned, carried, apart⟩ := Stage.carried_afterLookup
        (config.isCacheable (requests taken.caller)).cacheable
        (client.cache.lookup (config.answering taken.answers) taken.now
          (requests taken.caller)).1
      exact coalesced.pass taken at' rfl rfl rfl rfl rfl (fun _ _ => id)
        ⟨owned, carried, fun flight miss waiting => absurd waiting (apart flight miss)⟩
  | @bypassed miss at' =>
      obtain ⟨owned, carried, apart⟩ := Stage.carried_final
        (taken.upstream.map fun response => CachedResponse.ofMiss miss (some response))
      exact coalesced.pass taken at' rfl rfl rfl rfl rfl (fun _ _ => id)
        ⟨owned, carried, fun flight miss waiting => absurd waiting (apart flight miss)⟩
  | joined at' registered =>
      refine coalesced.pass taken at' rfl rfl rfl rfl rfl (fun _ _ => id) ⟨rfl, rfl, ?_⟩
      intro flight miss waiting
      cases waiting
      exact registered
  | led at' unregistered => exact coalesced.lead here rfl at' unregistered rfl rfl rfl rfl
  | answered at' upstream =>
      refine coalesced.proceed taken at' rfl rfl rfl rfl rfl rfl (Or.inl rfl) ?_ (by simp)
      intro heading
      rw [heading.2]
      exact ⟨rfl, rfl⟩
  | unanswered at' upstream =>
      refine coalesced.proceed taken at' rfl rfl rfl rfl rfl rfl (Or.inl rfl) ?_ (by simp)
      intro heading
      rw [heading.2]
      exact ⟨rfl, rfl, rfl⟩
  | @stored flight miss response result cache at' stored =>
      refine coalesced.proceed taken at' rfl rfl rfl (Function.update_eq_self flight _).symm rfl rfl
        (Or.inl rfl) ?_ (by simp)
      intro heading
      change Stage.Heads flight (client.flights flight) _
      rw [heading.2]
      exact ⟨rfl, rfl, rfl, rfl⟩
  | unstored at' stored =>
      refine coalesced.proceed taken at' rfl rfl rfl rfl rfl rfl (Or.inl rfl) ?_ (by simp)
      intro heading
      rw [heading.2]
      exact ⟨rfl, rfl, rfl⟩
  | left at' => exact coalesced.leave taken at' rfl rfl rfl rfl
  | @signalled flight outcome at' =>
      obtain ⟨owned, carried, apart⟩ := Stage.carried_final outcome
      refine coalesced.proceed taken at' rfl rfl rfl rfl rfl carried (Or.inr owned) ?_ apart
      intro heading
      cases outcome with
      | ok result => exact ⟨rfl, heading.2.2⟩
      | error failure => exact ⟨rfl, heading.2.2⟩
  | @woken flight miss at' done =>
      refine coalesced.pass taken at' rfl rfl rfl rfl rfl (fun _ _ => id) ?_
      split
      · exact ⟨rfl, rfl, by simp⟩
      · exact ⟨rfl, rfl, by simp⟩

theorem run_coalesced (run : (flying config requests).Run history client) :
    Coalesced requests history client := by
  refine run.invariant (P := Coalesced requests) ?_ ?_
  · intro client begins
    rw [begins]
    refine ⟨?_, ?_, ?_, ?_⟩
    · intro key flight
      constructor
      · intro known
        cases known
      · intro carrying
        obtain ⟨caller, -, carries⟩ := carrying
        cases carries
    · intro caller flight owning
      cases owning
    · intro caller flight miss waiting
      cases waiting
    · intro flight early
      exact absurd early (Nat.not_lt_zero flight)
  · intro history client taken next coalesced step
    exact coalesced.step step.1 step.2

/-- The caller has left `call`, with this outcome. -/
def CachedLLM.Left (client : CachedLLM Response Score Time config.index.State Caller)
    (caller : Caller) (outcome : Except Failure (CachedResponse Response Score)) : Prop :=
  client.stage caller = .final outcome

omit [Seconds Time] [LT Score] [LE Score] [DecidableLT Score] [DecidableLE Score] [One Score]
  [DecidableEq Caller] in
/-- A leader that is done has left, and its slot tells how. -/
theorem Stage.Heads.outcome {stage : Stage Response Score} {slot : InFlight Response}
    (heading : stage.Heads flight slot) (done : slot.done = true) :
    ∃ outcome, stage = .final outcome ∧ slot.Tells outcome := by
  cases stage with
  | returned result => exact ⟨.ok result, rfl, heading.2⟩
  | raised failure => exact ⟨.error failure, rfl, heading.2⟩
  | leading own miss =>
      rw [heading.2] at done
      cases done
  | storing own miss response =>
      rw [heading.2] at done
      cases done
  | leaving own outcome =>
      rw [heading.2.1] at done
      cases done
  | signalling own outcome =>
      rw [heading.2.1] at done
      cases done
  | _ => exact heading.elim

omit [Seconds Time] [LT Score] [LE Score] [DecidableLT Score] [DecidableLE Score] [One Score]
  [DecidableEq Caller] in
/-- The signal is set exactly when the leader has left. -/
theorem Stage.Heads.done_iff {stage : Stage Response Score} {slot : InFlight Response}
    (heading : stage.Heads flight slot) :
    slot.done = true ↔ ∃ outcome, stage = .final outcome := by
  constructor
  · intro done
    obtain ⟨outcome, left, -⟩ := heading.outcome done
    exact ⟨outcome, left⟩
  · intro left
    obtain ⟨outcome, rfl⟩ := left
    cases outcome with
    | ok result => exact heading.1
    | error failure => exact heading.1

/-- A follower goes on only when the signal is set. -/
theorem advance_done {miss : Miss Score} (waiting : client.stage turn.caller = .waiting flight miss)
    (advanced : client.advance config requests turn = some next) :
    (client.flights flight).done = true := by
  cases advance_move advanced with
  | woken at' done =>
      cases waiting.symm.trans at'
      exact done
  | looked at' => cases waiting.symm.trans at'
  | bypassed at' => cases waiting.symm.trans at'
  | joined at' _ => cases waiting.symm.trans at'
  | led at' _ => cases waiting.symm.trans at'
  | answered at' _ => cases waiting.symm.trans at'
  | unanswered at' _ => cases waiting.symm.trans at'
  | stored at' _ => cases waiting.symm.trans at'
  | unstored at' _ => cases waiting.symm.trans at'
  | left at' => cases waiting.symm.trans at'
  | signalled at' => cases waiting.symm.trans at'

/-- A follower whose signal is set does as the slot tells. -/
theorem advance_woken {miss : Miss Score}
    {outcome : Except Failure (CachedResponse Response Score)}
    (waiting : client.stage turn.caller = .waiting flight miss)
    (done : (client.flights flight).done = true) (tells : (client.flights flight).Tells outcome) :
    ∃ next, client.advance config requests turn = some next ∧
      next.Left turn.caller (outcome.map fun result => .ofMiss miss result.response) := by
  unfold CachedLLM.advance
  simp only [waiting, done, ↓reduceIte]
  cases outcome with
  | ok result =>
      obtain ⟨unfailing, response⟩ := tells
      simp only [unfailing, response]
      exact ⟨_, rfl, CachedLLM.goto_stage ..⟩
  | error failure =>
      have failing : (client.flights flight).error = some failure := tells
      simp only [failing]
      exact ⟨_, rfl, CachedLLM.goto_stage ..⟩

/-- **Coalescing.** At most one caller for a key has a flight it has not yet deleted, and the
registry knows the key exactly as long as there is one. A follower waits for a flight of its own
key that a leader registered, and can go on exactly when that leader has left; it then returns
the leader's response or raises its error. -/
theorem followers_served (run : (flying config requests).Run history client) :
    (∀ key flight, client.inflight.get? key = some flight ↔
      ∃ leader, flightKey config (requests leader) = key ∧
        (client.stage leader).carried = some flight) ∧
    (∀ leader other flight flight', (client.stage leader).carried = some flight →
      (client.stage other).carried = some flight' →
      flightKey config (requests leader) = flightKey config (requests other) →
        leader = other) ∧
    ∀ turn flight miss, client.stage turn.caller = .waiting flight miss →
      ∃ leader, Leads requests history leader flight ∧
        flightKey config (requests leader) = flightKey config (requests turn.caller) ∧
        ((∃ next, client.advance config requests turn = some next) ↔
          ∃ outcome, client.Left leader outcome) ∧
        ∀ next, client.advance config requests turn = some next →
          ∃ outcome, client.Left leader outcome ∧
            next.Left turn.caller (outcome.map fun result => .ofMiss miss result.response) := by
  have coalesced := run_coalesced run
  refine ⟨coalesced.registered, ?_, ?_⟩
  · intro leader other flight flight' carries carries' sameKey
    have known := (coalesced.registered _ flight).mpr ⟨leader, rfl, carries⟩
    have known' := (coalesced.registered _ flight').mpr ⟨other, rfl, carries'⟩
    rw [sameKey, known'] at known
    cases known
    have early := coalesced.owned leader flight (Stage.owned_of_carried carries)
    obtain ⟨one, -, -, alone, -⟩ := coalesced.led flight early
    rw [alone leader (Stage.owned_of_carried carries),
      alone other (Stage.owned_of_carried carries')]
  · intro turn flight miss waiting
    obtain ⟨leader, leads, heading, -, waits⟩ :=
      coalesced.led flight (coalesced.awaited turn.caller flight miss waiting)
    refine ⟨leader, leads, (waits turn.caller miss waiting).symm, ?_, ?_⟩
    · refine Iff.trans ?_ heading.done_iff
      constructor
      · intro goes
        obtain ⟨next, advanced⟩ := goes
        exact advance_done waiting advanced
      · intro done
        obtain ⟨outcome, -, tells⟩ := heading.outcome done
        obtain ⟨next, advanced, -⟩ := advance_woken waiting done tells
        exact ⟨next, advanced⟩
    · intro next advanced
      have done := advance_done waiting advanced
      obtain ⟨outcome, left, tells⟩ := heading.outcome done
      obtain ⟨next', advanced', follows⟩ := advance_woken waiting done tells
      rw [advanced'] at advanced
      cases advanced
      exact ⟨outcome, left, follows⟩

end Leaders

/-- The first caller has deleted its flight and not yet set the signal when the second, which
missed before, finds nothing registered. -/
def succeedingTurns : List (Turn Nat WholeSeconds Nat Bool) :=
  [turnOf true 8, turnOf false 7, turnOf false 7, turnOf false 7, turnOf false 7, turnOf true 8,
    turnOf false 7]

/-- Two callers lead flights of one key, the first of them in its `finally` block. -/
theorem followers_served_successor :
    ∃ (history : List (Taken lengths Nat Bool))
      (client : CachedLLM Nat Nat WholeSeconds lengths.index.State Bool),
      (flying lengths askingBoth).Run history client ∧
        flightKey lengths (askingBoth false) = flightKey lengths (askingBoth true) ∧
        (∃ outcome, client.stage false = .signalling 0 outcome) ∧
        ∃ miss, client.stage true = .leading 1 miss := by
  obtain ⟨run, -⟩ := run_of_legal lengths askingBoth
    (show legal lengths askingBoth (partitionKeyFor lengths (asking "hi").ctx) succeedingTurns =
      true from rfl)
  exact ⟨_, _, run, rfl, ⟨_, rfl⟩, ⟨_, rfl⟩⟩

/-- The second caller waits for the flight of the first. -/
def followingTurns : List (Turn Nat WholeSeconds Nat Bool) :=
  [turnOf true 8, turnOf false 7, turnOf true 8, turnOf false 7]

/-- A caller waits for the flight of another with the same question. -/
theorem followers_served_following :
    ∃ (history : List (Taken lengths Nat Bool))
      (client : CachedLLM Nat Nat WholeSeconds lengths.index.State Bool),
      (flying lengths askingBoth).Run history client ∧
        (∃ miss, client.stage true = .waiting 0 miss) ∧
        ∃ leader, Leads askingBoth history leader 0 ∧
          flightKey lengths (askingBoth leader) = flightKey lengths (askingBoth true) := by
  obtain ⟨run, -⟩ := run_of_legal lengths askingBoth
    (show legal lengths askingBoth (partitionKeyFor lengths (asking "hi").ctx) followingTurns = true
      from rfl)
  obtain ⟨leader, leads, sameKey, -⟩ :=
    (followers_served run).2.2 (turnOf true 8) 0 _ rfl
  exact ⟨_, _, run, ⟨_, rfl⟩, leader, leads, sameKey⟩

end Semantic
