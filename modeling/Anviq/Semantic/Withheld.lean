import Anviq.Semantic.Paid
import Anviq.Semantic.Policy

/-! # What the policy withholds

Requests with tools, at a high temperature or with a private query are withheld from the cache.
Whatever is done with a cache, its entries and its shadow log come from other requests; and
whatever callers do at once, one with such a request makes a call of its own and gives what comes
back to nobody else.
-/

namespace Semantic

open Lru (Seconds Ttl WholeSeconds expired validTtl)
open Regex (Tables)
open Policy (Thermometer)

namespace Policy

/-- What keeps a request out of the cache. -/
inductive Withheld {Temperature : Type} (tables : Tables) (thermometer : Thermometer Temperature)
    (request : Request Temperature) : Prop
  | tools (given : request.hasTools = true)
  | hot (exceeds : thermometer.exceeds request.temperature = true)
  | revealing (reveals : Private tables request.query.toList)

/-- A request that is withheld is not cacheable. -/
theorem Withheld.not_cacheable {Temperature : Type} {tables : Tables}
    {thermometer : Thermometer Temperature} {request : Request Temperature}
    (withheld : Withheld tables thermometer request) :
    (isCacheable tables thermometer request).cacheable = false := by
  rw [Bool.eq_false_iff]
  intro cacheable
  rcases (isCacheable_iff tables thermometer request).mp cacheable with
    ⟨noTools, cool, timeless, impersonal, noEmail, noPhone⟩
  cases withheld with
  | tools given => exact absurd given (Bool.eq_false_iff.mp noTools)
  | hot exceeds => exact absurd exceeds (Bool.eq_false_iff.mp cool)
  | revealing reveals =>
      cases reveals with
      | timely phrase among stands =>
          exact absurd (found_timely among stands) (Bool.eq_false_iff.mp timeless)
      | personal phrase among stands =>
          exact absurd (found_personal among stands) (Bool.eq_false_iff.mp impersonal)
      | email front address back parts isEmail =>
          exact absurd (found_email parts isEmail) (Bool.eq_false_iff.mp noEmail)
      | phone front number back parts isPhone before after =>
          exact absurd (found_phone parts isPhone before after) (Bool.eq_false_iff.mp noPhone)

end Policy

variable {Vector Score Time Temperature Response Caller : Type} [Seconds Time]
  {config : Config Vector Score Time Temperature}

/-! ## The shadow log -/

namespace SemanticCache

variable {cache : SemanticCache Response Score Time config.index.State} {now : Time}
  {request : Request Temperature}

/-- Only `lookup` itself writes a line of the shadow log. -/
theorem lookupInternal_shadowLog [LT Score] [LE Score] [DecidableLT Score] [DecidableLE Score]
    [One Score] :
    (cache.lookupInternal config now request).2.shadowLog = cache.shadowLog := by
  unfold lookupInternal
  dsimp only
  split
  · rfl
  · split
    · rfl
    · split <;> rfl

/-- What a lookup logs is the request, if it is cacheable. -/
theorem lookup_shadowLog [LT Score] [LE Score] [DecidableLT Score] [DecidableLE Score] [One Score]
    {logged : ShadowLogEntry Response Score Time}
    (among : logged ∈ (cache.lookup config now request).2.shadowLog) :
    logged ∈ cache.shadowLog ∨ (config.isCacheable request).cacheable = true ∧
      logged.query = request.query ∧ logged.ctx = request.ctx := by
  have inside : (cache.lookupInternal config now request).2.shadowLog = cache.shadowLog :=
    lookupInternal_shadowLog
  unfold lookup at among
  dsimp only at among
  split at among
  · exact .inl among
  · next cacheable =>
      rw [Bool.not_eq_true, Bool.not_eq_false'] at cacheable
      split at among
      · exact .inl (inside ▸ among)
      · exact .inl (inside ▸ among)
      all_goals
        rcases List.mem_append.mp (List.mem_of_mem_drop among) with old | new
        · exact .inl (inside ▸ old)
        · rw [List.mem_singleton.mp new]
          exact .inr ⟨cacheable, rfl, rfl⟩

variable {response : Response} {ttl : Ttl Time} {id : String} {good : Bool}

theorem store_shadowLog :
    (cache.store config now request response ttl).2.shadowLog = cache.shadowLog := by
  unfold store
  dsimp only
  split
  · rfl
  · split
    · rfl
    · split <;> rfl

omit [Seconds Time] in
theorem invalidate_shadowLog : (cache.invalidate config id).2.shadowLog = cache.shadowLog := by
  unfold invalidate
  split
  · rfl
  · split <;> rfl

omit [Seconds Time] in
theorem feedback_shadowLog : (cache.feedback config id good).2.shadowLog = cache.shadowLog := by
  unfold feedback
  split
  · rfl
  · split
    · rfl
    · split
      · rfl
      · split <;> rfl

end SemanticCache

/-! ## What a cache remembers -/

section Remembered

variable [LT Score] [LE Score] [DecidableLT Score] [DecidableLE Score] [One Score] {tables : Tables}
  {thermometer : Thermometer Temperature}
  {history : List (Event config Response)} {event : Event config Response}
  {cache next : SemanticCache Response Score Time config.index.State}

/-- A request was looked up that is not withheld. -/
def AskedFor (tables : Tables) (thermometer : Thermometer Temperature)
    (history : List (Event config Response)) (query : String) (ctx : CacheContext) : Prop :=
  ∃ event ∈ history, ∃ request, event.operation = .lookup request ∧ request.query = query ∧
    request.ctx = ctx ∧ ¬ Policy.Withheld tables thermometer request

/-- An event logs what it looked up, if that is cacheable. -/
theorem step_shadowLog (step : (inUse config Response).step cache event next)
    {logged : ShadowLogEntry Response Score Time} (among : logged ∈ next.shadowLog) :
    logged ∈ cache.shadowLog ∨ ∃ request, event.operation = .lookup request ∧
      (config.isCacheable request).cacheable = true ∧ logged.query = request.query ∧
      logged.ctx = request.ctx := by
  rcases event with ⟨now, answers, operation, reply, after⟩
  rcases step with ⟨stepped, rfl⟩
  dsimp only at stepped among
  cases operation with
  | lookup request =>
      rw [SemanticCache.step_lookup, Prod.mk.injEq] at stepped
      rcases stepped with ⟨-, rfl⟩
      rcases SemanticCache.lookup_shadowLog among with old | new
      · exact .inl old
      · exact .inr ⟨request, rfl, new⟩
  | store request response ttl =>
      rw [SemanticCache.step_store, Prod.mk.injEq] at stepped
      rcases stepped with ⟨-, rfl⟩
      rw [SemanticCache.store_shadowLog] at among
      exact .inl among
  | invalidate id =>
      rw [SemanticCache.step_invalidate, Prod.mk.injEq] at stepped
      rcases stepped with ⟨-, rfl⟩
      rw [SemanticCache.invalidate_shadowLog] at among
      exact .inl among
  | feedback id good =>
      rw [SemanticCache.step_feedback, Prod.mk.injEq] at stepped
      rcases stepped with ⟨-, rfl⟩
      rw [SemanticCache.feedback_shadowLog] at among
      exact .inl among

/-- What is in the shadow log was looked up. -/
theorem run_askedFor (run : (inUse config Response).Run history cache)
    (policy : config.isCacheable = Policy.isCacheable tables thermometer)
    {logged : ShadowLogEntry Response Score Time} (among : logged ∈ cache.shadowLog) :
    AskedFor tables thermometer history logged.query logged.ctx := by
  induction run with
  | start begins =>
      cases begins
      cases among
  | concat run step ih =>
      rcases step_shadowLog step among with old | ⟨request, looked, cacheable, query, ctx⟩
      · rcases ih old with ⟨earlier, before, rest⟩
        exact ⟨earlier, List.mem_append_left _ before, rest⟩
      · refine ⟨_, List.mem_append_right _ List.mem_cons_self, request, looked, query.symm,
          ctx.symm, fun withheld => ?_⟩
        rw [policy, withheld.not_cacheable] at cacheable
        cases cacheable

/-- A request the policy rules out is missed when it is looked up, and not stored. -/
theorem step_declined (step : (inUse config Response).step cache event next)
    {request : Request Temperature}
    (cacheable : (config.isCacheable request).cacheable = false) :
    (event.operation = .lookup request → event.after.partitions = cache.partitions ∧
        event.reply = .looked (.miss { reason := (config.isCacheable request).text })) ∧
      ∀ response ttl, event.operation = .store request response ttl →
        event.after.partitions = cache.partitions ∧ event.reply = .stored (.ok none) := by
  rcases event with ⟨now, answers, operation, reply, after⟩
  rcases step with ⟨stepped, -⟩
  dsimp only at stepped
  constructor
  · rintro rfl
    rw [SemanticCache.step_lookup, Prod.mk.injEq] at stepped
    rcases stepped with ⟨rfl, rfl⟩
    unfold SemanticCache.lookup
    dsimp only
    rw [cacheable]
    exact ⟨rfl, rfl⟩
  · rintro response ttl rfl
    rw [SemanticCache.step_store, Prod.mk.injEq] at stepped
    rcases stepped with ⟨rfl, rfl⟩
    unfold SemanticCache.store
    dsimp only
    rw [cacheable]
    exact ⟨rfl, rfl⟩

/-- **Nothing private is remembered.** Whatever is looked up, stored, invalidated and rated: every
entry of the cache was stored for a request of its partition that is not withheld, and every line
of the shadow log was written for one; a request that is withheld is missed and not stored, and
leaves the partitions as they are. -/
theorem nothing_private_remembered (run : (inUse config Response).Run history cache)
    (policy : config.isCacheable = Policy.isCacheable tables thermometer) :
    (∀ key id entry, cache.entryAt? key id = some entry → ∃ event ∈ history, ∃ request ttl,
        event.operation = .store request entry.response ttl ∧ request.query = entry.query ∧
          partitionKeyFor config request.ctx = key ∧
          ¬ Policy.Withheld tables thermometer request) ∧
      (∀ logged ∈ cache.shadowLog, AskedFor tables thermometer history logged.query logged.ctx) ∧
      ∀ earlier event later, history = earlier ++ event :: later → ∃ before,
        (inUse config Response).Run earlier before ∧
        ∀ request, Policy.Withheld tables thermometer request →
          (event.operation = .lookup request → event.after.partitions = before.partitions ∧
            event.reply = .looked (.miss { reason := (config.isCacheable request).text })) ∧
          ∀ response ttl, event.operation = .store request response ttl →
            event.after.partitions = before.partitions ∧ event.reply = .stored (.ok none) := by
  refine ⟨?_, fun logged among => run_askedFor run policy among, ?_⟩
  · intro key id entry found
    rcases (run_sourced run).2 key id entry found with
      ⟨before, event, after, rfl, ⟨request, ttl, operated, replied, query, here, -⟩, -⟩
    have among : event ∈ before ++ event :: after := by simp
    refine ⟨event, among, request, ttl, operated, query, here, fun withheld => ?_⟩
    rcases run.middle with ⟨_, _, -, step⟩
    have declined := (step_declined step (policy ▸ withheld.not_cacheable)).2 _ ttl operated
    rw [declined.2] at replied
    cases replied
  · rintro earlier event later rfl
    rcases run.middle with ⟨before, next, front, step⟩
    exact ⟨before, front, fun request withheld =>
      step_declined step (policy ▸ withheld.not_cacheable)⟩

end Remembered

/-- Nothing is hot. -/
def coolThermometer : Thermometer Unit where
  exceeds _ := false
  text _ := "0.0"

/-- The cache of before, with the policy of the source. -/
def screened : Config Nat Nat WholeSeconds Unit :=
  { lengths with isCacheable := Policy.isCacheable Regex.ascii coolThermometer }

/-- A private query is looked up in a new cache. -/
def wonderedAloud : Event screened Nat :=
  let outcome := SemanticCache.step (screened.answering plainAnswers)
    ({} : SemanticCache Nat Nat WholeSeconds screened.index.State) (.of 0) (.lookup (asking "I am"))
  { now := .of 0, answers := plainAnswers, operation := .lookup (asking "I am"),
    reply := outcome.1, after := outcome.2 }

/-- One that is not is stored. -/
def spokeOpenly : Event screened Nat :=
  let outcome := wonderedAloud.after.step (screened.answering plainAnswers) (.of 1)
    (.store (asking "hi") 7 .useDefault)
  { now := .of 1, answers := plainAnswers, operation := .store (asking "hi") 7 .useDefault,
    reply := outcome.1, after := outcome.2 }

/-- Of a personal question and a greeting only the greeting is remembered. -/
theorem nothing_private_remembered_screened :
    ∃ event ∈ [wonderedAloud, spokeOpenly], ∃ request ttl,
      event.operation = .store request 7 ttl ∧ request.query = "hi" ∧
        ¬ Policy.Withheld Regex.ascii coolThermometer request := by
  have first : (inUse screened Nat).Run [wonderedAloud] wonderedAloud.after :=
    .concat (.start rfl) ⟨rfl, rfl⟩
  have run : (inUse screened Nat).Run [wonderedAloud, spokeOpenly] spokeOpenly.after :=
    first.concat ⟨rfl, rfl⟩
  have found : spokeOpenly.after.entryAt? (partitionKeyFor screened (asking "hi").ctx) "t:1" =
      some { id := "t:1", query := "hi", normalizedHash := "hi", response := 7,
             ctx := (asking "hi").ctx, createdAt := .of 1, expiresAt := some (.of 11) } := rfl
  rcases (nothing_private_remembered run rfl).1 _ _ _ found with
    ⟨event, among, request, ttl, operated, same, -, open_⟩
  exact ⟨event, among, request, ttl, operated, same, open_⟩

/-! ## What callers share -/

section Shared

variable [LT Score] [LE Score] [DecidableLT Score] [DecidableLE Score] [One Score]
  [DecidableEq Caller] {tables : Tables}
  {thermometer : Thermometer Temperature} {requests : Caller → Request Temperature}
  {client next : CachedLLM Response Score Time config.index.State Caller}
  {history : List (Taken config Response Caller)} {caller : Caller}

/-- The turns of a caller. -/
def turnsOf (caller : Caller) (history : List (Taken config Response Caller)) :
    List (Taken config Response Caller) :=
  history.filter fun taken => taken.caller = caller

/-- A turn that is a lookup which is missed. -/
def Taken.Misses (taken : Taken config Response Caller) : Prop :=
  taken.before.stage taken.caller = .entered

/-- A turn that is a call upstream of the caller's own. -/
def Taken.Bypasses (taken : Taken config Response Caller) (miss : Miss Score) : Prop :=
  taken.before.stage taken.caller = .bypassing miss

/-- Where a caller is that goes alone, after these turns. -/
inductive Stage.Alone : List (Taken config Response Caller) → Stage Response Score → Prop
  | entered : Alone [] .entered
  | bypassing {looked : Taken config Response Caller} {miss : Miss Score} (misses : looked.Misses) :
      Alone [looked] (.bypassing miss)
  | returned {looked called : Taken config Response Caller} {miss : Miss Score}
      {response : Response} (misses : looked.Misses) (bypasses : called.Bypasses miss)
      (upstream : called.upstream = .ok response) :
      Alone [looked, called] (.returned (.ofMiss miss (some response)))
  | raised {looked called : Taken config Response Caller} {miss : Miss Score} {failure : Failure}
      (misses : looked.Misses) (bypasses : called.Bypasses miss)
      (upstream : called.upstream = .error failure) : Alone [looked, called] (.raised failure)

omit [Seconds Time] [LT Score] [LE Score] [DecidableLT Score] [DecidableLE Score] [One Score] in
theorem turnsOf_own {taken : Taken config Response Caller} (own : taken.caller = caller) :
    turnsOf caller (history ++ [taken]) = turnsOf caller history ++ [taken] := by
  rw [turnsOf, List.filter_append, List.filter_singleton, own, decide_eq_true rfl]
  rfl

omit [Seconds Time] [LT Score] [LE Score] [DecidableLT Score] [DecidableLE Score] [One Score] in
theorem turnsOf_other {taken : Taken config Response Caller} (other : taken.caller ≠ caller) :
    turnsOf caller (history ++ [taken]) = turnsOf caller history := by
  rw [turnsOf, List.filter_append, List.filter_singleton, decide_eq_false other]
  exact List.append_nil _

/-- A caller whose request the policy rules out goes alone, turn by turn. -/
theorem Stage.Alone.own {taken : Taken config Response Caller}
    (alone : (client.stage taken.caller).Alone (turnsOf taken.caller history))
    (cacheable : (config.isCacheable (requests taken.caller)).cacheable = false)
    (here : taken.before = client)
    (advanced : client.advance config requests taken.toTurn = some next) :
    (next.stage taken.caller).Alone (turnsOf taken.caller history ++ [taken]) := by
  generalize turns : turnsOf taken.caller history = earlier at alone
  cases advance_move advanced with
  | looked at' =>
      rw [at'] at alone
      cases alone
      rw [CachedLLM.goto_stage, cacheable]
      have missed : (client.cache.lookup (config.answering taken.answers) taken.now
          (requests taken.caller)).1 =
          .miss { reason := (config.isCacheable (requests taken.caller)).text } := by
        unfold SemanticCache.lookup
        dsimp only
        rw [cacheable]
        rfl
      rw [missed]
      refine .bypassing ?_
      rw [Taken.Misses, here, at']
  | @bypassed miss at' =>
      rw [at'] at alone
      cases alone with
      | bypassing misses =>
          rw [CachedLLM.goto_stage]
          have bypasses : taken.Bypasses miss := by rw [Taken.Bypasses, here, at']
          cases upstream : taken.upstream with
          | ok response => exact .returned misses bypasses upstream
          | error failure => exact .raised misses bypasses upstream
  | joined at' _ => rw [at'] at alone; cases alone
  | led at' _ => rw [at'] at alone; cases alone
  | answered at' _ => rw [at'] at alone; cases alone
  | unanswered at' _ => rw [at'] at alone; cases alone
  | stored at' _ => rw [at'] at alone; cases alone
  | unstored at' _ => rw [at'] at alone; cases alone
  | left at' => rw [at'] at alone; cases alone
  | signalled at' => rw [at'] at alone; cases alone
  | woken at' _ => rw [at'] at alone; cases alone

/-- The others stay where they are. -/
theorem Move.others {turn : Turn Vector Time Response Caller}
    (move : Move config requests client turn next) (other : caller ≠ turn.caller) :
    next.stage caller = client.stage caller := by
  cases move <;> exact CachedLLM.goto_stage_of_ne _ _ _ other

/-- In every run a caller whose request the policy rules out goes alone. -/
theorem run_alone (run : (flying config requests).Run history client)
    (cacheable : (config.isCacheable (requests caller)).cacheable = false) :
    (client.stage caller).Alone (turnsOf caller history) := by
  induction run with
  | start begins =>
      cases begins
      exact .entered
  | concat run step ih =>
      rename_i history client next taken
      rcases step with ⟨here, advanced⟩
      by_cases own : taken.caller = caller
      · subst own
        rw [turnsOf_own rfl]
        exact ih.own cacheable here advanced
      · rw [turnsOf_other own, (advance_move advanced).others (Ne.symm own)]
        exact ih

/-- **The policy keeps answers apart.** However callers interleave, one whose request is withheld
looks it up in vain, makes one call upstream and comes to what that call came to; and whatever any
other caller is given comes from a call of its own, or from one for a request of its partition that
is not withheld. -/
theorem withheld_alone (run : (flying config requests).Run history client)
    (policy : config.isCacheable = Policy.isCacheable tables thermometer) :
    (∀ caller, Policy.Withheld tables thermometer (requests caller) →
        (client.stage caller).Alone (turnsOf caller history)) ∧
      ∀ caller result, client.stage caller = .returned result → ∃ response,
        result.response = some response ∧
          (PaidAlone history caller response ∨ ∃ taken ∈ history,
            taken.upstream? = some (.ok response) ∧
              ¬ Policy.Withheld tables thermometer (requests taken.caller) ∧
              partitionKeyFor config (requests taken.caller).ctx =
                partitionKeyFor config (requests caller).ctx) := by
  have shared {query : String} {key : PartitionKey} {response : Response}
      (paid : Paid requests history (key, query) response) : ∃ taken ∈ history,
        taken.upstream? = some (.ok response) ∧
          ¬ Policy.Withheld tables thermometer (requests taken.caller) ∧
          partitionKeyFor config (requests taken.caller).ctx = key := by
    rcases paid with ⟨taken, among, ⟨flight, miss, leading⟩, upstream, sameKey, cacheable⟩
    refine ⟨taken, among, ?_, fun withheld => ?_, congrArg Prod.fst sameKey⟩
    · rw [Taken.upstream?, CachedLLM.call?, leading, upstream]
    · rw [policy, withheld.not_cacheable] at cacheable
      cases cacheable
  constructor
  · intro caller withheld
    exact run_alone run (policy ▸ withheld.not_cacheable)
  · intro caller result returned
    have justified := (run_allPaid run).stages caller
    rw [returned] at justified
    cases justified with
    | @alone response _ answer _ paid => exact ⟨response, answer, .inl paid⟩
    | @called response _ answer paid => exact ⟨response, answer, .inr (shared paid)⟩
    | @cached query response expiresAt looked _ answer _ _ bought _ _ _ _ =>
        exact ⟨response, answer, .inr (shared bought.paid)⟩

end Shared

/-- A private query is asked, and one that is not. -/
def askingMixed (caller : Bool) : Request Unit := asking (if caller then "I am" else "hi")

/-- The callers take turns, until both are through. -/
def screenedTurns : List (Turn Nat WholeSeconds Nat Bool) :=
  [turnOf false 7, turnOf false 7, turnOf true 8, turnOf false 7, turnOf false 7, turnOf true 8,
    turnOf false 7, turnOf false 7]

/-- A personal question is answered by a call of its own. -/
theorem withheld_alone_mixed :
    ∃ (history : List (Taken screened Nat Bool)) (stage : Stage Nat Nat),
      stage = .returned (.ofMiss { reason := "personal query" } (some 8)) ∧
        stage.Alone (turnsOf true history) := by
  rcases run_of_legal screened askingMixed
    (show legal screened askingMixed (partitionKeyFor screened (asking "hi").ctx) screenedTurns =
      true from rfl) with ⟨run, -⟩
  have personal : Policy.Withheld Regex.ascii coolThermometer (askingMixed true) :=
    .revealing (.personal "i" (by simp [Policy.personalWords])
      (.intro [] ['I'] [' ', 'a', 'm'] (by decide) (.cons (by decide) .nil) (by decide)
        (by decide)))
  have alone := (withheld_alone run rfl).1 true personal
  exact ⟨_, _, rfl, alone⟩

end Semantic
