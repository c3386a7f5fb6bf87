import Anviq.Lru.Refinement

/-! # What the counters of a cache count

Every entry of a cache was put in under a new key, and has left it evicted, expired or
deleted if it is not there. A ledger kept from outside counts the operations; the counters
of both caches agree with it after every operation.
-/

namespace Lru

variable {Key Value Time : Type}

/-! ## The ledger -/

/-- What is counted of the operations on a cache. -/
structure Ledger where
  gets : Nat := 0
  inserted : Nat := 0
  deleted : Nat := 0
  dropped : Nat := 0

/-- A key, and when its entry expires. -/
abbrev Entry (Key Time : Type) := Key × Option Time

/-- `True` was returned. -/
def Reply.isTrue : Reply Value → Bool
  | .bool answer => answer
  | _ => false

section Ledger

variable [DecidableEq Key] [Seconds Time]

/-- The live entries that were there before, and are gone. -/
def lost (now : Time) (before after : List (Entry Key Time)) : List (Entry Key Time) :=
  before.filter fun entry => entry.1 ∉ after.map Prod.fst ∧ expired now entry.2 = false

/-- An operation is entered: the entries are those before and after it. A `put` looks at the
clock once more after it has set the expiry. -/
def Ledger.enter (ledger : Ledger) (defaultTtl : Option Time)
    (before after : List (Entry Key Time)) (input : Input Key Value Time) (reply : Reply Value) :
    Ledger :=
  match input.1 with
  | .put key _ ttl =>
      { ledger with
        inserted :=
          if key ∉ before.map Prod.fst ∧ key ∈ after.map Prod.fst then ledger.inserted + 1
          else ledger.inserted
        dropped :=
          ledger.dropped +
            (lost (input.2 (expiry input.2 (ttl.effective defaultTtl)).2) before after).length }
  | .get _ _ => { ledger with gets := ledger.gets + 1 }
  | .delete _ =>
      { ledger with deleted := if reply.isTrue then ledger.deleted + 1 else ledger.deleted }
  | _ => ledger

theorem lost_length_perm (now : Time) {before before' after after' : List (Entry Key Time)}
    (start : before.Perm before') (finish : after.Perm after') :
    (lost now before after).length = (lost now before' after').length := by
  have same : lost now before after = lost now before after' := by
    unfold lost
    simp only [(finish.map Prod.fst).mem_iff]
  rw [same]
  exact (start.filter _).length_eq

/-- The order of the entries does not matter to the ledger. -/
theorem Ledger.enter_perm (ledger : Ledger) (defaultTtl : Option Time)
    {before before' after after' : List (Entry Key Time)} (start : before.Perm before')
    (finish : after.Perm after') (input : Input Key Value Time) (reply : Reply Value) :
    ledger.enter defaultTtl before after input reply =
      ledger.enter defaultTtl before' after' input reply := by
  obtain ⟨operation, clock⟩ := input
  cases operation with
  | put key value ttl =>
      simp only [Ledger.enter, (start.map Prod.fst).mem_iff, (finish.map Prod.fst).mem_iff,
        lost_length_perm _ start finish]
  | _ => rfl

end Ledger

/-- The entries in the index. -/
def LRUTTLCache.entries (cache : LRUTTLCache Key Value Time) : List (Entry Key Time) :=
  cache.index.items.map fun item => (item.1, (cache.heap item.2).expiresAt)

/-- The entries in the dictionary. -/
def OrderedDictLRUTTLCache.entries (cache : OrderedDictLRUTTLCache Key Value Time) :
    List (Entry Key Time) :=
  cache.data.items.map fun item => (item.1, item.2.2)

section Counted

variable [DecidableEq Key] [Seconds Time]

/-- An operation on the cache, entered in a ledger. -/
def LRUTTLCache.counted (state : LRUTTLCache Key Value Time × Ledger)
    (input : Input Key Value Time) : Option (Reply Value × LRUTTLCache Key Value Time × Ledger) := do
  let (reply, next) ← state.1.step input
  some (reply, next, state.2.enter state.1.defaultTtl state.1.entries next.entries input reply)

/-- An operation on the cache, entered in a ledger. -/
def OrderedDictLRUTTLCache.counted (state : OrderedDictLRUTTLCache Key Value Time × Ledger)
    (input : Input Key Value Time) :
    Option (Reply Value × OrderedDictLRUTTLCache Key Value Time × Ledger) := do
  let (reply, next) ← state.1.step input
  some (reply, next, state.2.enter state.1.defaultTtl state.1.entries next.entries input reply)

end Counted

/-- The counters account for the entries. -/
structure Accounts (stats : CacheStats) (size capacity : Nat) (ledger : Ledger) : Prop where
  gets : stats.hits + stats.misses = ledger.gets
  entries : size + stats.evictions + stats.expirations + ledger.deleted = ledger.inserted
  bounded : size ≤ capacity
  evictions : stats.evictions = ledger.dropped

/-! ## The dictionary -/

variable [DecidableEq Key] [Seconds Time]

namespace OrderedDictLRUTTLCache

variable {cache next : OrderedDictLRUTTLCache Key Value Time} {key : Key}

/-- How `put` gives a key its item. -/
inductive Placed (cache next : OrderedDictLRUTTLCache Key Value Time) (key : Key)
    (item : Value × Option Time) (now : Time) : Prop
  | updated (held : key ∈ cache.data.keys) (data : next.data = cache.data.push key item)
      (stats : next.stats = cache.stats)
  | added (absent : key ∉ cache.data.keys) (spare : cache.data.size < cache.capacity)
      (items : next.data.items = cache.data.items ++ [(key, item)])
      (stats : next.stats = cache.stats)
  | replaced (absent : key ∉ cache.data.keys) (full : cache.capacity ≤ cache.data.size)
      (victim : Key × Value × Option Time) (rest : List (Key × Value × Option Time))
      (before : cache.data.items = victim :: rest) (items : next.data.items = rest ++ [(key, item)])
      (stats : next.stats =
        if expired now victim.2.2 = true then
          { cache.stats with expirations := cache.stats.expirations + 1 }
        else { cache.stats with evictions := cache.stats.evictions + 1 })

/-- `put` with a valid `ttl`. -/
theorem put_placed (positive : 1 ≤ cache.capacity) (clock : Nat → Time) (key : Key)
    (value : Value) {ttl : Ttl Time} (valid : validTtl (ttl.effective cache.defaultTtl) = true) :
    ∃ next, cache.put clock key value ttl = some (.done, next) ∧ next.capacity = cache.capacity ∧
      next.defaultTtl = cache.defaultTtl ∧
      Placed cache next key (value, (expiry clock (ttl.effective cache.defaultTtl)).1)
        (clock (expiry clock (ttl.effective cache.defaultTtl)).2) := by
  unfold put
  simp only [valid, Bool.not_true, Bool.false_eq_true, ↓reduceIte]
  by_cases held : key ∈ cache.data.keys
  · rw [if_pos held, Dict.moveToEnd_assign]
    exact ⟨_, rfl, rfl, rfl, .updated held rfl rfl⟩
  · rw [if_neg held]
    by_cases full : cache.capacity ≤ cache.data.size
    · rw [if_pos full]
      cases before : cache.data.items with
      | nil =>
          rw [Dict.size, before] at full
          exact absurd (Nat.le_trans positive full) (by simp)
      | cons victim rest =>
          obtain ⟨shorter, popped, items⟩ := Dict.popFirst_of_cons before
          have absent : key ∉ shorter.keys := by
            intro present
            apply held
            rw [Dict.keys, before]
            rw [Dict.keys, items] at present
            exact List.mem_cons_of_mem _ present
          rw [popped]
          refine ⟨_, rfl, rfl, rfl, .replaced held full victim rest before ?_ rfl⟩
          rw [Dict.assign_of_notMem absent, items]
    · rw [if_neg full]
      exact ⟨_, rfl, rfl, rfl,
        .added held (Nat.lt_of_not_le full) (Dict.assign_of_notMem held) rfl⟩

/-- `put` with another `ttl` raises, and changes nothing. -/
theorem put_invalid (clock : Nat → Time) (key : Key) (value : Value) {ttl : Ttl Time}
    (invalid : validTtl (ttl.effective cache.defaultTtl) = false) :
    cache.put clock key value ttl = some (.valueError, cache) := by
  simp [put, invalid]

/-- The size of a cache after `put`. -/
theorem Placed.size {item : Value × Option Time} {now : Time}
    (placed : Placed cache next key item now) :
    next.data.size =
      if key ∈ cache.data.keys ∨ cache.capacity ≤ cache.data.size then cache.data.size
      else cache.data.size + 1 := by
  cases placed with
  | updated held data stats => rw [if_pos (Or.inl held), data, Dict.size_push held]
  | added absent spare items stats =>
      rw [if_neg (by rw [not_or]; exact ⟨absent, Nat.not_le_of_lt spare⟩), Dict.size, items]
      simp [Dict.size]
  | replaced absent full victim rest before items stats =>
      rw [if_pos (Or.inr full), Dict.size, Dict.size, items, before]
      simp

omit [DecidableEq Key] [Seconds Time] in
theorem keys_entries : cache.entries.map Prod.fst = cache.data.keys := by
  rw [entries, List.map_map]
  rfl

/-- Nothing is lost as long as the keys are there. -/
theorem lost_nil {now : Time} (kept : ∀ key ∈ cache.data.keys, key ∈ next.data.keys) :
    lost now cache.entries next.entries = [] := by
  unfold lost
  rw [List.filter_eq_nil_iff, keys_entries]
  intro entry present
  have there : entry.1 ∈ cache.data.keys := by
    rw [← keys_entries]
    exact List.mem_map_of_mem present
  simp [kept _ there]

/-- What is lost when the first item goes. -/
theorem lost_first {now : Time} {item : Value × Option Time} {victim : Key × Value × Option Time}
    {rest : List (Key × Value × Option Time)} (absent : key ∉ cache.data.keys)
    (before : cache.data.items = victim :: rest) (items : next.data.items = rest ++ [(key, item)]) :
    (lost now cache.entries next.entries).length = if expired now victim.2.2 = true then 0 else 1 := by
  have nodup := cache.data.nodup
  rw [before, List.map_cons, List.nodup_cons] at nodup
  have keys : next.data.keys = rest.map Prod.fst ++ [key] := by
    rw [Dict.keys, items, List.map_append]
    rfl
  have gone : victim.1 ∉ next.data.keys := by
    rw [keys, List.mem_append, List.mem_singleton, not_or]
    refine ⟨nodup.1, ?_⟩
    intro same
    apply absent
    rw [Dict.keys, before, ← same]
    exact List.mem_cons_self
  have others : (rest.map fun entry => (entry.1, entry.2.2)).filter (fun entry =>
      entry.1 ∉ next.data.keys ∧ expired now entry.2 = false) = [] := by
    rw [List.filter_eq_nil_iff]
    intro entry present
    obtain ⟨held, among, rfl⟩ := List.mem_map.mp present
    have kept : held.1 ∈ next.data.keys := by
      rw [keys]
      exact List.mem_append_left _ (List.mem_map_of_mem among)
    simp [kept]
  unfold lost
  rw [keys_entries, entries, before, List.map_cons, List.filter_cons, others]
  by_cases late : expired now victim.2.2 = true
  · simp [late]
  · simp [late, gone]

/-- The counters still account for the entries after a `put`. -/
theorem Placed.accounts {ledger : Ledger} {clock : Nat → Time} {value : Value} {ttl : Ttl Time}
    {expiresAt : Option Time} {reply : Reply Value} (sameCapacity : next.capacity = cache.capacity)
    (accounts : Accounts cache.stats cache.data.size cache.capacity ledger)
    (placed : Placed cache next key (value, expiresAt)
      (clock (expiry clock (ttl.effective cache.defaultTtl)).2)) :
    Accounts next.stats next.data.size next.capacity
      (ledger.enter cache.defaultTtl cache.entries next.entries (.put key value ttl, clock)
        reply) := by
  have size := placed.size
  simp only [Ledger.enter, keys_entries]
  cases placed with
  | updated held data stats =>
      have kept : ∀ other ∈ cache.data.keys, other ∈ next.data.keys := by
        intro other present
        rw [data]
        exact Dict.mem_keys_push.mpr (Or.inr present)
      rw [if_pos (Or.inl held)] at size
      rw [lost_nil kept, sameCapacity, stats, size, if_neg (fun new => new.1 held)]
      exact ⟨accounts.gets, accounts.entries, accounts.bounded, accounts.evictions⟩
  | added absent spare items stats =>
      have keys : next.data.keys = cache.data.keys ++ [key] := by
        rw [Dict.keys, items, List.map_append]
        rfl
      have kept : ∀ other ∈ cache.data.keys, other ∈ next.data.keys := by
        intro other present
        rw [keys]
        exact List.mem_append_left _ present
      have new : key ∈ next.data.keys := by
        rw [keys]
        exact List.mem_append_right _ (List.mem_singleton_self key)
      rw [if_neg (by rw [not_or]; exact ⟨absent, Nat.not_le_of_lt spare⟩)] at size
      rw [lost_nil kept, sameCapacity, stats, size, if_pos ⟨absent, new⟩]
      refine ⟨accounts.gets, ?_, spare, accounts.evictions⟩
      have entries := accounts.entries
      dsimp only
      omega
  | replaced absent full victim rest before items stats =>
      have new : key ∈ next.data.keys := by
        rw [Dict.keys, items, List.map_append]
        exact List.mem_append_right _ (List.mem_singleton_self key)
      have entries := accounts.entries
      have evictions := accounts.evictions
      have inserted : key ∉ cache.data.keys ∧ key ∈ next.data.keys := ⟨absent, new⟩
      rw [if_pos (Or.inr full)] at size
      rw [lost_first absent before items, sameCapacity, stats, size, if_pos inserted]
      by_cases late : expired (clock (expiry clock (ttl.effective cache.defaultTtl)).2)
          victim.2.2 = true
      · rw [if_pos late, if_pos late]
        refine ⟨accounts.gets, ?_, accounts.bounded, accounts.evictions⟩
        dsimp only
        omega
      · rw [if_neg late, if_neg late]
        refine ⟨accounts.gets, ?_, accounts.bounded, ?_⟩
        · dsimp only
          omega
        · dsimp only
          omega

/-- The counters still account for the entries after a `get`. -/
theorem get_accounts {ledger : Ledger}
    (accounts : Accounts cache.stats cache.data.size cache.capacity ledger) (clock : Nat → Time)
    (key : Key) (default : Option Value) :
    (cache.get clock key default).2.capacity = cache.capacity ∧
      (cache.get clock key default).2.defaultTtl = cache.defaultTtl ∧
      Accounts (cache.get clock key default).2.stats (cache.get clock key default).2.data.size
        (cache.get clock key default).2.capacity { ledger with gets := ledger.gets + 1 } := by
  have gets := accounts.gets
  have entries := accounts.entries
  have bounded := accounts.bounded
  unfold get
  cases found : cache.data.get? key with
  | none =>
      refine ⟨rfl, rfl, ?_, entries, bounded, accounts.evictions⟩
      dsimp only
      omega
  | some item =>
      have held := Dict.mem_keys.mpr ⟨item, found⟩
      have smaller := Dict.size_erase held
      by_cases late : expired (clock 0) item.2 = true
      · simp only [late, ↓reduceIte]
        refine ⟨trivial, trivial, ?_, ?_, ?_, accounts.evictions⟩
        · dsimp only
          omega
        · dsimp only
          omega
        · omega
      · simp only [late, ↓reduceIte, Dict.moveToEnd, found, Dict.size_push held,
          Bool.false_eq_true]
        refine ⟨trivial, trivial, ?_, entries, bounded, accounts.evictions⟩
        dsimp only
        omega

omit [Seconds Time] in
/-- The counters still account for the entries after a `delete`. -/
theorem delete_accounts {ledger : Ledger}
    (accounts : Accounts cache.stats cache.data.size cache.capacity ledger) (key : Key) :
    Accounts cache.stats (cache.data.erase key).size cache.capacity
      { ledger with
        deleted :=
          if (cache.data.get? key).isSome = true then ledger.deleted + 1 else ledger.deleted } := by
  have entries := accounts.entries
  have bounded := accounts.bounded
  cases found : cache.data.get? key with
  | none =>
      rw [Dict.erase_of_notMem (Dict.get?_eq_none.mp found)]
      exact ⟨accounts.gets, entries, bounded, accounts.evictions⟩
  | some item =>
      have smaller := Dict.size_erase (Dict.mem_keys.mpr ⟨item, found⟩)
      refine ⟨accounts.gets, ?_, ?_, accounts.evictions⟩
      · simp only [Option.isSome_some, ↓reduceIte]
        omega
      · omega

/-- The counters still account for the entries after an operation. -/
theorem accounts_step {ledger : Ledger} (positive : 1 ≤ cache.capacity)
    (accounts : Accounts cache.stats cache.data.size cache.capacity ledger)
    (input : Input Key Value Time) :
    ∃ reply next, cache.step input = some (reply, next) ∧ next.capacity = cache.capacity ∧
      next.defaultTtl = cache.defaultTtl ∧
      Accounts next.stats next.data.size next.capacity
        (ledger.enter cache.defaultTtl cache.entries next.entries input reply) := by
  obtain ⟨operation, clock⟩ := input
  cases operation with
  | put key value ttl =>
      cases valid : validTtl (ttl.effective cache.defaultTtl) with
      | true =>
          obtain ⟨next, stepped, sameCapacity, sameTtl, placed⟩ :=
            put_placed positive clock key value valid
          exact ⟨.done, next, stepped, sameCapacity, sameTtl, placed.accounts sameCapacity accounts⟩
      | false =>
          refine ⟨_, _, put_invalid clock key value valid, rfl, rfl, ?_⟩
          simp only [Ledger.enter, keys_entries, lost_nil (fun _ present => present),
            List.length_nil, Nat.add_zero]
          rw [if_neg (fun new => new.1 new.2)]
          exact accounts
  | get key default => exact ⟨_, _, rfl, get_accounts accounts clock key default⟩
  | delete key => exact ⟨_, _, rfl, rfl, rfl, delete_accounts accounts key⟩
  | contains key => exact ⟨_, _, rfl, rfl, rfl, accounts⟩
  | len => exact ⟨_, _, rfl, rfl, rfl, accounts⟩

end OrderedDictLRUTTLCache

/-! ## Both caches -/

variable {linked : LRUTTLCache Key Value Time} {ordered : OrderedDictLRUTTLCache Key Value Time}

omit [DecidableEq Key] in
/-- The index has the entries of the dictionary. -/
theorem SameItems.entries (same : SameItems linked ordered) :
    linked.entries.Perm ordered.entries := by
  obtain ⟨cells, stores⟩ := same
  have index := stores.represents.index.map
    fun item : Key × Ref => (item.1, (linked.heap item.2).expiresAt)
  have expiries : cells.map (fun cell => (cell.key, (linked.heap cell.ref).expiresAt)) =
      cells.map fun cell => (cell.key, cell.expiresAt) := by
    apply List.map_congr_left
    intro cell present
    rw [(stores.represents.holds cell present).2.2]
  rw [List.map_map] at index
  rw [OrderedDictLRUTTLCache.entries, stores.items, List.map_map]
  exact (index.trans (List.Perm.of_eq expiries)).trans ((List.reverse_perm cells).map _).symm

omit [DecidableEq Key] in
theorem SameItems.size (same : SameItems linked ordered) :
    linked.index.size = ordered.data.size := by
  obtain ⟨cells, stores⟩ := same
  rw [stores.represents.size, Dict.size, stores.items, List.length_map, List.length_reverse]

/-- Both caches have counted what the ledger of each says. -/
structure Counted (capacity : Nat) (defaultTtl : Option Time)
    (linked : LRUTTLCache Key Value Time × Ledger)
    (ordered : OrderedDictLRUTTLCache Key Value Time × Ledger) : Prop where
  same : SameItems linked.1 ordered.1
  ledger : linked.2 = ordered.2
  checked : Checked capacity defaultTtl
  capacity : ordered.1.capacity = capacity
  defaultTtl : ordered.1.defaultTtl = defaultTtl
  accounts : Accounts ordered.1.stats ordered.1.data.size ordered.1.capacity ordered.2

theorem counted_preserves (capacity : Nat) (defaultTtl : Option Time) :
    Play.Preserves (@LRUTTLCache.counted Key Value Time _ _)
      OrderedDictLRUTTLCache.counted (Counted capacity defaultTtl) := by
  intro input linked ordered counted
  obtain ⟨linked, ledger⟩ := linked
  obtain ⟨ordered, ledger'⟩ := ordered
  obtain rfl : ledger = ledger' := counted.ledger
  have positive : 1 ≤ ordered.capacity := counted.capacity.symm ▸ counted.checked.positive
  obtain ⟨reply, next, next', stepped, stepped', same⟩ :=
    linked_simulates input linked ordered counted.same
  obtain ⟨reply', next'', again, sameCapacity, sameTtl, accounts⟩ :=
    OrderedDictLRUTTLCache.accounts_step positive counted.accounts input
  have both := Option.some.inj (stepped'.symm.trans again)
  obtain rfl : reply = reply' := congrArg Prod.fst both
  obtain rfl : next' = next'' := congrArg Prod.snd both
  have defaults : linked.defaultTtl = ordered.defaultTtl := by
    obtain ⟨cells, stores⟩ := counted.same
    exact stores.defaultTtl
  refine ⟨reply, reply,
    (next, ledger.enter linked.defaultTtl linked.entries next.entries input reply),
    (next', ledger.enter ordered.defaultTtl ordered.entries next'.entries input reply), ?_, ?_,
    ⟨same, ?_, counted.checked, sameCapacity.trans counted.capacity,
      sameTtl.trans counted.defaultTtl, accounts⟩⟩
  · rw [LRUTTLCache.counted, stepped]
    rfl
  · rw [OrderedDictLRUTTLCache.counted, stepped']
    rfl
  · dsimp only
    rw [defaults]
    exact ledger.enter_perm _ counted.same.entries same.entries input reply

omit [DecidableEq Key] in
/-- A cache starts with no entries, and nothing counted. -/
theorem new_eq {capacity : Nat} {defaultTtl : Option Time}
    (built : OrderedDictLRUTTLCache.new capacity defaultTtl = some ordered) :
    ordered.capacity = capacity ∧ ordered.defaultTtl = defaultTtl ∧ ordered.data = .empty ∧
      ordered.stats = {} := by
  unfold OrderedDictLRUTTLCache.new at built
  split at built
  · cases built
  · split at built
    · cases built
    · rw [← Option.some.inj built]
      exact ⟨rfl, rfl, rfl, rfl⟩

/-- Neither the counters nor the entries, nor anything else, are changed by a `put` whose `ttl` is
not valid, which raises. -/
def RefusesInvalid {Cache : Type} (step : Cache → Input Key Value Time →
    Option (Reply Value × Cache)) (cache : Cache) (defaultTtl : Option Time) : Prop :=
  ∀ key value ttl clock, validTtl (Ttl.effective defaultTtl ttl) = false →
    step cache (.put key value ttl, clock) = some (.valueError, cache)

/-- **The counters account for every entry.** Whatever the operations and the clock, `hits` and
`misses` count the calls of `get`; the entries are those inserted but for those evicted, expired
and deleted, and no more than the capacity; and `evictions` counts the live entries that were
dropped for room. -/
theorem counters_account {capacity : Nat} {defaultTtl : Option Time}
    {start : LRUTTLCache Key Value Time}
    (built : LRUTTLCache.new capacity defaultTtl = some start)
    (inputs : List (Input Key Value Time)) :
    ∃ start' linked ordered linkedLedger orderedLedger,
      OrderedDictLRUTTLCache.new capacity defaultTtl = some start' ∧
      Play.after LRUTTLCache.counted (start, {}) inputs = some (linked, linkedLedger) ∧
      Play.after OrderedDictLRUTTLCache.counted (start', {}) inputs =
        some (ordered, orderedLedger) ∧
      Accounts linked.stats linked.index.size capacity linkedLedger ∧
      Accounts ordered.stats ordered.data.size capacity orderedLedger ∧
      RefusesInvalid LRUTTLCache.step linked defaultTtl ∧
      RefusesInvalid OrderedDictLRUTTLCache.step ordered defaultTtl := by
  obtain ⟨start', built', -, same, checked⟩ := new_alike built
  obtain ⟨rfl, rfl, empty, fresh⟩ := new_eq built'
  have counted : Counted start'.capacity start'.defaultTtl (start, {}) (start', {}) := by
    refine ⟨same, rfl, checked, rfl, rfl, ?_⟩
    rw [empty, fresh]
    exact ⟨rfl, rfl, Nat.zero_le _, rfl⟩
  obtain ⟨⟨linked, linkedLedger⟩, ⟨ordered, orderedLedger⟩, reached, reached', counted⟩ :=
    Play.after_preserves (counted_preserves _ _) inputs counted
  have accounts := counted.accounts
  rw [counted.capacity] at accounts
  have sizes : linked.index.size = ordered.data.size := counted.same.size
  have sameLedger : linkedLedger = orderedLedger := counted.ledger
  obtain ⟨cells, stores⟩ := counted.same
  have stats : linked.stats = ordered.stats := stores.stats
  refine ⟨start', linked, ordered, linkedLedger, orderedLedger, built', reached, reached', ?_,
    accounts, ?_, ?_⟩
  · rw [stats, sizes, sameLedger]
    exact accounts
  · intro key value ttl clock invalid
    rw [← counted.defaultTtl, ← stores.defaultTtl] at invalid
    simp [LRUTTLCache.step, LRUTTLCache.put, invalid]
  · intro key value ttl clock invalid
    rw [← counted.defaultTtl] at invalid
    exact OrderedDictLRUTTLCache.put_invalid clock key value invalid

/-- Two values in a cache for one, the first still live, and a `ttl` that is not valid. -/
def crowding : List (Input Nat Nat WholeSeconds) :=
  [(.put 0 7 .useDefault, stopped 0), (.put 1 8 (.given none), stopped 1),
    (.put 2 9 (.given (some .infinite)), stopped 2), (.get 0 none, stopped 2),
    (.get 1 none, stopped 2)]

/-- One entry gives way to another, and a `put` that is refused counts nothing. -/
theorem counters_account_crowding :
    ∃ cache ledger, Play.after LRUTTLCache.counted (cache, {}) crowding = some ledger ∧
      Accounts ledger.1.stats ledger.1.index.size 1 ledger.2 ∧ ledger.2.dropped = 1 := by
  obtain ⟨start', linked, ordered, linkedLedger, orderedLedger, -, reached, -, accounts, -⟩ :=
    counters_account (show LRUTTLCache.new 1 (some (.of 3)) = some _ from rfl) crowding
  refine ⟨_, (linked, linkedLedger), reached, accounts, ?_⟩
  rw [← congrArg (fun state => state.2.dropped) (Option.some.inj reached)]
  rfl

end Lru
