import Anviq.Lru.Counters
import Anviq.Lru.WellFormed
import Anviq.Machine.Lock

/-! # The cache behind a lock

`ThreadSafeLRUTTLCache` runs every operation of `LRUTTLCache` under one lock. Here the operations
are taken apart into their reads and writes of the shared object, down to the two that make up
`self.stats.misses += 1`, and other threads move in between. The threads see a cache whose
operations take an instant.
-/

namespace Lru

variable {Key Value Time : Type} [DecidableEq Key] [Seconds Time]

namespace ThreadSafeLRUTTLCache

open Locked (Body)
open Locked.Body (look write)
open LRUTTLCache (head tail)

/-- What is done with the cache under the lock. -/
abbrev Access (Key Value Time Result : Type) := Body (LRUTTLCache Key Value Time) Result

/-! ## Reads and writes -/

section Links

omit [DecidableEq Key] [Seconds Time]

/-- `_unlink`. -/
def unlink (node : Ref) : Access Key Value Time Unit := do
  let prev ← look fun cache => (cache.heap node).prev
  let next ← look fun cache => (cache.heap node).next
  write fun cache => cache.setNext prev (some next)
  write fun cache => cache.setPrev next (some prev)
  write fun cache => cache.setPrev node none
  write fun cache => cache.setNext node none

/-- `_push_front`. -/
def pushFront (node : Ref) : Access Key Value Time Unit := do
  let first ← look fun cache => (cache.heap head).next
  write fun cache => cache.setPrev node (some head)
  write fun cache => cache.setNext node (some first)
  write fun cache => cache.setNext head (some node)
  write fun cache => cache.setPrev first (some node)

/-- `_move_to_front`. -/
def moveToFront (node : Ref) : Access Key Value Time Unit := do
  unlink node
  pushFront node

/-- `self.stats.hits += 1`. -/
def countHit : Access Key Value Time Unit := do
  let hits ← look fun cache => some cache.stats.hits
  write fun cache => { cache with stats := { cache.stats with hits := hits + 1 } }

/-- `self.stats.misses += 1`. -/
def countMiss : Access Key Value Time Unit := do
  let misses ← look fun cache => some cache.stats.misses
  write fun cache => { cache with stats := { cache.stats with misses := misses + 1 } }

/-- `self.stats.evictions += 1`. -/
def countEviction : Access Key Value Time Unit := do
  let evictions ← look fun cache => some cache.stats.evictions
  write fun cache => { cache with stats := { cache.stats with evictions := evictions + 1 } }

/-- `self.stats.expirations += 1`. -/
def countExpiration : Access Key Value Time Unit := do
  let expirations ← look fun cache => some cache.stats.expirations
  write fun cache => { cache with stats := { cache.stats with expirations := expirations + 1 } }

/-- `stats`: a copy, read counter by counter. -/
def stats : Access Key Value Time CacheStats := do
  let hits ← look fun cache => some cache.stats.hits
  let misses ← look fun cache => some cache.stats.misses
  let evictions ← look fun cache => some cache.stats.evictions
  let expirations ← look fun cache => some cache.stats.expirations
  pure { hits, misses, evictions, expirations }

/-- `__len__`. -/
def len : Access Key Value Time (Reply Value) := look fun cache => some (.size cache.index.size)

end Links

section Index

omit [Seconds Time]

/-- `_remove_node`. -/
def removeNode (node : Ref) : Access Key Value Time Unit := do
  let key ← look fun cache => (cache.heap node).key
  let _ ← look fun cache => cache.index.get? key
  write fun cache => { cache with index := cache.index.erase key }
  unlink node

/-- `delete`: what is popped from the index is there. -/
def delete (key : Key) : Access Key Value Time (Reply Value) := do
  let node ← look fun cache => some (cache.index.get? key)
  match node with
  | none => pure (.bool false)
  | some node => do
      write fun cache => { cache with index := cache.index.erase key }
      unlink node
      pure (.bool true)

end Index

/-- `get`. -/
def get (clock : Nat → Time) (key : Key) (default : Option Value) :
    Access Key Value Time (Reply Value) := do
  let node ← look fun cache => some (cache.index.get? key)
  match node with
  | none => do
      countMiss
      pure (.value default)
  | some node => do
      let expiresAt ← look fun cache => some (cache.heap node).expiresAt
      if expired (clock 0) expiresAt then do
        removeNode node
        countMiss
        countExpiration
        pure (.value default)
      else do
        moveToFront node
        countHit
        look fun cache => some (.value (cache.heap node).value)

/-- `_evict_one`. -/
def evictOne (now : Time) : Access Key Value Time Unit := do
  let victim ← look fun cache => (cache.heap tail).prev
  if victim = head then Body.fail
  else do
    let expiresAt ← look fun cache => some (cache.heap victim).expiresAt
    removeNode victim
    if expired now expiresAt then countExpiration else countEviction

/-- The end of `put`: a new node under a new key. -/
def insert (key : Key) (value : Value) (expiresAt : Option Time) :
    Access Key Value Time (Reply Value) := do
  let node ← look fun cache => some cache.allocated
  write fun cache =>
    { cache with
      heap := Function.update cache.heap node { key := some key, value := some value, expiresAt }
      allocated := node + 1 }
  write fun cache => { cache with index := cache.index.assign key node }
  pushFront node
  pure .done

/-- `put`. -/
def put (clock : Nat → Time) (key : Key) (value : Value) (ttl : Ttl Time) :
    Access Key Value Time (Reply Value) := do
  let defaultTtl ← look fun cache => some cache.defaultTtl
  let effective := ttl.effective defaultTtl
  if !validTtl effective then pure .valueError
  else do
    let (expiresAt, reads) := expiry clock effective
    let node ← look fun cache => some (cache.index.get? key)
    match node with
    | some node => do
        write fun cache =>
          { cache with
            heap := Function.update cache.heap node { cache.heap node with value := some value } }
        write fun cache =>
          { cache with heap := Function.update cache.heap node { cache.heap node with expiresAt } }
        moveToFront node
        pure .done
    | none => do
        let size ← look fun cache => some cache.index.size
        let capacity ← look fun cache => some cache.capacity
        if capacity ≤ size then do
          evictOne (clock reads)
          insert key value expiresAt
        else insert key value expiresAt

/-- `__contains__`. -/
def contains (clock : Nat → Time) (key : Key) : Access Key Value Time (Reply Value) := do
  let node ← look fun cache => some (cache.index.get? key)
  match node with
  | none => pure (.bool false)
  | some node => do
      let expiresAt ← look fun cache => some (cache.heap node).expiresAt
      pure (.bool !expired (clock 0) expiresAt)

/-- A call of a public method, and what the clock shows in the course of it. -/
inductive Call (Key Value Time : Type) where
  | operation (input : Input Key Value Time)
  | stats

deriving instance DecidableEq for CacheStats

/-- What a call returns. -/
inductive Answer (Value : Type) where
  | reply (reply : Reply Value)
  | stats (snapshot : CacheStats)
deriving DecidableEq

/-- What a call does under the lock. -/
def body : Call Key Value Time → Access Key Value Time (Answer Value)
  | .operation (.put key value ttl, clock) => Answer.reply <$> put clock key value ttl
  | .operation (.get key default, clock) => Answer.reply <$> get clock key default
  | .operation (.delete key, _) => Answer.reply <$> delete key
  | .operation (.contains key, clock) => Answer.reply <$> contains clock key
  | .operation (.len, _) => Answer.reply <$> len
  | .stats => Answer.stats <$> stats

/-- The call on a cache nobody else uses. -/
def answer (cache : LRUTTLCache Key Value Time) :
    Call Key Value Time → Option (Answer Value × LRUTTLCache Key Value Time)
  | .operation input => (cache.step input).map fun stepped => (.reply stepped.1, stepped.2)
  | .stats => some (.stats cache.stats, cache)

/-! ## Undisturbed -/

variable (cache : LRUTTLCache Key Value Time)

section Links

omit [DecidableEq Key] [Seconds Time]

/-- Unlinking in steps is unlinking. -/
@[simp] theorem run_unlink (node : Ref) :
    (unlink node).run cache = (cache.unlink node).map ((), ·) := by
  rw [unlink, LRUTTLCache.unlink, Body.run_look_bind]
  cases (cache.heap node).prev with
  | none => rfl
  | some prev =>
      rw [Option.bind_some, Body.run_look_bind]
      cases (cache.heap node).next <;> rfl

/-- So it is with the other operations on the list, -/
@[simp] theorem run_pushFront (node : Ref) :
    (pushFront node).run cache = (cache.pushFront node).map ((), ·) := by
  rw [pushFront, LRUTTLCache.pushFront, Body.run_look_bind]
  cases (cache.heap head).next <;> rfl

@[simp] theorem run_moveToFront (node : Ref) :
    (moveToFront node).run cache = (cache.moveToFront node).map ((), ·) := by
  rw [moveToFront, LRUTTLCache.moveToFront, Body.run_bind, run_unlink]
  cases cache.unlink node with
  | none => rfl
  | some next => exact run_pushFront next node

@[simp] theorem run_countHit :
    (countHit : Access Key Value Time Unit).run cache =
      some ((), { cache with stats := { cache.stats with hits := cache.stats.hits + 1 } }) := rfl

@[simp] theorem run_countMiss :
    (countMiss : Access Key Value Time Unit).run cache =
      some ((), { cache with stats := { cache.stats with misses := cache.stats.misses + 1 } }) :=
  rfl

@[simp] theorem run_countEviction :
    (countEviction : Access Key Value Time Unit).run cache = some ((),
      { cache with stats := { cache.stats with evictions := cache.stats.evictions + 1 } }) := rfl

@[simp] theorem run_countExpiration :
    (countExpiration : Access Key Value Time Unit).run cache = some ((),
      { cache with stats := { cache.stats with expirations := cache.stats.expirations + 1 } }) :=
  rfl

end Links

section Index

omit [Seconds Time]

@[simp] theorem run_removeNode (node : Ref) :
    (removeNode node).run cache = (cache.removeNode node).map ((), ·) := by
  rw [removeNode, LRUTTLCache.removeNode, Body.run_look_bind]
  cases (cache.heap node).key with
  | none => rfl
  | some key =>
      rw [Option.bind_some, Body.run_look_bind, Option.bind_eq_bind, Option.bind_some]
      cases cache.index.get? key with
      | none => rfl
      | some _ => exact run_unlink _ node

/-- with `delete`, -/
theorem run_delete (key : Key) :
    (delete key : Access Key Value Time _).run cache = cache.delete key := by
  rw [delete, LRUTTLCache.delete, Body.run_look_bind, Option.bind_some]
  cases cache.index.get? key with
  | none => rfl
  | some node =>
      dsimp only
      rw [Body.run_write_bind, Body.run_bind, run_unlink]
      cases LRUTTLCache.unlink _ node <;> rfl

end Index

/-- with `get`, -/
theorem run_get (clock : Nat → Time) (key : Key) (default : Option Value) :
    (get clock key default).run cache = cache.get clock key default := by
  rw [get, LRUTTLCache.get, Body.run_look_bind, Option.bind_some]
  cases cache.index.get? key with
  | none => rfl
  | some node =>
      dsimp only
      rw [Body.run_look_bind, Option.bind_some, Body.run_ite]
      split
      · rw [Body.run_bind, run_removeNode]
        cases cache.removeNode node <;> rfl
      · rw [Body.run_bind, run_moveToFront]
        cases cache.moveToFront node <;> rfl

/-- with the eviction of a node, -/
@[simp] theorem run_evictOne (now : Time) :
    (evictOne now).run cache = (cache.evictOne now).map ((), ·) := by
  rw [evictOne, LRUTTLCache.evictOne, Body.run_look_bind]
  cases (cache.heap tail).prev with
  | none => rfl
  | some victim =>
      rw [Option.bind_some, Body.run_ite, Option.bind_eq_bind, Option.bind_some]
      split
      · rfl
      · rw [Body.run_look_bind, Option.bind_some, Body.run_bind, run_removeNode]
        cases cache.removeNode victim with
        | none => rfl
        | some next =>
            dsimp only [Option.map_some, Option.bind_some, Option.bind_eq_bind]
            rw [Body.run_ite]
            split <;> rfl

omit [Seconds Time] in
/-- with the insertion of one, -/
theorem run_insert (key : Key) (value : Value) (expiresAt : Option Time) :
    (insert key value expiresAt).run cache = ({ cache with
      heap := Function.update cache.heap cache.allocated
        { key := some key, value := some value, expiresAt }
      allocated := cache.allocated + 1
      index := cache.index.assign key cache.allocated }.pushFront cache.allocated).bind
        fun next => some (Reply.done, next) := by
  rw [insert, Body.run_look_bind, Option.bind_some, Body.run_write_bind, Body.run_write_bind,
    Body.run_bind, run_pushFront]
  cases LRUTTLCache.pushFront _ cache.allocated <;> rfl

/-- with `put`, -/
theorem run_put (clock : Nat → Time) (key : Key) (value : Value) (ttl : Ttl Time) :
    (put clock key value ttl).run cache = cache.put clock key value ttl := by
  rw [put, LRUTTLCache.put, Body.run_look_bind, Option.bind_some]
  dsimp only
  rw [Body.run_ite]
  split
  · rfl
  · generalize expiry clock (ttl.effective cache.defaultTtl) = expiry
    rcases expiry with ⟨expiresAt, reads⟩
    dsimp only
    rw [Body.run_look_bind, Option.bind_some]
    cases cache.index.get? key with
    | some node =>
        dsimp only
        rw [Body.run_write_bind, Body.run_write_bind, Body.run_bind, run_moveToFront]
        simp only [Function.update_self, Function.update_idem]
        cases LRUTTLCache.moveToFront _ node <;> rfl
    | none =>
        dsimp only
        rw [Body.run_look_bind, Option.bind_some, Body.run_look_bind, Option.bind_some,
          Body.run_ite]
        split
        · rw [Body.run_bind, run_evictOne]
          cases cache.evictOne (clock reads) with
          | none => rfl
          | some next => exact run_insert next key value expiresAt
        · exact run_insert cache key value expiresAt

/-- and with `in`. -/
theorem run_contains (clock : Nat → Time) (key : Key) :
    (contains clock key : Access Key Value Time _).run cache =
      some (.bool (cache.contains clock key), cache) := by
  rw [contains, LRUTTLCache.contains, Body.run_look_bind, Option.bind_some]
  cases cache.index.get? key <;> rfl

/-- Undisturbed, a call is the operation. -/
theorem run_body (call : Call Key Value Time) : (body call).run cache = answer cache call := by
  cases call with
  | stats => rfl
  | operation input =>
      rcases input with ⟨operation, clock⟩
      cases operation with
      | put key value ttl => rw [body, Body.run_map, run_put]; rfl
      | get key default => rw [body, Body.run_map, run_get]; rfl
      | delete key => rw [body, Body.run_map, run_delete]; rfl
      | contains key => rw [body, Body.run_map, run_contains]; rfl
      | len => rfl

/-! ## From many threads -/

/-- The call is a `get`. -/
def Call.isGet : Call Key Value Time → Bool
  | .operation (.get _ _, _) => true
  | _ => false

/-- What the answers to calls carried out in this order say of the order: a snapshot of the counters
counts the calls of `get` before it, and no length exceeds the capacity. -/
structure Consistent (capacity : Nat) (taken : List (Call Key Value Time × Answer Value)) :
    Prop where
  gets : ∀ earlier later snapshot, taken = earlier ++ (.stats, .stats snapshot) :: later →
    snapshot.hits + snapshot.misses = (earlier.filter (·.1.isGet)).length
  bounded : ∀ clock size, (.operation (.len, clock), .reply (.size size)) ∈ taken →
    size ≤ capacity

/-- A call of `get` counts. -/
def Call.count (call : Call Key Value Time) (gets : Nat) : Nat :=
  if call.isGet then gets + 1 else gets

/-- A cache that has counted these calls of `get`. -/
structure Kept (capacity : Nat) (defaultTtl : Option Time) (gets : Nat)
    (cache : LRUTTLCache Key Value Time) : Prop where
  wellFormed : cache.WellFormed
  counted : ∃ ordered ledger, Counted capacity defaultTtl (cache, ledger) (ordered, ledger) ∧
    ledger.gets = gets

variable {cache} {capacity : Nat} {defaultTtl : Option Time} {gets : Nat}

omit [DecidableEq Key] in
/-- A new cache has counted nothing. -/
theorem Kept.new (built : LRUTTLCache.new capacity defaultTtl = some cache) :
    Kept capacity defaultTtl 0 cache := by
  rcases new_alike built with ⟨ordered, built', -, same, checked⟩
  rcases new_eq built' with ⟨rfl, rfl, empty, fresh⟩
  refine ⟨.new built, ordered, {}, ⟨same, rfl, checked, rfl, rfl, ?_⟩, rfl⟩
  rw [empty, fresh]
  exact ⟨rfl, rfl, Nat.zero_le _, rfl⟩

/-- Only a `get` is counted as one. -/
theorem enter_gets (ledger : Ledger) (default : Option Time) (before after : List (Entry Key Time))
    (input : Input Key Value Time) (reply : Reply Value) :
    (ledger.enter default before after input reply).gets =
      (Call.operation input).count ledger.gets := by
  rcases input with ⟨operation, clock⟩
  cases operation <;> rfl

/-- A call is answered, and counted. -/
theorem Kept.answer (kept : Kept capacity defaultTtl gets cache) (call : Call Key Value Time) :
    ∃ reply next, answer cache call = some (reply, next) ∧
      Kept capacity defaultTtl (call.count gets) next := by
  rcases kept with ⟨wellFormed, ordered, ledger, counted, rfl⟩
  cases call with
  | stats => exact ⟨_, _, rfl, wellFormed, ordered, ledger, counted, rfl⟩
  | operation input =>
      rcases counted_preserves capacity defaultTtl input _ _ counted with
        ⟨reply, reply', ⟨next, ledger'⟩, ⟨ordered', ledger''⟩, entered, -, counted'⟩
      rcases wellFormed.step input with ⟨_, _, stepped, wellFormed'⟩
      rw [LRUTTLCache.counted, stepped] at entered
      cases entered
      obtain rfl : _ = ledger'' := counted'.ledger
      refine ⟨.reply reply, next, ?_, wellFormed', ordered', _, counted', enter_gets ..⟩
      rw [ThreadSafeLRUTTLCache.answer, stepped]
      rfl

omit [DecidableEq Key] in
/-- What is counted adds up, and the cache is within its capacity. -/
theorem Kept.snapshot (kept : Kept capacity defaultTtl gets cache) :
    cache.stats.hits + cache.stats.misses = gets ∧ cache.index.size ≤ capacity := by
  rcases kept with ⟨_, ordered, ledger, counted, rfl⟩
  have size := counted.same.size
  rcases counted.same with ⟨cells, stores⟩
  rw [show cache.stats = ordered.stats from stores.stats, size]
  refine ⟨counted.accounts.gets, ?_⟩
  have bounded := counted.accounts.bounded
  rw [counted.capacity] at bounded
  exact bounded

omit [DecidableEq Key] in
/-- The default is the one the cache was made with. -/
theorem Kept.sameTtl (kept : Kept capacity defaultTtl gets cache) :
    cache.defaultTtl = defaultTtl := by
  rcases kept with ⟨_, ordered, ledger, counted, -⟩
  rcases counted.same with ⟨cells, stores⟩
  exact stores.defaultTtl.trans counted.defaultTtl

variable {taken : List (Call Key Value Time × Answer Value)}

omit [DecidableEq Key] [Seconds Time] in
/-- One more call keeps the snapshots consistent. -/
theorem Consistent.concat (consistent : Consistent capacity taken) {call : Call Key Value Time}
    {reply : Answer Value}
    (gets : ∀ snapshot, call = .stats → reply = .stats snapshot →
      snapshot.hits + snapshot.misses = (taken.filter (·.1.isGet)).length)
    (bounded : ∀ clock size, call = .operation (.len, clock) → reply = .reply (.size size) →
      size ≤ capacity) : Consistent capacity (taken ++ [(call, reply)]) where
  gets := by
    intro earlier later snapshot whole
    rcases concat_eq_append_cons.mp whole with ⟨rfl, rfl, last⟩ | ⟨between, rfl, rfl⟩
    · cases last
      exact gets snapshot rfl rfl
    · exact consistent.gets earlier between snapshot rfl
  bounded := by
    intro clock size present
    rcases List.mem_append.mp present with earlier | last
    · exact consistent.bounded clock size earlier
    · cases List.mem_singleton.mp last
      exact bounded clock size rfl rfl

/-! ## The machine of the threads -/

variable {Thread : Type} [DecidableEq Thread]

/-- Threads that call the methods of one cache. -/
def machine (start : LRUTTLCache Key Value Time) :
    Machine
      (Locked.Guarded Thread (Call Key Value Time) (LRUTTLCache Key Value Time) (Answer Value))
      (Locked.Move Thread (Call Key Value Time) (Answer Value)) :=
  Locked.lockedMachine body start

omit [DecidableEq Key] [Seconds Time] in
theorem filter_concat_length (taken : List (Call Key Value Time × Answer Value))
    (call : Call Key Value Time) (reply : Answer Value) :
    ((taken ++ [(call, reply)]).filter (·.1.isGet)).length =
      call.count (taken.filter (·.1.isGet)).length := by
  rw [List.filter_append, List.length_append, Call.count]
  cases counts : call.isGet <;> simp [counts]

/-- The calls of the atomic machine are counted, and their answers say so. -/
theorem consistent_of_run {start : LRUTTLCache Key Value Time}
    (built : LRUTTLCache.new capacity defaultTtl = some start)
    {instants : List (Locked.Instant Thread (Call Key Value Time) (Answer Value))}
    {object : Locked.Atomic Thread (Call Key Value Time) (LRUTTLCache Key Value Time)
      (Answer Value)}
    (run : (Locked.atomicMachine answer start).Run instants object) :
    Consistent capacity (instants.filterMap Locked.Instant.taken?) ∧
      Kept capacity defaultTtl
        ((instants.filterMap Locked.Instant.taken?).filter (·.1.isGet)).length object.shared := by
  induction run with
  | start begins =>
      cases begins
      refine ⟨⟨?_, ?_⟩, .new built⟩
      · exact fun earlier later snapshot whole => by simp at whole
      · exact fun clock size present => by simp at present
  | concat _ step ih =>
      rw [Locked.filterMap_concat]
      cases step with
      | call asked idle =>
          rw [Locked.Instant.taken?, Option.toList_none, List.append_nil]
          exact ih
      | leave leaves =>
          rw [Locked.Instant.taken?, Option.toList_none, List.append_nil]
          exact ih
      | @take thread asked reply next waits answers =>
          rcases ih with ⟨consistent, kept⟩
          rcases kept.answer asked with ⟨reply', next', answers', kept'⟩
          rw [answers] at answers'
          cases answers'
          refine ⟨consistent.concat ?_ ?_, ?_⟩
          · rintro snapshot rfl rfl
            cases answers
            exact kept.snapshot.1
          · rintro clock size rfl rfl
            cases answers
            exact kept.snapshot.2
          · rw [Locked.Instant.taken?, Option.toList_some, filter_concat_length]
            exact kept'

/-- The steps of a body come to what the operation of the cache does. -/
theorem implements : Locked.Implements body answer
    (LRUTTLCache.WellFormed : LRUTTLCache Key Value Time → Prop) where
  run cache call _ := run_body cache call
  answers := by
    intro cache call wellFormed
    cases call with
    | stats => exact ⟨_, _, rfl, wellFormed⟩
    | operation input =>
        rcases wellFormed.step input with ⟨reply, next, stepped, wellFormed'⟩
        exact ⟨.reply reply, next, by rw [answer, stepped]; rfl, wellFormed'⟩

/-- The call is a `put` whose `ttl` is not valid. -/
def Call.Refused (defaultTtl : Option Time) (call : Call Key Value Time) : Prop :=
  ∃ key value ttl clock, call = .operation (.put key value ttl, clock) ∧
    validTtl (Ttl.effective defaultTtl ttl) = false

/-- A `put` whose `ttl` is valid raises nothing. -/
theorem put_done {cache next : LRUTTLCache Key Value Time} {clock : Nat → Time} {key : Key}
    {value : Value} {ttl : Ttl Time} {reply : Reply Value}
    (valid : validTtl (ttl.effective cache.defaultTtl) = true)
    (stepped : cache.put clock key value ttl = some (reply, next)) : reply = .done := by
  unfold LRUTTLCache.put at stepped
  dsimp only at stepped
  rw [if_neg (by rw [valid]; decide)] at stepped
  split at stepped
  · rcases Option.bind_eq_some_iff.mp stepped with ⟨moved, -, ended⟩
    cases ended
    rfl
  · have pushes (roomy : LRUTTLCache Key Value Time) {cell : Ref}
        (pushed : (roomy.pushFront cell).bind (fun pushed => some (Reply.done, pushed)) =
          some (reply, next)) : reply = .done := by
      rcases Option.bind_eq_some_iff.mp pushed with ⟨pushed, -, ended⟩
      cases ended
      rfl
    split at stepped
    · rcases Option.bind_eq_some_iff.mp stepped with ⟨roomy, -, rest⟩
      exact pushes _ rest
    · exact pushes _ stepped

omit [Seconds Time] in
/-- `delete` answers whether the key was there. -/
theorem delete_bool {cache next : LRUTTLCache Key Value Time} {key : Key} {reply : Reply Value}
    (stepped : cache.delete key = some (reply, next)) : ∃ found, reply = .bool found := by
  unfold LRUTTLCache.delete at stepped
  split at stepped
  · cases stepped
    exact ⟨_, rfl⟩
  · rcases Option.bind_eq_some_iff.mp stepped with ⟨unlinked, -, ended⟩
    cases ended
    exact ⟨_, rfl⟩

/-- `get` answers a value, or nothing. -/
theorem get_value {cache next : LRUTTLCache Key Value Time} {clock : Nat → Time} {key : Key}
    {default : Option Value} {reply : Reply Value}
    (stepped : cache.get clock key default = some (reply, next)) :
    ∃ found, reply = .value found := by
  unfold LRUTTLCache.get at stepped
  split at stepped
  · cases stepped
    exact ⟨_, rfl⟩
  · split at stepped
    · rcases Option.bind_eq_some_iff.mp stepped with ⟨removed, -, ended⟩
      cases ended
      exact ⟨_, rfl⟩
    · rcases Option.bind_eq_some_iff.mp stepped with ⟨moved, -, ended⟩
      cases ended
      exact ⟨_, rfl⟩

/-- A `ValueError` is raised by a `put` whose `ttl` is not valid, which leaves the cache as it is,
and by no other call. -/
theorem answer_valueError {cache next : LRUTTLCache Key Value Time} {call : Call Key Value Time}
    {reply : Answer Value} (answers : answer cache call = some (reply, next)) :
    (reply = .reply .valueError ↔ call.Refused cache.defaultTtl) ∧
      (reply = .reply .valueError → next = cache) := by
  have others {other : Answer Value} (apart : other ≠ .reply .valueError)
      (unrefused : ¬ call.Refused cache.defaultTtl) (same : reply = other) :
      (reply = .reply .valueError ↔ call.Refused cache.defaultTtl) ∧
        (reply = .reply .valueError → next = cache) := by
    subst same
    exact ⟨iff_of_false apart unrefused, fun absurdity => absurd absurdity apart⟩
  cases call with
  | stats =>
      cases answers
      exact others (by simp) (by rintro ⟨_, _, _, _, absurdity, -⟩; cases absurdity) rfl
  | operation input =>
      rcases Option.map_eq_some_iff.mp answers with ⟨⟨result, last⟩, stepped, same⟩
      cases same
      rcases input with ⟨operation, clock⟩
      cases operation with
      | put key value ttl =>
          cases valid : validTtl (ttl.effective cache.defaultTtl) with
          | false =>
              have refused : cache.put clock key value ttl = some (.valueError, cache) := by
                simp [LRUTTLCache.put, valid]
              cases refused.symm.trans stepped
              exact ⟨iff_of_true rfl ⟨key, value, ttl, clock, rfl, valid⟩, fun _ => rfl⟩
          | true =>
              have done := put_done valid stepped
              refine others (by rw [done]; simp) ?_ rfl
              rintro ⟨_, _, _, _, same, invalid⟩
              cases same
              rw [valid] at invalid
              cases invalid
      | get key default =>
          rcases get_value stepped with ⟨found, rfl⟩
          exact others (by simp) (by rintro ⟨_, _, _, _, absurdity, -⟩; cases absurdity) rfl
      | delete key =>
          rcases delete_bool stepped with ⟨found, rfl⟩
          exact others (by simp) (by rintro ⟨_, _, _, _, absurdity, -⟩; cases absurdity) rfl
      | contains key =>
          cases stepped
          exact others (by simp) (by rintro ⟨_, _, _, _, absurdity, -⟩; cases absurdity) rfl
      | len =>
          cases stepped
          exact others (by simp) (by rintro ⟨_, _, _, _, absurdity, -⟩; cases absurdity) rfl

/-- A thread that is done under the lock raises a `ValueError` exactly if it was refused, and then
the cache is the one it found when it took the lock. -/
theorem raised_iff {start : LRUTTLCache Key Value Time}
    (built : LRUTTLCache.new capacity defaultTtl = some start)
    {moves : List (Locked.Move Thread (Call Key Value Time) (Answer Value))}
    {object : Locked.Guarded Thread (Call Key Value Time) (LRUTTLCache Key Value Time)
      (Answer Value)} (run : (machine start).Run moves object) {thread : Thread}
    {call : Call Key Value Time} {reply : Answer Value}
    (done : object.stage thread = .inside call (.done reply)) :
    (reply = .reply .valueError ↔ call.Refused defaultTtl) ∧
      (reply = .reply .valueError → ∃ earlier between held,
        moves = earlier ++ .acquire thread :: between ∧ (∀ other, .acquire other ∉ between) ∧
          (machine start).Run earlier held ∧ held.shared = object.shared) := by
  rcases Locked.entered implements (.new built) run done with
    ⟨earlier, between, held, whole, alone, before, free, runs⟩
  rcases Locked.linearised implements (.new built) before with
    ⟨instants, atomic, atomicRun, -, ahead⟩
  have kept := (consistent_of_run built atomicRun).2
  rw [← ahead.free free] at kept
  rw [run_body] at runs
  have raised := answer_valueError runs.symm
  rw [kept.sameTtl] at raised
  exact ⟨raised.1,
    fun error => ⟨earlier, between, held, whole, alone, before, (raised.2 error).symm⟩⟩

end ThreadSafeLRUTTLCache

/-- A `get` that misses is inside while another thread waits to read the counters. -/
def contention : List (Locked.Move Nat (ThreadSafeLRUTTLCache.Call Nat Nat WholeSeconds)
    (ThreadSafeLRUTTLCache.Answer Nat)) :=
  [.call 0 (.operation (.get 5 none, stopped 0)), .call 1 .stats, .acquire 0, .act 0, .act 0,
    .act 0, .release 0, .acquire 1, .act 1, .act 1, .act 1, .act 1, .release 1,
    .leave 1 (.stats { misses := 1 }), .leave 0 (.reply (.value none))]

/-- Two threads that contend for the lock have a run. -/
theorem contention_run {start : LRUTTLCache Nat Nat WholeSeconds}
    (built : LRUTTLCache.new 2 none = some start) :
    ∃ object, (ThreadSafeLRUTTLCache.machine start).Run contention object := by
  cases built
  exact ⟨_, (Machine.Run.start rfl).follow (Locked.step_of_move _)
    (show Machine.follow (Locked.move ThreadSafeLRUTTLCache.body) contention _ = some _ from rfl)⟩

open ThreadSafeLRUTTLCache in
/-- **One lock is enough.** However the reads and writes of the threads interleave, the threads see
a cache whose calls take an instant between call and return. The replies are those of a play of
`LRUTTLCache`, and a snapshot of the counters is that of its place in the play. While the lock is
free the links are well formed. -/
theorem threadSafe_linearizable {capacity : Nat} {defaultTtl : Option Time}
    {start : LRUTTLCache Key Value Time}
    (built : LRUTTLCache.new capacity defaultTtl = some start) {Thread : Type} [DecidableEq Thread]
    {moves : List (Locked.Move Thread (Call Key Value Time) (Answer Value))}
    {object : Locked.Guarded Thread (Call Key Value Time) (LRUTTLCache Key Value Time)
      (Answer Value)} (run : (machine start).Run moves object) :
    ∃ instants atomic, (Locked.atomicMachine answer start).Run instants atomic ∧
      instants.filterMap Locked.Instant.seen? = moves.filterMap Locked.Move.seen? ∧
      (∃ answers,
        Play.play answer start ((instants.filterMap Locked.Instant.taken?).map Prod.fst) =
          some answers ∧
        answers.map Prod.fst = (instants.filterMap Locked.Instant.taken?).map Prod.snd) ∧
      Consistent capacity (instants.filterMap Locked.Instant.taken?) ∧
      (object.holder = none → object.shared = atomic.shared ∧ object.shared.WellFormed) := by
  rcases Locked.linearised implements (.new built) run with
    ⟨instants, atomic, atomicRun, seen, ahead⟩
  refine ⟨instants, atomic, atomicRun, seen, Locked.sequential atomicRun,
    (consistent_of_run built atomicRun).1, fun free => ?_⟩
  rw [ahead.free free]
  exact ⟨rfl, ahead.sound⟩

/-- Their calls are linearised. -/
theorem threadSafe_linearizable_contention :
    ∃ instants : List (Locked.Instant Nat (ThreadSafeLRUTTLCache.Call Nat Nat WholeSeconds)
        (ThreadSafeLRUTTLCache.Answer Nat)),
      instants.filterMap Locked.Instant.seen? = contention.filterMap Locked.Move.seen? ∧
        ThreadSafeLRUTTLCache.Consistent 2 (instants.filterMap Locked.Instant.taken?) := by
  rcases contention_run (show LRUTTLCache.new 2 none = some _ from rfl) with ⟨object, run⟩
  rcases threadSafe_linearizable (show LRUTTLCache.new 2 none = some _ from rfl) run with
    ⟨instants, atomic, -, seen, -, consistent, -⟩
  exact ⟨instants, seen, consistent⟩

open ThreadSafeLRUTTLCache in
/-- **The lock does no harm.** No assertion fails and no key is missing under the lock. A thread
that is done there raises a `ValueError` exactly if it is in a `put` whose `ttl` is not valid, and
then the cache is the one it found when it took the lock. Two threads are never inside together, and
as long as a call is not over some thread can move on. -/
theorem threadSafe_progress {capacity : Nat} {defaultTtl : Option Time}
    {start : LRUTTLCache Key Value Time}
    (built : LRUTTLCache.new capacity defaultTtl = some start) {Thread : Type} [DecidableEq Thread]
    {moves : List (Locked.Move Thread (Call Key Value Time) (Answer Value))}
    {object : Locked.Guarded Thread (Call Key Value Time) (LRUTTLCache Key Value Time)
      (Answer Value)} (run : (machine start).Run moves object) :
    (∀ thread, Locked.Move.raise thread ∉ moves) ∧
      (∀ thread call reply, object.stage thread = .inside call (.done reply) →
        (reply = .reply .valueError ↔ call.Refused defaultTtl) ∧
          (reply = .reply .valueError → ∃ earlier between held,
            moves = earlier ++ .acquire thread :: between ∧
              (∀ asker, .acquire asker ∉ between) ∧ (machine start).Run earlier held ∧
                held.shared = object.shared)) ∧
      (∀ thread other call rest call' rest', object.stage thread = .inside call rest →
        object.stage other = .inside call' rest' → other = thread) ∧
      ∀ thread, object.stage thread ≠ .idle → ∃ move next, (machine start).step object move next ∧
        ∀ asker call, move ≠ .call asker call := by
  rcases Locked.linearised implements (.new built) run with ⟨_, _, _, _, ahead⟩
  refine ⟨Locked.never_raises implements (.new built) run,
    fun thread call reply => raised_iff built run, ?_,
    fun thread busy => ahead.progress busy⟩
  intro thread other call rest call' rest' inside also
  by_contra distinct
  exact ahead.alone inside other distinct call' rest' also

/-- A `put` whose `ttl` is infinite has taken the lock while another thread waits for it. -/
def refusal : List (Locked.Move Nat (ThreadSafeLRUTTLCache.Call Nat Nat WholeSeconds)
    (ThreadSafeLRUTTLCache.Answer Nat)) :=
  [.call 0 (.operation (.put 2 9 (.given (some .infinite)), stopped 0)), .call 1 .stats,
    .acquire 0, .act 0]

/-- The `put` is about to raise, and has left the cache as it was. -/
theorem threadSafe_progress_refusal :
    ∃ (start : LRUTTLCache Nat Nat WholeSeconds) (object : Locked.Guarded Nat
        (ThreadSafeLRUTTLCache.Call Nat Nat WholeSeconds) (LRUTTLCache Nat Nat WholeSeconds)
          (ThreadSafeLRUTTLCache.Answer Nat)) (call : ThreadSafeLRUTTLCache.Call Nat Nat
            WholeSeconds),
      object.stage 0 = .inside call (.done (.reply .valueError)) ∧ call.Refused none ∧
        ∃ earlier between held, refusal = earlier ++ .acquire 0 :: between ∧
          (∀ asker, .acquire asker ∉ between) ∧
            (ThreadSafeLRUTTLCache.machine start).Run earlier held ∧
              held.shared = object.shared := by
  have refused {start : LRUTTLCache Nat Nat WholeSeconds}
      (built : LRUTTLCache.new 2 none = some start) : ∃ object,
        (ThreadSafeLRUTTLCache.machine start).Run refusal object ∧ object.stage 0 = .inside
          (.operation (.put 2 9 (.given (some .infinite)), stopped 0))
          (.done (.reply .valueError)) := by
    cases built
    exact ⟨_, (Machine.Run.start rfl).follow (Locked.step_of_move _)
      (show Machine.follow (Locked.move ThreadSafeLRUTTLCache.body) refusal _ = some _ from rfl),
      rfl⟩
  rcases refused (show LRUTTLCache.new 2 none = some _ from rfl) with ⟨object, run, inside⟩
  have raised := (threadSafe_progress (show LRUTTLCache.new 2 none = some _ from rfl) run).2.1 0
    _ _ inside
  exact ⟨_, object, _, inside, raised.1.mp rfl, raised.2 rfl⟩

end Lru
