import Anviq.Machine.Dict
import Anviq.Machine.LinkedList
import Anviq.Machine.Play

/-! # LRU caches with expiry

The three caches of `lru_ttl`: `LRUTTLCache` with its nodes on a heap,
`OrderedDictLRUTTLCache`, and the list the tests compare them with. Nothing is
assumed of the numbers of seconds but that they are the same in all three, and a
clock shows what it shows: the reading of a call is that of its place in the
operation. An operation that would run into an assertion, a missing key or an
empty container has no outcome.
-/

namespace Lru

/-! ## Time -/

/-- What the caches do with numbers of seconds, floats for instance. -/
class Seconds (Time : Type) where
  add : Time → Time → Time
  le : Time → Time → Bool
  zero : Time
  isFinite : Time → Bool

variable {Key Value Time : Type} [DecidableEq Key] [Seconds Time]

/-- `_is_expired`, `_expired`: the boundary counts as expired. -/
def expired (now : Time) : Option Time → Bool
  | none => false
  | some expiresAt => Seconds.le expiresAt now

/-- `_validate_ttl` accepts the value. -/
def validTtl : Option Time → Bool
  | none => true
  | some ttl => Seconds.isFinite ttl && !Seconds.le ttl Seconds.zero

/-- The `ttl` of `put`: omitted, or given. -/
inductive Ttl (Time : Type) where
  | useDefault
  | given (ttl : Option Time)

/-- `effective_ttl`. -/
def Ttl.effective (default : Option Time) : Ttl Time → Option Time
  | .useDefault => default
  | .given ttl => ttl

/-- `expires_at`, and how often the clock was read for it. -/
def expiry (clock : Nat → Time) : Option Time → Option Time × Nat
  | none => (none, 0)
  | some ttl => (some (Seconds.add (clock 0) ttl), 1)

/-! ## Operations -/

/-- An operation on a cache. -/
inductive Operation (Key Value Time : Type) where
  | put (key : Key) (value : Value) (ttl : Ttl Time)
  | get (key : Key) (default : Option Value)
  | delete (key : Key)
  | contains (key : Key)
  | len

/-- What an operation returns; the value `none` is `MISS`. -/
inductive Reply (Value : Type) where
  | done
  | value (value : Option Value)
  | bool (value : Bool)
  | size (value : Nat)
  | valueError
deriving DecidableEq

/-- An operation and what the clock shows in the course of it. -/
abbrev Input (Key Value Time : Type) := Operation Key Value Time × (Nat → Time)

/-- `CacheStats`. -/
@[ext] structure CacheStats where
  hits : Nat := 0
  misses : Nat := 0
  evictions : Nat := 0
  expirations : Nat := 0

/-! ## `LRUTTLCache` -/

/-- The address of a node. -/
abbrev Ref := Nat

/-- `_Node`; a sentinel has no key. -/
structure Node (Key Value Time : Type) where
  key : Option Key := none
  value : Option Value := none
  expiresAt : Option Time := none
  prev : Option Ref := none
  next : Option Ref := none

structure LRUTTLCache (Key Value Time : Type) where
  capacity : Nat
  defaultTtl : Option Time
  index : Dict Key Ref
  heap : Ref → Node Key Value Time
  allocated : Nat
  stats : CacheStats

namespace LRUTTLCache

/-- `_head`. -/
def head : Ref := 0

/-- `_tail`. -/
def tail : Ref := 1

/-- `node.prev = prev`. -/
def setPrev (cache : LRUTTLCache Key Value Time) (node : Ref) (prev : Option Ref) :
    LRUTTLCache Key Value Time :=
  { cache with heap := Function.update cache.heap node { cache.heap node with prev } }

/-- `node.next = next`. -/
def setNext (cache : LRUTTLCache Key Value Time) (node : Ref) (next : Option Ref) :
    LRUTTLCache Key Value Time :=
  { cache with heap := Function.update cache.heap node { cache.heap node with next } }

/-- `LRUTTLCache`; a `ValueError` is no cache. -/
def new (capacity : Nat) (defaultTtl : Option Time) : Option (LRUTTLCache Key Value Time) :=
  if capacity < 1 then none
  else if !validTtl defaultTtl then none
  else
    let cache : LRUTTLCache Key Value Time :=
      { capacity, defaultTtl, index := .empty, heap := fun _ => {}, allocated := 2, stats := {} }
    some ((cache.setNext head (some tail)).setPrev tail (some head))

/-- `_unlink`. -/
def unlink (cache : LRUTTLCache Key Value Time) (node : Ref) :
    Option (LRUTTLCache Key Value Time) := do
  let prev ← (cache.heap node).prev
  let next ← (cache.heap node).next
  let cache := cache.setNext prev (some next)
  let cache := cache.setPrev next (some prev)
  let cache := cache.setPrev node none
  some (cache.setNext node none)

/-- `_push_front`. -/
def pushFront (cache : LRUTTLCache Key Value Time) (node : Ref) :
    Option (LRUTTLCache Key Value Time) := do
  let first ← (cache.heap head).next
  let cache := cache.setPrev node (some head)
  let cache := cache.setNext node (some first)
  let cache := cache.setNext head (some node)
  some (cache.setPrev first (some node))

/-- `_move_to_front`. -/
def moveToFront (cache : LRUTTLCache Key Value Time) (node : Ref) :
    Option (LRUTTLCache Key Value Time) := do
  let cache ← cache.unlink node
  cache.pushFront node

/-- `_remove_node`. -/
def removeNode (cache : LRUTTLCache Key Value Time) (node : Ref) :
    Option (LRUTTLCache Key Value Time) := do
  let key ← (cache.heap node).key
  let _ ← cache.index.get? key
  { cache with index := cache.index.erase key }.unlink node

/-- `get`. -/
def get (cache : LRUTTLCache Key Value Time) (clock : Nat → Time) (key : Key)
    (default : Option Value) : Option (Reply Value × LRUTTLCache Key Value Time) :=
  match cache.index.get? key with
  | none =>
      some (.value default,
        { cache with stats := { cache.stats with misses := cache.stats.misses + 1 } })
  | some node =>
      if expired (clock 0) (cache.heap node).expiresAt then do
        let cache ← cache.removeNode node
        some (.value default,
          { cache with
            stats :=
              { cache.stats with
                misses := cache.stats.misses + 1
                expirations := cache.stats.expirations + 1 } })
      else do
        let cache ← cache.moveToFront node
        some (.value (cache.heap node).value,
          { cache with stats := { cache.stats with hits := cache.stats.hits + 1 } })

/-- `_evict_one`. -/
def evictOne (cache : LRUTTLCache Key Value Time) (now : Time) :
    Option (LRUTTLCache Key Value Time) := do
  let victim ← (cache.heap tail).prev
  if victim = head then none
  else
    let expired := expired now (cache.heap victim).expiresAt
    let cache ← cache.removeNode victim
    if expired then
      some { cache with
        stats := { cache.stats with expirations := cache.stats.expirations + 1 } }
    else
      some { cache with stats := { cache.stats with evictions := cache.stats.evictions + 1 } }

/-- `put`. -/
def put (cache : LRUTTLCache Key Value Time) (clock : Nat → Time) (key : Key) (value : Value)
    (ttl : Ttl Time) : Option (Reply Value × LRUTTLCache Key Value Time) :=
  let effective := ttl.effective cache.defaultTtl
  if !validTtl effective then some (.valueError, cache)
  else
    let (expiresAt, reads) := expiry clock effective
    match cache.index.get? key with
    | some node => do
        let cache ← { cache with
          heap := Function.update cache.heap node
            { cache.heap node with value := some value, expiresAt } }.moveToFront node
        some (.done, cache)
    | none => do
        let cache ←
          if cache.capacity ≤ cache.index.size then cache.evictOne (clock reads) else some cache
        let node := cache.allocated
        let cache ← { cache with
          heap := Function.update cache.heap node { key := some key, value := some value, expiresAt }
          allocated := node + 1
          index := cache.index.assign key node }.pushFront node
        some (.done, cache)

/-- `delete`. -/
def delete (cache : LRUTTLCache Key Value Time) (key : Key) :
    Option (Reply Value × LRUTTLCache Key Value Time) :=
  match cache.index.get? key with
  | none => some (.bool false, cache)
  | some node => do
      let cache ← { cache with index := cache.index.erase key }.unlink node
      some (.bool true, cache)

/-- `__contains__`. -/
def contains (cache : LRUTTLCache Key Value Time) (clock : Nat → Time) (key : Key) : Bool :=
  match cache.index.get? key with
  | none => false
  | some node => !expired (clock 0) (cache.heap node).expiresAt

/-- An operation on the cache. -/
def step (cache : LRUTTLCache Key Value Time) (input : Input Key Value Time) :
    Option (Reply Value × LRUTTLCache Key Value Time) :=
  match input.1 with
  | .put key value ttl => cache.put input.2 key value ttl
  | .get key default => cache.get input.2 key default
  | .delete key => cache.delete key
  | .contains key => some (.bool (cache.contains input.2 key), cache)
  | .len => some (.size cache.index.size, cache)

/-- The links of the nodes. -/
def links (cache : LRUTTLCache Key Value Time) : LinkedList.Links Ref where
  prev node := (cache.heap node).prev
  next node := (cache.heap node).next

/-- The keys from the most to the least recently used, as the links give them. -/
def recency (cache : LRUTTLCache Key Value Time) : List (Option Key) :=
  (cache.links.walk tail cache.index.size head).map fun node => (cache.heap node).key

end LRUTTLCache

/-! ## `OrderedDictLRUTTLCache` -/

structure OrderedDictLRUTTLCache (Key Value Time : Type) where
  capacity : Nat
  defaultTtl : Option Time
  data : Dict Key (Value × Option Time)
  stats : CacheStats

namespace OrderedDictLRUTTLCache

/-- `OrderedDictLRUTTLCache`; a `ValueError` is no cache. -/
def new (capacity : Nat) (defaultTtl : Option Time) :
    Option (OrderedDictLRUTTLCache Key Value Time) :=
  if capacity < 1 then none
  else if !validTtl defaultTtl then none
  else some { capacity, defaultTtl, data := .empty, stats := {} }

/-- `get`. -/
def get (cache : OrderedDictLRUTTLCache Key Value Time) (clock : Nat → Time) (key : Key)
    (default : Option Value) : Reply Value × OrderedDictLRUTTLCache Key Value Time :=
  match cache.data.get? key with
  | none =>
      (.value default,
        { cache with stats := { cache.stats with misses := cache.stats.misses + 1 } })
  | some (value, expiresAt) =>
      if expired (clock 0) expiresAt then
        (.value default,
          { cache with
            data := cache.data.erase key
            stats :=
              { cache.stats with
                misses := cache.stats.misses + 1
                expirations := cache.stats.expirations + 1 } })
      else
        (.value (some value),
          { cache with
            data := cache.data.moveToEnd key
            stats := { cache.stats with hits := cache.stats.hits + 1 } })

/-- `put`. -/
def put (cache : OrderedDictLRUTTLCache Key Value Time) (clock : Nat → Time) (key : Key)
    (value : Value) (ttl : Ttl Time) :
    Option (Reply Value × OrderedDictLRUTTLCache Key Value Time) :=
  let effective := ttl.effective cache.defaultTtl
  if !validTtl effective then some (.valueError, cache)
  else
    let (expiresAt, reads) := expiry clock effective
    if key ∈ cache.data.keys then
      some (.done,
        { cache with data := (cache.data.assign key (value, expiresAt)).moveToEnd key })
    else if cache.capacity ≤ cache.data.size then do
      let ((_, _, victimExpires), data) ← cache.data.popFirst
      let stats :=
        if expired (clock reads) victimExpires then
          { cache.stats with expirations := cache.stats.expirations + 1 }
        else { cache.stats with evictions := cache.stats.evictions + 1 }
      some (.done, { cache with data := data.assign key (value, expiresAt), stats })
    else some (.done, { cache with data := cache.data.assign key (value, expiresAt) })

/-- `delete`: what is popped is a pair, and never `None`. -/
def delete (cache : OrderedDictLRUTTLCache Key Value Time) (key : Key) :
    Reply Value × OrderedDictLRUTTLCache Key Value Time :=
  (.bool (cache.data.get? key).isSome, { cache with data := cache.data.erase key })

/-- `__contains__`. -/
def contains (cache : OrderedDictLRUTTLCache Key Value Time) (clock : Nat → Time)
    (key : Key) : Bool :=
  match cache.data.get? key with
  | none => false
  | some (_, expiresAt) => !expired (clock 0) expiresAt

/-- An operation on the cache. -/
def step (cache : OrderedDictLRUTTLCache Key Value Time) (input : Input Key Value Time) :
    Option (Reply Value × OrderedDictLRUTTLCache Key Value Time) :=
  match input.1 with
  | .put key value ttl => cache.put input.2 key value ttl
  | .get key default => some (cache.get input.2 key default)
  | .delete key => some (cache.delete key)
  | .contains key => some (.bool (cache.contains input.2 key), cache)
  | .len => some (.size cache.data.size, cache)

/-- The keys from the most to the least recently used. -/
def recency (cache : OrderedDictLRUTTLCache Key Value Time) : List (Option Key) :=
  cache.data.keys.reverse.map some

end OrderedDictLRUTTLCache

/-! ## `ReferenceLRUTTLCache` -/

structure ReferenceLRUTTLCache (Key Value Time : Type) where
  capacity : Nat
  defaultTtl : Option Time
  entries : List (Key × Value × Option Time)

namespace ReferenceLRUTTLCache

/-- The check of a `ttl`, which does not ask whether it is finite. -/
def acceptsTtl : Option Time → Bool
  | none => true
  | some ttl => !Seconds.le ttl Seconds.zero

/-- `ReferenceLRUTTLCache`; a `ValueError` is no cache. -/
def new (capacity : Nat) (defaultTtl : Option Time) :
    Option (ReferenceLRUTTLCache Key Value Time) :=
  if capacity < 1 then none
  else if !acceptsTtl defaultTtl then none
  else some { capacity, defaultTtl, entries := [] }

/-- `_find`. -/
def find (cache : ReferenceLRUTTLCache Key Value Time) (key : Key) : Option Nat :=
  cache.entries.findIdx? fun entry => entry.1 = key

/-- `get`. -/
def get (cache : ReferenceLRUTTLCache Key Value Time) (clock : Nat → Time) (key : Key)
    (default : Option Value) : Option (Reply Value × ReferenceLRUTTLCache Key Value Time) :=
  match cache.find key with
  | none => some (.value default, cache)
  | some i => do
      let entry ← cache.entries[i]?
      if expired (clock 0) entry.2.2 then
        some (.value default, { cache with entries := cache.entries.eraseIdx i })
      else
        some (.value (some entry.2.1),
          { cache with entries := cache.entries.eraseIdx i ++ [entry] })

/-- `put`: nothing is asked of the entry dropped. -/
def put (cache : ReferenceLRUTTLCache Key Value Time) (clock : Nat → Time) (key : Key)
    (value : Value) (ttl : Ttl Time) :
    Option (Reply Value × ReferenceLRUTTLCache Key Value Time) :=
  let effective := ttl.effective cache.defaultTtl
  if !acceptsTtl effective then some (.valueError, cache)
  else
    let (expiresAt, _) := expiry clock effective
    match cache.find key with
    | some i =>
        some (.done,
          { cache with entries := cache.entries.eraseIdx i ++ [(key, value, expiresAt)] })
    | none =>
        if cache.capacity ≤ cache.entries.length then
          match cache.entries with
          | [] => none
          | _ :: entries =>
              some (.done, { cache with entries := entries ++ [(key, value, expiresAt)] })
        else some (.done, { cache with entries := cache.entries ++ [(key, value, expiresAt)] })

/-- `delete`. -/
def delete (cache : ReferenceLRUTTLCache Key Value Time) (key : Key) :
    Reply Value × ReferenceLRUTTLCache Key Value Time :=
  match cache.find key with
  | none => (.bool false, cache)
  | some i => (.bool true, { cache with entries := cache.entries.eraseIdx i })

/-- `__contains__`. -/
def contains (cache : ReferenceLRUTTLCache Key Value Time) (clock : Nat → Time)
    (key : Key) : Option Bool :=
  match cache.find key with
  | none => some false
  | some i => do
      let entry ← cache.entries[i]?
      some !(expired (clock 0) entry.2.2)

/-- An operation on the cache. -/
def step (cache : ReferenceLRUTTLCache Key Value Time) (input : Input Key Value Time) :
    Option (Reply Value × ReferenceLRUTTLCache Key Value Time) :=
  match input.1 with
  | .put key value ttl => cache.put input.2 key value ttl
  | .get key default => cache.get input.2 key default
  | .delete key => some (cache.delete key)
  | .contains key => do
      let held ← cache.contains input.2 key
      some (.bool held, cache)
  | .len => some (.size cache.entries.length, cache)

end ReferenceLRUTTLCache

end Lru
