import Anviq.Lru.Refinement

/-! # The linked list is always well formed

Whatever is done with a cache, its nodes stay linked between the sentinels: `next`
leads from `_head` to `_tail` past the nodes of the index, `prev` leads back, and a
node that has left the list has no pointers. Hence no assertion fails.
-/

namespace Lru

open LinkedList

variable {Key Value Time : Type}

namespace LRUTTLCache

variable {cache next : LRUTTLCache Key Value Time} {front back : List (Cell Key Value Time)}
  {cells : List (Cell Key Value Time)} {cell : Cell Key Value Time}

/-- The nodes of the cells, and the sentinels. -/
def ring (cells : List (Cell Key Value Time)) : List Ref :=
  head :: (cells.map Cell.ref ++ [tail])

theorem ring_append (front back : List (Cell Key Value Time)) (cell : Cell Key Value Time) :
    ring (front ++ cell :: back) =
      head :: (front.map Cell.ref ++ cell.ref :: back.map Cell.ref ++ [tail]) := by
  rw [ring, List.map_append, List.map_cons]

/-- The cells are all there is in the list: other nodes have no pointers. -/
structure Linked (cache : LRUTTLCache Key Value Time) (cells : List (Cell Key Value Time)) :
    Prop where
  represents : cache.Represents cells
  only : OnlyLinked cache.links (ring cells)

/-- What `_unlink` does to the pointers. -/
theorem links_of_unlink {node : Ref} (taken : cache.unlink node = some next) :
    ∃ before after, cache.links.prev node = some before ∧ cache.links.next node = some after ∧
      next.links = cache.links.unlink before node after := by
  unfold unlink at taken
  cases backward : (cache.heap node).prev with
  | none => simp [backward] at taken
  | some before =>
      cases forward : (cache.heap node).next with
      | none => simp [backward, forward] at taken
      | some after =>
          simp only [backward, forward, Option.bind_eq_bind, Option.bind_some, Option.some.injEq]
            at taken
          refine ⟨before, after, backward, forward, ?_⟩
          rw [← taken]
          simp only [links_setNext, links_setPrev]
          rfl

/-- What `_push_front` does to the pointers. -/
theorem links_of_pushFront {node : Ref} (pushed : cache.pushFront node = some next) :
    ∃ after, cache.links.next head = some after ∧
      next.links = cache.links.link head node after := by
  unfold pushFront at pushed
  cases forward : (cache.heap head).next with
  | none => simp [forward] at pushed
  | some after =>
      simp only [forward, Option.bind_eq_bind, Option.bind_some, Option.some.injEq] at pushed
      refine ⟨after, forward, ?_⟩
      rw [← pushed]
      simp only [links_setNext, links_setPrev]
      rfl

/-- A node taken out of the list has no pointers. -/
theorem OnlyLinked.taken (only : OnlyLinked cache.links (ring (front ++ cell :: back)))
    (between : Between cache.links head ((front ++ cell :: back).map Cell.ref) tail)
    (taken : cache.unlink cell.ref = some next) : OnlyLinked next.links (ring (front ++ back)) := by
  obtain ⟨before, after, backward, forward, links⟩ := links_of_unlink taken
  rw [ring_append] at only
  rw [List.map_append, List.map_cons] at between
  rw [links, ring, List.map_append]
  exact only.unlink between backward forward

/-- A node put into the list is the only one to get pointers. -/
theorem OnlyLinked.pushed (only : OnlyLinked cache.links (ring cells))
    (between : Between cache.links head (cells.map Cell.ref) tail)
    (pushed : cache.pushFront cell.ref = some next) :
    OnlyLinked next.links (ring (cell :: cells)) := by
  obtain ⟨after, forward, links⟩ := links_of_pushFront pushed
  rw [links]
  exact only.link between forward

/-! ## Each operation -/

/-- `_move_to_front`. -/
theorem Linked.moveToFront (linked : cache.Linked (front ++ cell :: back)) :
    ∃ next, cache.moveToFront cell.ref = some next ∧ next.capacity = cache.capacity ∧
      next.Linked (cell :: (front ++ back)) := by
  obtain ⟨next, moved, relinked, represents⟩ := linked.represents.moveToFront
  refine ⟨next, moved, relinked.capacity, represents, ?_⟩
  have links := linked.represents.links
  rw [List.map_append, List.map_cons] at links
  obtain ⟨unlinked, taken, -, shorter⟩ := unlink_eq links
  simp only [LRUTTLCache.moveToFront, taken, Option.bind_eq_bind, Option.bind_some] at moved
  rw [← List.map_append] at shorter
  exact OnlyLinked.pushed (OnlyLinked.taken linked.only linked.represents.links taken) shorter moved

/-- A cell gets another value and expiry. -/
theorem Linked.update (linked : cache.Linked (front ++ cell :: back)) (value : Value)
    (expiresAt : Option Time) :
    { cache with
      heap := Function.update cache.heap cell.ref
        { cache.heap cell.ref with value := some value, expiresAt } }.Linked
      (front ++ { cell with value, expiresAt } :: back) := by
  refine ⟨linked.represents.update value expiresAt, ?_⟩
  rw [links_update cell.ref { cache.heap cell.ref with value := some value, expiresAt } rfl rfl,
    ring_append]
  have only := linked.only
  rw [ring_append] at only
  exact only

variable [DecidableEq Key]

/-- A node is dropped from the index and from the list. -/
theorem Linked.unlink (linked : cache.Linked (front ++ cell :: back)) :
    ∃ next, { cache with index := cache.index.erase cell.key }.unlink cell.ref = some next ∧
      next.capacity = cache.capacity ∧ next.index = cache.index.erase cell.key ∧
      next.Linked (front ++ back) := by
  obtain ⟨next, taken, relinked, represents⟩ := linked.represents.unlink
  have only : OnlyLinked { cache with index := cache.index.erase cell.key }.links
      (ring (front ++ cell :: back)) := linked.only
  exact ⟨next, taken, relinked.capacity, relinked.index, represents,
    OnlyLinked.taken only linked.represents.links taken⟩

/-- `_remove_node`. -/
theorem Linked.removeNode (linked : cache.Linked (front ++ cell :: back)) :
    ∃ next, cache.removeNode cell.ref = some next ∧ next.capacity = cache.capacity ∧
      next.index = cache.index.erase cell.key ∧ next.Linked (front ++ back) := by
  have present : cell ∈ front ++ cell :: back := by simp
  obtain ⟨next, taken, capacity, index, rest⟩ := linked.unlink
  have key := (linked.represents.holds cell present).1
  have found := linked.represents.get? present
  refine ⟨next, ?_, capacity, index, rest⟩
  simp only [LRUTTLCache.removeNode, key, found, Option.bind_eq_bind, Option.bind_some, taken]

/-- A new node takes the key in the index and goes to the front. -/
theorem Linked.insert (linked : cache.Linked cells) {key : Key} (value : Value)
    (expiresAt : Option Time) (absent : key ∉ cache.index.keys) :
    ∃ next, { cache with
        heap := Function.update cache.heap cache.allocated
          { key := some key, value := some value, expiresAt }
        allocated := cache.allocated + 1
        index := cache.index.assign key cache.allocated }.pushFront cache.allocated = some next ∧
      next.capacity = cache.capacity ∧
      next.Linked ({ ref := cache.allocated, key, value, expiresAt } :: cells) := by
  obtain ⟨next, pushed, capacity, -, -, represents⟩ :=
    linked.represents.insert value expiresAt absent
  refine ⟨next, pushed, capacity, represents, ?_⟩
  have apart {node : Ref} (present : node ∈ ring cells) : node ≠ cache.allocated := by
    intro same
    exact Nat.lt_irrefl _ (same ▸ linked.represents.allocated node present)
  -- The new node is fresh, with no pointers, as all nodes outside the list.
  have between : Between { cache with
        heap := Function.update cache.heap cache.allocated
          { key := some key, value := some value, expiresAt }
        allocated := cache.allocated + 1
        index := cache.index.assign key cache.allocated }.links head (cells.map Cell.ref) tail := by
    apply linked.represents.links.congr
    intro node present
    simp [LRUTTLCache.links, Function.update_of_ne (apart present)]
  refine @OnlyLinked.pushed _ _ _ _ _ _ { ref := cache.allocated, key, value, expiresAt } ?_
    between pushed
  intro node outside
  by_cases same : node = cache.allocated
  · simp [LRUTTLCache.links, same]
  · simpa [LRUTTLCache.links, Function.update_of_ne same] using linked.only node outside

omit [DecidableEq Key] in
/-- Counting changes no pointers. -/
theorem Linked.count (linked : cache.Linked cells) (stats : CacheStats) :
    { cache with stats }.Linked cells :=
  ⟨⟨linked.represents.links, linked.represents.holds, linked.represents.index,
    linked.represents.allocated⟩, linked.only⟩

/-- What the index holds under a key is the node of its cell. -/
theorem Linked.found (linked : cache.Linked cells) {key : Key} {node : Ref}
    (found : cache.index.get? key = some node) :
    ∃ front cell back, cells = front ++ cell :: back ∧ cell.key = key ∧ cell.ref = node := by
  rw [Dict.get?_eq_some, linked.represents.index.mem_iff, List.mem_map] at found
  obtain ⟨cell, present, item⟩ := found
  rw [Prod.mk.injEq] at item
  obtain ⟨front, back, rfl⟩ := List.append_of_mem present
  exact ⟨front, cell, back, rfl, item.1, item.2⟩

variable [Seconds Time]

/-- `_evict_one` drops the last cell. -/
theorem Linked.evictOne (linked : cache.Linked (front ++ [cell])) (now : Time) :
    ∃ next, cache.evictOne now = some next ∧ next.capacity = cache.capacity ∧
      next.index = cache.index.erase cell.key ∧ next.Linked front := by
  have links := linked.represents.links
  have nodup := links.2
  rw [List.map_append, List.map_singleton] at links nodup
  have last : (cache.heap tail).prev = some cell.ref := links.last
  have apart : cell.ref ≠ head := by
    intro same
    rw [List.nodup_cons] at nodup
    exact nodup.1 (by simp [same])
  obtain ⟨next, removed, capacity, index, rest⟩ := linked.removeNode
  rw [List.append_nil] at rest
  simp only [LRUTTLCache.evictOne, last, apart, removed, Option.bind_eq_bind, Option.bind_some,
    ↓reduceIte]
  split
  · exact ⟨_, rfl, capacity, index, rest.count _⟩
  · exact ⟨_, rfl, capacity, index, rest.count _⟩

/-- A cache that has room for a node, with its list well formed. -/
def WellFormed (cache : LRUTTLCache Key Value Time) : Prop :=
  1 ≤ cache.capacity ∧ ∃ cells, cache.Linked cells

theorem WellFormed.get (wellFormed : cache.WellFormed) (clock : Nat → Time) (key : Key)
    (default : Option Value) :
    ∃ reply next, cache.get clock key default = some (reply, next) ∧ next.WellFormed := by
  obtain ⟨room, cells, linked⟩ := wellFormed
  unfold LRUTTLCache.get
  cases found : cache.index.get? key with
  | none => exact ⟨_, _, rfl, room, cells, linked.count _⟩
  | some node =>
      obtain ⟨front, cell, back, rfl, rfl, rfl⟩ := linked.found found
      dsimp only
      split
      · obtain ⟨next, removed, capacity, -, rest⟩ := linked.removeNode
        simp only [removed, Option.bind_eq_bind, Option.bind_some]
        exact ⟨_, _, rfl, le_of_le_of_eq room capacity.symm, _, rest.count _⟩
      · obtain ⟨next, moved, capacity, rest⟩ := linked.moveToFront
        simp only [moved, Option.bind_eq_bind, Option.bind_some]
        exact ⟨_, _, rfl, le_of_le_of_eq room capacity.symm, _, rest.count _⟩

/-- There is a node to evict when the cache is full. -/
theorem WellFormed.evictOne (wellFormed : cache.WellFormed) (now : Time)
    (full : cache.capacity ≤ cache.index.size) :
    ∃ next key, cache.evictOne now = some next ∧ next.index = cache.index.erase key ∧
      next.WellFormed := by
  obtain ⟨room, cells, linked⟩ := wellFormed
  rcases cells.eq_nil_or_concat with rfl | ⟨front, cell, rfl⟩
  · rw [linked.represents.size] at full
    exact absurd (Nat.le_trans room full) (by simp)
  · rw [List.concat_eq_append] at linked
    obtain ⟨next, evicted, capacity, index, rest⟩ := linked.evictOne now
    exact ⟨next, cell.key, evicted, index, le_of_le_of_eq room capacity.symm, front, rest⟩

omit [Seconds Time] in
/-- A key that is not in the index gets a new node. -/
theorem WellFormed.insert (wellFormed : cache.WellFormed) {key : Key} (value : Value)
    (expiresAt : Option Time) (absent : key ∉ cache.index.keys) :
    ∃ next, { cache with
        heap := Function.update cache.heap cache.allocated
          { key := some key, value := some value, expiresAt }
        allocated := cache.allocated + 1
        index := cache.index.assign key cache.allocated }.pushFront cache.allocated = some next ∧
      next.WellFormed := by
  obtain ⟨room, cells, linked⟩ := wellFormed
  obtain ⟨next, pushed, capacity, rest⟩ := linked.insert value expiresAt absent
  exact ⟨next, pushed, le_of_le_of_eq room capacity.symm, _, rest⟩

theorem WellFormed.put (wellFormed : cache.WellFormed) (clock : Nat → Time) (key : Key)
    (value : Value) (ttl : Ttl Time) :
    ∃ reply next, cache.put clock key value ttl = some (reply, next) ∧ next.WellFormed := by
  unfold LRUTTLCache.put
  dsimp only
  split
  · exact ⟨_, _, rfl, wellFormed⟩
  · generalize expiry clock (ttl.effective cache.defaultTtl) = expiry
    obtain ⟨expiresAt, reads⟩ := expiry
    cases found : cache.index.get? key with
    | none =>
        have absent := Dict.get?_eq_none.mp found
        by_cases full : cache.capacity ≤ cache.index.size
        · obtain ⟨vacant, victim, evicted, index, wellFormed⟩ :=
            wellFormed.evictOne (clock reads) full
          have still : key ∉ vacant.index.keys := by
            rw [index, Dict.mem_keys_erase]
            exact fun present => absent present.2
          obtain ⟨next, pushed, wellFormed⟩ := wellFormed.insert value expiresAt still
          simp only [full, evicted, pushed, Option.bind_eq_bind, Option.bind_some, ↓reduceIte]
          exact ⟨_, _, rfl, wellFormed⟩
        · obtain ⟨next, pushed, wellFormed⟩ := wellFormed.insert value expiresAt absent
          simp only [full, pushed, Option.bind_eq_bind, Option.bind_some, ↓reduceIte]
          exact ⟨_, _, rfl, wellFormed⟩
    | some node =>
        obtain ⟨room, cells, linked⟩ := wellFormed
        obtain ⟨front, cell, back, rfl, rfl, rfl⟩ := linked.found found
        obtain ⟨next, moved, capacity, rest⟩ := (linked.update value expiresAt).moveToFront
        dsimp only at moved
        simp only [moved, Option.bind_eq_bind, Option.bind_some]
        exact ⟨_, _, rfl, le_of_le_of_eq room capacity.symm, _, rest⟩

omit [Seconds Time] in
theorem WellFormed.delete (wellFormed : cache.WellFormed) (key : Key) :
    ∃ reply next, cache.delete key = some (reply, next) ∧ next.WellFormed := by
  obtain ⟨room, cells, linked⟩ := wellFormed
  unfold LRUTTLCache.delete
  cases found : cache.index.get? key with
  | none => exact ⟨_, _, rfl, room, cells, linked⟩
  | some node =>
      obtain ⟨front, cell, back, rfl, rfl, rfl⟩ := linked.found found
      obtain ⟨next, taken, capacity, -, rest⟩ := linked.unlink
      simp only [taken, Option.bind_eq_bind, Option.bind_some]
      exact ⟨_, _, rfl, le_of_le_of_eq room capacity.symm, _, rest⟩

/-- No operation runs into an assertion, and the list stays well formed. -/
theorem WellFormed.step (wellFormed : cache.WellFormed) (input : Input Key Value Time) :
    ∃ reply next, cache.step input = some (reply, next) ∧ next.WellFormed := by
  obtain ⟨operation, clock⟩ := input
  cases operation with
  | put key value ttl => exact wellFormed.put clock key value ttl
  | get key default => exact wellFormed.get clock key default
  | delete key => exact wellFormed.delete key
  | contains key => exact ⟨_, _, rfl, wellFormed⟩
  | len => exact ⟨_, _, rfl, wellFormed⟩

omit [DecidableEq Key] in
/-- A new cache has two sentinels that point at each other. -/
theorem WellFormed.new {capacity : Nat} {defaultTtl : Option Time}
    (built : LRUTTLCache.new capacity defaultTtl = some cache) : cache.WellFormed := by
  obtain ⟨ordered, -, -, ⟨cells, stores⟩, checked⟩ := new_alike built
  refine ⟨stores.capacity ▸ checked.positive, cells, stores.represents, ?_⟩
  have size := stores.represents.size
  unfold LRUTTLCache.new at built
  split at built
  · exact nomatch built
  · split at built
    · exact nomatch built
    · rw [← Option.some.inj built] at size ⊢
      obtain rfl : cells = [] := List.eq_nil_of_length_eq_zero size.symm
      intro node outside
      simp only [ring, List.map_nil, List.nil_append, List.mem_cons, List.not_mem_nil, or_false,
        not_or] at outside
      simp [links, setNext, setPrev, Function.update_of_ne outside.1,
        Function.update_of_ne outside.2]

/-- Whatever is done, no assertion fails and the list is well formed after it. -/
theorem WellFormed.after (wellFormed : cache.WellFormed) (inputs : List (Input Key Value Time)) :
    ∃ last, Play.after LRUTTLCache.step cache inputs = some last ∧ last.WellFormed := by
  induction inputs generalizing cache with
  | nil => exact ⟨cache, rfl, wellFormed⟩
  | cons input inputs ih =>
      obtain ⟨reply, next, stepped, nextFormed⟩ := wellFormed.step input
      obtain ⟨last, reached, lastFormed⟩ := ih nextFormed
      refine ⟨last, ?_, lastFormed⟩
      simp only [Play.after, stepped, Option.bind_eq_bind, Option.bind_some]
      exact reached

/-! ## What the links show -/

/-- The nodes in the list, from the most to the least recently used: `next` leads past
them and `prev` back, they are those of the index, each under its key, and no other node
has pointers. -/
structure Listed (cache : LRUTTLCache Key Value Time) (nodes : List Ref) : Prop where
  forward : Leads (fun node => (cache.heap node).next) tail head nodes
  backward : Leads (fun node => (cache.heap node).prev) head tail nodes.reverse
  once : nodes.Nodup
  values : nodes.Perm (cache.index.items.map Prod.snd)
  keys : ∀ node ∈ nodes, ∃ key, (cache.heap node).key = some key ∧
    cache.index.get? key = some node
  unlinked : ∀ node, node ≠ head → node ≠ tail → node ∉ nodes →
    (cache.heap node).prev = none ∧ (cache.heap node).next = none

omit [Seconds Time] in
/-- The links show the nodes of the cells. -/
theorem Linked.listed (linked : cache.Linked cells) : cache.Listed (cells.map Cell.ref) where
  forward := linked.represents.links.leads
  backward := linked.represents.links.flip.leads
  once := linked.represents.nodup
  values := by
    have perm := (linked.represents.index.map Prod.snd).symm
    rw [List.map_map] at perm
    exact perm
  keys node present := by
    obtain ⟨cell, among, rfl⟩ := List.mem_map.mp present
    exact ⟨cell.key, (linked.represents.holds cell among).1, linked.represents.get? among⟩
  unlinked node notHead notTail outside := by
    apply linked.only node
    rw [ring, List.mem_cons, List.mem_append, List.mem_singleton]
    rintro (isHead | inside | isTail)
    · exact notHead isHead
    · exact outside inside
    · exact notTail isTail

end LRUTTLCache

variable [DecidableEq Key] [Seconds Time]

/-- **The linked list is always well formed.** Whatever is done with a new cache, whatever
the clock shows, no assertion fails; and `next` leads from `_head` to `_tail` past the nodes
of the index, each once and under its key, `prev` leads back past the same nodes, and the
other nodes have no pointers. -/
theorem list_wellFormed {capacity : Nat} {defaultTtl : Option Time}
    {cache : LRUTTLCache Key Value Time}
    (built : LRUTTLCache.new capacity defaultTtl = some cache)
    (inputs : List (Input Key Value Time)) :
    ∃ last nodes, Play.after LRUTTLCache.step cache inputs = some last ∧ last.Listed nodes := by
  obtain ⟨last, reached, -, cells, linked⟩ := (LRUTTLCache.WellFormed.new built).after inputs
  exact ⟨last, cells.map Cell.ref, reached, linked.listed⟩

/-- Two values of which the first is asked for again, and stays when a third comes in. -/
theorem list_wellFormed_three :
    ∃ cache : LRUTTLCache Nat Nat WholeSeconds, LRUTTLCache.new 2 none = some cache ∧
      ∃ last nodes, Play.after LRUTTLCache.step cache
          [(.put 0 7 .useDefault, stopped 0), (.put 1 8 .useDefault, stopped 0),
            (.get 0 none, stopped 0), (.put 2 9 .useDefault, stopped 0)] = some last ∧
        last.Listed nodes :=
  ⟨_, rfl, list_wellFormed (show LRUTTLCache.new 2 none = some _ from rfl) _⟩

end Lru
