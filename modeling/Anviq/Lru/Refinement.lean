import Anviq.Lru.Cache

/-! # The caches agree

`LRUTTLCache` keeps on its heap the items `OrderedDictLRUTTLCache` keeps in its
dictionary, and the reference keeps them in its list. Whatever the operations and
the clock, the three answer alike.
-/

namespace Lru

variable {Key Value Time : Type}

section Reference

variable [DecidableEq Key] [Seconds Time]

/-- A `ttl` is not infinite, nor not a number. -/
def FiniteTtl (ttl : Option Time) : Prop := ∀ value, ttl = some value → Seconds.isFinite value = true

/-- The `ttl` of an operation is omitted, `None`, or finite. -/
def FiniteInput (input : Input Key Value Time) : Prop :=
  ∀ key value ttl, input.1 = .put key value (.given ttl) → FiniteTtl ttl

/-- Of finite values, the reference accepts what the caches accept. -/
theorem acceptsTtl_eq {ttl : Option Time} (finite : FiniteTtl ttl) :
    ReferenceLRUTTLCache.acceptsTtl ttl = validTtl ttl := by
  cases ttl with
  | none => rfl
  | some ttl => rw [validTtl, finite ttl rfl, Bool.true_and, ReferenceLRUTTLCache.acceptsTtl]

theorem finite_of_valid {ttl : Option Time} (valid : validTtl ttl = true) : FiniteTtl ttl := by
  intro value given
  rw [given] at valid
  exact (Bool.and_eq_true_iff.mp valid).1

theorem effective_finite {default : Option Time} (defaultFinite : FiniteTtl default)
    {ttl : Ttl Time} (given : ∀ value, ttl = .given value → FiniteTtl value) :
    FiniteTtl (ttl.effective default) := by
  cases ttl with
  | useDefault => exact defaultFinite
  | given value => exact given value rfl

/-! ## The dictionary and the list -/

/-- The reference that holds the items of a dictionary. -/
def OrderedDictLRUTTLCache.reference (ordered : OrderedDictLRUTTLCache Key Value Time) :
    ReferenceLRUTTLCache Key Value Time where
  capacity := ordered.capacity
  defaultTtl := ordered.defaultTtl
  entries := ordered.data.items

/-- What the constructor has checked. -/
structure Checked (capacity : Nat) (defaultTtl : Option Time) : Prop where
  positive : 1 ≤ capacity
  valid : validTtl defaultTtl = true

/-- The reference holds the items of the dictionary. -/
def SameEntries (ordered : OrderedDictLRUTTLCache Key Value Time)
    (reference : ReferenceLRUTTLCache Key Value Time) : Prop :=
  reference = ordered.reference ∧ Checked ordered.capacity ordered.defaultTtl

variable {ordered : OrderedDictLRUTTLCache Key Value Time}

theorem reference_get (checked : Checked ordered.capacity ordered.defaultTtl)
    (clock : Nat → Time) (key : Key) (default : Option Value) :
    ∃ reply next next', some (ordered.get clock key default) = some (reply, next) ∧
      ordered.reference.get clock key default = some (reply, next') ∧ SameEntries next next' := by
  unfold OrderedDictLRUTTLCache.get ReferenceLRUTTLCache.get ReferenceLRUTTLCache.find
  simp only [OrderedDictLRUTTLCache.reference]
  rcases ordered.data.position key with ⟨missing, -, nowhere⟩ | ⟨front, ⟨value, expiresAt⟩, back,
    items, found, -, position⟩
  · rw [missing, nowhere]
    exact ⟨_, _, _, rfl, rfl, rfl, checked⟩
  · simp only [found, position, Dict.getElem?_of_append items, Option.bind_eq_bind,
      Option.bind_some]
    by_cases late : expired (clock 0) expiresAt = true
    · rw [if_pos late, if_pos late]
      refine ⟨_, _, _, rfl, rfl, ?_, checked⟩
      simp only [OrderedDictLRUTTLCache.reference, Dict.eraseIdx_of_append items]
    · rw [if_neg late, if_neg late]
      refine ⟨_, _, _, rfl, rfl, ?_, checked⟩
      simp only [OrderedDictLRUTTLCache.reference, Dict.eraseIdx_of_append items, Dict.moveToEnd,
        found, Dict.push_items]

theorem reference_put (checked : Checked ordered.capacity ordered.defaultTtl)
    (clock : Nat → Time) (key : Key) (value : Value) {ttl : Ttl Time}
    (given : ∀ value, ttl = .given value → FiniteTtl value) :
    ∃ reply next next', ordered.put clock key value ttl = some (reply, next) ∧
      ordered.reference.put clock key value ttl = some (reply, next') ∧
      SameEntries next next' := by
  have accepted := acceptsTtl_eq (effective_finite (finite_of_valid checked.valid) given)
  unfold OrderedDictLRUTTLCache.put ReferenceLRUTTLCache.put ReferenceLRUTTLCache.find
  simp only [OrderedDictLRUTTLCache.reference, accepted]
  by_cases valid : validTtl (ttl.effective ordered.defaultTtl) = true
  case neg =>
    simp only [valid, Bool.not_false, ↓reduceIte]
    exact ⟨_, _, _, rfl, rfl, rfl, checked⟩
  simp only [valid, Bool.not_true, Bool.false_eq_true, ↓reduceIte]
  generalize expiry clock (ttl.effective ordered.defaultTtl) = expiry
  obtain ⟨expiresAt, reads⟩ := expiry
  rcases ordered.data.position key with ⟨-, absent, nowhere⟩ | ⟨front, old, back, items, -, held,
    position⟩
  · simp only [absent, nowhere, ↓reduceIte, Dict.size]
    by_cases full : ordered.capacity ≤ ordered.data.items.length
    · simp only [full, ↓reduceIte]
      cases items : ordered.data.items with
      | nil =>
          rw [items] at full
          exact absurd (Nat.le_trans checked.positive full) (by simp)
      | cons first rest =>
          obtain ⟨shorter, popped, rfl⟩ := Dict.popFirst_of_cons items
          have stillAbsent : key ∉ shorter.keys := by
            intro present
            apply absent
            rw [Dict.keys, items]
            exact List.mem_cons_of_mem _ present
          simp only [popped, Option.bind_eq_bind, Option.bind_some]
          refine ⟨_, _, _, rfl, rfl, ?_, checked⟩
          simp only [OrderedDictLRUTTLCache.reference, Dict.assign_of_notMem stillAbsent]
    · simp only [full, ↓reduceIte]
      refine ⟨_, _, _, rfl, rfl, ?_, checked⟩
      simp only [OrderedDictLRUTTLCache.reference, Dict.assign_of_notMem absent]
  · simp only [held, position, ↓reduceIte]
    refine ⟨_, _, _, rfl, rfl, ?_, checked⟩
    simp only [OrderedDictLRUTTLCache.reference, Dict.eraseIdx_of_append items,
      Dict.moveToEnd_assign, Dict.push_items]

/-- The dictionary and the list answer every operation alike. -/
theorem reference_simulates {input : Input Key Value Time} (finite : FiniteInput input) :
    Play.Simulates OrderedDictLRUTTLCache.step ReferenceLRUTTLCache.step SameEntries input := by
  intro ordered reference same
  obtain ⟨rfl, checked⟩ := same
  obtain ⟨operation, clock⟩ := input
  cases operation with
  | put key value ttl =>
      apply reference_put checked clock key value
      intro given named
      exact finite key value given (by rw [named])
  | get key default => exact reference_get checked clock key default
  | delete key =>
      simp only [OrderedDictLRUTTLCache.step, ReferenceLRUTTLCache.step,
        OrderedDictLRUTTLCache.delete, ReferenceLRUTTLCache.delete, ReferenceLRUTTLCache.find,
        OrderedDictLRUTTLCache.reference]
      rcases ordered.data.position key with ⟨missing, absent, nowhere⟩ | ⟨front, value, back,
        items, found, -, position⟩
      · rw [missing, nowhere]
        refine ⟨_, _, _, rfl, rfl, ?_, checked⟩
        simp only [OrderedDictLRUTTLCache.reference, Dict.erase_of_notMem absent]
      · rw [found, position]
        refine ⟨_, _, _, rfl, rfl, ?_, checked⟩
        simp only [OrderedDictLRUTTLCache.reference, Dict.eraseIdx_of_append items]
  | contains key =>
      simp only [OrderedDictLRUTTLCache.step, ReferenceLRUTTLCache.step,
        OrderedDictLRUTTLCache.contains, ReferenceLRUTTLCache.contains,
        ReferenceLRUTTLCache.find, OrderedDictLRUTTLCache.reference]
      rcases ordered.data.position key with ⟨missing, absent, nowhere⟩ | ⟨front, value, back,
        items, found, -, position⟩
      · rw [missing, nowhere]
        exact ⟨_, _, _, rfl, rfl, rfl, checked⟩
      · simp only [found, position, Dict.getElem?_of_append items, Option.bind_eq_bind,
          Option.bind_some]
        exact ⟨_, _, _, rfl, rfl, rfl, checked⟩
  | len => exact ⟨_, _, _, rfl, rfl, rfl, checked⟩

end Reference

/-! ## The heap -/

open LinkedList

/-- A node in use, with its address. -/
structure Cell (Key Value Time : Type) where
  ref : Ref
  key : Key
  value : Value
  expiresAt : Option Time

/-- The cell as an item of a dictionary. -/
def Cell.item (cell : Cell Key Value Time) : Key × Value × Option Time :=
  (cell.key, cell.value, cell.expiresAt)

namespace LRUTTLCache

variable {cache next : LRUTTLCache Key Value Time}

@[simp] theorem links_setPrev (node : Ref) (prev : Option Ref) :
    (cache.setPrev node prev).links =
      { cache.links with prev := Function.update cache.links.prev node prev } := by
  apply Links.ext
  · funext other
    by_cases same : other = node <;> simp [links, setPrev, Function.update_apply, same]
  · funext other
    by_cases same : other = node <;> simp [links, setPrev, Function.update_apply, same]

@[simp] theorem links_setNext (node : Ref) (next : Option Ref) :
    (cache.setNext node next).links =
      { cache.links with next := Function.update cache.links.next node next } := by
  apply Links.ext
  · funext other
    by_cases same : other = node <;> simp [links, setNext, Function.update_apply, same]
  · funext other
    by_cases same : other = node <;> simp [links, setNext, Function.update_apply, same]

/-- Only pointers have changed. -/
structure Relinked (cache next : LRUTTLCache Key Value Time) : Prop where
  key : ∀ node, (next.heap node).key = (cache.heap node).key
  value : ∀ node, (next.heap node).value = (cache.heap node).value
  expiresAt : ∀ node, (next.heap node).expiresAt = (cache.heap node).expiresAt
  index : next.index = cache.index
  allocated : next.allocated = cache.allocated
  capacity : next.capacity = cache.capacity
  defaultTtl : next.defaultTtl = cache.defaultTtl
  stats : next.stats = cache.stats

theorem Relinked.trans {last : LRUTTLCache Key Value Time} (first : Relinked cache next)
    (second : Relinked next last) : Relinked cache last where
  key node := (second.key node).trans (first.key node)
  value node := (second.value node).trans (first.value node)
  expiresAt node := (second.expiresAt node).trans (first.expiresAt node)
  index := second.index.trans first.index
  allocated := second.allocated.trans first.allocated
  capacity := second.capacity.trans first.capacity
  defaultTtl := second.defaultTtl.trans first.defaultTtl
  stats := second.stats.trans first.stats

theorem relinked_setPrev (node : Ref) (prev : Option Ref) :
    Relinked cache (cache.setPrev node prev) := by
  constructor <;> first | rfl | (intro other; by_cases same : other = node <;>
    simp [setPrev, same])

theorem relinked_setNext (node : Ref) (next : Option Ref) :
    Relinked cache (cache.setNext node next) := by
  constructor <;> first | rfl | (intro other; by_cases same : other = node <;>
    simp [setNext, same])

/-- `_unlink` takes a node out of the list. -/
theorem unlink_eq {head tail node : Ref} {front back : List Ref}
    (between : Between cache.links head (front ++ node :: back) tail) :
    ∃ next, cache.unlink node = some next ∧ Relinked cache next ∧
      Between next.links head (front ++ back) tail := by
  obtain ⟨before, after, backward, forward, shorter⟩ := between.unlink
  change (cache.heap node).prev = some before at backward
  change (cache.heap node).next = some after at forward
  refine ⟨_, by simp only [unlink, backward, forward, Option.bind_eq_bind, Option.bind_some]; rfl,
    ?_, ?_⟩
  · exact (((relinked_setNext _ _).trans (relinked_setPrev _ _)).trans
      (relinked_setPrev _ _)).trans (relinked_setNext _ _)
  · simp only [links_setNext, links_setPrev]
    exact shorter

/-- `_push_front` puts a new node at the front of the list. -/
theorem pushFront_eq {tail node : Ref} {nodes : List Ref}
    (between : Between cache.links head nodes tail) (fresh : node ∉ head :: (nodes ++ [tail])) :
    ∃ next, cache.pushFront node = some next ∧ Relinked cache next ∧
      Between next.links head (node :: nodes) tail := by
  obtain ⟨after, forward, longer⟩ := between.link fresh
  change (cache.heap head).next = some after at forward
  refine ⟨_, by simp only [pushFront, forward, Option.bind_eq_bind, Option.bind_some]; rfl, ?_, ?_⟩
  · exact (((relinked_setPrev _ _).trans (relinked_setNext _ _)).trans
      (relinked_setNext _ _)).trans (relinked_setPrev _ _)
  · simp only [links_setNext, links_setPrev]
    exact longer

/-- A node of the heap holds the data of a cell. -/
def Holds (cache : LRUTTLCache Key Value Time) (cell : Cell Key Value Time) : Prop :=
  (cache.heap cell.ref).key = some cell.key ∧ (cache.heap cell.ref).value = some cell.value ∧
    (cache.heap cell.ref).expiresAt = cell.expiresAt

/-- The heap holds the cells, linked from the most to the least recently used, and
the index knows where. -/
structure Represents (cache : LRUTTLCache Key Value Time) (cells : List (Cell Key Value Time)) :
    Prop where
  links : Between cache.links head (cells.map Cell.ref) tail
  holds : ∀ cell ∈ cells, cache.Holds cell
  index : cache.index.items.Perm (cells.map fun cell => (cell.key, cell.ref))
  allocated : ∀ node ∈ head :: (cells.map Cell.ref ++ [tail]), node < cache.allocated

variable {cells front back : List (Cell Key Value Time)} {cell : Cell Key Value Time}

theorem Represents.size (represents : cache.Represents cells) : cache.index.size = cells.length := by
  rw [Dict.size, represents.index.length_eq, List.length_map]

theorem Represents.nodup (represents : cache.Represents cells) : (cells.map Cell.ref).Nodup := by
  have nodup := represents.links.2
  rw [List.nodup_cons, List.nodup_append] at nodup
  exact nodup.2.1

theorem Relinked.holds (relinked : Relinked cache next) (holds : cache.Holds cell) :
    next.Holds cell :=
  ⟨(relinked.key _).trans holds.1, (relinked.value _).trans holds.2.1,
    (relinked.expiresAt _).trans holds.2.2⟩

/-- Relinking the cells reorders them. -/
theorem Represents.relinked {reordered : List (Cell Key Value Time)}
    (represents : cache.Represents cells) (relinked : Relinked cache next)
    (perm : reordered.Perm cells) (links : Between next.links head (reordered.map Cell.ref) tail) :
    next.Represents reordered where
  links := links
  holds cell present := relinked.holds (represents.holds cell (perm.mem_iff.mp present))
  index := by
    rw [relinked.index]
    exact represents.index.trans (perm.map _).symm
  allocated node present := by
    rw [relinked.allocated]
    apply represents.allocated node
    have refs := (perm.map Cell.ref).mem_iff (a := node)
    rw [List.mem_cons, List.mem_append] at present ⊢
    rwa [refs] at present

/-- `_move_to_front`. -/
theorem Represents.moveToFront (represents : cache.Represents (front ++ cell :: back)) :
    ∃ next, cache.moveToFront cell.ref = some next ∧ Relinked cache next ∧
      next.Represents (cell :: (front ++ back)) := by
  have links := represents.links
  rw [List.map_append, List.map_cons] at links
  have nodup := represents.links.2
  obtain ⟨unlinked, taken, first, shorter⟩ := unlink_eq links
  have fresh : cell.ref ∉ head :: (front.map Cell.ref ++ back.map Cell.ref ++ [tail]) := by
    rw [List.map_append, List.map_cons, List.append_assoc, List.cons_append, ← List.cons_append,
      List.nodup_middle, List.nodup_cons] at nodup
    rw [List.append_assoc, ← List.cons_append]
    exact nodup.1
  obtain ⟨next, pushed, second, longer⟩ := pushFront_eq shorter fresh
  refine ⟨next, by simp only [LRUTTLCache.moveToFront, taken, Option.bind_eq_bind, Option.bind_some, pushed],
    first.trans second, ?_⟩
  apply represents.relinked (first.trans second) List.perm_middle.symm
  rw [List.map_cons, List.map_append]
  exact longer

/-- Writing the data of a node leaves the links alone. -/
theorem links_update (node : Ref) (data : Node Key Value Time)
    (prev : data.prev = (cache.heap node).prev) (next : data.next = (cache.heap node).next) :
    { cache with heap := Function.update cache.heap node data }.links = cache.links := by
  apply Links.ext
  · funext other
    by_cases same : other = node
    · subst same
      simpa [links] using prev
    · simp [links, same]
  · funext other
    by_cases same : other = node
    · subst same
      simpa [links] using next
    · simp [links, same]

/-- A cell gets another value and expiry. -/
theorem Represents.update (represents : cache.Represents (front ++ cell :: back)) (value : Value)
    (expiresAt : Option Time) :
    { cache with
      heap := Function.update cache.heap cell.ref
        { cache.heap cell.ref with value := some value, expiresAt } }.Represents
      (front ++ { cell with value, expiresAt } :: back) where
  links := by
    rw [links_update]
    · simpa using represents.links
    · rfl
    · rfl
  holds other present := by
    have nodup := represents.nodup
    rw [List.map_append, List.map_cons, List.nodup_middle, List.nodup_cons, ← List.map_append]
      at nodup
    rw [List.mem_append, List.mem_cons] at present
    by_cases this : other = { cell with value, expiresAt }
    · rw [this]
      have key := (represents.holds cell (by simp)).1
      simp [Holds, key]
    · have among : other ∈ front ++ back := by
        rw [List.mem_append]
        tauto
      have held := represents.holds other (by
        rw [List.mem_append, List.mem_cons]
        rw [List.mem_append] at among
        tauto)
      have apart : other.ref ≠ cell.ref := by
        intro same
        exact nodup.1 (List.mem_map.mpr ⟨other, among, same⟩)
      simpa [Holds, Function.update_of_ne apart] using held
  index := by simpa using represents.index
  allocated := by simpa using represents.allocated

variable [DecidableEq Key]

theorem Represents.get? (represents : cache.Represents cells) (present : cell ∈ cells) :
    cache.index.get? cell.key = some cell.ref := by
  rw [Dict.get?_eq_some, represents.index.mem_iff]
  exact List.mem_map_of_mem (f := fun cell : Cell Key Value Time => (cell.key, cell.ref)) present

/-- A cell taken out of the list and out of the index. -/
theorem Represents.unlink (represents : cache.Represents (front ++ cell :: back)) :
    ∃ next, { cache with index := cache.index.erase cell.key }.unlink cell.ref = some next ∧
      Relinked { cache with index := cache.index.erase cell.key } next ∧
      next.Represents (front ++ back) := by
  have links := represents.links
  rw [List.map_append, List.map_cons] at links
  have erased : Between { cache with index := cache.index.erase cell.key }.links head
      (front.map Cell.ref ++ cell.ref :: back.map Cell.ref) tail := links
  obtain ⟨next, taken, relinked, shorter⟩ := unlink_eq erased
  refine ⟨next, taken, relinked, ?_⟩
  constructor
  · rw [List.map_append]
    exact shorter
  · intro other present
    apply relinked.holds
    apply represents.holds other
    exact List.mem_append.mpr ((List.mem_append.mp present).imp_right (List.mem_cons_of_mem _))
  · rw [relinked.index]
    exact Dict.erase_perm (represents.index.trans (List.perm_middle.map _))
  · intro node present
    rw [relinked.allocated]
    apply represents.allocated node
    simp only [List.map_append, List.map_cons, List.mem_cons, List.mem_append] at present ⊢
    tauto

/-- `_remove_node`. -/
theorem Represents.removeNode (represents : cache.Represents (front ++ cell :: back)) :
    ∃ next, cache.removeNode cell.ref = some next ∧
      Relinked { cache with index := cache.index.erase cell.key } next ∧
      next.Represents (front ++ back) := by
  have present : cell ∈ front ++ cell :: back := by simp
  obtain ⟨next, taken, relinked, rest⟩ := represents.unlink
  have key := (represents.holds cell present).1
  have found := represents.get? present
  refine ⟨next, ?_, relinked, rest⟩
  simp only [LRUTTLCache.removeNode, key, found, Option.bind_eq_bind, Option.bind_some, taken]

/-- A new node takes the key in the index and goes to the front. -/
theorem Represents.insert (represents : cache.Represents cells) {key : Key} (value : Value)
    (expiresAt : Option Time) (absent : key ∉ cache.index.keys) :
    ∃ next, { cache with
        heap := Function.update cache.heap cache.allocated
          { key := some key, value := some value, expiresAt }
        allocated := cache.allocated + 1
        index := cache.index.assign key cache.allocated }.pushFront cache.allocated = some next ∧
      next.capacity = cache.capacity ∧ next.defaultTtl = cache.defaultTtl ∧
      next.stats = cache.stats ∧
      next.Represents ({ ref := cache.allocated, key, value, expiresAt } :: cells) := by
  have fresh : cache.allocated ∉ head :: (cells.map Cell.ref ++ [tail]) := by
    intro present
    exact absurd (represents.allocated _ present) (Nat.lt_irrefl _)
  have apart {node : Ref} (present : node ∈ head :: (cells.map Cell.ref ++ [tail])) :
      node ≠ cache.allocated := by
    intro same
    exact fresh (same ▸ present)
  have links : Between { cache with
        heap := Function.update cache.heap cache.allocated
          { key := some key, value := some value, expiresAt }
        allocated := cache.allocated + 1
        index := cache.index.assign key cache.allocated }.links head (cells.map Cell.ref) tail := by
    apply represents.links.congr
    intro node present
    simp [LRUTTLCache.links, Function.update_of_ne (apart present)]
  obtain ⟨next, pushed, relinked, longer⟩ := pushFront_eq links fresh
  refine ⟨next, pushed, relinked.capacity, relinked.defaultTtl, relinked.stats, ?_⟩
  constructor
  · exact longer
  · intro cell present
    apply relinked.holds
    rcases List.mem_cons.mp present with rfl | old
    · simp [Holds]
    · have among : cell.ref ∈ head :: (cells.map Cell.ref ++ [tail]) := by
        apply List.mem_cons_of_mem
        exact List.mem_append_left _ (List.mem_map_of_mem old)
      simpa [Holds, Function.update_of_ne (apart among)] using represents.holds cell old
  · rw [relinked.index, Dict.assign_of_notMem absent, List.map_cons]
    exact (List.perm_append_singleton _ _).trans (represents.index.cons _)
  · intro node present
    rw [relinked.allocated]
    simp only [List.map_cons, List.mem_cons, List.cons_append] at present
    rcases present with rfl | rfl | old
    · exact Nat.lt_succ_of_lt (represents.allocated _ List.mem_cons_self)
    · exact Nat.lt_succ_self _
    · exact Nat.lt_succ_of_lt (represents.allocated node (List.mem_cons_of_mem _ old))

variable [Seconds Time]

/-- The victim of `_evict_one` is the last cell. -/
theorem Represents.evictOne (represents : cache.Represents (front ++ [cell])) (now : Time) :
    ∃ next, cache.evictOne now = some next ∧ next.Represents front ∧
      next.capacity = cache.capacity ∧ next.defaultTtl = cache.defaultTtl ∧
      next.index = cache.index.erase cell.key ∧
      next.stats =
        if expired now cell.expiresAt = true then
          { cache.stats with expirations := cache.stats.expirations + 1 }
        else { cache.stats with evictions := cache.stats.evictions + 1 } := by
  have links := represents.links
  have nodup := links.2
  rw [List.map_append, List.map_singleton] at links nodup
  have last : (cache.heap tail).prev = some cell.ref := links.last
  have apart : cell.ref ≠ head := by
    intro same
    rw [List.nodup_cons] at nodup
    exact nodup.1 (by simp [same])
  obtain ⟨next, removed, relinked, rest⟩ := represents.removeNode
  have expiresAt := (represents.holds cell (by simp)).2.2
  rw [List.append_nil] at rest
  by_cases late : expired now cell.expiresAt = true
  · refine ⟨{ next with stats := { next.stats with expirations := next.stats.expirations + 1 } },
      ?_, ⟨rest.links, rest.holds, rest.index, rest.allocated⟩, relinked.capacity,
      relinked.defaultTtl, relinked.index, ?_⟩
    · simp only [LRUTTLCache.evictOne, last, apart, removed, expiresAt, late,
        Option.bind_eq_bind, Option.bind_some, ↓reduceIte]
    · rw [if_pos late, relinked.stats]
  · refine ⟨{ next with stats := { next.stats with evictions := next.stats.evictions + 1 } },
      ?_, ⟨rest.links, rest.holds, rest.index, rest.allocated⟩, relinked.capacity,
      relinked.defaultTtl, relinked.index, ?_⟩
    · simp only [LRUTTLCache.evictOne, last, apart, removed, expiresAt, late,
        Option.bind_eq_bind, Option.bind_some, ↓reduceIte, Bool.false_eq_true]
    · rw [if_neg late, relinked.stats]

end LRUTTLCache

/-! ## The heap and the dictionary -/

variable [Seconds Time]

/-- The heap holds the items of the dictionary, as these cells. -/
structure Stores (linked : LRUTTLCache Key Value Time)
    (ordered : OrderedDictLRUTTLCache Key Value Time) (cells : List (Cell Key Value Time)) :
    Prop where
  represents : linked.Represents cells
  items : ordered.data.items = cells.reverse.map Cell.item
  capacity : linked.capacity = ordered.capacity
  defaultTtl : linked.defaultTtl = ordered.defaultTtl
  stats : linked.stats = ordered.stats
  checked : Checked ordered.capacity ordered.defaultTtl

/-- The heap holds the items of the dictionary. -/
def SameItems (linked : LRUTTLCache Key Value Time)
    (ordered : OrderedDictLRUTTLCache Key Value Time) : Prop :=
  ∃ cells, Stores linked ordered cells

variable {linked : LRUTTLCache Key Value Time} {ordered : OrderedDictLRUTTLCache Key Value Time}
  {cells : List (Cell Key Value Time)}

/-- The position of a cell's item in the dictionary. -/
theorem Stores.split {front back : List (Cell Key Value Time)} {cell : Cell Key Value Time}
    (stores : Stores linked ordered (front ++ cell :: back)) :
    ordered.data.items = back.reverse.map Cell.item ++
      (cell.key, cell.value, cell.expiresAt) :: front.reverse.map Cell.item := by
  rw [stores.items]
  simp [Cell.item]

/-- The links give the recency order of the dictionary. -/
theorem Stores.recency (stores : Stores linked ordered cells) :
    linked.recency = ordered.recency := by
  have order := stores.represents.links.walk
  rw [List.length_map, ← stores.represents.size] at order
  rw [LRUTTLCache.recency, order, OrderedDictLRUTTLCache.recency, Dict.keys, stores.items,
    List.map_map, List.map_map, ← List.map_reverse, List.reverse_reverse, List.map_map]
  apply List.map_congr_left
  intro cell present
  exact (stores.represents.holds cell present).1

variable [DecidableEq Key]

/-- Both caches find a key, or neither does. -/
theorem Stores.lookup (stores : Stores linked ordered cells) (key : Key) :
    (linked.index.get? key = none ∧ ordered.data.get? key = none) ∨
      ∃ front cell back, cells = front ++ cell :: back ∧ cell.key = key ∧
        linked.index.get? key = some cell.ref ∧
        ordered.data.get? key = some (cell.value, cell.expiresAt) := by
  by_cases held : ∃ cell ∈ cells, cell.key = key
  · obtain ⟨cell, present, rfl⟩ := held
    obtain ⟨front, back, rfl⟩ := List.append_of_mem present
    exact Or.inr ⟨front, cell, back, rfl, rfl, stores.represents.get? present,
      Dict.get?_of_append stores.split⟩
  · refine Or.inl ⟨?_, ?_⟩
    · rw [Dict.get?_eq_none, Dict.keys, (stores.represents.index.map Prod.fst).mem_iff,
        List.map_map, List.mem_map]
      exact held
    · rw [Dict.get?_eq_none, Dict.keys, stores.items, List.map_map, List.mem_map]
      intro found
      obtain ⟨cell, present, named⟩ := found
      exact held ⟨cell, List.mem_reverse.mp present, named⟩

theorem Stores.get (stores : Stores linked ordered cells) (clock : Nat → Time) (key : Key)
    (default : Option Value) :
    ∃ reply next next', linked.get clock key default = some (reply, next) ∧
      some (ordered.get clock key default) = some (reply, next') ∧ SameItems next next' := by
  unfold LRUTTLCache.get OrderedDictLRUTTLCache.get
  rcases stores.lookup key with ⟨missing, absent⟩ | ⟨front, cell, back, rfl, rfl, node, found⟩
  · rw [missing, absent]
    refine ⟨_, _, _, rfl, rfl, cells, ?_⟩
    exact ⟨⟨stores.represents.links, stores.represents.holds, stores.represents.index,
      stores.represents.allocated⟩, stores.items, stores.capacity, stores.defaultTtl,
      by rw [stores.stats], stores.checked⟩
  · have held := stores.represents.holds cell (by simp)
    simp only [node, found, held.2.2]
    by_cases late : expired (clock 0) cell.expiresAt = true
    · obtain ⟨next, removed, relinked, rest⟩ := stores.represents.removeNode
      simp only [late, ↓reduceIte, removed, Option.bind_eq_bind, Option.bind_some]
      refine ⟨_, _, _, rfl, rfl, front ++ back, ?_⟩
      refine ⟨⟨rest.links, rest.holds, rest.index, rest.allocated⟩, ?_,
        relinked.capacity.trans stores.capacity, relinked.defaultTtl.trans stores.defaultTtl, ?_,
        stores.checked⟩
      · rw [Dict.erase_of_append stores.split]
        simp
      · rw [relinked.stats, stores.stats]
    · obtain ⟨next, moved, relinked, rest⟩ := stores.represents.moveToFront
      have value := (relinked.holds held).2.1
      simp only [late, ↓reduceIte, moved, Option.bind_eq_bind, Option.bind_some, value,
        Bool.false_eq_true]
      refine ⟨_, _, _, rfl, rfl, cell :: (front ++ back), ?_⟩
      refine ⟨⟨rest.links, rest.holds, rest.index, rest.allocated⟩, ?_,
        relinked.capacity.trans stores.capacity, relinked.defaultTtl.trans stores.defaultTtl, ?_,
        stores.checked⟩
      · simp only [Dict.moveToEnd, found, Dict.push_of_append stores.split]
        simp [Cell.item]
      · rw [relinked.stats, stores.stats]

/-- A key that is not held goes to a new node, and to the end of the dictionary. -/
theorem Stores.insert (stores : Stores linked ordered cells) {key : Key} (value : Value)
    (expiresAt : Option Time) (absent : key ∉ linked.index.keys)
    (orderedAbsent : key ∉ ordered.data.keys) :
    ∃ next, { linked with
        heap := Function.update linked.heap linked.allocated
          { key := some key, value := some value, expiresAt }
        allocated := linked.allocated + 1
        index := linked.index.assign key linked.allocated }.pushFront linked.allocated = some next ∧
      SameItems next { ordered with data := ordered.data.assign key (value, expiresAt) } := by
  obtain ⟨next, pushed, capacity, defaultTtl, stats, represents⟩ :=
    stores.represents.insert value expiresAt absent
  refine ⟨next, pushed, _, represents, ?_, capacity.trans stores.capacity,
    defaultTtl.trans stores.defaultTtl, stats.trans stores.stats, stores.checked⟩
  rw [Dict.assign_of_notMem orderedAbsent, stores.items]
  simp [Cell.item]

/-- Both caches drop the item used longest ago. -/
theorem Stores.evict {front : List (Cell Key Value Time)} {cell : Cell Key Value Time}
    (stores : Stores linked ordered (front ++ [cell])) (now : Time) :
    ∃ next data, linked.evictOne now = some next ∧
      ordered.data.popFirst = some (cell.item, data) ∧ data = ordered.data.erase cell.key ∧
      next.index = linked.index.erase cell.key ∧
      Stores next
        { ordered with
          data
          stats :=
            if expired now cell.expiresAt = true then
              { ordered.stats with expirations := ordered.stats.expirations + 1 }
            else { ordered.stats with evictions := ordered.stats.evictions + 1 } } front := by
  obtain ⟨next, evicted, represents, capacity, defaultTtl, index, stats⟩ :=
    stores.represents.evictOne now
  have items : ordered.data.items = cell.item :: front.reverse.map Cell.item := by
    rw [stores.items]
    simp
  obtain ⟨data, popped, rest⟩ := Dict.popFirst_of_cons items
  refine ⟨next, data, evicted, popped, ?_, index, represents, rest,
    capacity.trans stores.capacity, defaultTtl.trans stores.defaultTtl, ?_, stores.checked⟩
  · apply Dict.ext
    have first : ordered.data.items = [] ++ cell.item :: front.reverse.map Cell.item := items
    rw [rest, Dict.erase_of_append first]
    rfl
  · rw [stats, stores.stats]

theorem Stores.put (stores : Stores linked ordered cells) (clock : Nat → Time) (key : Key)
    (value : Value) (ttl : Ttl Time) :
    ∃ reply next next', linked.put clock key value ttl = some (reply, next) ∧
      ordered.put clock key value ttl = some (reply, next') ∧ SameItems next next' := by
  unfold LRUTTLCache.put OrderedDictLRUTTLCache.put
  rw [stores.defaultTtl, stores.capacity]
  by_cases valid : validTtl (ttl.effective ordered.defaultTtl) = true
  · simp only [valid, Bool.not_true, Bool.false_eq_true, ↓reduceIte]
    generalize expiry clock (ttl.effective ordered.defaultTtl) = expiry
    obtain ⟨expiresAt, reads⟩ := expiry
    rcases stores.lookup key with ⟨missing, absent⟩ | ⟨front, cell, back, rfl, rfl, node, found⟩
    · have indexAbsent := Dict.get?_eq_none.mp missing
      have dataAbsent := Dict.get?_eq_none.mp absent
      have sizes : linked.index.size = ordered.data.size := by
        rw [stores.represents.size, Dict.size, stores.items, List.length_map, List.length_reverse]
      simp only [missing, dataAbsent, sizes, ↓reduceIte]
      by_cases full : ordered.capacity ≤ ordered.data.size
      · simp only [full, ↓reduceIte]
        rcases cells.eq_nil_or_concat with rfl | ⟨front, cell, rfl⟩
        · rw [Dict.size, stores.items] at full
          exact absurd (Nat.le_trans stores.checked.positive full) (by simp)
        · rw [List.concat_eq_append] at stores
          obtain ⟨evicted, data, victim, popped, erased, index, rest⟩ := stores.evict (clock reads)
          have indexStill : key ∉ evicted.index.keys := by
            rw [index, ← Dict.get?_eq_none, Dict.get?_erase, missing, ite_self]
          have dataStill : key ∉ data.keys := by
            rw [erased, ← Dict.get?_eq_none, Dict.get?_erase, absent, ite_self]
          obtain ⟨next, pushed, same⟩ := rest.insert value expiresAt indexStill dataStill
          simp only [victim, popped, Cell.item, Option.bind_eq_bind, Option.bind_some, pushed]
          exact ⟨_, _, _, rfl, rfl, same⟩
      · simp only [full, ↓reduceIte]
        obtain ⟨next, pushed, same⟩ := stores.insert value expiresAt indexAbsent dataAbsent
        simp only [pushed, Option.bind_eq_bind, Option.bind_some]
        exact ⟨_, _, _, rfl, rfl, same⟩
    · have held : cell.key ∈ ordered.data.keys := Dict.mem_keys.mpr ⟨_, found⟩
      obtain ⟨next, moved, relinked, rest⟩ :=
        (stores.represents.update value expiresAt).moveToFront
      simp only [stores.capacity, stores.defaultTtl] at moved
      simp only [node, held, ↓reduceIte, moved, Option.bind_eq_bind, Option.bind_some]
      refine ⟨_, _, _, rfl, rfl, _, rest, ?_, relinked.capacity.trans stores.capacity,
        relinked.defaultTtl.trans stores.defaultTtl, relinked.stats.trans stores.stats,
        stores.checked⟩
      simp only [Dict.moveToEnd_assign, Dict.push_of_append stores.split]
      simp [Cell.item]
  · simp only [valid, Bool.not_false, ↓reduceIte]
    exact ⟨_, _, _, rfl, rfl, cells, stores⟩

/-- The heap and the dictionary answer every operation alike. -/
theorem linked_simulates (input : Input Key Value Time) :
    Play.Simulates LRUTTLCache.step OrderedDictLRUTTLCache.step SameItems input := by
  intro linked ordered same
  obtain ⟨cells, stores⟩ := same
  obtain ⟨operation, clock⟩ := input
  cases operation with
  | put key value ttl => exact stores.put clock key value ttl
  | get key default => exact stores.get clock key default
  | delete key =>
      simp only [LRUTTLCache.step, OrderedDictLRUTTLCache.step, LRUTTLCache.delete,
        OrderedDictLRUTTLCache.delete]
      rcases stores.lookup key with ⟨missing, absent⟩ | ⟨front, cell, back, rfl, rfl, node, found⟩
      · rw [missing, absent, Dict.erase_of_notMem (Dict.get?_eq_none.mp absent)]
        exact ⟨_, _, _, rfl, rfl, cells, stores⟩
      · obtain ⟨next, taken, relinked, rest⟩ := stores.represents.unlink
        simp only [node, found, taken, Option.bind_eq_bind, Option.bind_some]
        refine ⟨_, _, _, rfl, rfl, front ++ back, rest, ?_,
          relinked.capacity.trans stores.capacity, relinked.defaultTtl.trans stores.defaultTtl,
          relinked.stats.trans stores.stats, stores.checked⟩
        rw [Dict.erase_of_append stores.split]
        simp
  | contains key =>
      simp only [LRUTTLCache.step, OrderedDictLRUTTLCache.step, LRUTTLCache.contains,
        OrderedDictLRUTTLCache.contains]
      rcases stores.lookup key with ⟨missing, absent⟩ | ⟨front, cell, back, rfl, rfl, node, found⟩
      · rw [missing, absent]
        exact ⟨_, _, _, rfl, rfl, cells, stores⟩
      · have held := stores.represents.holds cell (by simp)
        simp only [node, found, held.2.2]
        exact ⟨_, _, _, rfl, rfl, _, stores⟩
  | len =>
      refine ⟨_, _, _, rfl, ?_, cells, stores⟩
      simp only [OrderedDictLRUTTLCache.step]
      rw [stores.represents.size, Dict.size, stores.items, List.length_map, List.length_reverse]

/-! ## Agreement -/

omit [DecidableEq Key] in
/-- The constructors accept the same arguments, and start with no items. -/
theorem new_alike {capacity : Nat} {defaultTtl : Option Time}
    (built : LRUTTLCache.new capacity defaultTtl = some linked) :
    ∃ ordered : OrderedDictLRUTTLCache Key Value Time,
      OrderedDictLRUTTLCache.new capacity defaultTtl = some ordered ∧
      ReferenceLRUTTLCache.new capacity defaultTtl = some ordered.reference ∧
      SameItems linked ordered ∧ Checked ordered.capacity ordered.defaultTtl := by
  unfold LRUTTLCache.new at built
  split at built
  · exact nomatch built
  · next large =>
      split at built
      · exact nomatch built
      · next accepted =>
          have valid : validTtl defaultTtl = true := by simpa using accepted
          have checked : Checked capacity defaultTtl := ⟨Nat.le_of_not_lt large, valid⟩
          refine ⟨{ capacity, defaultTtl, data := .empty, stats := {} }, ?_, ?_, ⟨[], ?_⟩, checked⟩
          · simp [OrderedDictLRUTTLCache.new, large, valid]
          · simp [ReferenceLRUTTLCache.new, large, acceptsTtl_eq (finite_of_valid valid), valid,
              OrderedDictLRUTTLCache.reference, Dict.empty]
          · rw [← Option.some.inj built]
            refine ⟨⟨⟨⟨rfl, rfl, trivial⟩, by simp [LRUTTLCache.head, LRUTTLCache.tail]⟩, ?_, .nil, ?_⟩, rfl, rfl, rfl, rfl, checked⟩
            · intro cell present
              exact absurd present List.not_mem_nil
            · intro node present
              have bound : ∀ node ∈ [LRUTTLCache.head, LRUTTLCache.tail], node < 2 := by decide
              exact bound node present

/-- **The caches agree.** On operations whose `ttl` is finite, the three caches give
the same replies, and the first two have the same statistics and recency order
after every step. -/
theorem caches_agree {capacity : Nat} {defaultTtl : Option Time}
    (built : LRUTTLCache.new capacity defaultTtl = some linked)
    {inputs : List (Input Key Value Time)} (finite : ∀ input ∈ inputs, FiniteInput input) :
    ∃ ordered reference linkedAnswers orderedAnswers referenceAnswers,
      OrderedDictLRUTTLCache.new capacity defaultTtl = some ordered ∧
      ReferenceLRUTTLCache.new capacity defaultTtl = some reference ∧
      Play.play LRUTTLCache.step linked inputs = some linkedAnswers ∧
      Play.play OrderedDictLRUTTLCache.step ordered inputs = some orderedAnswers ∧
      Play.play ReferenceLRUTTLCache.step reference inputs = some referenceAnswers ∧
      linkedAnswers.map Prod.fst = orderedAnswers.map Prod.fst ∧
      orderedAnswers.map Prod.fst = referenceAnswers.map Prod.fst ∧
      (linkedAnswers.map fun answer => answer.2.stats) =
        (orderedAnswers.map fun answer => answer.2.stats) ∧
      (linkedAnswers.map fun answer => answer.2.recency) =
        orderedAnswers.map fun answer => answer.2.recency := by
  obtain ⟨ordered, orderedBuilt, referenceBuilt, sameItems, checked⟩ := new_alike built
  obtain ⟨linkedAnswers, orderedAnswers, linkedPlayed, orderedPlayed, linkedAlike⟩ :=
    Play.play_simulates (fun input _ => linked_simulates input) sameItems
  have sameEntries : SameEntries ordered ordered.reference := ⟨rfl, checked⟩
  obtain ⟨again, referenceAnswers, againPlayed, referencePlayed, referenceAlike⟩ :=
    Play.play_simulates (fun input present => reference_simulates (finite input present))
      sameEntries
  obtain rfl : orderedAnswers = again := Option.some.inj (orderedPlayed.symm.trans againPlayed)
  refine ⟨ordered, ordered.reference, linkedAnswers, orderedAnswers, referenceAnswers, orderedBuilt,
    referenceBuilt, linkedPlayed, orderedPlayed, referencePlayed, ?_, ?_, ?_, ?_⟩
  · apply Play.map_eq_of_forall₂ linkedAlike
    intro reply linked ordered same
    rfl
  · apply Play.map_eq_of_forall₂ referenceAlike
    intro reply ordered reference same
    rfl
  · apply Play.map_eq_of_forall₂ linkedAlike
    intro reply linked ordered same
    obtain ⟨cells, stores⟩ := same
    exact stores.stats
  · apply Play.map_eq_of_forall₂ linkedAlike
    intro reply linked ordered same
    obtain ⟨cells, stores⟩ := same
    exact stores.recency

/-- Whole seconds, and infinity. -/
inductive WholeSeconds where
  | of (count : Nat)
  | infinite

instance : Seconds WholeSeconds where
  add
    | .of first, .of second => .of (first + second)
    | _, _ => .infinite
  le
    | .of first, .of second => decide (first ≤ second)
    | .infinite, .of _ => false
    | _, .infinite => true
  zero := .of 0
  isFinite
    | .of _ => true
    | .infinite => false

/-- A clock that stands still. -/
def stopped (count : Nat) : Nat → WholeSeconds := fun _ => .of count

/-- An infinite `ttl` is a `ValueError`, except to the reference. -/
theorem caches_differ_infinite :
    let inputs : List (Input Nat Nat WholeSeconds) :=
      [(.put 0 0 (.given (some .infinite)), stopped 0)]
    (((LRUTTLCache.new 1 none).bind fun cache => Play.play LRUTTLCache.step cache inputs).map
        fun answers => answers.map Prod.fst) = some [.valueError] ∧
      (((ReferenceLRUTTLCache.new 1 none).bind fun cache =>
          Play.play ReferenceLRUTTLCache.step cache inputs).map
        fun answers => answers.map Prod.fst) = some [.done] :=
  ⟨rfl, rfl⟩

/-- Two values, of which the first expires before it is asked for. -/
def lapse : List (Input Nat Nat WholeSeconds) :=
  [(.put 0 7 .useDefault, stopped 0), (.put 1 8 (.given none), stopped 1), (.get 0 none, stopped 3),
    (.get 1 none, stopped 4)]

/-- A value is gone when its time is over, one that was put later is not. -/
theorem caches_agree_lapse :
    ∃ reference answers, ReferenceLRUTTLCache.new 2 (some (.of 3)) = some reference ∧
      Play.play ReferenceLRUTTLCache.step reference lapse = some answers ∧
      answers.map Prod.fst = [.done, .done, .value none, .value (some 8)] := by
  have finite : ∀ input ∈ lapse, FiniteInput input := by
    intro input present key value ttl put seconds given
    subst given
    simp only [lapse, List.mem_cons, List.not_mem_nil, or_false] at present
    rcases present with rfl | rfl | rfl | rfl <;> exact nomatch put
  obtain ⟨ordered, reference, linkedAnswers, orderedAnswers, referenceAnswers, -, built, linked, -,
    played, alike, alike', -⟩ := caches_agree (show LRUTTLCache.new 2 (some (.of 3)) = some _ from rfl) finite
  refine ⟨reference, referenceAnswers, built, played, ?_⟩
  rw [← alike', ← alike, ← Option.some.inj linked]
  rfl

end Lru
