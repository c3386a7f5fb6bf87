import Anviq.Lru.Counters
import Mathlib.Data.List.Perm.Subperm
import Mathlib.Data.Option.Basic

/-! # A larger cache never loses a hit

Two caches of different capacities, asked the same at the same times. The smaller one always
holds a part of what the larger one holds, in the same order of use, and is smaller by at most
the difference of the capacities: so the larger one is full only when the smaller one is, and
never drops an entry that the smaller one keeps.
-/

namespace Lru

variable {Key Value Time : Type}

/-! ## The dictionaries -/

/-- The larger cache holds the items of the smaller one in the same order, and no more others
than it has more room. -/
structure Covers (small large : OrderedDictLRUTTLCache Key Value Time) : Prop where
  items : small.data.items.Sublist large.data.items
  room : large.data.size + small.capacity ≤ small.data.size + large.capacity
  defaultTtl : small.defaultTtl = large.defaultTtl
  smallPositive : 1 ≤ small.capacity
  largePositive : 1 ≤ large.capacity

namespace Covers

variable {small large : OrderedDictLRUTTLCache Key Value Time} {key : Key}

theorem mem_keys (covers : Covers small large) (held : key ∈ small.data.keys) :
    key ∈ large.data.keys :=
  (covers.items.map Prod.fst).subset held

variable [DecidableEq Key]

theorem get? (covers : Covers small large) {item : Value × Option Time}
    (found : small.data.get? key = some item) : large.data.get? key = some item := by
  rw [Dict.get?_eq_some] at found ⊢
  exact covers.items.subset found

theorem erase_items (covers : Covers small large) (key : Key) :
    (small.data.erase key).items.Sublist (large.data.erase key).items :=
  covers.items.filter _

theorem push_items (covers : Covers small large) (key : Key) (item : Value × Option Time) :
    (small.data.push key item).items.Sublist (large.data.push key item).items :=
  (covers.erase_items key).append (List.Sublist.refl _)

/-- What a key takes from the smaller cache it takes from the larger one. -/
theorem erase_room (covers : Covers small large) (key : Key) :
    (large.data.erase key).size + small.capacity ≤ (small.data.erase key).size + large.capacity := by
  have room := covers.room
  by_cases heldLarge : key ∈ large.data.keys
  · have largeSize := Dict.size_erase heldLarge
    by_cases heldSmall : key ∈ small.data.keys
    · have smallSize := Dict.size_erase heldSmall
      omega
    · rw [Dict.erase_of_notMem heldSmall]
      omega
  · rw [Dict.erase_of_notMem heldLarge,
      Dict.erase_of_notMem fun heldSmall => heldLarge (covers.mem_keys heldSmall)]
    exact room

end Covers

section Operations

variable [DecidableEq Key] [Seconds Time]

open OrderedDictLRUTTLCache

/-- What `put` leaves of the other items: all of them, or all but the first in a full cache. -/
theorem OrderedDictLRUTTLCache.Placed.kept {cache next : OrderedDictLRUTTLCache Key Value Time} {key : Key}
    {item : Value × Option Time} {now : Time} (placed : Placed cache next key item now) :
    ∃ kept, next.data.items = kept ++ [(key, item)] ∧
      ((key ∈ cache.data.keys ∨ cache.data.size < cache.capacity) ∧
          kept = (cache.data.erase key).items ∨
        (key ∉ cache.data.keys ∧ cache.capacity ≤ cache.data.size) ∧
          kept = (cache.data.erase key).items.tail) := by
  cases placed with
  | updated held data stats => exact ⟨_, by rw [data, Dict.push_items], Or.inl ⟨Or.inl held, rfl⟩⟩
  | added absent spare items stats =>
      refine ⟨_, items, Or.inl ⟨Or.inr spare, ?_⟩⟩
      rw [Dict.erase_of_notMem absent]
  | replaced absent full victim rest before items stats =>
      refine ⟨_, items, Or.inr ⟨⟨absent, full⟩, ?_⟩⟩
      rw [Dict.erase_of_notMem absent, before, List.tail_cons]

variable {small large : OrderedDictLRUTTLCache Key Value Time} {key : Key}

/-- The larger cache drops an item only together with the smaller one. -/
theorem Covers.placed {small' large' : OrderedDictLRUTTLCache Key Value Time}
    {item : Value × Option Time} {now now' : Time} (covers : Covers small large)
    (smallCapacity : small'.capacity = small.capacity)
    (largeCapacity : large'.capacity = large.capacity)
    (smallTtl : small'.defaultTtl = small.defaultTtl)
    (largeTtl : large'.defaultTtl = large.defaultTtl) (smallPlaced : Placed small small' key item now)
    (largePlaced : Placed large large' key item now') : Covers small' large' := by
  have room := covers.room
  have both : key ∈ small.data.keys → key ∈ large.data.keys := covers.mem_keys
  constructor
  case items =>
    obtain ⟨kept, items, why⟩ := smallPlaced.kept
    obtain ⟨kept', items', why'⟩ := largePlaced.kept
    have erased := covers.erase_items key
    rw [items, items']
    refine List.Sublist.append ?_ (List.Sublist.refl _)
    rcases why with ⟨spare, rfl⟩ | ⟨full, rfl⟩
    · rcases why' with ⟨-, rfl⟩ | ⟨largeFull, rfl⟩
      · exact erased
      · rcases spare with held | spare
        · exact absurd (both held) largeFull.1
        · omega
    · rcases why' with ⟨-, rfl⟩ | ⟨-, rfl⟩
      · exact (List.tail_sublist _).trans erased
      · exact erased.tail
  case room =>
    rw [smallCapacity, largeCapacity, smallPlaced.size, largePlaced.size]
    by_cases largeStays : key ∈ large.data.keys ∨ large.capacity ≤ large.data.size
    · rw [if_pos largeStays]
      split <;> omega
    · rw [if_neg largeStays]
      rw [not_or] at largeStays
      by_cases smallFull : small.capacity ≤ small.data.size
      · rw [if_pos (Or.inr smallFull)]
        omega
      · rw [if_neg (not_or.mpr ⟨fun held => largeStays.1 (both held), smallFull⟩)]
        omega
  case defaultTtl => rw [smallTtl, largeTtl, covers.defaultTtl]
  case smallPositive => rw [smallCapacity]; exact covers.smallPositive
  case largePositive => rw [largeCapacity]; exact covers.largePositive

/-- After a `get`: an entry that has expired is gone from both, one that is live is the newest of
both, and one that only the larger cache has leaves the smaller one alone. -/
theorem Covers.get (covers : Covers small large) (clock : Nat → Time) (key : Key)
    (default : Option Value) :
    Covers (small.get clock key default).2 (large.get clock key default).2 := by
  have room := covers.room
  unfold OrderedDictLRUTTLCache.get
  cases found : large.data.get? key with
  | none =>
      have missing : small.data.get? key = none := by
        cases held : small.data.get? key with
        | none => rfl
        | some item =>
            rw [covers.get? held] at found
            cases found
      rw [missing]
      exact ⟨covers.items, covers.room, covers.defaultTtl, covers.smallPositive,
        covers.largePositive⟩
  | some item =>
      have largeHeld := Dict.mem_keys.mpr ⟨item, found⟩
      cases held : small.data.get? key with
      | none =>
          have absent := Dict.get?_eq_none.mp held
          have erased := covers.erase_items key
          rw [Dict.erase_of_notMem absent] at erased
          by_cases late : expired (clock 0) item.2 = true
          · simp only [late, ↓reduceIte]
            refine ⟨erased, ?_, covers.defaultTtl, covers.smallPositive, covers.largePositive⟩
            have smaller := Dict.size_erase largeHeld
            dsimp only
            omega
          · simp only [late, ↓reduceIte, Bool.false_eq_true, Dict.moveToEnd, found]
            refine ⟨?_, ?_, covers.defaultTtl, covers.smallPositive, covers.largePositive⟩
            · exact erased.trans (List.sublist_append_left _ _)
            · rw [Dict.size_push largeHeld]
              exact room
      | some other =>
          obtain rfl : other = item := Option.some.inj ((covers.get? held).symm.trans found)
          by_cases late : expired (clock 0) other.2 = true
          · simp only [late, ↓reduceIte]
            exact ⟨covers.erase_items key, covers.erase_room key, covers.defaultTtl,
              covers.smallPositive, covers.largePositive⟩
          · simp only [late, ↓reduceIte, Bool.false_eq_true, Dict.moveToEnd, found, held]
            refine ⟨covers.push_items key other, ?_, covers.defaultTtl, covers.smallPositive,
              covers.largePositive⟩
            rw [Dict.size_push largeHeld, Dict.size_push (Dict.mem_keys.mpr ⟨other, held⟩)]
            exact room

/-- What the smaller cache hits the larger one hits. -/
theorem Covers.hit (covers : Covers small large) (clock : Nat → Time) (key : Key)
    (default : Option Value)
    (hit : (small.get clock key default).2.stats.hits = small.stats.hits + 1) :
    (large.get clock key default).2.stats.hits = large.stats.hits + 1 ∧
      (large.get clock key default).1 = (small.get clock key default).1 := by
  unfold OrderedDictLRUTTLCache.get at hit ⊢
  cases held : small.data.get? key with
  | none =>
      rw [held] at hit
      exact absurd hit (Nat.succ_ne_self _).symm
  | some item =>
      rw [held] at hit
      rw [covers.get? held]
      by_cases late : expired (clock 0) item.2 = true
      · simp only [late, ↓reduceIte] at hit
        exact absurd hit (Nat.succ_ne_self _).symm
      · simp only [late, ↓reduceIte, Bool.false_eq_true]
        exact ⟨trivial, trivial⟩

/-- Every operation keeps the smaller cache covered. -/
theorem covers_preserves :
    Play.Preserves OrderedDictLRUTTLCache.step OrderedDictLRUTTLCache.step
      (@Covers Key Value Time) := by
  intro input small large covers
  obtain ⟨operation, clock⟩ := input
  cases operation with
  | put key value ttl =>
      cases valid : validTtl (ttl.effective small.defaultTtl) with
      | true =>
          obtain ⟨small', smallStep, smallCapacity, smallTtl, smallPlaced⟩ :=
            put_placed covers.smallPositive clock key value valid
          rw [covers.defaultTtl] at valid
          obtain ⟨large', largeStep, largeCapacity, largeTtl, largePlaced⟩ :=
            put_placed covers.largePositive clock key value valid
          rw [covers.defaultTtl] at smallPlaced
          exact ⟨.done, .done, small', large', smallStep, largeStep,
            covers.placed smallCapacity largeCapacity smallTtl largeTtl smallPlaced largePlaced⟩
      | false =>
          have largeStep := @put_invalid _ _ _ _ _ large clock key value _
            (covers.defaultTtl ▸ valid)
          exact ⟨_, _, _, _, put_invalid clock key value valid, largeStep, covers⟩
  | get key default => exact ⟨_, _, _, _, rfl, rfl, covers.get clock key default⟩
  | delete key =>
      exact ⟨_, _, _, _, rfl, rfl, covers.erase_items key, covers.erase_room key,
        covers.defaultTtl, covers.smallPositive, covers.largePositive⟩
  | contains key => exact ⟨_, _, _, _, rfl, rfl, covers⟩
  | len => exact ⟨_, _, _, _, rfl, rfl, covers⟩

end Operations

/-! ## The heaps -/

variable [DecidableEq Key] [Seconds Time] {small large : LRUTTLCache Key Value Time}

/-- What the smaller cache has stored, and would hit, the larger one has and would hit too. -/
structure Outlasts (small large : LRUTTLCache Key Value Time) : Prop where
  stored : ∀ key node, small.index.get? key = some node → ∃ node',
    large.index.get? key = some node' ∧ (large.heap node').value = (small.heap node).value ∧
      (large.heap node').expiresAt = (small.heap node).expiresAt
  order : large.recency.filter (· ∈ small.recency) = small.recency
  hits : ∀ clock key default, ∃ reply reply' next next',
    small.get clock key default = some (reply, next) ∧
      large.get clock key default = some (reply', next') ∧
      (next.stats.hits = small.stats.hits + 1 →
        next'.stats.hits = large.stats.hits + 1 ∧ reply' = reply)

/-- Both heaps hold the items of dictionaries, the larger one those of the smaller. -/
def Covered (small large : LRUTTLCache Key Value Time) : Prop :=
  ∃ ordered ordered', SameItems small ordered ∧ SameItems large ordered' ∧ Covers ordered ordered'

theorem covered_preserves :
    Play.Preserves LRUTTLCache.step LRUTTLCache.step
      (@Covered Key Value Time _) := by
  intro input small large covered
  obtain ⟨ordered, ordered', same, same', covers⟩ := covered
  obtain ⟨reply, next, between, stepped, middle, nextSame⟩ := linked_simulates input _ _ same
  obtain ⟨reply', next', between', stepped', middle', nextSame'⟩ := linked_simulates input _ _ same'
  obtain ⟨_, _, reached, reached', again, again', nextCovers⟩ :=
    covers_preserves input _ _ covers
  obtain rfl : between = reached := congrArg Prod.snd (Option.some.inj (middle.symm.trans again))
  obtain rfl : between' = reached' :=
    congrArg Prod.snd (Option.some.inj (middle'.symm.trans again'))
  exact ⟨reply, reply', next, next', stepped, stepped', between, between', nextSame, nextSame',
    nextCovers⟩

/-- Of distinct elements, those of a part are the part. -/
theorem filter_mem_of_sublist {Element : Type} [BEq Element] [LawfulBEq Element]
    {part whole : List Element} (sublist : part.Sublist whole) (nodup : whole.Nodup) :
    whole.filter (· ∈ part) = part := by
  have kept : part.filter (· ∈ part) = part := by
    rw [List.filter_eq_self]
    intro element present
    exact decide_eq_true present
  have longer := sublist.filter (· ∈ part)
  rw [kept] at longer
  refine (longer.eq_of_length_le ?_).symm
  refine (List.Nodup.subperm (nodup.filter _) ?_).length_le
  intro element present
  exact of_decide_eq_true (List.mem_filter.mp present).2

theorem Covered.outlasts (covered : Covered small large) : Outlasts small large := by
  obtain ⟨ordered, ordered', ⟨cells, stores⟩, ⟨cells', stores'⟩, covers⟩ := covered
  constructor
  case stored =>
    intro key node held
    rcases stores.lookup key with ⟨missing, -⟩ | ⟨front, cell, back, rfl, rfl, found, item⟩
    · rw [missing] at held
      cases held
    · obtain rfl : cell.ref = node := Option.some.inj (found.symm.trans held)
      have kept := covers.get? item
      rcases stores'.lookup cell.key with ⟨-, missing⟩ | ⟨front', cell', back', rfl, -, found', item'⟩
      · rw [missing] at kept
        cases kept
      · have same := Option.some.inj (item'.symm.trans kept)
        have holds := stores.represents.holds cell (by simp)
        have holds' := stores'.represents.holds cell' (by simp)
        refine ⟨cell'.ref, found', ?_, ?_⟩
        · rw [holds'.2.1, holds.2.1]
          exact congrArg some (congrArg Prod.fst same)
        · rw [holds'.2.2, holds.2.2]
          exact congrArg Prod.snd same
  case order =>
    rw [stores.recency, stores'.recency]
    apply filter_mem_of_sublist
    · exact ((covers.items.map Prod.fst).reverse).map some
    · exact (List.nodup_reverse.mpr ordered'.data.nodup).map (Option.some_injective Key)
  case hits =>
    intro clock key default
    obtain ⟨reply, next, between, got, middle, ⟨_, sameStats⟩⟩ := stores.get clock key default
    obtain ⟨reply', next', between', got', middle', ⟨_, sameStats'⟩⟩ :=
      stores'.get clock key default
    refine ⟨reply, reply', next, next', got, got', ?_⟩
    have hit := covers.hit clock key default
    rw [Option.some.inj middle, Option.some.inj middle', ← stores.stats, ← stores'.stats,
      ← sameStats.stats, ← sameStats'.stats] at hit
    exact hit

/-- **A larger cache never loses a hit.** After any operations on two caches with the same default
expiry, each as the clock showed it, the entries of the smaller one are in the larger one with the
same value and expiry and in the same order of use, and what the smaller one hits the larger one
hits with the same value. -/
theorem larger_outlasts {fewer more : Nat} (fits : fewer ≤ more) {defaultTtl : Option Time}
    (smallBuilt : LRUTTLCache.new fewer defaultTtl = some small)
    (largeBuilt : LRUTTLCache.new more defaultTtl = some large)
    (inputs : List (Input Key Value Time)) :
    ∃ small' large', Play.after LRUTTLCache.step small inputs = some small' ∧
      Play.after LRUTTLCache.step large inputs = some large' ∧ Outlasts small' large' := by
  obtain ⟨ordered, built, -, same, checked⟩ := new_alike smallBuilt
  obtain ⟨ordered', built', -, same', checked'⟩ := new_alike largeBuilt
  have covers : Covers ordered ordered' := by
    obtain ⟨capacity, ttl, data, -⟩ := new_eq built
    obtain ⟨capacity', ttl', data', -⟩ := new_eq built'
    refine ⟨?_, ?_, ttl.trans ttl'.symm, checked.positive, checked'.positive⟩
    · rw [data, data']
    · rw [data, data', capacity, capacity']
      exact Nat.add_le_add_left fits _
  obtain ⟨small', large', reached, reached', covered⟩ :=
    Play.after_preserves covered_preserves inputs ⟨ordered, ordered', same, same', covers⟩
  exact ⟨small', large', reached, reached', covered.outlasts⟩

/-- The larger cache keeps what the smaller one has evicted. -/
theorem larger_outlasts_crowding :
    ∃ small large small' large',
      LRUTTLCache.new 1 (some (.of 3)) = some small ∧
      LRUTTLCache.new 2 (some (.of 3)) = some large ∧
      Play.after LRUTTLCache.step small crowding = some small' ∧
      Play.after LRUTTLCache.step large crowding = some large' ∧ Outlasts small' large' := by
  obtain ⟨small', large', reached, reached', outlasts⟩ :=
    larger_outlasts (Nat.le_succ 1)
      (show LRUTTLCache.new 1 (some (WholeSeconds.of 3)) = some _ from rfl)
      (show LRUTTLCache.new 2 (some (WholeSeconds.of 3)) = some _ from rfl) crowding
  exact ⟨_, _, small', large', rfl, rfl, reached, reached', outlasts⟩

end Lru
