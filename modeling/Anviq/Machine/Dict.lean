import Mathlib.Data.List.Basic
import Mathlib.Data.List.Nodup

/-! # Ordered dictionaries

A map whose items keep the order they were put in. Its keys are different by
construction, so that what a lookup finds is what the items hold.
-/

/-- An ordered dictionary: the items, oldest first. -/
structure Dict (Key Value : Type) where
  items : List (Key × Value)
  nodup : (items.map Prod.fst).Nodup

namespace Dict

variable {Key Value : Type}

/-- A dict is its items, in order. -/
@[ext] theorem ext {left right : Dict Key Value} (items : left.items = right.items) :
    left = right := by
  cases left
  cases right
  cases items
  rfl

/-- No items. -/
def empty : Dict Key Value where
  items := []
  nodup := List.nodup_nil

/-- The keys, oldest first. -/
def keys (dict : Dict Key Value) : List Key := dict.items.map Prod.fst

/-- The number of items. -/
def size (dict : Dict Key Value) : Nat := dict.items.length

/-- The dictionary without its oldest item. -/
def popFirst (dict : Dict Key Value) : Option ((Key × Value) × Dict Key Value) :=
  match items : dict.items with
  | [] => none
  | item :: rest =>
      some (item, {
        items := rest
        nodup := by
          have nodup := dict.nodup
          rw [items, List.map_cons] at nodup
          exact (List.nodup_cons.mp nodup).2 })

/-- The item that is popped is the first. -/
theorem popFirst_of_cons {dict : Dict Key Value} {item : Key × Value} {rest : List (Key × Value)}
    (items : dict.items = item :: rest) :
    ∃ shorter, dict.popFirst = some (item, shorter) ∧ shorter.items = rest := by
  unfold popFirst
  split
  · next none =>
      rw [none] at items
      exact nomatch items
  · next first others some =>
      rw [some, List.cons.injEq] at items
      obtain ⟨rfl, rfl⟩ := items
      exact ⟨_, rfl, rfl⟩

variable [DecidableEq Key]

/-- The value of a key. -/
def get? (dict : Dict Key Value) (key : Key) : Option Value :=
  (dict.items.find? fun item => item.1 = key).map Prod.snd

/-- The dictionary without a key. -/
def erase (dict : Dict Key Value) (key : Key) : Dict Key Value where
  items := dict.items.filter fun item => item.1 ≠ key
  nodup := dict.nodup.sublist (List.filter_sublist.map _)

/-- Put a key at the end, wherever it was. -/
def push (dict : Dict Key Value) (key : Key) (value : Value) : Dict Key Value where
  items := (dict.erase key).items ++ [(key, value)]
  nodup := by
    rw [List.map_append, List.nodup_append]
    refine ⟨(dict.erase key).nodup, List.nodup_singleton _, ?_⟩
    intro first firstPresent second secondPresent same
    obtain ⟨item, kept, rfl⟩ := List.mem_map.mp firstPresent
    have named := List.mem_singleton.mp secondPresent
    exact of_decide_eq_true (List.mem_filter.mp kept).2 (same.trans named)

/-- Give a key it has another value. -/
def replace (dict : Dict Key Value) (key : Key) (value : Value) : Dict Key Value where
  items := dict.items.map fun item => if item.1 = key then (key, value) else item
  nodup := by
    have same : (Prod.fst ∘ fun item : Key × Value =>
        if item.1 = key then (key, value) else item) = Prod.fst := by
      funext item
      by_cases named : item.1 = key <;> simp [named]
    rw [List.map_map, same]
    exact dict.nodup

/-- Give a key a value: where it is, or at the end. -/
def assign (dict : Dict Key Value) (key : Key) (value : Value) : Dict Key Value :=
  if key ∈ dict.keys then dict.replace key value else dict.push key value

/-- Move a key to the end. -/
def moveToEnd (dict : Dict Key Value) (key : Key) : Dict Key Value :=
  match dict.get? key with
  | some value => dict.push key value
  | none => dict

variable {dict : Dict Key Value} {key other : Key} {value : Value}

theorem erase_items : (dict.erase key).items = dict.items.filter fun item => item.1 ≠ key := rfl

theorem push_items : (dict.push key value).items = (dict.erase key).items ++ [(key, value)] := rfl

@[simp] theorem get?_empty : (empty : Dict Key Value).get? key = none := rfl

/-- A lookup finds an item. -/
theorem get?_eq_some : dict.get? key = some value ↔ (key, value) ∈ dict.items := by
  unfold get?
  constructor
  · intro found
    obtain ⟨item, present, rfl⟩ := Option.map_eq_some_iff.mp found
    have named : item.1 = key := by simpa using List.find?_some present
    rw [← named]
    exact List.mem_of_find?_eq_some present
  · intro present
    cases found : dict.items.find? fun item => item.1 = key with
    | none => exact absurd (List.find?_eq_none.mp found _ present) (by simp)
    | some item =>
        have named : item.1 = key := by simpa using List.find?_some found
        have same := List.inj_on_of_nodup_map dict.nodup (List.mem_of_find?_eq_some found) present
          named
        rw [same]
        rfl

/-- Nothing is found under a key that is not there. -/
theorem get?_eq_none : dict.get? key = none ↔ key ∉ dict.keys := by
  constructor
  · intro missing present
    obtain ⟨item, found, rfl⟩ := List.mem_map.mp present
    have value := get?_eq_some.mpr found
    rw [missing] at value
    exact nomatch value
  · intro absent
    cases found : dict.get? key with
    | none => rfl
    | some value => exact absurd (List.mem_map_of_mem (get?_eq_some.mp found)) absent

/-- A key is there exactly if a value is found under it. -/
theorem mem_keys : key ∈ dict.keys ↔ ∃ value, dict.get? key = some value := by
  rw [← Option.ne_none_iff_exists', ne_eq, get?_eq_none, not_not]

/-- Erasing a key leaves what is under the others. -/
theorem get?_erase : (dict.erase key).get? other = if other = key then none else dict.get? other := by
  split
  · next same =>
      rw [get?_eq_none, same]
      intro present
      obtain ⟨item, kept, named⟩ := List.mem_map.mp present
      exact of_decide_eq_true (List.mem_filter.mp kept).2 named
  · next apart =>
      apply Option.ext
      intro value
      rw [get?_eq_some, get?_eq_some, erase, List.mem_filter]
      exact ⟨And.left, fun present => ⟨present, decide_eq_true apart⟩⟩

/-- Pushing a key leaves what is under the others. -/
theorem get?_push :
    (dict.push key value).get? other = if other = key then some value else dict.get? other := by
  apply Option.ext
  intro found
  rw [get?_eq_some, push, List.mem_append, List.mem_singleton, ← get?_eq_some, get?_erase]
  split
  · next same => simp [same, eq_comm]
  · next apart => simp [apart]

/-- Replacing a value leaves what is under the other keys. -/
theorem get?_replace (present : key ∈ dict.keys) :
    (dict.replace key value).get? other = if other = key then some value else dict.get? other := by
  apply Option.ext
  intro found
  rw [get?_eq_some, replace, List.mem_map]
  split
  · next same =>
      obtain ⟨old, oldFound⟩ := mem_keys.mp present
      rw [same]
      constructor
      · intro image
        obtain ⟨item, _, placed⟩ := image
        split at placed
        · exact congrArg some (congrArg Prod.snd placed)
        · next apart => exact absurd (congrArg Prod.fst placed) apart
      · intro same
        exact ⟨(key, old), get?_eq_some.mp oldFound, by simpa using same⟩
  · next apart =>
      rw [get?_eq_some]
      constructor
      · intro image
        obtain ⟨item, among, placed⟩ := image
        split at placed
        · exact absurd (congrArg Prod.fst placed).symm apart
        · exact placed ▸ among
      · intro among
        exact ⟨_, among, if_neg apart⟩

/-- Assigning to a key leaves what is under the others. -/
theorem get?_assign :
    (dict.assign key value).get? other = if other = key then some value else dict.get? other := by
  unfold assign
  split
  · next present => exact get?_replace present
  · exact get?_push

/-- A push does not look at the value there was. -/
theorem push_replace : (dict.replace key value).push key value = dict.push key value := by
  apply ext
  simp only [push, erase, replace]
  congr 1
  induction dict.items with
  | nil => rfl
  | cons item items ih =>
      rw [List.map_cons, List.filter_cons, List.filter_cons, ih]
      by_cases named : item.1 = key <;> simp [named]

/-- Pushing again changes nothing. -/
theorem push_push : (dict.push key value).push key value = dict.push key value := by
  apply ext
  simp [push, erase, List.filter_append]

/-- Giving a key a value and moving it to the end puts it there. -/
theorem moveToEnd_assign : (dict.assign key value).moveToEnd key = dict.push key value := by
  rw [moveToEnd, get?_assign, if_pos rfl]
  change (dict.assign key value).push key value = _
  unfold assign
  split
  · exact push_replace
  · exact push_push

/-- The order does not decide what is found. -/
theorem get?_moveToEnd : (dict.moveToEnd key).get? other = dict.get? other := by
  unfold moveToEnd
  split
  · next value found =>
      rw [get?_push]
      split
      · next same => rw [same, found]
      · rfl
  · rfl

/-- Moving a key keeps the keys. -/
theorem mem_keys_moveToEnd : other ∈ (dict.moveToEnd key).keys ↔ other ∈ dict.keys := by
  unfold moveToEnd
  split
  · next value found =>
      rw [mem_keys, mem_keys, get?_push]
      by_cases same : other = key
      · simp [same, found]
      · rw [if_neg same]
  · rfl

/-- Erasing a key that is not there changes nothing. -/
theorem erase_of_notMem (absent : key ∉ dict.keys) : dict.erase key = dict := by
  apply ext
  apply List.filter_eq_self.mpr
  intro item present
  apply decide_eq_true
  intro named
  exact absent (named ▸ List.mem_map_of_mem present)

/-- A key that is not there is assigned to at the end. -/
theorem assign_of_notMem (absent : key ∉ dict.keys) :
    (dict.assign key value).items = dict.items ++ [(key, value)] := by
  rw [assign, if_neg absent, push_items, erase_of_notMem absent]

/-! ## By position -/

/-- What stands among the items is found. -/
theorem get?_of_append {front back : List (Key × Value)}
    (items : dict.items = front ++ (key, value) :: back) : dict.get? key = some value := by
  rw [get?_eq_some, items]
  simp

/-- Erasing a key takes its item out of its place. -/
theorem erase_of_append {front back : List (Key × Value)}
    (items : dict.items = front ++ (key, value) :: back) : (dict.erase key).items = front ++ back := by
  have nodup := dict.nodup
  rw [items, List.map_append, List.map_cons, List.nodup_middle, List.nodup_cons,
    ← List.map_append] at nodup
  have kept : (front ++ back).filter (fun item => item.1 ≠ key) = front ++ back := by
    apply List.filter_eq_self.mpr
    intro item present
    apply decide_eq_true
    intro named
    exact nodup.1 (List.mem_map.mpr ⟨item, present, named⟩)
  rw [List.filter_append] at kept
  rw [erase_items, items, List.filter_append, List.filter_cons_of_neg (by simp), kept]

/-- Erasing a key from items in any order. -/
theorem erase_perm {rest : List (Key × Value)} (items : dict.items.Perm ((key, value) :: rest)) :
    (dict.erase key).items.Perm rest := by
  have nodup := (items.map Prod.fst).nodup_iff.mp dict.nodup
  rw [List.map_cons, List.nodup_cons] at nodup
  have kept : rest.filter (fun item => item.1 ≠ key) = rest := by
    apply List.filter_eq_self.mpr
    intro item present
    apply decide_eq_true
    intro named
    exact nodup.1 (List.mem_map.mpr ⟨item, present, named⟩)
  have filtered := items.filter fun item => item.1 ≠ key
  rw [List.filter_cons_of_neg (by simp), kept] at filtered
  exact filtered

theorem mem_keys_erase : other ∈ (dict.erase key).keys ↔ other ≠ key ∧ other ∈ dict.keys := by
  rw [mem_keys, mem_keys, get?_erase]
  by_cases same : other = key
  · simp [same]
  · simp [same]

theorem mem_keys_push : other ∈ (dict.push key value).keys ↔ other = key ∨ other ∈ dict.keys := by
  rw [mem_keys, mem_keys, get?_push]
  by_cases same : other = key
  · simp [same]
  · simp [same]

/-- The keys after an assignment are those before it and its own. -/
theorem mem_keys_assign : other ∈ (dict.assign key value).keys ↔ other = key ∨ other ∈ dict.keys := by
  rw [mem_keys, mem_keys, get?_assign]
  by_cases same : other = key
  · simp [same]
  · simp [same]

/-- A key that is not there makes the dict longer by one, -/
theorem size_assign (absent : key ∉ dict.keys) : (dict.assign key value).size = dict.size + 1 := by
  rw [size, assign_of_notMem absent, List.length_append]
  rfl

/-- one that is there does not, -/
theorem size_replace : (dict.replace key value).size = dict.size :=
  List.length_map _

/-- and erasing it makes the dict shorter by one. -/
theorem size_erase (present : key ∈ dict.keys) : (dict.erase key).size + 1 = dict.size := by
  obtain ⟨old, found⟩ := mem_keys.mp present
  obtain ⟨front, back, items⟩ := List.append_of_mem (get?_eq_some.mp found)
  rw [size, size, erase_of_append items, items]
  simp [Nat.add_assoc]

theorem size_push (present : key ∈ dict.keys) : (dict.push key value).size = dict.size := by
  rw [← size_erase present, size, push_items, List.length_append]
  rfl

/-- A push takes an item out of its place and puts it at the end. -/
theorem push_of_append {front back : List (Key × Value)} {old : Value}
    (items : dict.items = front ++ (key, old) :: back) :
    (dict.push key value).items = front ++ back ++ [(key, value)] := by
  rw [push_items, erase_of_append items]

omit [DecidableEq Key] in
/-- An item is found at its place. -/
theorem getElem?_of_append {front back : List (Key × Value)}
    (items : dict.items = front ++ (key, value) :: back) :
    dict.items[front.length]? = some (key, value) := by
  rw [items, List.getElem?_append_right (Nat.le_refl _), Nat.sub_self]
  rfl

/-- Erasing a key is erasing at its place. -/
theorem eraseIdx_of_append {front back : List (Key × Value)}
    (items : dict.items = front ++ (key, value) :: back) :
    dict.items.eraseIdx front.length = (dict.erase key).items := by
  rw [erase_of_append items, items, List.eraseIdx_append_of_length_le (Nat.le_refl _),
    Nat.sub_self]
  rfl

/-- A key is in the dictionary at one position, or it is not. -/
theorem position (dict : Dict Key Value) (key : Key) :
    (dict.get? key = none ∧ key ∉ dict.keys ∧
        (dict.items.findIdx? fun item => item.1 = key) = none) ∨
      ∃ front value back, dict.items = front ++ (key, value) :: back ∧
        dict.get? key = some value ∧ key ∈ dict.keys ∧
        (dict.items.findIdx? fun item => item.1 = key) = some front.length := by
  cases found : dict.get? key with
  | none =>
      have absent := get?_eq_none.mp found
      refine Or.inl ⟨rfl, absent, ?_⟩
      rw [List.findIdx?_eq_none_iff]
      intro item present
      apply decide_eq_false
      intro named
      exact absent (named ▸ List.mem_map_of_mem present)
  | some value =>
      obtain ⟨front, back, items⟩ := List.append_of_mem (get?_eq_some.mp found)
      refine Or.inr ⟨front, value, back, items, rfl, mem_keys.mpr ⟨value, found⟩, ?_⟩
      have nodup := dict.nodup
      rw [items, List.map_append, List.map_cons, List.nodup_append] at nodup
      have early : ∀ item ∈ front, decide (item.1 = key) = false := by
        intro item present
        apply decide_eq_false
        exact nodup.2.2 item.1 (List.mem_map_of_mem present) key List.mem_cons_self
      rw [items, List.findIdx?_append, List.findIdx?_eq_none_iff.mpr early, List.findIdx?_cons,
        decide_eq_true rfl]
      simp

end Dict
