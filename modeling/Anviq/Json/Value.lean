import Mathlib.Data.List.Basic
import Mathlib.Data.List.Nodup
import Mathlib.Data.List.Lookmap

/-! # JSON trees

A JSON value over an arbitrary type of numbers. An object keeps its members as
a list, in order and with repeated names, so that one type serves the tree a
text denotes and the maps a program builds from it. `Json.collapse` is the
reading of a tree in which the last of several members with one name counts.

Functions on values are defined by recursion over the value together with its
lists of elements and members; `Json.induction` is the induction principle that
goes with them.
-/

/-- A JSON value over numbers `ν`. -/
inductive Json (ν : Type) where
  | null
  | bool (value : Bool)
  | num (value : ν)
  | str (value : String)
  | arr (elements : List (Json ν))
  | obj (members : List (String × Json ν))

namespace Json

variable {ν μ ρ : Type}

/-- The members of an object. -/
abbrev Members (ν : Type) := List (String × Json ν)

/-- Induction over a value, with the hypothesis available at every element of
an array and at the value of every member of an object. -/
@[elab_as_elim]
theorem induction {P : Json ν → Prop} (null : P .null) (bool : ∀ value, P (.bool value))
    (num : ∀ value, P (.num value)) (str : ∀ value, P (.str value))
    (arr : ∀ elements, (∀ element ∈ elements, P element) → P (.arr elements))
    (obj : ∀ members : Members ν, (∀ member ∈ members, P member.2) → P (.obj members))
    (json : Json ν) : P json :=
  json.rec (motive_1 := P) (motive_2 := fun elements => ∀ element ∈ elements, P element)
    (motive_3 := fun members => ∀ member ∈ members, P member.2)
    (motive_4 := fun member => P member.2)
    null bool num str (fun elements ih => arr elements ih) (fun members ih => obj members ih)
    (fun _ absurdity => absurd absurdity List.not_mem_nil)
    (fun _ _ headHolds tailHolds => List.forall_mem_cons.mpr ⟨headHolds, tailHolds⟩)
    (fun _ absurdity => absurd absurdity List.not_mem_nil)
    (fun _ _ headHolds tailHolds => List.forall_mem_cons.mpr ⟨headHolds, tailHolds⟩)
    (fun _ _ holds => holds)

/-! ## Equality -/

section Equality

variable [DecidableEq ν]

mutual

/-- Structural comparison of values. -/
def same : Json ν → Json ν → Bool
  | .null, .null => true
  | .bool left, .bool right => left == right
  | .num left, .num right => decide (left = right)
  | .str left, .str right => left == right
  | .arr left, .arr right => sameElements left right
  | .obj left, .obj right => sameMembers left right
  | _, _ => false

def sameElements : List (Json ν) → List (Json ν) → Bool
  | [], [] => true
  | left :: lefts, right :: rights => same left right && sameElements lefts rights
  | _, _ => false

def sameMembers : Members ν → Members ν → Bool
  | [], [] => true
  | (leftName, left) :: lefts, (rightName, right) :: rights =>
      leftName == rightName && same left right && sameMembers lefts rights
  | _, _ => false

end

mutual

theorem same_iff : ∀ left right : Json ν, same left right = true ↔ left = right
  | .null, right => by cases right <;> simp [same]
  | .bool _, right => by cases right <;> simp [same]
  | .num _, right => by cases right <;> simp [same]
  | .str _, right => by cases right <;> simp [same]
  | .arr elements, right => by cases right <;> simp [same, sameElements_iff elements]
  | .obj members, right => by cases right <;> simp [same, sameMembers_iff members]

theorem sameElements_iff :
    ∀ left right : List (Json ν), sameElements left right = true ↔ left = right
  | [], right => by cases right <;> simp [sameElements]
  | left :: lefts, right => by
      cases right <;> simp [sameElements, same_iff left, sameElements_iff lefts]

theorem sameMembers_iff :
    ∀ left right : Members ν, sameMembers left right = true ↔ left = right
  | [], right => by cases right <;> simp [sameMembers]
  | (name, left) :: lefts, right => by
      cases right <;>
        simp [sameMembers, same_iff left, sameMembers_iff lefts, Prod.ext_iff, and_assoc]

end

instance : DecidableEq (Json ν) := fun left right => decidable_of_iff _ (same_iff left right)

end Equality

/-! ## Renumbering -/

mutual

/-- Apply `f` to every number of a value. -/
def map (f : ν → μ) : Json ν → Json μ
  | .null => .null
  | .bool value => .bool value
  | .num value => .num (f value)
  | .str value => .str value
  | .arr elements => .arr (mapElements f elements)
  | .obj members => .obj (mapMembers f members)

def mapElements (f : ν → μ) : List (Json ν) → List (Json μ)
  | [] => []
  | element :: elements => map f element :: mapElements f elements

def mapMembers (f : ν → μ) : Members ν → Members μ
  | [] => []
  | (name, value) :: members => (name, map f value) :: mapMembers f members

end

@[simp] theorem mapElements_eq (f : ν → μ) (elements : List (Json ν)) :
    mapElements f elements = elements.map (map f) := by
  induction elements with
  | nil => rfl
  | cons element elements ih => simp only [mapElements, List.map_cons, ih]

@[simp] theorem mapMembers_eq (f : ν → μ) (members : Members ν) :
    mapMembers f members = members.map fun member => (member.1, map f member.2) := by
  induction members with
  | nil => rfl
  | cons member members ih => simp only [mapMembers, List.map_cons, ih]

/-! ## Members -/

/-- The value of the first member named `name`. -/
def Members.get? (members : Members ν) (name : String) : Option (Json ν) :=
  (members.find? fun member => member.1 == name).map Prod.snd

/-- The value of the last member named `name`. -/
def Members.last? (members : Members ν) (name : String) : Option (Json ν) :=
  Members.get? members.reverse name

/-- The members of an object; none of any other value. -/
def members : Json ν → Members ν
  | .obj members => members
  | _ => []

/-- The members that no later member of the same name overwrites. -/
def Members.keepLast : Members ν → Members ν
  | [] => []
  | (name, value) :: rest =>
      if name ∈ rest.map Prod.fst then Members.keepLast rest
      else (name, value) :: Members.keepLast rest

namespace Members

@[simp] theorem get?_nil (name : String) : get? ([] : Members ν) name = none := rfl

theorem get?_cons (member : String × Json ν) (members : Members ν) (name : String) :
    get? (member :: members) name = if member.1 = name then some member.2 else get? members name := by
  unfold get?
  by_cases same : member.1 = name <;> simp [same]

/-- A name is looked for in front first. -/
theorem get?_append (front back : Members ν) (name : String) :
    get? (front ++ back) name = (get? front name).or (get? back name) := by
  unfold get?
  rw [List.find?_append]
  cases List.find? (fun member => member.1 == name) front <;> rfl

/-- A reader of members with other values. -/
theorem get?_mapValues (f : Json ν → Json μ) (members : Members ν) (name : String) :
    get? (members.map fun member => (member.1, f member.2)) name = (get? members name).map f := by
  induction members with
  | nil => rfl
  | cons member members ih =>
      rw [List.map_cons, get?_cons, get?_cons, ih]
      split <;> rfl

/-- A reader of members without those of one name. -/
theorem get?_filter_ne (members : Members ν) (removed name : String) :
    get? (members.filter fun member => member.1 ≠ removed) name =
      if name = removed then none else get? members name := by
  induction members with
  | nil => simp
  | cons member members ih =>
      by_cases gone : member.1 = removed
      · rw [List.filter_cons_of_neg (by simpa using gone), ih, get?_cons]
        by_cases same : name = removed
        · rw [if_pos same, if_pos same]
        · rw [if_neg same, if_neg same, if_neg (fun named => same (named.symm.trans gone))]
      · rw [List.filter_cons_of_pos (by simpa using gone), get?_cons, ih, get?_cons]
        by_cases same : name = removed
        · rw [if_pos same, if_neg (fun named => gone (named.trans same)), if_pos same]
        · rw [if_neg same, if_neg same]

/-- A name leads nowhere exactly if no member has it. -/
theorem get?_eq_none {members : Members ν} {name : String} :
    get? members name = none ↔ name ∉ members.map Prod.fst := by
  induction members with
  | nil => simp
  | cons member members ih =>
      rw [get?_cons]
      by_cases same : member.1 = name
      · simp [same]
      · rw [if_neg same, ih, List.map_cons, List.mem_cons, not_or]
        exact ⟨fun absent => ⟨fun equal => same equal.symm, absent⟩, And.right⟩

/-- What a name leads to is a member. -/
theorem mem_of_get? {members : Members ν} {name : String} {value : Json ν}
    (found : get? members name = some value) : (name, value) ∈ members := by
  unfold get? at found
  obtain ⟨member, present, rfl⟩ := Option.map_eq_some_iff.mp found
  have named := List.find?_some present
  rw [beq_iff_eq] at named
  rw [← named]
  exact List.mem_of_find?_eq_some present

theorem last?_cons (member : String × Json ν) (members : Members ν) (name : String) :
    last? (member :: members) name =
      (last? members name).or (if member.1 = name then some member.2 else none) := by
  rw [last?, List.reverse_cons, get?_append, get?_cons, get?_nil, last?]

/-- A name has no last value exactly if no member has it. -/
theorem last?_eq_none {members : Members ν} {name : String} :
    last? members name = none ↔ name ∉ members.map Prod.fst := by
  rw [last?, get?_eq_none, List.map_reverse, List.mem_reverse]

/-- Keeping the last members keeps what a reader of the last members sees. -/
@[simp] theorem get?_keepLast (members : Members ν) (name : String) :
    get? (keepLast members) name = last? members name := by
  induction members with
  | nil => rfl
  | cons member members ih =>
      rw [last?_cons, keepLast]
      by_cases overwritten : member.1 ∈ members.map Prod.fst
      · rw [if_pos overwritten, ih]
        by_cases same : member.1 = name
        · cases found : last? members name with
          | none => exact absurd (same ▸ overwritten) (last?_eq_none.mp found)
          | some value => rfl
        · rw [if_neg same, Option.or_none]
      · rw [if_neg overwritten, get?_cons]
        by_cases same : member.1 = name
        · rw [if_pos same, if_pos same, last?_eq_none.mpr (same ▸ overwritten), Option.none_or]
        · rw [if_neg same, if_neg same, Option.or_none, ih]

/-- What is kept was there. -/
theorem mem_of_mem_keepLast {members : Members ν} {member : String × Json ν}
    (kept : member ∈ keepLast members) : member ∈ members := by
  induction members with
  | nil => exact kept
  | cons first members ih =>
      rw [keepLast] at kept
      split at kept
      · exact List.mem_cons_of_mem _ (ih kept)
      · rcases List.mem_cons.mp kept with rfl | later
        · exact List.mem_cons_self
        · exact List.mem_cons_of_mem _ (ih later)

/-- What is kept has every name once. -/
theorem keepLast_nodup (members : Members ν) : ((keepLast members).map Prod.fst).Nodup := by
  induction members with
  | nil => exact List.nodup_nil
  | cons member members ih =>
      rw [keepLast]
      split
      · exact ih
      · next fresh =>
          rw [List.map_cons, List.nodup_cons]
          refine ⟨fun repeated => fresh ?_, ih⟩
          obtain ⟨kept, present, name⟩ := List.mem_map.mp repeated
          exact List.mem_map.mpr ⟨kept, mem_of_mem_keepLast present, name⟩

end Members

mutual

/-- The value as a reader sees that lets the last of repeated members count. -/
def collapse : Json ν → Json ν
  | .arr elements => .arr (collapseElements elements)
  | .obj members => .obj (collapseMembers members).keepLast
  | json => json

def collapseElements : List (Json ν) → List (Json ν)
  | [] => []
  | element :: elements => collapse element :: collapseElements elements

def collapseMembers : Members ν → Members ν
  | [] => []
  | (name, value) :: members => (name, collapse value) :: collapseMembers members

end

mutual

/-- How deep arrays and objects nest in a value. -/
def depth : Json ν → Nat
  | .arr elements => depthElements elements + 1
  | .obj members => depthMembers members + 1
  | _ => 0

def depthElements : List (Json ν) → Nat
  | [] => 0
  | element :: elements => max (depth element) (depthElements elements)

def depthMembers : Members ν → Nat
  | [] => 0
  | (_, value) :: members => max (depth value) (depthMembers members)

end

end Json
