import Mathlib.Data.List.Sort
import Mathlib.Data.String.Basic
import Anviq.Json.Value

/-! # Names and numbers throughout a value

Properties that hold in every object, or of every number, of a value, and the
sorting of the members of every object. A value whose names are everywhere
sorted stands for nested maps: there is one such value for each.
-/

namespace Json

variable {ν μ : Type}

/-! ## Names -/

section Names

variable (r : String → String → Prop)

mutual

/-- The names of every object are pairwise related, in order. -/
def NamesPairwise : Json ν → Prop
  | .null => True
  | .bool _ => True
  | .num _ => True
  | .str _ => True
  | .arr elements => ElementsPairwise elements
  | .obj members => (members.map Prod.fst).Pairwise r ∧ MembersPairwise members

def ElementsPairwise : List (Json ν) → Prop
  | [] => True
  | element :: elements => NamesPairwise element ∧ ElementsPairwise elements

def MembersPairwise : Members ν → Prop
  | [] => True
  | (_, value) :: members => NamesPairwise value ∧ MembersPairwise members

end

variable {r}

@[simp] theorem elementsPairwise_iff {elements : List (Json ν)} :
    ElementsPairwise r elements ↔ ∀ element ∈ elements, NamesPairwise r element := by
  induction elements with
  | nil => simp [ElementsPairwise]
  | cons element elements ih => simp [ElementsPairwise, ih]

@[simp] theorem membersPairwise_iff {members : Members ν} :
    MembersPairwise r members ↔ ∀ member ∈ members, NamesPairwise r member.2 := by
  induction members with
  | nil => simp [MembersPairwise]
  | cons member members ih => simp [MembersPairwise, ih]

/-- The names of an array are those of its elements. -/
theorem namesPairwise_arr {elements : List (Json ν)} :
    NamesPairwise r (.arr elements) ↔ ∀ element ∈ elements, NamesPairwise r element :=
  elementsPairwise_iff

/-- The names of an object are those of its members, and those within them. -/
theorem namesPairwise_obj {members : Members ν} :
    NamesPairwise r (.obj members) ↔
      (members.map Prod.fst).Pairwise r ∧ ∀ member ∈ members, NamesPairwise r member.2 := by
  rw [NamesPairwise, membersPairwise_iff]

end Names

/-- No object repeats a name. -/
def Distinct (json : Json ν) : Prop := NamesPairwise (· ≠ ·) json

/-- A member of an object, or what stands for a missing one. -/
theorem getD_distinct {members : Members ν} (distinct : (obj members).Distinct) (name : String)
    {missing : Json ν} (plain : missing.Distinct) : ((members.get? name).getD missing).Distinct := by
  rw [Distinct, namesPairwise_obj] at distinct
  cases found : members.get? name with
  | none => exact plain
  | some value => exact distinct.2 _ (Members.mem_of_get? found)

/-- The members of every object are sorted by name, in the order of code points. -/
def Sorted (json : Json ν) : Prop := NamesPairwise (· < ·) json

/-- A weaker relation holds between the names of the same value. -/
theorem NamesPairwise.imp {r s : String → String → Prop} (weaker : ∀ left right, r left right →
    s left right) {json : Json ν} (holds : NamesPairwise r json) : NamesPairwise s json := by
  induction json using Json.induction with
  | null => trivial
  | bool value => trivial
  | num value => trivial
  | str value => trivial
  | arr elements ih =>
      rw [namesPairwise_arr] at holds ⊢
      exact fun element present => ih element present (holds element present)
  | obj members ih =>
      rw [namesPairwise_obj] at holds ⊢
      exact ⟨holds.1.imp fun related => weaker _ _ related,
        fun member present => ih member present (holds.2 member present)⟩

/-- Names in ascending order are different. -/
theorem Sorted.distinct {json : Json ν} (sorted : Sorted json) : Distinct json :=
  sorted.imp fun _ _ less => ne_of_lt less

/-! ## Numbers -/

section Numbers

variable (P : ν → Prop)

mutual

/-- Every number of a value has a property. -/
def AllNumbers : Json ν → Prop
  | .null => True
  | .bool _ => True
  | .num value => P value
  | .str _ => True
  | .arr elements => AllElements elements
  | .obj members => AllMembers members

def AllElements : List (Json ν) → Prop
  | [] => True
  | element :: elements => AllNumbers element ∧ AllElements elements

def AllMembers : Members ν → Prop
  | [] => True
  | (_, value) :: members => AllNumbers value ∧ AllMembers members

end

variable {P}

@[simp] theorem allElements_iff {elements : List (Json ν)} :
    AllElements P elements ↔ ∀ element ∈ elements, AllNumbers P element := by
  induction elements with
  | nil => simp [AllElements]
  | cons element elements ih => simp [AllElements, ih]

@[simp] theorem allMembers_iff {members : Members ν} :
    AllMembers P members ↔ ∀ member ∈ members, AllNumbers P member.2 := by
  induction members with
  | nil => simp [AllMembers]
  | cons member members ih => simp [AllMembers, ih]

/-- The numbers of an array are those of its elements. -/
theorem allNumbers_arr {elements : List (Json ν)} :
    AllNumbers P (.arr elements) ↔ ∀ element ∈ elements, AllNumbers P element := allElements_iff

/-- The numbers of an object are those of its members. -/
theorem allNumbers_obj {members : Members ν} :
    AllNumbers P (.obj members) ↔ ∀ member ∈ members, AllNumbers P member.2 := allMembers_iff

/-- A member of an object, or what stands for a missing one. -/
theorem getD_allNumbers {members : Members ν} (holds : (obj members).AllNumbers P) (name : String)
    {missing : Json ν} (missingHolds : missing.AllNumbers P) :
    ((members.get? name).getD missing).AllNumbers P := by
  rw [allNumbers_obj] at holds
  cases found : members.get? name with
  | none => exact missingHolds
  | some value => exact holds _ (Members.mem_of_get? found)

end Numbers

/-! ## Sorting -/

/-- The members of an object in the order of their names. -/
def Members.sort (members : Members ν) : Members ν :=
  members.insertionSort fun left right => left.1 ≤ right.1

/-- Sorting keeps the members. -/
theorem Members.sort_perm (members : Members ν) : members.sort.Perm members :=
  List.perm_insertionSort _ _

/-- Members with increasing names are sorted already. -/
theorem Members.sort_of_sorted {members : Members ν}
    (sorted : (members.map Prod.fst).Pairwise (· < ·)) : members.sort = members := by
  exact ((List.pairwise_map.mp sorted).imp le_of_lt).insertionSort_eq

/-- The order of members with different names does not matter to a reader. -/
theorem Members.get?_perm {members reordered : Members ν} (same : members.Perm reordered)
    (distinct : (members.map Prod.fst).Nodup) (name : String) :
    members.get? name = reordered.get? name := by
  induction same with
  | nil => rfl
  | cons member _ ih =>
      rw [List.map_cons, List.nodup_cons] at distinct
      rw [get?_cons, get?_cons, ih distinct.2]
  | swap first second members =>
      simp only [List.map_cons, List.nodup_cons, List.mem_cons, not_or] at distinct
      rw [get?_cons, get?_cons, get?_cons, get?_cons]
      by_cases isFirst : first.1 = name
      · rw [if_pos isFirst, if_pos isFirst, if_neg fun isSecond =>
          distinct.1.1 (isSecond.trans isFirst.symm)]
      · rw [if_neg isFirst, if_neg isFirst]
  | trans left _ ihLeft ihRight =>
      exact (ihLeft distinct).trans (ihRight ((left.map Prod.fst).nodup_iff.mp distinct))

mutual

/-- A value with the members of every object sorted. -/
def sortKeys : Json ν → Json ν
  | .null => .null
  | .bool value => .bool value
  | .num value => .num value
  | .str value => .str value
  | .arr elements => .arr (sortElements elements)
  | .obj members => .obj (Members.sort (sortMembers members))

def sortElements : List (Json ν) → List (Json ν)
  | [] => []
  | element :: elements => sortKeys element :: sortElements elements

def sortMembers : Members ν → Members ν
  | [] => []
  | (name, value) :: members => (name, sortKeys value) :: sortMembers members

end

theorem sortElements_eq (elements : List (Json ν)) :
    sortElements elements = elements.map sortKeys := by
  induction elements with
  | nil => rfl
  | cons element elements ih => simp only [sortElements, List.map_cons, ih]

theorem sortMembers_eq (members : Members ν) :
    sortMembers members = members.map fun member => (member.1, sortKeys member.2) := by
  induction members with
  | nil => rfl
  | cons member members ih => simp only [sortMembers, List.map_cons, ih]

/-- A sorted value is left as it is. -/
theorem sortKeys_of_sorted {json : Json ν} (sorted : Sorted json) : sortKeys json = json := by
  induction json using Json.induction with
  | null => rfl
  | bool value => rfl
  | num value => rfl
  | str value => rfl
  | arr elements ih =>
      rw [Sorted, namesPairwise_arr] at sorted
      rw [sortKeys, sortElements_eq]
      congr 1
      exact (List.map_congr_left fun element present =>
        ih element present (sorted element present)).trans (List.map_id _)
  | obj members ih =>
      rw [Sorted, namesPairwise_obj] at sorted
      have same : sortMembers members = members := by
        rw [sortMembers_eq]
        refine (List.map_congr_left fun member present => ?_).trans (List.map_id members)
        exact Prod.ext rfl (ih member present (sorted.2 member present))
      rw [sortKeys, same, Members.sort_of_sorted sorted.1]

/-! ## Collapsing -/

theorem collapseElements_eq (elements : List (Json ν)) :
    collapseElements elements = elements.map collapse := by
  induction elements with
  | nil => rfl
  | cons element elements ih => simp only [collapseElements, List.map_cons, ih]

theorem collapseMembers_eq (members : Members ν) :
    collapseMembers members = members.map fun member => (member.1, collapse member.2) := by
  induction members with
  | nil => rfl
  | cons member members ih => simp only [collapseMembers, List.map_cons, ih]

/-- Different names overwrite nothing. -/
theorem Members.keepLast_of_nodup {members : Members ν}
    (distinct : (members.map Prod.fst).Nodup) : members.keepLast = members := by
  induction members with
  | nil => rfl
  | cons member members ih =>
      rw [List.map_cons, List.nodup_cons] at distinct
      rw [Members.keepLast, if_neg distinct.1, ih distinct.2]

/-- A value without repeated names is left as it is. -/
theorem collapse_of_distinct {json : Json ν} (distinct : Distinct json) :
    collapse json = json := by
  induction json using Json.induction with
  | null => rfl
  | bool value => rfl
  | num value => rfl
  | str value => rfl
  | arr elements ih =>
      rw [Distinct, namesPairwise_arr] at distinct
      rw [collapse, collapseElements_eq]
      congr 1
      exact (List.map_congr_left fun element present =>
        ih element present (distinct element present)).trans (List.map_id _)
  | obj members ih =>
      rw [Distinct, namesPairwise_obj] at distinct
      have same : collapseMembers members = members := by
        rw [collapseMembers_eq]
        refine (List.map_congr_left fun member present => ?_).trans (List.map_id members)
        exact Prod.ext rfl (ih member present (distinct.2 member present))
      rw [collapse, same, Members.keepLast_of_nodup distinct.1]

/-- Collapsing leaves no repeated name. -/
theorem collapse_distinct (json : Json ν) : (collapse json).Distinct := by
  induction json using Json.induction with
  | null => trivial
  | bool value => trivial
  | num value => trivial
  | str value => trivial
  | arr elements ih =>
      rw [collapse, collapseElements_eq, Distinct, namesPairwise_arr, List.forall_mem_map]
      exact ih
  | obj members ih =>
      rw [collapse, Distinct, namesPairwise_obj]
      refine ⟨Members.keepLast_nodup _, ?_⟩
      intro member kept
      have present := Members.mem_of_mem_keepLast kept
      rw [collapseMembers_eq] at present
      obtain ⟨source, among, rfl⟩ := List.mem_map.mp present
      exact ih source among

/-- A value has no repeated name exactly when collapsing changes nothing. -/
theorem distinct_iff_collapse {json : Json ν} : json.Distinct ↔ collapse json = json :=
  ⟨collapse_of_distinct, fun same => same ▸ collapse_distinct json⟩

instance [DecidableEq ν] (json : Json ν) : Decidable json.Distinct :=
  decidable_of_iff _ distinct_iff_collapse.symm

/-! ## Renumbering -/

/-- Mapping numbers keeps the names. -/
theorem members_map_fst (f : ν → μ) (members : Members ν) :
    (mapMembers f members).map Prod.fst = members.map Prod.fst := by
  rw [mapMembers_eq, List.map_map]
  rfl

theorem mapMembers_append (f : ν → μ) (front back : Members ν) :
    mapMembers f (front ++ back) = mapMembers f front ++ mapMembers f back := by
  simp only [mapMembers_eq, List.map_append]

/-- What a name leads to is mapped with the numbers. -/
theorem Members.get?_map (f : ν → μ) (members : Members ν) (name : String) :
    Members.get? (mapMembers f members) name = (Members.get? members name).map (map f) := by
  rw [mapMembers_eq, get?_mapValues]

/-- Renumbering leaves the names alone. -/
theorem namesPairwise_map {r : String → String → Prop} {f : ν → μ} {json : Json ν} :
    NamesPairwise r (json.map f) ↔ NamesPairwise r json := by
  induction json using Json.induction with
  | null => rfl
  | bool value => rfl
  | num value => rfl
  | str value => rfl
  | arr elements ih =>
      simp only [map, mapElements_eq, namesPairwise_arr, List.forall_mem_map]
      exact forall₂_congr ih
  | obj members ih =>
      rw [map, namesPairwise_obj, namesPairwise_obj, members_map_fst]
      simp only [mapMembers_eq, List.forall_mem_map]
      exact and_congr_right fun _ => forall₂_congr ih

/-- Renumbering twice. -/
theorem map_map {ρ : Type} (f : ν → μ) (g : μ → ρ) (json : Json ν) :
    (json.map f).map g = json.map (g ∘ f) := by
  induction json using Json.induction with
  | null => rfl
  | bool value => rfl
  | num value => rfl
  | str value => rfl
  | arr elements ih =>
      simp only [map, mapElements_eq, List.map_map]
      congr 1
      exact List.map_congr_left ih
  | obj members ih =>
      simp only [map, mapMembers_eq, List.map_map]
      congr 1
      exact List.map_congr_left fun member present => Prod.ext rfl (ih member present)

/-- Mapping numbers to themselves changes nothing. -/
theorem map_id (json : Json ν) : json.map id = json := by
  induction json using Json.induction with
  | null => rfl
  | bool value => rfl
  | num value => rfl
  | str value => rfl
  | arr elements ih =>
      simp only [map, mapElements_eq]
      congr 1
      exact (List.map_congr_left ih).trans (List.map_id _)
  | obj members ih =>
      simp only [map, mapMembers_eq]
      congr 1
      refine (List.map_congr_left fun member present => ?_).trans (List.map_id members)
      exact Prod.ext rfl (ih member present)

end Json
