import Anviq.Json.CanonicalForm
import Anviq.Json.Strings

/-! # Values with sorted names

Sorting the names of a value again changes nothing, and what holds of its numbers, its strings
and its names still holds.
-/

namespace Json

variable {ν μ : Type}

/-- Sorting keeps the items. -/
theorem sortUtf16_perm_self {α : Type} (items : List (String × α)) :
    (sortUtf16 items).Perm items :=
  List.perm_insertionSort _ _

/-- What is sorted stays as it is. -/
theorem sortUtf16_sortUtf16 {α : Type} (items : List (String × α)) :
    sortUtf16 (sortUtf16 items) = sortUtf16 items :=
  (List.pairwise_insertionSort _ items).insertionSort_eq

/-- Sorting is done once. -/
theorem sortNames_sortNames (json : Json ν) : json.sortNames.sortNames = json.sortNames := by
  induction json using Json.induction with
  | arr elements ih =>
      simp only [sortNames, sortNamesElements_eq, List.map_map]
      congr 1
      exact List.map_congr_left ih
  | obj members ih =>
      have sorted (item : String × Json ν) : (sortNamesMembers members).map
          (fun member => (member.1, sortNames member.2)) = sortNamesMembers members := by
        rw [sortNamesMembers_eq, List.map_map]
        exact List.map_congr_left fun member present => Prod.ext rfl (ih member present)
      simp only [sortNames, sortNamesMembers_eq] at sorted ⊢
      rw [← sortUtf16_map, sorted ("", .null), sortUtf16_sortUtf16]
  | _ => rfl

/-- Names that are different stay so. -/
theorem sortNames_namesPairwise {json : Json ν} (distinct : json.Distinct) :
    json.sortNames.Distinct := by
  induction json using Json.induction with
  | arr elements ih =>
      rw [Distinct, namesPairwise_arr] at distinct
      rw [sortNames, sortNamesElements_eq, Distinct, namesPairwise_arr]
      exact List.forall_mem_map.mpr fun element present => ih element present (distinct element present)
  | obj members ih =>
      rw [Distinct, namesPairwise_obj] at distinct
      rw [sortNames, sortNamesMembers_eq, Distinct, namesPairwise_obj]
      have perm := sortUtf16_perm_self (members.map fun member => (member.1, sortNames member.2))
      refine ⟨(perm.map Prod.fst).nodup_iff.mpr ?_, ?_⟩
      · rw [List.map_map]
        exact distinct.1
      · intro member present
        obtain ⟨source, among, rfl⟩ := List.mem_map.mp (perm.mem_iff.mp present)
        exact ih source among (distinct.2 source among)
  | _ => trivial

/-- What holds of the mapped numbers holds of the numbers, mapped. -/
theorem allNumbers_map {P : μ → Prop} {f : ν → μ} {json : Json ν} :
    (json.map f).AllNumbers P ↔ json.AllNumbers fun value => P (f value) := by
  induction json using Json.induction with
  | arr elements ih =>
      rw [map, mapElements_eq, allNumbers_arr, allNumbers_arr, List.forall_mem_map]
      exact forall₂_congr ih
  | obj members ih =>
      rw [map, mapMembers_eq, allNumbers_obj, allNumbers_obj, List.forall_mem_map]
      exact forall₂_congr ih
  | _ => rfl

/-- Sorting keeps the numbers, -/
theorem allNumbers_sortNames {P : ν → Prop} {json : Json ν} :
    json.sortNames.AllNumbers P ↔ json.AllNumbers P := by
  induction json using Json.induction with
  | arr elements ih =>
      rw [sortNames, sortNamesElements_eq, allNumbers_arr, allNumbers_arr, List.forall_mem_map]
      exact forall₂_congr ih
  | obj members ih =>
      rw [sortNames, sortNamesMembers_eq, allNumbers_obj, allNumbers_obj]
      simp only [(sortUtf16_perm_self _).mem_iff, List.forall_mem_map]
      exact forall₂_congr ih
  | _ => rfl

/-- mapping numbers the strings, -/
theorem allStrings_map {P : String → Prop} {f : ν → μ} {json : Json ν} :
    (json.map f).AllStrings P ↔ json.AllStrings P := by
  induction json using Json.induction with
  | arr elements ih =>
      rw [map, mapElements_eq, allStrings_arr, allStrings_arr, List.forall_mem_map]
      exact forall₂_congr ih
  | obj members ih =>
      rw [map, mapMembers_eq, allStrings_obj, allStrings_obj, List.forall_mem_map]
      exact forall₂_congr fun member present => and_congr_right fun _ => ih member present
  | _ => rfl

/-- and sorting the strings as well. -/
theorem allStrings_sortNames {P : String → Prop} {json : Json ν} :
    json.sortNames.AllStrings P ↔ json.AllStrings P := by
  induction json using Json.induction with
  | arr elements ih =>
      rw [sortNames, sortNamesElements_eq, allStrings_arr, allStrings_arr, List.forall_mem_map]
      exact forall₂_congr ih
  | obj members ih =>
      rw [sortNames, sortNamesMembers_eq, allStrings_obj, allStrings_obj]
      simp only [(sortUtf16_perm_self _).mem_iff, List.forall_mem_map]
      exact forall₂_congr fun member present => and_congr_right fun _ => ih member present
  | _ => rfl

end Json
