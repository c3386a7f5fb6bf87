import Anviq.Diff.Schema
import Anviq.Harness.PyValue

/-! # Annotations

What `_diff_annotations` finds about hints.
-/

namespace Harness.Diff

theorem mem_distinctItems {name : String} {items : List PyJson} :
    .str name ∈ distinctItems items ↔ .str name ∈ items := by
  induction items with
  | nil => rfl
  | cons item items ih =>
      rw [distinctItems, List.mem_cons, List.mem_cons, List.mem_filter, ih]
      constructor
      · intro present
        exact present.imp_right And.left
      · intro present
        by_cases same : .str name = item
        · exact Or.inl same
        · refine Or.inr ⟨present.resolve_left same, ?_⟩
          cases item with
          | str other =>
              have apart : other ≠ name := fun equal => same (congrArg Json.str equal.symm)
              simpa [sameItem] using apart
          | _ => rfl

theorem mem_sortedStrings {names : List String} {name : String} :
    name ∈ sortedStrings names ↔ name ∈ names := by
  rw [sortedStrings, List.mem_dedup, List.mem_insertionSort]

/-- A name among the keys is among them once they are sorted. -/
theorem mem_sortedKeys {keys sorted : List PyJson} {name : String}
    (sorts : sortedKeys keys = .ok sorted) (among : .str name ∈ keys) : .str name ∈ sorted := by
  unfold sortedKeys at sorts
  split at sorts
  · cases sorts
    exact among
  · split at sorts
    · cases sorts
      refine List.mem_map.mpr ⟨name, mem_sortedStrings.mpr ?_, rfl⟩
      exact List.mem_filterMap.mpr ⟨_, among, rfl⟩
    · split at sorts
      · cases sorts
        exact (List.mem_insertionSort _).mpr among
      · cases sorts

/-- The keys of annotations are their names. -/
theorem annotationKeys_obj (members : PyDict) :
    annotationKeys (.obj members) =
      .ok (distinctItems (members.map fun member => .str member.1)) := by
  have hashes : ∀ members : PyDict,
      (members.map fun member => (Json.str member.1 : PyJson)).mapM hashed =
        .ok (members.map fun member => .str member.1) := by
    intro members
    induction members with
    | nil => rfl
    | cons member members ih =>
        rw [List.map_cons, List.mapM_cons, ih]
        rfl
  unfold annotationKeys
  rw [iterated]
  exact bind_eq_ok.mpr ⟨_, rfl, bind_eq_ok.mpr ⟨_, hashes members, rfl⟩⟩

theorem orElse_obj {members : PyDict} {name : String} {value : PyJson}
    (found : members.get? name = some value) :
    orElse (.obj members) (.obj []) = .obj members := by
  cases members with
  | nil => cases found
  | cons member members => rfl

/-- The differ has a finding about every boolean hint that flips. -/
theorem diffAnnotations_flipped {lib : Stdlib} {tool : String} {before after : PyDict}
    {hint : String} {flag : Bool} {findings : List Finding}
    (was : before.get? hint = some (.bool flag)) (is : after.get? hint = some (.bool !flag))
    (found : diffAnnotations lib tool (.obj before) (.obj after) = .ok findings) :
    annotationFinding lib tool (.str hint) (.bool flag) (.bool !flag) ∈ findings := by
  unfold diffAnnotations at found
  rw [orElse_obj was, orElse_obj is] at found
  obtain ⟨beforeKeys, beforeKeyed, found⟩ := bind_eq_ok.mp found
  obtain ⟨afterKeys, -, found⟩ := bind_eq_ok.mp found
  obtain ⟨keys, sorts, found⟩ := bind_eq_ok.mp found
  obtain ⟨lists, each, same⟩ := bind_eq_ok.mp found
  cases same
  rw [annotationKeys_obj] at beforeKeyed
  cases beforeKeyed
  have among : .str hint ∈ keys := by
    apply mem_sortedKeys sorts
    rw [List.mem_append, mem_distinctItems]
    exact Or.inl (List.mem_map.mpr ⟨_, Json.Members.mem_of_get? was, rfl⟩)
  obtain ⟨own, listed, made⟩ := forall₂_exists_left (mapM_eq_ok.mp each).flip among
  have named : Json.Members.get? before hint = some (.bool flag) := was
  have renamed : Json.Members.get? after hint = some (.bool !flag) := is
  simp only [annotationOf, getOrNone, named, renamed, Option.getD_some] at made
  cases flag <;> exact List.mem_flatten.mpr ⟨own, listed, by cases made; exact List.mem_singleton_self _⟩

/-- The findings of `diff_tool` end with those about the annotations. -/
theorem diffTool_annotations {lib : Stdlib} {tool : String} {before after : PyDict}
    {findings : List Finding} (found : diffTool lib tool before after = .ok findings) :
    ∃ schemas annotations, diffAnnotations lib tool (getOrNone before "annotations")
      (getOrNone after "annotations") = .ok annotations ∧ findings = schemas ++ annotations := by
  obtain ⟨input, -, found⟩ := bind_eq_ok.mp found
  dsimp only at found
  split at found
  · obtain ⟨output, -, found⟩ := bind_eq_ok.mp found
    obtain ⟨annotations, diffed, same⟩ := bind_eq_ok.mp found
    cases same
    exact ⟨_, _, diffed, rfl⟩
  · obtain ⟨output, -, found⟩ := bind_eq_ok.mp found
    obtain ⟨annotations, diffed, same⟩ := bind_eq_ok.mp found
    cases same
    exact ⟨_, _, diffed, rfl⟩

end Harness.Diff
