import Anviq.Diff.Schema

/-! # Matching renames

`_match_renames` takes the likeliest renames first, each name once. What it returns is a
partition of the names, and a rename it passes over has a name that was taken for one at least as
likely.
-/

namespace Harness.Diff

/-- Two renames are of different names. -/
def Rename.Apart (left right : Rename) : Prop := left.2.1 ≠ right.2.1 ∧ left.2.2 ≠ right.2.2

/-- Two renames have a name in common. -/
def Rename.Share (left right : Rename) : Prop := left.2.1 = right.2.1 ∨ left.2.2 = right.2.2

theorem Rename.apart_iff {left right : Rename} : left.Apart right ↔ ¬ left.Share right := by
  rw [Apart, Share, not_or]

section Pick

variable {pairs candidates : List Rename} {pair candidate : Rename}

/-- A candidate is passed over if one of its names was taken. -/
theorem taken_iff :
    (pairs.any fun pair => pair.2.1 == candidate.2.1 || pair.2.2 == candidate.2.2) = true ↔
      ∃ pair ∈ pairs, pair.Share candidate := by
  simp only [List.any_eq_true, Bool.or_eq_true, beq_iff_eq, Rename.Share]

theorem pickRenames_taken (taken : ∃ pair ∈ pairs, pair.Share candidate) :
    pickRenames pairs (candidate :: candidates) = pickRenames pairs candidates := by
  rw [pickRenames, if_pos (taken_iff.mpr taken)]

theorem pickRenames_free (free : ∀ pair ∈ pairs, pair.Apart candidate) :
    pickRenames pairs (candidate :: candidates) = pickRenames (pairs ++ [candidate]) candidates := by
  rw [pickRenames, if_neg]
  rw [taken_iff]
  rintro ⟨pair, present, share⟩
  exact Rename.apart_iff.mp (free pair present) share

/-- The candidate is passed over, or is of names none of which was taken. -/
theorem taken_or_free (pairs : List Rename) (candidate : Rename) :
    (∃ pair ∈ pairs, pair.Share candidate) ∨ ∀ pair ∈ pairs, pair.Apart candidate := by
  by_cases taken : ∃ pair ∈ pairs, pair.Share candidate
  · exact Or.inl taken
  · exact Or.inr fun pair present =>
      Rename.apart_iff.mpr fun share => taken ⟨pair, present, share⟩

/-- What was taken stays. -/
theorem subset_pickRenames : pairs ⊆ pickRenames pairs candidates := by
  induction candidates generalizing pairs with
  | nil => exact List.Subset.refl _
  | cons candidate candidates ih =>
      obtain taken | free := taken_or_free pairs candidate
      · rw [pickRenames_taken taken]
        exact ih
      · rw [pickRenames_free free]
        exact fun pair present => ih (List.mem_append_left _ present)

/-- Only candidates are taken. -/
theorem mem_of_mem_pickRenames (present : pair ∈ pickRenames pairs candidates) :
    pair ∈ pairs ∨ pair ∈ candidates := by
  induction candidates generalizing pairs with
  | nil => exact Or.inl present
  | cons candidate candidates ih =>
      obtain taken | free := taken_or_free pairs candidate
      · rw [pickRenames_taken taken] at present
        exact (ih present).imp_right (List.mem_cons_of_mem _)
      · rw [pickRenames_free free] at present
        obtain old | new := ih present
        · rw [List.mem_append, List.mem_singleton] at old
          obtain old | rfl := old
          · exact Or.inl old
          · exact Or.inr List.mem_cons_self
        · exact Or.inr (List.mem_cons_of_mem _ new)

/-- No name is taken twice. -/
theorem pickRenames_apart (apart : pairs.Pairwise Rename.Apart) :
    (pickRenames pairs candidates).Pairwise Rename.Apart := by
  induction candidates generalizing pairs with
  | nil => exact apart
  | cons candidate candidates ih =>
      obtain taken | free := taken_or_free pairs candidate
      · rw [pickRenames_taken taken]
        exact ih apart
      · rw [pickRenames_free free]
        apply ih
        rw [List.pairwise_append]
        refine ⟨apart, List.pairwise_singleton _ _, ?_⟩
        intro pair present other last
        rw [List.mem_singleton.mp last]
        exact free pair present

/-- A name of every candidate is taken for one at least as likely. -/
theorem pickRenames_best (sorted : candidates.Pairwise fun left right => right.1 ≤ left.1)
    (earlier : ∀ pair ∈ pairs, ∀ candidate ∈ candidates, candidate.1 ≤ pair.1)
    (present : candidate ∈ candidates) :
    ∃ pair ∈ pickRenames pairs candidates, pair.Share candidate ∧ candidate.1 ≤ pair.1 := by
  induction candidates generalizing pairs with
  | nil => exact absurd present List.not_mem_nil
  | cons first candidates ih =>
      rw [List.pairwise_cons] at sorted
      have later : ∀ pair ∈ pairs, ∀ candidate ∈ candidates, candidate.1 ≤ pair.1 :=
        fun pair among other rest => earlier pair among other (List.mem_cons_of_mem _ rest)
      obtain taken | free := taken_or_free pairs first
      · rw [pickRenames_taken taken]
        obtain rfl | rest := List.mem_cons.mp present
        · obtain ⟨pair, among, share⟩ := taken
          exact ⟨pair, subset_pickRenames among, share, earlier pair among _ List.mem_cons_self⟩
        · exact ih sorted.2 later rest
      · rw [pickRenames_free free]
        obtain rfl | rest := List.mem_cons.mp present
        · refine ⟨candidate, subset_pickRenames ?_, Or.inl rfl, le_refl _⟩
          exact List.mem_append_right _ (List.mem_singleton_self _)
        · refine ih sorted.2 ?_ rest
          intro pair among other held
          obtain old | new := List.mem_append.mp among
          · exact later pair old other held
          · rw [List.mem_singleton.mp new]
            exact sorted.1 other held

end Pick

/-! ## The matching -/

variable (lib : Stdlib)

/-- Renames that are likely enough to be candidates. -/
def Candidate (confidence : String → String → Option ℚ) (removed added : List String)
    (rename : Rename) : Prop :=
  rename.2.1 ∈ removed ∧ rename.2.2 ∈ added ∧
    confidence rename.2.1 rename.2.2 = some rename.1 ∧ renameConfidenceThreshold lib ≤ rename.1

/-- Each name is in one of two lists, once, and the leftovers are in their order. -/
structure Partitions (names taken leftover : List String) : Prop where
  once : ∀ name ∈ names, taken.count name + leftover.count name = 1
  known : taken ⊆ names
  stable : leftover.Sublist names

/-- The two schemas may be of one property: their types agree where both are known. -/
def TypeGate (before after : PyDict) : Prop :=
  typeSet before = [] ∨ typeSet after = [] ∨ typeSet before = typeSet after

/-- What `_match_renames` promises. -/
structure Matches (confidence : String → String → Option ℚ) (removed added : List String)
    (result : List Rename × List String × List String) : Prop where
  oldNames : Partitions removed (result.1.map fun pair => pair.2.1) result.2.1
  newNames : Partitions added (result.1.map fun pair => pair.2.2) result.2.2
  likely : ∀ pair ∈ result.1, Candidate lib confidence removed added pair
  gated : ∀ before after : String → PyDict,
    (confidence = fun old new => renameConfidence lib old new (before old) (after new)) →
      ∀ pair ∈ result.1, TypeGate (before pair.2.1) (after pair.2.2)
  best : ∀ candidate, Candidate lib confidence removed added candidate →
    ∃ pair ∈ result.1, pair.Share candidate ∧ candidate.1 ≤ pair.1

variable {lib}

/-- Schemas whose known types differ have no confidence. -/
theorem typeGate_of_confidence {old new : String} {before after : PyDict} {confidence : ℚ}
    (found : renameConfidence lib old new before after = some confidence) :
    TypeGate before after := by
  unfold renameConfidence at found
  dsimp only at found
  split at found
  · cases found
  · next allowed =>
      by_cases untyped : typeSet before = []
      · exact Or.inl untyped
      · by_cases open' : typeSet after = []
        · exact Or.inr (Or.inl open')
        · refine Or.inr (Or.inr (Classical.byContradiction fun differ => ?_))
          exact allowed ⟨untyped, open', differ⟩

/-- Names that are taken once, and those left, are a partition. -/
theorem partitions_filter {names taken : List String} (distinct : names.Nodup)
    (once : taken.Nodup) (known : taken ⊆ names) {isTaken : String → Bool}
    (decides : ∀ name, isTaken name = true ↔ name ∈ taken) :
    Partitions names taken (names.filter fun name => !isTaken name) := by
  refine ⟨?_, known, List.filter_sublist⟩
  intro name present
  by_cases held : name ∈ taken
  · have gone : name ∉ names.filter fun name => !isTaken name := by
      rw [List.mem_filter, (decides name).mpr held]
      simp
    rw [List.count_eq_one_of_mem once held, List.count_eq_zero_of_not_mem gone]
  · have kept : name ∈ names.filter fun name => !isTaken name := by
      rw [List.mem_filter]
      refine ⟨present, ?_⟩
      rw [Bool.not_eq_true', ← Bool.not_eq_true, decides]
      exact held
    rw [List.count_eq_zero_of_not_mem held, List.count_eq_one_of_mem (distinct.filter _) kept]

/-- Candidates are taken in descending order. -/
theorem descending_sorted (candidates : List Rename) :
    (candidates.insertionSort fun left right => decide (right.1 ≤ left.1)).Pairwise
      fun left right => right.1 ≤ left.1 := by
  have total : Std.Total fun left right : Rename => decide (right.1 ≤ left.1) = true :=
    ⟨fun left right => by simpa using le_total right.1 left.1⟩
  have transitive : IsTrans Rename fun left right => decide (right.1 ≤ left.1) = true :=
    ⟨fun _ _ _ below above => by simp only [decide_eq_true_eq] at *; exact above.trans below⟩
  exact (List.pairwise_insertionSort
    (fun left right : Rename => decide (right.1 ≤ left.1) = true) candidates).imp of_decide_eq_true

/-- The candidates `_match_renames` collects. -/
theorem mem_candidates {confidence : String → String → Option ℚ} {removed added : List String}
    {rename : Rename} :
    (rename ∈ removed.flatMap fun old => added.filterMap fun new =>
      match confidence old new with
      | some conf => if renameConfidenceThreshold lib ≤ conf then some (conf, old, new) else none
      | none => none) ↔ Candidate lib confidence removed added rename := by
  obtain ⟨likelihood, oldName, newName⟩ := rename
  simp only [List.mem_flatMap, List.mem_filterMap, Candidate]
  constructor
  · rintro ⟨old, wasThere, new, isThere, made⟩
    cases found : confidence old new with
    | none =>
        rw [found] at made
        cases made
    | some conf =>
        rw [found] at made
        dsimp only at made
        split at made
        · next enough =>
            cases made
            exact ⟨wasThere, isThere, found, enough⟩
        · cases made
  · rintro ⟨wasThere, isThere, found, enough⟩
    refine ⟨oldName, wasThere, newName, isThere, ?_⟩
    rw [found]
    dsimp only
    rw [if_pos enough]

/-- Renames are of names removed to names added, and the names left over are among them. -/
theorem matchRenames_subset (confidence : String → String → Option ℚ) (removed added : List String) :
    (∀ pair ∈ (matchRenames lib confidence removed added).1,
        pair.2.1 ∈ removed ∧ pair.2.2 ∈ added) ∧
      (matchRenames lib confidence removed added).2.1 ⊆ removed ∧
      (matchRenames lib confidence removed added).2.2 ⊆ added := by
  unfold matchRenames
  split
  · exact ⟨fun pair absent => absurd absent List.not_mem_nil, List.Subset.refl _, List.Subset.refl _⟩
  · refine ⟨?_, List.filter_sublist.subset, List.filter_sublist.subset⟩
    intro pair present
    have taken := (mem_of_mem_pickRenames present).resolve_left List.not_mem_nil
    rw [List.mem_insertionSort] at taken
    have candidate := mem_candidates.mp taken
    exact ⟨candidate.1, candidate.2.1⟩

/-- **Rename matching is a stable partition**, and no candidate it passes over is likelier than
every rename that has one of its names. -/
theorem matchRenames_partitions (lib : Stdlib) (confidence : String → String → Option ℚ)
    (removed added : List String) (removedDistinct : removed.Nodup) (addedDistinct : added.Nodup) :
    Matches lib confidence removed added (matchRenames lib confidence removed added) := by
  unfold matchRenames
  split
  · next empty =>
      have none : ∀ candidate, ¬ Candidate lib confidence removed added candidate := by
        rintro candidate ⟨wasThere, isThere, -⟩
        rw [Bool.or_eq_true, List.isEmpty_iff, List.isEmpty_iff] at empty
        obtain rfl | rfl := empty
        · exact List.not_mem_nil wasThere
        · exact List.not_mem_nil isThere
      refine ⟨⟨?_, List.nil_subset _, List.Sublist.refl _⟩,
        ⟨?_, List.nil_subset _, List.Sublist.refl _⟩, ?_, ?_, fun candidate held =>
          absurd held (none candidate)⟩
      · intro name present
        simp [List.count_eq_one_of_mem removedDistinct present]
      · intro name present
        simp [List.count_eq_one_of_mem addedDistinct present]
      · exact fun pair absent => absurd absent List.not_mem_nil
      · exact fun _ _ _ pair absent => absurd absent List.not_mem_nil
  · dsimp only
    set candidates := removed.flatMap fun old => added.filterMap fun new =>
      match confidence old new with
      | some conf => if renameConfidenceThreshold lib ≤ conf then some (conf, old, new) else none
      | none => none with collected
    set sorted := candidates.insertionSort fun left right => decide (right.1 ≤ left.1)
    have among {rename : Rename} :
        rename ∈ sorted ↔ Candidate lib confidence removed added rename := by
      rw [List.mem_insertionSort, collected, mem_candidates]
    have descending : sorted.Pairwise fun left right => right.1 ≤ left.1 := descending_sorted _
    have likely : ∀ pair ∈ pickRenames [] sorted, Candidate lib confidence removed added pair :=
      fun pair present => among.mp ((mem_of_mem_pickRenames present).resolve_left List.not_mem_nil)
    have apart : (pickRenames [] sorted).Pairwise Rename.Apart := pickRenames_apart .nil
    refine ⟨?_, ?_, likely, ?_, ?_⟩
    · apply partitions_filter removedDistinct
      · rw [List.Nodup, List.pairwise_map]
        exact apart.imp And.left
      · intro name present
        obtain ⟨pair, held, rfl⟩ := List.mem_map.mp present
        exact (likely pair held).1
      · intro name
        simp
    · apply partitions_filter addedDistinct
      · rw [List.Nodup, List.pairwise_map]
        exact apart.imp And.right
      · intro name present
        obtain ⟨pair, held, rfl⟩ := List.mem_map.mp present
        exact (likely pair held).2.1
      · intro name
        simp
    · intro before after known pair present
      obtain ⟨-, -, found, -⟩ := likely pair present
      rw [known] at found
      exact typeGate_of_confidence found
    · intro candidate held
      exact pickRenames_best descending (fun pair absent => absurd absent List.not_mem_nil)
        (among.mpr held)

/-- One of two removed names is renamed. -/
def oneRename (old new : String) : Option ℚ := if old = "user" ∧ new = "users" then some 1 else none

/-- One of two names is matched with the new one. -/
theorem matchRenames_partitions_one :
    Matches plainLib oneRename ["user", "page"] ["users"]
      (matchRenames plainLib oneRename ["user", "page"] ["users"]) :=
  matchRenames_partitions plainLib oneRename _ _ (by simp) (by simp)

end Harness.Diff
