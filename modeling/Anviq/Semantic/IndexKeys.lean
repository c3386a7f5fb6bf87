import Anviq.Semantic.NumpyIndex

/-! # The ids an index holds

What the cache relies on in a vector index: it knows the ids it was given and has not been told
to remove, each once, and an `add` that raises has changed nothing.
-/

namespace Semantic

variable {Vector Score Component : Type}

/-- The ids an index holds, and what its operations do to them. -/
structure IndexKeys (index : VectorIndex Vector Score) where
  ids : index.State → List String
  empty : ids index.empty = []
  added : ∀ {state next : index.State} {id : String} {vector : Vector}, (ids state).Nodup →
    index.add state id vector = (next, none) →
    (ids next).Nodup ∧ ∀ other, other ∈ ids next ↔ other = id ∨ other ∈ ids state
  refused : ∀ {state next : index.State} {id : String} {vector : Vector} {failure : Failure},
    index.add state id vector = (next, some failure) → next = state
  removed : ∀ {state : index.State} (id : String), (ids state).Nodup →
    (ids (index.remove state id)).Nodup ∧
      ∀ other, other ∈ ids (index.remove state id) ↔ other ≠ id ∧ other ∈ ids state

/-! ## The numpy index -/

/-- `remove` takes an id that is there once out of the ids. -/
theorem Rows.remove_ids (rows : Rows Component) (id : String) :
    (rows.remove id).ids = rows.ids.erase id := by
  unfold Rows.remove
  rw [List.erase_eq_eraseIdx]
  cases rows.ids.idxOf? id with
  | none => rfl
  | some i => exact (List.eraseIdx_eq_take_drop_succ rows.ids i).symm

theorem Rows.remove_keys {rows : Rows Component} (nodup : rows.ids.Nodup) (id : String) :
    (rows.remove id).ids.Nodup ∧ ∀ other, other ∈ (rows.remove id).ids ↔
      other ≠ id ∧ other ∈ rows.ids := by
  rw [Rows.remove_ids]
  exact ⟨nodup.erase id, fun other => nodup.mem_erase_iff⟩

theorem Rows.append_keys {rows : Rows Component} (nodup : rows.ids.Nodup) {id : String}
    (absent : id ∉ rows.ids) (vector : List Component) :
    (rows.append id vector).ids.Nodup ∧ ∀ other, other ∈ (rows.append id vector).ids ↔
      other = id ∨ other ∈ rows.ids := by
  refine ⟨List.nodup_append.mpr ⟨nodup, List.nodup_singleton id, ?_⟩, ?_⟩
  · intro first among second last same
    rw [List.mem_singleton.mp last] at same
    exact absent (same ▸ among)
  · intro other
    rw [Rows.append, List.mem_append, List.mem_singleton]
    exact or_comm

/-- `add` that returns has put the id at the end. -/
theorem numpyIndex_added {numpy : Numpy Component Score} {dim : Nat} {rows next : Rows Component}
    {id : String} {vector : List Component}
    (added : (numpyIndex numpy dim).add rows id vector = (next, none)) :
    next = (if id ∈ rows.ids then rows.remove id else rows).append id vector := by
  simp only [numpyIndex] at added
  split at added
  · cases added
  · split at added
    · cases added
    · exact (congrArg Prod.fst added).symm

/-- `NumpyIndex` knows its ids. -/
def numpyIndex_keys (numpy : Numpy Component Score) (dim : Nat) :
    IndexKeys (numpyIndex numpy dim) where
  ids rows := rows.ids
  empty := rfl
  added := by
    intro rows next id vector nodup added
    rw [numpyIndex_added added]
    by_cases known : id ∈ Rows.ids rows
    · obtain ⟨nodup, others⟩ := Rows.remove_keys nodup id
      obtain ⟨once, all⟩ := Rows.append_keys nodup (fun present => ((others id).mp present).1 rfl)
        vector
      simp only [known, ↓reduceIte]
      refine ⟨once, ?_⟩
      intro other
      rw [all, others]
      by_cases same : other = id
      · simp [same]
      · simp [same]
    · simp only [known, ↓reduceIte]
      exact Rows.append_keys nodup known vector
  refused := by
    intro rows next id vector failure refused
    simp only [numpyIndex] at refused
    split at refused
    · exact (congrArg Prod.fst refused).symm
    · split at refused
      · exact (congrArg Prod.fst refused).symm
      · cases refused
  removed id nodup := Rows.remove_keys nodup id

end Semantic
