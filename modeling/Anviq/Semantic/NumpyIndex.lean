import Anviq.Semantic.Alike

/-! # The numpy index

`NumpyIndex`: the ids and the rows of a matrix, in the same order. Which rows are
nearest to a vector, and how near, is for numpy to say; it does not know the ids.
-/

namespace Semantic

/-- What numpy does with numbers: `isfinite`, and the `count` rows of a matrix with the
greatest scores, best first. -/
structure Numpy (Component Score : Type) where
  isFinite : Component → Bool
  top : (matrix : List (List Component)) → List Component → Nat →
    List (Fin matrix.length × Score)

/-- `_ids` and `_matrix`. -/
structure Rows (Component : Type) where
  ids : List String
  matrix : List (List Component)
  aligned : ids.length = matrix.length

variable {Component Score : Type}

namespace Rows

/-- The row of an id is taken out. -/
def remove (rows : Rows Component) (id : String) : Rows Component :=
  match rows.ids.idxOf? id with
  | none => rows
  | some i =>
      { ids := rows.ids.take i ++ rows.ids.drop (i + 1)
        matrix := rows.matrix.take i ++ rows.matrix.drop (i + 1)
        aligned := by
          simp only [List.length_append, List.length_take, List.length_drop, rows.aligned] }

/-- A row is appended. -/
def append (rows : Rows Component) (id : String) (vector : List Component) : Rows Component where
  ids := rows.ids ++ [id]
  matrix := rows.matrix ++ [vector]
  aligned := by simp only [List.length_append, List.length_singleton, rows.aligned]

end Rows

/-- `NumpyIndex`. -/
def numpyIndex (numpy : Numpy Component Score) (dim : Nat) :
    VectorIndex (List Component) Score where
  State := Rows Component
  empty := { ids := [], matrix := [], aligned := rfl }
  add rows id vector :=
    if vector.length ≠ dim then (rows, some .valueError)
    else if vector.all numpy.isFinite = false then (rows, some .valueError)
    else
      let rows := if id ∈ rows.ids then rows.remove id else rows
      (rows.append id vector, none)
  search rows vector count :=
    if rows.ids = [] ∨ count = 0 then .ok []
    else if vector.length ≠ dim ∨ vector.all numpy.isFinite = false then .error .valueError
    else
      .ok ((numpy.top rows.matrix vector (min count rows.ids.length)).map fun best =>
        (rows.ids.get (best.1.cast rows.aligned.symm), best.2))
  remove := Rows.remove

/-- Rows alike, with other ids. -/
def Rows.Alike (names : Names) (left right : Rows Component) : Prop :=
  List.Forall₂ names left.ids right.ids ∧ left.matrix = right.matrix

/-- Names correspond at the same places. -/
theorem idxOf?_alike {names : Names} (unique : Relator.BiUnique names) {ids ids' : List String}
    {id id' : String} (corresponds : List.Forall₂ names ids ids') (named : names id id') :
    ids.idxOf? id = ids'.idxOf? id' := by
  induction corresponds with
  | nil => rfl
  | cons head _ ih =>
      rw [List.idxOf?_cons, List.idxOf?_cons, ih]
      have same := Dict.same_iff unique named head
      simp only [beq_iff_eq, same]

theorem Rows.Alike.remove {names : Names} (unique : Relator.BiUnique names)
    {left right : Rows Component} {id id' : String} (alike : left.Alike names right)
    (named : names id id') : (left.remove id).Alike names (right.remove id') := by
  unfold Rows.remove
  rw [idxOf?_alike unique alike.1 named]
  cases right.ids.idxOf? id' with
  | none => exact alike
  | some i =>
      refine ⟨List.rel_append (List.forall₂_take i alike.1) (List.forall₂_drop (i + 1) alike.1), ?_⟩
      dsimp only
      rw [alike.2]

theorem Rows.Alike.append {names : Names} {left right : Rows Component} {id id' : String}
    (alike : left.Alike names right) (named : names id id') (vector : List Component) :
    (left.append id vector).Alike names (right.append id' vector) :=
  ⟨List.rel_append alike.1 (.cons named .nil), congrArg (· ++ [vector]) alike.2⟩

theorem numpyIndex_add_alike (numpy : Numpy Component Score) (dim : Nat) {names : Names}
    (unique : Relator.BiUnique names) {left right : Rows Component} {id id' : String}
    (alike : left.Alike names right) (named : names id id') (vector : List Component) :
    ((numpyIndex numpy dim).add left id vector).1.Alike names
        ((numpyIndex numpy dim).add right id' vector).1 ∧
      ((numpyIndex numpy dim).add left id vector).2 =
        ((numpyIndex numpy dim).add right id' vector).2 := by
  simp only [numpyIndex]
  split
  · exact ⟨alike, rfl⟩
  · split
    · exact ⟨alike, rfl⟩
    · refine ⟨Rows.Alike.append ?_ named vector, rfl⟩
      have known : id ∈ left.ids ↔ id' ∈ right.ids := List.rel_mem unique named alike.1
      by_cases present : id ∈ left.ids
      · rw [if_pos present, if_pos (known.mp present)]
        exact alike.remove unique named
      · rw [if_neg present, if_neg (mt known.mpr present)]
        exact alike

theorem numpyIndex_search_alike (numpy : Numpy Component Score) (dim : Nat) {names : Names}
    {left right : Rows Component} (alike : left.Alike names right) (vector : List Component)
    (count : Nat) :
    (∃ failure, (numpyIndex numpy dim).search left vector count = .error failure ∧
        (numpyIndex numpy dim).search right vector count = .error failure) ∨
      ∃ found found', (numpyIndex numpy dim).search left vector count = .ok found ∧
        (numpyIndex numpy dim).search right vector count = .ok found' ∧
        List.Forall₂ (fun item item' => names item.1 item'.1 ∧ item.2 = item'.2) found found' := by
  obtain ⟨ids, matrix, aligned⟩ := left
  obtain ⟨ids', matrix', aligned'⟩ := right
  obtain ⟨corresponds, rows⟩ := alike
  obtain rfl : matrix = matrix' := rows
  dsimp only at corresponds
  have empty : ids = [] ↔ ids' = [] := by
    rw [← List.length_eq_zero_iff, ← List.length_eq_zero_iff, corresponds.length_eq]
  simp only [numpyIndex, empty]
  split
  · exact Or.inr ⟨[], [], rfl, rfl, .nil⟩
  · split
    · exact Or.inl ⟨_, rfl, rfl⟩
    · have best : numpy.top matrix vector (min count ids.length) =
          numpy.top matrix vector (min count ids'.length) := by
        rw [corresponds.length_eq]
      refine Or.inr ⟨_, _, rfl, rfl, ?_⟩
      rw [best, List.forall₂_map_left_iff, List.forall₂_map_right_iff,
        List.forall₂_same]
      intro best _
      exact ⟨corresponds.get _ _, rfl⟩

/-- To the numpy index an id is a name and nothing else. -/
def numpyIndex_blind (numpy : Numpy Component Score) (dim : Nat) :
    IdBlind (numpyIndex numpy dim) where
  Alike := Rows.Alike
  wider wider _ _ alike := ⟨alike.1.imp wider, alike.2⟩
  empty _ := ⟨.nil, rfl⟩
  add unique _ _ _ _ alike named vector :=
    numpyIndex_add_alike numpy dim unique alike named vector
  remove unique _ _ _ _ alike named := Rows.Alike.remove unique alike named
  search _ _ _ alike vector count := numpyIndex_search_alike numpy dim alike vector count

end Semantic
