import Anviq.Semantic.IndexKeys
import Mathlib.Data.List.FinRange
import Mathlib.Algebra.Order.Field.Rat
import Mathlib.Algebra.BigOperators.Group.List.Basic

/-! # Exact search

`NumpyIndex` with the two selections of numpy it searches with: a partition of the negated scores
puts the best rows first, a sort puts those in order. After any operations the index holds for
every id the last vector it accepted, and a search returns the best of them.
-/

namespace Semantic

/-! ## Numbers -/

/-- A `float64`, finite or not. -/
inductive FloatValue where
  | finite (value : ℚ)
  | notFinite
deriving DecidableEq

/-- `isfinite`. -/
def FloatValue.isFinite : FloatValue → Bool
  | .finite _ => true
  | .notFinite => false

/-- The number a finite value is. -/
def FloatValue.value : FloatValue → ℚ
  | .finite value => value
  | .notFinite => 0

/-- The dot product of a row and a vector, in exact arithmetic. -/
def dot (row vector : List FloatValue) : ℚ :=
  (List.zipWith (fun left right => left.value * right.value) row vector).sum

/-! ## Selections -/

/-- `argpartition` and `argsort`: orders of the places of a list. A partition puts the `kth + 1`
smallest values first, a sort puts all values in order. -/
structure Selection where
  argpartition : (values : List ℚ) → Nat → List (Fin values.length)
  argsort : (values : List ℚ) → List (Fin values.length)
  partition_perm : ∀ values kth, kth < values.length →
    (argpartition values kth).Perm (List.finRange values.length)
  partition_smallest : ∀ values kth, kth < values.length →
    ∀ first ∈ (argpartition values kth).take (kth + 1),
      ∀ last ∈ (argpartition values kth).drop (kth + 1), values.get first ≤ values.get last
  sort_perm : ∀ values, (argsort values).Perm (List.finRange values.length)
  sort_sorted : ∀ values, ((argsort values).map values.get).Pairwise (· ≤ ·)

variable (selection : Selection) (matrix : List (List FloatValue)) (vector : List FloatValue)

/-- `-scores`. -/
def negated : List ℚ := matrix.map fun row => -dot row vector

/-- `argpartition(-scores, k - 1)[:k]`. -/
def topPlaces (count : Nat) : List (Fin (negated matrix vector).length) :=
  (selection.argpartition (negated matrix vector) (count - 1)).take count

/-- A place among the scores, as that of a row. -/
def rowOf (place : Fin (negated matrix vector).length) : Fin matrix.length :=
  place.cast (List.length_map ..)

/-- The rows with the greatest scores, best first. -/
def bestRows (count : Nat) : List (Fin matrix.length × ℚ) :=
  let top := topPlaces selection matrix vector count
  (selection.argsort (top.map (negated matrix vector).get)).map fun place =>
    let row := rowOf matrix vector (top.get (place.cast (List.length_map ..)))
    (row, dot (matrix.get row) vector)

/-- numpy in exact arithmetic. -/
def exactNumpy : Numpy FloatValue ℚ where
  isFinite := FloatValue.isFinite
  top := bestRows selection

variable {selection matrix vector}

theorem negated_get (place : Fin (negated matrix vector).length) :
    (negated matrix vector).get place = -dot (matrix.get (rowOf matrix vector place)) vector := by
  obtain ⟨i, bound⟩ := place
  exact List.getElem_map fun row => -dot row vector

theorem length_negated : (negated matrix vector).length = matrix.length := List.length_map ..

/-- The places of a list, in another order, are those of its items. -/
theorem map_get_perm {α : Type} {items : List α} {count : Nat} (length : count = items.length)
    {order : List (Fin count)} (perm : order.Perm (List.finRange count)) :
    (order.map fun place => items.get (place.cast length)).Perm items := by
  subst length
  have mapped := perm.map items.get
  rw [List.map_get_finRange] at mapped
  exact mapped

/-- The best rows are those of the best places. -/
theorem bestRows_perm (count : Nat) :
    ((bestRows selection matrix vector count).map Prod.fst).Perm
      ((topPlaces selection matrix vector count).map (rowOf matrix vector)) := by
  have places := map_get_perm (List.length_map (negated matrix vector).get)
    (selection.sort_perm ((topPlaces selection matrix vector count).map (negated matrix vector).get))
  have rows := places.map (rowOf matrix vector)
  rw [List.map_map] at rows
  rw [bestRows, List.map_map]
  exact rows

/-- The score of a row is its product with the vector. -/
theorem bestRows_score {count : Nat} {item : Fin matrix.length × ℚ}
    (among : item ∈ bestRows selection matrix vector count) :
    item.2 = dot (matrix.get item.1) vector := by
  obtain ⟨place, -, rfl⟩ := List.mem_map.mp among
  rfl

/-- The best rows have descending scores. -/
theorem bestRows_sorted (count : Nat) :
    (bestRows selection matrix vector count).Pairwise fun first second => second.2 ≤ first.2 := by
  have sorted := selection.sort_sorted
    ((topPlaces selection matrix vector count).map (negated matrix vector).get)
  rw [List.pairwise_map] at sorted
  rw [bestRows, List.pairwise_map]
  refine sorted.imp ?_
  intro first second below
  rw [List.get_eq_getElem, List.get_eq_getElem, List.getElem_map, List.getElem_map, negated_get,
    negated_get, neg_le_neg_iff] at below
  exact below

section Top

variable {count : Nat} (positive : 0 < count) (few : count ≤ matrix.length)

include positive few

theorem topPlaces_perm :
    (selection.argpartition (negated matrix vector) (count - 1)).Perm
      (List.finRange (negated matrix vector).length) := by
  apply selection.partition_perm
  rw [length_negated]
  omega

theorem length_topPlaces : (topPlaces selection matrix vector count).length = count := by
  have all := (@topPlaces_perm selection matrix vector count positive few).length_eq
  rw [List.length_finRange] at all
  rw [topPlaces, List.length_take]
  have rows := @length_negated matrix vector
  omega

/-- No place is among the best twice. -/
theorem topPlaces_nodup : (topPlaces selection matrix vector count).Nodup := by
  have all := (@topPlaces_perm selection matrix vector count positive few).nodup_iff.mpr
    (List.nodup_finRange _)
  exact all.sublist (List.take_sublist _ _)

/-- A row that is left out has no greater score than one that is not. -/
theorem topPlaces_best {left : Fin (negated matrix vector).length}
    (omitted : left ∉ topPlaces selection matrix vector count) :
    ∀ place ∈ topPlaces selection matrix vector count,
      dot (matrix.get (rowOf matrix vector left)) vector ≤
        dot (matrix.get (rowOf matrix vector place)) vector := by
  intro place among
  have rows := @length_negated matrix vector
  have places := (@topPlaces_perm selection matrix vector count positive few).mem_iff.mpr
    (List.mem_finRange left)
  rw [← List.take_append_drop count (selection.argpartition (negated matrix vector) (count - 1)),
    List.mem_append] at places
  have smallest := selection.partition_smallest (negated matrix vector) (count - 1) (by omega)
  rw [Nat.sub_add_cancel positive] at smallest
  have below := smallest place among left (places.resolve_left omitted)
  rw [negated_get, negated_get, neg_le_neg_iff] at below
  exact below

end Top

/-! ## Rows -/

/-- The ids with their rows. -/
def Rows.pairs (rows : Rows FloatValue) : List (String × List FloatValue) :=
  rows.ids.zip rows.matrix

theorem Rows.pairs_ids (rows : Rows FloatValue) : rows.pairs.map Prod.fst = rows.ids :=
  List.map_fst_zip rows.aligned.le

/-- Taking the place of an id out of both lists takes its pair out. -/
theorem zip_remove {id : String} {ids : List String} {matrix : List (List FloatValue)} {place : Nat}
    (distinct : ids.Nodup) (found : ids.idxOf? id = some place) :
    (ids.take place ++ ids.drop (place + 1)).zip (matrix.take place ++ matrix.drop (place + 1)) =
      (ids.zip matrix).filter fun pair => pair.1 ≠ id := by
  induction ids generalizing matrix place with
  | nil => simp at found
  | cons first ids ih =>
      rw [List.nodup_cons] at distinct
      cases matrix with
      | nil => simp
      | cons row matrix =>
          rw [List.idxOf?_cons] at found
          by_cases same : first = id
          · rw [if_pos (by simpa using same), Option.some.injEq] at found
            subst found same
            have kept : (ids.zip matrix).filter (fun pair => pair.1 ≠ first) = ids.zip matrix := by
              rw [List.filter_eq_self]
              intro pair among
              have held := (List.of_mem_zip (a := pair.1) (b := pair.2) among).1
              simpa using fun named : pair.1 = first => distinct.1 (named ▸ held)
            simpa using kept.symm
          · rw [if_neg (by simpa using same)] at found
            obtain ⟨before, earlier, rfl⟩ := Option.map_eq_some_iff.mp found
            have rest := @ih matrix before distinct.2 earlier
            simpa [same] using rest

theorem Rows.remove_pairs {rows : Rows FloatValue} (distinct : rows.ids.Nodup) (id : String) :
    (rows.remove id).pairs = rows.pairs.filter fun pair => pair.1 ≠ id := by
  unfold Rows.remove
  cases found : rows.ids.idxOf? id with
  | some place => exact zip_remove distinct found
  | none =>
      symm
      rw [List.filter_eq_self]
      intro pair among
      have held : pair.1 ∈ rows.ids := rows.pairs_ids ▸ List.mem_map_of_mem among
      rw [List.idxOf?_eq_none_iff] at found
      simpa using fun named : pair.1 = id => found (named ▸ held)

theorem Rows.append_pairs (rows : Rows FloatValue) (id : String) (vector : List FloatValue) :
    (rows.append id vector).pairs = rows.pairs ++ [(id, vector)] :=
  List.zip_append rows.aligned

/-! ## Histories -/

/-- An operation that changes the index. -/
inductive IndexOperation where
  | add (id : String) (vector : List FloatValue)
  | remove (id : String)

/-- The vector has the right length and only finite numbers. -/
def Accepted (dim : Nat) (vector : List FloatValue) : Prop :=
  vector.length = dim ∧ vector.all FloatValue.isFinite = true

instance (dim : Nat) (vector : List FloatValue) : Decidable (Accepted dim vector) :=
  inferInstanceAs (Decidable (_ ∧ _))

/-- The index after an operation. -/
def indexAfter (selection : Selection) (dim : Nat) (rows : Rows FloatValue) :
    IndexOperation → Rows FloatValue
  | .add id vector => ((numpyIndex (exactNumpy selection) dim).add rows id vector).1
  | .remove id => (numpyIndex (exactNumpy selection) dim).remove rows id

/-- The index after operations. -/
def indexRun (selection : Selection) (dim : Nat) (operations : List IndexOperation) :
    Rows FloatValue :=
  operations.foldl (indexAfter selection dim) (numpyIndex (exactNumpy selection) dim).empty

/-- What the ids should hold after an operation. -/
def heldAfter (dim : Nat) (held : String → Option (List FloatValue)) :
    IndexOperation → String → Option (List FloatValue)
  | .add id vector => if Accepted dim vector then Function.update held id (some vector) else held
  | .remove id => Function.update held id none

/-- For each id the last vector that was accepted since the id was last removed. -/
def lastAccepted (dim : Nat) (operations : List IndexOperation) :
    String → Option (List FloatValue) :=
  operations.foldl (heldAfter dim) fun _ => none

/-- The index holds each id once, with its vector. -/
structure HoldsExactly (held : String → Option (List FloatValue)) (rows : Rows FloatValue) :
    Prop where
  distinct : rows.ids.Nodup
  holds : ∀ id vector, (id, vector) ∈ rows.pairs ↔ held id = some vector

/-- The best ids for a vector, with their scores. -/
structure FindsBest (held : String → Option (List FloatValue)) (size : Nat)
    (vector : List FloatValue) (count : Nat) (found : List (String × ℚ)) : Prop where
  length : found.length = min count size
  distinct : (found.map Prod.fst).Nodup
  scored : ∀ item ∈ found, ∃ row, held item.1 = some row ∧ item.2 = dot row vector
  sorted : found.Pairwise fun first second => second.2 ≤ first.2
  best : ∀ id row, held id = some row → id ∉ found.map Prod.fst →
    ∀ item ∈ found, dot row vector ≤ item.2

section Histories

variable {dim count : Nat} {held : String → Option (List FloatValue)} {rows : Rows FloatValue}

/-- Removing an id removes what is held under it. -/
theorem HoldsExactly.remove (exactly : HoldsExactly held rows) (id : String) :
    HoldsExactly (Function.update held id none) (rows.remove id) := by
  refine ⟨(Rows.remove_keys exactly.distinct id).1, ?_⟩
  intro other vector
  rw [Rows.remove_pairs exactly.distinct, List.mem_filter, exactly.holds]
  by_cases same : other = id
  · simp [same]
  · simp [same]

/-- Appending a row holds its vector under the id. -/
theorem HoldsExactly.append (exactly : HoldsExactly held rows) {id : String} (absent : id ∉ rows.ids)
    (vector : List FloatValue) :
    HoldsExactly (Function.update held id (some vector)) (rows.append id vector) := by
  refine ⟨(Rows.append_keys exactly.distinct absent vector).1, ?_⟩
  intro other row
  rw [Rows.append_pairs, List.mem_append, List.mem_singleton, Prod.mk.injEq]
  by_cases same : other = id
  · have unheld : (id, row) ∉ rows.pairs := by
      intro among
      exact absent (rows.pairs_ids ▸ List.mem_map_of_mem among)
    rw [same, Function.update_self]
    simp [unheld, eq_comm]
  · rw [Function.update_of_ne same, exactly.holds]
    simp [same]

/-- A vector that is accepted takes the place of the one under its id. -/
theorem add_accepted (accepted : Accepted dim vector) (rows : Rows FloatValue) (id : String) :
    (numpyIndex (exactNumpy selection) dim).add rows id vector =
      ((if id ∈ rows.ids then rows.remove id else rows).append id vector, none) := by
  have finite : vector.all (exactNumpy selection).isFinite = true := accepted.2
  simp only [numpyIndex]
  rw [if_neg (by simp [accepted.1]), if_neg (by simp [finite])]

theorem add_rejected (rejected : ¬ Accepted dim vector) (rows : Rows FloatValue) (id : String) :
    (numpyIndex (exactNumpy selection) dim).add rows id vector = (rows, some .valueError) := by
  simp only [numpyIndex]
  by_cases long : vector.length = dim
  · have infinite : vector.all (exactNumpy selection).isFinite = false :=
      Bool.not_eq_true _ ▸ fun finite => rejected ⟨long, finite⟩
    rw [if_neg (by simp [long]), if_pos infinite]
  · rw [if_pos (by simpa using long)]

/-- An operation keeps the index to what the ids should hold. -/
theorem HoldsExactly.after (exactly : HoldsExactly held rows) (operation : IndexOperation) :
    HoldsExactly (heldAfter dim held operation) (indexAfter selection dim rows operation) := by
  cases operation with
  | remove id => exact exactly.remove id
  | add id vector =>
      by_cases accepted : Accepted dim vector
      · rw [heldAfter, if_pos accepted, indexAfter, add_accepted accepted]
        by_cases known : id ∈ rows.ids
        · rw [if_pos known, ← Function.update_idem (a := id) (none : Option (List FloatValue))]
          refine (exactly.remove id).append ?_ vector
          intro present
          exact (((Rows.remove_keys exactly.distinct id).2 id).mp present).1 rfl
        · rw [if_neg known]
          exact exactly.append known vector
      · rw [heldAfter, if_neg accepted, indexAfter, add_rejected accepted]
        exact exactly

/-- The id of a row. -/
def Rows.idOf (rows : Rows FloatValue) (row : Fin rows.matrix.length) : String :=
  rows.ids.get (row.cast rows.aligned.symm)

theorem search_nothing (nothing : rows.ids = [] ∨ count = 0) :
    (numpyIndex (exactNumpy selection) dim).search rows vector count = .ok [] := by
  simp only [numpyIndex]
  rw [if_pos nothing]

theorem search_accepted (accepted : Accepted dim vector) (something : ¬ (rows.ids = [] ∨ count = 0)) :
    (numpyIndex (exactNumpy selection) dim).search rows vector count =
      .ok ((bestRows selection rows.matrix vector (min count rows.ids.length)).map fun best =>
        (rows.idOf best.1, best.2)) := by
  have finite : vector.all (exactNumpy selection).isFinite = true := accepted.2
  simp only [numpyIndex]
  rw [if_neg something, if_neg (by simp [accepted.1, finite])]
  rfl

/-- Every row is that of its id. -/
theorem Rows.idOf_pair (rows : Rows FloatValue) (row : Fin rows.matrix.length) :
    (rows.idOf row, rows.matrix.get row) ∈ rows.pairs := by
  rw [Rows.pairs, List.mem_iff_getElem]
  refine ⟨row, ?_, ?_⟩
  · rw [List.length_zip, rows.aligned, min_self]
    exact row.isLt
  · rw [List.getElem_zip]
    rfl

/-- Every id has a row. -/
theorem Rows.exists_row {id : String} {vector : List FloatValue}
    (among : (id, vector) ∈ rows.pairs) :
    ∃ row, rows.idOf row = id ∧ rows.matrix.get row = vector := by
  rw [Rows.pairs, List.mem_iff_getElem] at among
  obtain ⟨place, bound, same⟩ := among
  rw [List.getElem_zip, Prod.mk.injEq] at same
  rw [List.length_zip] at bound
  exact ⟨⟨place, by omega⟩, same.1, same.2⟩

theorem Rows.idOf_injective (distinct : rows.ids.Nodup) : Function.Injective rows.idOf := by
  intro first second same
  have places := (List.Nodup.get_inj_iff distinct).mp same
  exact Fin.cast_injective _ places

/-- A search finds the best of what the index holds. -/
theorem HoldsExactly.search (exactly : HoldsExactly held rows) (accepted : Accepted dim vector)
    (count : Nat) : ∃ found,
      (numpyIndex (exactNumpy selection) dim).search rows vector count = .ok found ∧
        FindsBest held rows.ids.length vector count found := by
  by_cases nothing : rows.ids = [] ∨ count = 0
  · refine ⟨[], search_nothing nothing, ?_, List.nodup_nil, ?_, .nil, ?_⟩
    · obtain none | zero := nothing
      · simp [none]
      · simp [zero]
    · exact fun item absent => absurd absent List.not_mem_nil
    · exact fun _ _ _ _ item absent => absurd absent List.not_mem_nil
  refine ⟨_, search_accepted accepted nothing, ?_⟩
  rw [not_or] at nothing
  have positive : 0 < min count rows.ids.length :=
    Nat.lt_min.mpr ⟨Nat.pos_of_ne_zero nothing.2, List.length_pos_iff.mpr nothing.1⟩
  have few : min count rows.ids.length ≤ rows.matrix.length :=
    rows.aligned ▸ Nat.min_le_right _ _
  set size := min count rows.ids.length
  have perm := @bestRows_perm selection rows.matrix vector size
  have ids : (((bestRows selection rows.matrix vector size).map fun best =>
      (rows.idOf best.1, best.2)).map Prod.fst) =
        ((bestRows selection rows.matrix vector size).map Prod.fst).map rows.idOf := by
    rw [List.map_map, List.map_map]
    rfl
  refine ⟨?_, ?_, ?_, ?_, ?_⟩
  · have lengths := perm.length_eq
    rw [List.length_map, List.length_map, length_topPlaces positive few] at lengths
    rw [List.length_map]
    exact lengths
  · rw [ids]
    apply List.Nodup.map (Rows.idOf_injective exactly.distinct)
    rw [perm.nodup_iff]
    exact (topPlaces_nodup positive few).map
      (Fin.cast_injective (@length_negated rows.matrix vector))
  · intro item among
    obtain ⟨best, present, rfl⟩ := List.mem_map.mp among
    exact ⟨_, (exactly.holds _ _).mp (rows.idOf_pair best.1), bestRows_score present⟩
  · rw [List.pairwise_map]
    exact bestRows_sorted size
  · intro id row holds omitted item among
    obtain ⟨best, present, rfl⟩ := List.mem_map.mp among
    obtain ⟨own, rfl, rfl⟩ := Rows.exists_row ((exactly.holds id row).mpr holds)
    rw [ids, (perm.map rows.idOf).mem_iff] at omitted
    have taken := perm.mem_iff.mp (List.mem_map_of_mem (f := Prod.fst) present)
    obtain ⟨place, top, same⟩ := List.mem_map.mp taken
    rw [bestRows_score present, ← same]
    have unplaced : own.cast (@length_negated rows.matrix vector).symm ∉
        topPlaces selection rows.matrix vector size := by
      intro chosen
      exact omitted (List.mem_map_of_mem (List.mem_map_of_mem (f := rowOf rows.matrix vector) chosen))
    exact topPlaces_best positive few unplaced place top

theorem indexRun_holds (selection : Selection) (dim : Nat) (operations : List IndexOperation) :
    HoldsExactly (lastAccepted dim operations) (indexRun selection dim operations) := by
  have run : ∀ {held : String → Option (List FloatValue)} {rows : Rows FloatValue},
      HoldsExactly held rows → HoldsExactly (operations.foldl (heldAfter dim) held)
        (operations.foldl (indexAfter selection dim) rows) := by
    induction operations with
    | nil => exact id
    | cons operation operations ih =>
        intro held rows exactly
        exact ih (exactly.after operation)
  apply run
  exact ⟨List.nodup_nil, fun id vector => ⟨fun absent => absurd absent List.not_mem_nil, nofun⟩⟩

end Histories

/-! ## The index -/

/-- What a history of operations leaves is searched exactly: the index holds what was last
accepted, a refused vector changes nothing, and a search finds the best. -/
structure IsExactMap (selection : Selection) (dim : Nat) (held : String → Option (List FloatValue))
    (rows : Rows FloatValue) : Prop where
  holds : HoldsExactly held rows
  refuses : ∀ id vector, ¬ Accepted dim vector →
    (numpyIndex (exactNumpy selection) dim).add rows id vector = (rows, some .valueError)
  finds : ∀ vector count, Accepted dim vector → ∃ found,
    (numpyIndex (exactNumpy selection) dim).search rows vector count = .ok found ∧
      FindsBest held rows.ids.length vector count found

/-- **`NumpyIndex` is a map from ids to vectors with exact search**, after any operations. -/
theorem numpyIndex_exact (selection : Selection) (dim : Nat) (operations : List IndexOperation) :
    IsExactMap selection dim (lastAccepted dim operations) (indexRun selection dim operations) where
  holds := indexRun_holds selection dim operations
  refuses id _ rejected := add_rejected rejected _ id
  finds _ count accepted := (indexRun_holds selection dim operations).search accepted count

/-- Places in ascending order of their values. -/
def sortedPlaces (values : List ℚ) : List (Fin values.length) :=
  (List.finRange values.length).insertionSort fun first second =>
    values.get first ≤ values.get second

theorem sortedPlaces_sorted (values : List ℚ) :
    (sortedPlaces values).Pairwise fun first second => values.get first ≤ values.get second := by
  have total : Std.Total fun first second : Fin values.length =>
      values.get first ≤ values.get second := ⟨fun first second => le_total _ _⟩
  have transitive : IsTrans (Fin values.length) fun first second =>
      values.get first ≤ values.get second := ⟨fun _ _ _ below above => below.trans above⟩
  exact List.pairwise_insertionSort _ _

/-- A full sort is a selection. -/
def sorting : Selection where
  argpartition values _ := sortedPlaces values
  argsort := sortedPlaces
  partition_perm values _ _ := List.perm_insertionSort _ _
  partition_smallest := by
    intro values kth _ first early last late
    have sorted := sortedPlaces_sorted values
    rw [← List.take_append_drop (kth + 1) (sortedPlaces values), List.pairwise_append] at sorted
    exact sorted.2.2 first early last late
  sort_perm values := List.perm_insertionSort _ _
  sort_sorted values := by
    rw [List.pairwise_map]
    exact sortedPlaces_sorted values

end Semantic
