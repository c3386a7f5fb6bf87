import Anviq.Semantic.Coherent

/-! # Which candidate a lookup judges

The index is asked for the best few entries before any of them has been asked whether it has
expired. A lookup judges the best live entry exactly when a live entry is among those few, or when
there is none in the partition.
-/

namespace Semantic

open Lru (Seconds Ttl WholeSeconds expired validTtl)

/-! ## Indexes that rank -/

/-- The `count` ids of the greatest scores with their scores, best first. -/
structure Top {Score : Type} [LE Score] (ids : List String) (score : String → Score) (count : Nat)
    (found : List (String × Score)) : Prop where
  among : ∀ item ∈ found, item.1 ∈ ids ∧ item.2 = score item.1
  distinct : (found.map Prod.fst).Nodup
  sorted : found.Pairwise fun first second => second.2 ≤ first.2
  best : ∀ id ∈ ids, id ∉ found.map Prod.fst → ∀ item ∈ found, score id ≤ item.2
  length : found.length = min count ids.length

/-- A search finds the best ids of the index. -/
structure Ranking {Vector Score : Type} [LE Score] {index : VectorIndex Vector Score}
    (keys : IndexKeys index) where
  score : index.State → Vector → String → Score
  top : ∀ {state : index.State} {vector : Vector} {count : Nat} {found : List (String × Score)},
    (keys.ids state).Nodup → index.search state vector count = .ok found →
    Top (keys.ids state) (score state vector) count found

/-- What the numpy index relies on: the rows of the greatest scores with their scores, best first,
each once. -/
structure Numpy.Ranks {Component Score : Type} [LE Score] (numpy : Numpy Component Score) where
  rowScore : List Component → List Component → Score
  scored : ∀ matrix vector count, ∀ best ∈ numpy.top matrix vector count,
    best.2 = rowScore (matrix.get best.1) vector
  distinct : ∀ matrix vector count, ((numpy.top matrix vector count).map Prod.fst).Nodup
  sorted : ∀ matrix vector count,
    (numpy.top matrix vector count).Pairwise fun first second => second.2 ≤ first.2
  best : ∀ matrix vector count, ∀ row ∉ (numpy.top matrix vector count).map Prod.fst,
    ∀ best ∈ numpy.top matrix vector count, rowScore (matrix.get row) vector ≤ best.2
  length : ∀ matrix vector count, (numpy.top matrix vector count).length =
    min count matrix.length

/-- The row of an id. -/
def Rows.row {Component : Type} (rows : Rows Component) (id : String) : List Component :=
  (rows.matrix[rows.ids.idxOf id]?).getD []

/-- The row of an identifier is that of its place. -/
theorem Rows.row_get {Component : Type} {rows : Rows Component} (nodup : rows.ids.Nodup)
    (row : Fin rows.matrix.length) :
    rows.row (rows.ids.get (row.cast rows.aligned.symm)) = rows.matrix.get row := by
  rw [Rows.row, List.get_eq_getElem, nodup.idxOf_getElem]
  simp

/-- The best rows, under their ids, are the best ids. -/
theorem Numpy.Ranks.top {Component Score : Type} [LE Score] {numpy : Numpy Component Score}
    (ranks : numpy.Ranks) {rows : Rows Component} (nodup : rows.ids.Nodup)
    (vector : List Component) (count : Nat) :
    Top rows.ids (fun id => ranks.rowScore (rows.row id) vector) count
      ((numpy.top rows.matrix vector (min count rows.ids.length)).map fun best =>
        (rows.ids.get (best.1.cast rows.aligned.symm), best.2)) := by
  have injective : Function.Injective fun row : Fin rows.matrix.length =>
      rows.ids.get (row.cast rows.aligned.symm) :=
    (List.nodup_iff_injective_get.mp nodup).comp (Fin.cast_injective _)
  constructor
  case among =>
    intro item present
    obtain ⟨best, among, rfl⟩ := List.mem_map.mp present
    refine ⟨List.get_mem _ _, ?_⟩
    rw [ranks.scored _ _ _ best among, Rows.row_get nodup]
  case distinct =>
    rw [List.map_map]
    have names := (ranks.distinct rows.matrix vector (min count rows.ids.length)).map injective
    rwa [List.map_map] at names
  case sorted =>
    rw [List.pairwise_map]
    exact ranks.sorted rows.matrix vector (min count rows.ids.length)
  case best =>
    intro id present unlisted item listed
    obtain ⟨place, rfl⟩ := List.get_of_mem present
    obtain ⟨best, among, rfl⟩ := List.mem_map.mp listed
    have row := Rows.row_get nodup (place.cast rows.aligned)
    rw [show (place.cast rows.aligned).cast rows.aligned.symm = place from rfl] at row
    rw [row]
    refine ranks.best _ _ _ (place.cast rows.aligned) ?_ best among
    intro there
    obtain ⟨other, otherAmong, same⟩ := List.mem_map.mp there
    apply unlisted
    rw [List.map_map]
    refine List.mem_map.mpr ⟨other, otherAmong, ?_⟩
    simp [same]
  case length =>
    rw [List.length_map, ranks.length, ← rows.aligned]
    omega

/-- The numpy index ranks its ids by the scores of their rows. -/
def numpyIndex_ranking {Component Score : Type} [LE Score] {numpy : Numpy Component Score}
    (ranks : numpy.Ranks) (dim : Nat) : Ranking (numpyIndex_keys numpy dim) where
  score rows vector id := ranks.rowScore (Rows.row rows id) vector
  top := by
    intro rows vector count found nodup searched
    simp only [numpyIndex] at searched
    split at searched
    · next none =>
        obtain rfl := Except.ok.inj searched
        refine ⟨List.forall_mem_nil _, List.nodup_nil, List.Pairwise.nil,
          fun _ _ _ => List.forall_mem_nil _, ?_⟩
        rcases none with empty | zero
        · rw [show (numpyIndex_keys numpy dim).ids rows = [] from empty]
          exact (Nat.min_zero count).symm
        · rw [zero]
          exact (Nat.zero_min _).symm
    · split at searched
      · cases searched
      · obtain rfl := Except.ok.inj searched
        exact ranks.top nodup vector count

variable {Vector Score Time Temperature Response : Type} [Seconds Time]
  {config : Config Vector Score Time Temperature}

/-! ## The first live candidate -/

/-- An entry of the partition has not expired. -/
def Live {IndexState : Type} (now : Time) (partition : Partition Response Time IndexState)
    (id : String) : Prop :=
  ∃ entry, partition.entries.get? id = some entry ∧ expired now entry.expiresAt = false

omit [Seconds Time] in
/-- `_purge_expired` leaves the other entries. -/
theorem purgeExpired_other {scope : Scope Response Time config.index.State} {id other : String}
    {entry : Entry Response Time} (fits : scope.partition.Fits config)
    (found : scope.partition.entries.get? id = some entry) (apart : other ≠ id) :
    (purgeExpired config scope id).partition.entries.get? other =
      scope.partition.entries.get? other := by
  rw [(purgeExpired_shrinks fits found).entries, if_neg (by simpa using apart)]

/-- The first live candidate comes after none that is live; there is none if no candidate is. -/
theorem firstLive_first (now : Time) (candidates : List (String × Score))
    {scope : Scope Response Time config.index.State} (fits : scope.partition.Fits config)
    (distinct : (candidates.map Prod.fst).Nodup) :
    (∀ id score entry, (firstLive config now candidates scope).1 = some (id, score, entry) →
      scope.partition.entries.get? id = some entry ∧ expired now entry.expiresAt = false ∧
        ∃ front back, candidates = front ++ (id, score) :: back ∧
          ∀ item ∈ front, ¬ Live now scope.partition item.1) ∧
      ((firstLive config now candidates scope).1 = none →
        ∀ item ∈ candidates, ¬ Live now scope.partition item.1) := by
  induction candidates generalizing scope with
  | nil =>
      refine ⟨?_, fun _ => List.forall_mem_nil _⟩
      intro id score entry chosen
      cases chosen
  | cons candidate candidates ih =>
      obtain ⟨id, score⟩ := candidate
      rw [List.map_cons, List.nodup_cons] at distinct
      rw [firstLive]
      cases found : scope.partition.entries.get? id with
      | none =>
          have dead : ¬ Live now scope.partition id := by
            intro live
            obtain ⟨entry, held, -⟩ := live
            rw [found] at held
            cases held
          obtain ⟨first, none⟩ := ih fits distinct.2
          dsimp only
          refine ⟨?_, ?_⟩
          · intro other otherScore entry chosen
            obtain ⟨held, current, front, back, parts, before⟩ := first other otherScore entry chosen
            exact ⟨held, current, (id, score) :: front, back, by rw [parts, List.cons_append],
              List.forall_mem_cons.mpr ⟨dead, before⟩⟩
          · intro chosen
            exact List.forall_mem_cons.mpr ⟨dead, none chosen⟩
      | some entry =>
          dsimp only
          by_cases late : expired now entry.expiresAt = true
          · have dead : ¬ Live now scope.partition id := by
              intro live
              obtain ⟨held, heldFound, current⟩ := live
              rw [found] at heldFound
              rw [← Option.some.inj heldFound, late] at current
              cases current
            rw [if_pos late]
            obtain ⟨first, none⟩ := ih (purgeExpired_shrinks fits found).fits distinct.2
            have same : ∀ item ∈ candidates,
                Live now (purgeExpired config scope id).partition item.1 ↔
                  Live now scope.partition item.1 := by
              intro item among
              have apart : item.1 ≠ id := by
                intro equal
                have named : item.1 ∈ candidates.map Prod.fst := List.mem_map_of_mem among
                rw [equal] at named
                exact distinct.1 named
              rw [Live, Live, purgeExpired_other fits found apart]
            refine ⟨?_, ?_⟩
            · intro other otherScore held chosen
              obtain ⟨heldFound, current, front, back, parts, before⟩ :=
                first other otherScore held chosen
              have apart : other ≠ id := by
                intro equal
                apply distinct.1
                rw [parts, ← equal]
                simp
              rw [purgeExpired_other fits found apart] at heldFound
              refine ⟨heldFound, current, (id, score) :: front, back,
                by rw [parts, List.cons_append], List.forall_mem_cons.mpr ⟨dead, ?_⟩⟩
              intro item among live
              exact before item among
                ((same item (by rw [parts]; exact List.mem_append_left _ among)).mpr live)
            · intro chosen
              refine List.forall_mem_cons.mpr ⟨dead, ?_⟩
              intro item among live
              exact none chosen item among ((same item among).mpr live)
          · rw [if_neg late]
            refine ⟨?_, fun chosen => by cases chosen⟩
            intro other otherScore held chosen
            obtain ⟨rfl, rfl, rfl⟩ : id = other ∧ score = otherScore ∧ entry = held := by
              simpa using chosen
            exact ⟨found, by simpa using late, [], candidates, rfl, List.forall_mem_nil _⟩

/-! ## What a lookup judges -/

section Scores

variable [LinearOrder Score]

variable (config) in
/-- The partition once the entry of the query itself has been purged, if it has expired. -/
def purgedExact (now : Time) (query : String) (scope : Scope Response Time config.index.State) :
    Scope Response Time config.index.State :=
  match scope.partition.exactIndex.get? (config.exactHash query) with
  | none => scope
  | some id =>
      match scope.partition.entries.get? id with
      | none => scope
      | some entry =>
          if expired now entry.expiresAt then purgeExpired config scope id else scope

variable (config) in
/-- What `_lookup_internal` compares with `tau_verify`, if it comes to that. -/
def compared (now : Time) (query : String) (scope : Scope Response Time config.index.State) :
    Option (String × Score × Entry Response Time) :=
  if scope.partition.entries.items = [] then none
  else
    match config.embed query with
    | .error _ => none
    | .ok vector =>
        match config.index.search scope.partition.index vector config.topK with
        | .error _ => none
        | .ok candidates => (firstLive config now candidates scope).1

/-- Without a live entry of the query itself, the partition is searched. -/
theorem lookupLocked_inexact [One Score] {now : Time} {query : String}
    {scope : Scope Response Time config.index.State}
    (inexact : ∀ id entry, scope.partition.exactIndex.get? (config.exactHash query) = some id →
      scope.partition.entries.get? id = some entry → expired now entry.expiresAt = true) :
    lookupLocked config now query scope =
      searchLocked config now query (purgedExact config now query scope) := by
  unfold lookupLocked purgedExact
  cases indexed : scope.partition.exactIndex.get? (config.exactHash query) with
  | none => rfl
  | some id =>
      dsimp only
      cases found : scope.partition.entries.get? id with
      | none => rfl
      | some entry =>
          dsimp only
          rw [if_pos (inexact id entry indexed found), if_pos (inexact id entry indexed found)]

/-- What is compared is judged. -/
theorem searchLocked_compared {now : Time} {query : String}
    {scope : Scope Response Time config.index.State} {id : String} {score : Score}
    {entry : Entry Response Time} (chosen : compared config now query scope = some (id, score, entry)) :
    ∃ after, searchLocked config now query scope = judge config query id score entry after := by
  unfold compared at chosen
  unfold searchLocked
  split at chosen
  · cases chosen
  · next occupied =>
      rw [if_neg occupied]
      cases embedded : config.embed query with
      | error failure =>
          rw [embedded] at chosen
          cases chosen
      | ok vector =>
          rw [embedded] at chosen
          dsimp only at chosen ⊢
          cases searched : config.index.search scope.partition.index vector config.topK with
          | error failure =>
              rw [searched] at chosen
              cases chosen
          | ok candidates =>
              rw [searched] at chosen
              dsimp only at chosen ⊢
              generalize firstLive config now candidates scope = outcome at chosen ⊢
              obtain ⟨first, after⟩ := outcome
              obtain rfl : first = some (id, score, entry) := chosen
              exact ⟨after, rfl⟩

variable {now : Time} {query : String} {scope : Scope Response Time config.index.State}

omit [LinearOrder Score] in
/-- The live entries are those there were. -/
theorem purgedExact_live (fits : scope.partition.Fits config) (id : String) :
    Live now (purgedExact config now query scope).partition id ↔ Live now scope.partition id := by
  unfold purgedExact
  split
  · exact Iff.rfl
  · next other indexed =>
      cases found : scope.partition.entries.get? other with
      | none => exact Iff.rfl
      | some entry =>
          dsimp only
          split
          · next late =>
              by_cases same : id = other
              · refine iff_of_false ?_ ?_
                · intro live
                  obtain ⟨held, heldFound, -⟩ := live
                  rw [(purgeExpired_shrinks fits found).entries, if_pos (by simp [same])] at heldFound
                  cases heldFound
                · intro live
                  obtain ⟨held, heldFound, current⟩ := live
                  rw [same, found] at heldFound
                  rw [← Option.some.inj heldFound, late] at current
                  cases current
              · rw [Live, Live, purgeExpired_other fits found same]
          · exact Iff.rfl

omit [LinearOrder Score] in
/-- Purging an expired exact entry only takes it away. -/
theorem purgedExact_whittled : Whittled config scope (purgedExact config now query scope) := by
  unfold purgedExact
  split
  · exact .refl
  · next id indexed =>
      cases found : scope.partition.entries.get? id with
      | none => exact .refl
      | some entry =>
          dsimp only
          split
          · exact Whittled.refl.purged found
          · exact .refl

/-- A partition with a live entry is not empty. -/
theorem occupied_of_live {IndexState : Type} {partition : Partition Response Time IndexState}
    {id : String} (live : Live now partition id) : partition.entries.items ≠ [] := by
  obtain ⟨entry, found, -⟩ := live
  have present := Dict.get?_eq_some.mp found
  intro empty
  rw [empty] at present
  exact absurd present List.not_mem_nil

section Judged

variable [One Score] {keys : IndexKeys config.index}
  {cache : SemanticCache Response Score Time config.index.State}
  {partition : Partition Response Time config.index.State}

/-- The lookup of a cacheable request judges the best live entry of its partition, if it judges
one, and says that there is no live candidate only when no entry is live. -/
structure JudgesBest (config : Config Vector Score Time Temperature) {keys : IndexKeys config.index}
    (ranking : Ranking keys)
    (now : Time) (request : Request Temperature)
    (cache : SemanticCache Response Score Time config.index.State)
    (partition : Partition Response Time config.index.State) : Prop where
  best : ∀ id score entry,
    compared config now request.query
        (purgedExact config now request.query (cache.scope config partition)) =
      some (id, score, entry) →
    (∃ after, lookupLocked config now request.query (cache.scope config partition) =
        judge config request.query id score entry after) ∧
      partition.entries.get? id = some entry ∧ expired now entry.expiresAt = false ∧
      ∀ vector, config.embed request.query = .ok vector → ∀ other, Live now partition other →
        ranking.score (purgedExact config now request.query
          (cache.scope config partition)).partition.index vector other ≤ score
  candidates : (cache.lookupInternal config now request).1 =
    .miss { reason := "no_live_candidates" } → ∀ id, ¬ Live now partition id

omit [One Score] in
/-- The first live candidate is the best live entry. -/
theorem first_best {scope : Scope Response Time config.index.State} {ids : List String}
    {score : String → Score} {count : Nat} {candidates front back : List (String × Score)}
    {id other : String} {value : Score} (top : Top ids score count candidates)
    (parts : candidates = front ++ (id, value) :: back)
    (before : ∀ item ∈ front, ¬ Live now scope.partition item.1)
    (live : Live now scope.partition other) (indexed : other ∈ ids) : score other ≤ value := by
  have among : (id, value) ∈ candidates := by
    rw [parts]
    exact List.mem_append_right _ List.mem_cons_self
  by_cases candidate : other ∈ candidates.map Prod.fst
  · obtain ⟨item, present, rfl⟩ := List.mem_map.mp candidate
    rw [← (top.among item present).2]
    rw [parts, List.mem_append, List.mem_cons] at present
    rcases present with early | rfl | late
    · exact absurd live (before item early)
    · exact le_refl _
    · have sorted := top.sorted
      rw [parts, List.pairwise_append, List.pairwise_cons] at sorted
      exact sorted.2.1.1 item late
  · exact top.best other indexed candidate (id, value) among

variable {request : Request Temperature} {vector : Vector} {candidates : List (String × Score)}

omit [LinearOrder Score] [One Score] in
theorem compared_eq (occupied : (purgedExact config now request.query
      (cache.scope config partition)).partition.entries.items ≠ [])
    (embedded : config.embed request.query = .ok vector)
    (searched : config.index.search (purgedExact config now request.query
      (cache.scope config partition)).partition.index vector config.topK = .ok candidates) :
    compared config now request.query
        (purgedExact config now request.query (cache.scope config partition)) =
      (firstLive config now candidates
        (purgedExact config now request.query (cache.scope config partition))).1 := by
  rw [compared, if_neg occupied, embedded]
  dsimp only
  rw [searched]

/-- A lookup of a cacheable request in a partition that is not empty is one under the lock. -/
theorem lookupInternal_locked (cacheable : (config.isCacheable request).cacheable = true)
    (held : cache.partitions.get? (partitionKeyFor config request.ctx) = some partition)
    (occupied : partition.entries.items ≠ []) :
    (cache.lookupInternal config now request).1 =
      (lookupLocked config now request.query (cache.scope config partition)).1 := by
  unfold SemanticCache.lookupInternal
  simp only [cacheable, Bool.not_true, Bool.false_eq_true, ↓reduceIte, held, occupied]

/-- A lookup that finds no live candidate says so. -/
theorem lookupInternal_none (cacheable : (config.isCacheable request).cacheable = true)
    (held : cache.partitions.get? (partitionKeyFor config request.ctx) = some partition)
    (occupied : partition.entries.items ≠ [])
    (inexact : ∀ id entry,
      partition.exactIndex.get? (config.exactHash request.query) = some id →
        partition.entries.get? id = some entry → expired now entry.expiresAt = true)
    (left : (purgedExact config now request.query
      (cache.scope config partition)).partition.entries.items ≠ [])
    (embedded : config.embed request.query = .ok vector)
    (searched : config.index.search (purgedExact config now request.query
      (cache.scope config partition)).partition.index vector config.topK = .ok candidates)
    (none : (firstLive config now candidates
      (purgedExact config now request.query (cache.scope config partition))).1 = none) :
    (cache.lookupInternal config now request).1 = .miss { reason := "no_live_candidates" } := by
  have locked : lookupLocked config now request.query (cache.scope config partition) = _ :=
    lookupLocked_inexact inexact
  rw [lookupInternal_locked cacheable held occupied, locked]
  unfold searchLocked
  rw [if_neg left, embedded]
  dsimp only
  rw [searched]
  dsimp only
  generalize firstLive config now candidates _ = outcome at none ⊢
  obtain ⟨first, after⟩ := outcome
  obtain rfl : first = Option.none := none
  rfl

omit [Seconds Time] [One Score] in
/-- A candidate that is judged has a score, whatever becomes of it. -/
theorem judge_scored (query id : String) (score : Score) (entry : Entry Response Time)
    (scope : Scope Response Time config.index.State) (reason : String) :
    (judge config query id score entry scope).1 ≠ .miss { reason } := by
  have served : ∀ (scope : Scope Response Time config.index.State) (why : String)
      (count : Metrics → Metrics), (serve scope entry id score why count).1 ≠ .miss { reason } := by
    intro scope why count
    unfold serve
    split
    · intro same
      cases same
    · intro same
      cases same
  unfold judge
  dsimp only
  split
  · intro same
    cases same
  · split
    · intro same
      cases same
    · split
      · exact served _ _ _
      · split
        · intro same
          cases same
        · exact served _ _ _
        · intro same
          cases same

/-- The best live entry is judged exactly when it can be seen among the candidates. -/
theorem SemanticCache.Joined.judgesBest_iff (joined : cache.Joined config keys) (ranking : Ranking keys)
    (cacheable : (config.isCacheable request).cacheable = true)
    (held : cache.partitions.get? (partitionKeyFor config request.ctx) = some partition)
    (inexact : ∀ id entry,
      partition.exactIndex.get? (config.exactHash request.query) = some id →
        partition.entries.get? id = some entry → expired now entry.expiresAt = true)
    (embedded : config.embed request.query = .ok vector)
    (searched : config.index.search (purgedExact config now request.query
      (cache.scope config partition)).partition.index vector config.topK = .ok candidates) :
    JudgesBest config ranking now request cache partition ↔
      (∀ id, ¬ Live now partition id) ∨ ∃ item ∈ candidates, Live now partition item.1 := by
  have fits : (cache.scope config partition).partition.Fits config :=
    joined.consistent.fits _ partition held
  have so : Whittled config (cache.scope config partition)
      (purgedExact config now request.query (cache.scope config partition)) := purgedExact_whittled
  obtain ⟨gone, shrinks⟩ := so.shrinks fits
  have here : (cache.scope config partition).partition.Indexed config keys :=
    joined.indexed _ partition held
  have indexed := so.indexed here
  have same : ∀ id, Live now (purgedExact config now request.query
      (cache.scope config partition)).partition id ↔ Live now partition id :=
    fun id => purgedExact_live fits id
  have top := ranking.top indexed.once searched
  obtain ⟨first, none⟩ := firstLive_first now candidates shrinks.fits top.distinct
  have locked : lookupLocked config now request.query (cache.scope config partition) =
      searchLocked config now request.query
        (purgedExact config now request.query (cache.scope config partition)) :=
    lookupLocked_inexact inexact
  constructor
  · intro best
    by_contra neither
    rw [not_or, not_forall] at neither
    obtain ⟨⟨id, alive⟩, unseen⟩ := neither
    rw [not_not] at alive
    have left := occupied_of_live ((same id).mpr alive)
    have missing : (firstLive config now candidates
        (purgedExact config now request.query (cache.scope config partition))).1 = .none := by
      cases chosen : (firstLive config now candidates
          (purgedExact config now request.query (cache.scope config partition))).1 with
      | none => rfl
      | some item =>
          obtain ⟨other, score, entry⟩ := item
          obtain ⟨found, current, front, back, parts, -⟩ := first other score entry chosen
          refine absurd ⟨(other, score), ?_, (same other).mp ⟨entry, found, current⟩⟩ unseen
          rw [parts]
          exact List.mem_append_right _ List.mem_cons_self
    exact best.candidates (lookupInternal_none cacheable held (occupied_of_live alive) inexact left
      embedded searched missing) id alive
  · intro condition
    constructor
    · intro id score entry chosen
      have left : (purgedExact config now request.query
          (cache.scope config partition)).partition.entries.items ≠ [] := by
        intro empty
        rw [compared, if_pos empty] at chosen
        cases chosen
      have judged := searchLocked_compared chosen
      rw [compared_eq left embedded searched] at chosen
      obtain ⟨found, current, front, back, parts, before⟩ := first id score entry chosen
      refine ⟨locked ▸ judged, ?_, current, ?_⟩
      · rw [shrinks.entries] at found
        split at found
        · cases found
        · exact found
      · intro other embeddedOther rival alive
        obtain rfl : vector = other := Except.ok.inj (embedded.symm.trans embeddedOther)
        have alive := (same rival).mpr alive
        obtain ⟨held, heldFound, heldCurrent⟩ := alive
        exact first_best top parts before ⟨held, heldFound, heldCurrent⟩
          ((indexed.ids rival).mpr (Dict.mem_keys.mpr ⟨held, heldFound⟩))
    · intro said id alive
      obtain dead | ⟨item, among, seen⟩ := condition
      · exact dead id alive
      · have left := occupied_of_live ((same id).mpr alive)
        cases chosen : (firstLive config now candidates
            (purgedExact config now request.query (cache.scope config partition))).1 with
        | none => exact none chosen item among ((same item.1).mpr seen)
        | some best =>
            obtain ⟨other, score, entry⟩ := best
            rw [← compared_eq left embedded searched] at chosen
            obtain ⟨after, judged⟩ := searchLocked_compared chosen
            rw [lookupInternal_locked cacheable held (occupied_of_live alive), locked,
              judged] at said
            exact judge_scored _ _ _ _ _ _ said

end Judged

end Scores

/-- **The best live entry is judged exactly when it can be seen.** In every state a cache can come
to, when a cacheable request has no live entry of its own text: the lookup judges the best live
entry of the partition, and finds no live candidate only where no entry is live, exactly when no
entry is live or one of the `top_k` candidates the index names is. -/
theorem lookup_judges_best_iff [LinearOrder Score] [One Score] (positive : 1 ≤ config.capacity)
    {keys : IndexKeys config.index} (ranking : Ranking keys)
    {cache : SemanticCache Response Score Time config.index.State}
    (reachable : (ticking config Response).Reachable cache) (now : Time)
    (answers : Answers Vector) (request : Request Temperature)
    {partition : Partition Response Time config.index.State} {vector : Vector}
    {candidates : List (String × Score)}
    (cacheable : (config.isCacheable request).cacheable = true)
    (held : cache.partitions.get? (partitionKeyFor config request.ctx) = some partition)
    (inexact : ∀ id entry,
      partition.exactIndex.get? (config.exactHash request.query) = some id →
        partition.entries.get? id = some entry → expired now entry.expiresAt = true)
    (embedded : answers.embed request.query = .ok vector)
    (searched : config.index.search (purgedExact (config.answering answers) now request.query
      (cache.scope (config.answering answers) partition)).partition.index vector config.topK =
        .ok candidates) :
    JudgesBest (config.answering answers) ranking now request cache partition ↔
      (∀ id, ¬ Live now partition id) ∨ ∃ item ∈ candidates, Live now partition item.1 :=
  SemanticCache.Joined.judgesBest_iff
    ((SemanticCache.joined_answering answers).mpr (joined_of_reachable positive keys reachable))
    ranking cacheable held inexact embedded searched

/-! ## An expired entry in front of a live one -/

theorem rankedRows_sorted (matrix : List (List Nat)) (vector : List Nat) :
    (rankedRows matrix vector).Pairwise fun first second => second.2 ≤ first.2 := by
  have total : Std.Total fun first second : Fin matrix.length × Nat => second.2 ≤ first.2 :=
    ⟨fun first second => Nat.le_total _ _⟩
  have transitive :
      IsTrans (Fin matrix.length × Nat) fun first second => second.2 ≤ first.2 :=
    ⟨fun _ _ _ below above => Nat.le_trans above below⟩
  exact List.pairwise_insertionSort _ _

theorem rankedRows_perm (matrix : List (List Nat)) (vector : List Nat) :
    (rankedRows matrix vector).Perm ((List.finRange matrix.length).map fun row =>
      (row, (List.zipWith (· * ·) (matrix.get row) vector).sum)) :=
  List.perm_insertionSort _ _

theorem rankedRows_rows (matrix : List (List Nat)) (vector : List Nat) :
    ((rankedRows matrix vector).map Prod.fst).Perm (List.finRange matrix.length) := by
  have rows := (rankedRows_perm matrix vector).map Prod.fst
  rwa [List.map_map, show (Prod.fst ∘ fun row : Fin matrix.length =>
    (row, (List.zipWith (· * ·) (matrix.get row) vector).sum)) = id from rfl, List.map_id] at rows

/-- The first of the sorted rows are the best. -/
def smallProducts_ranks : Numpy.Ranks smallProducts where
  rowScore row vector := (List.zipWith (· * ·) row vector).sum
  scored := by
    intro matrix vector count best among
    have present := (rankedRows_perm matrix vector).mem_iff.mp (List.mem_of_mem_take among)
    obtain ⟨row, -, rfl⟩ := List.mem_map.mp present
    rfl
  distinct := by
    intro matrix vector count
    have nodup := (rankedRows_rows matrix vector).nodup_iff.mpr (List.nodup_finRange _)
    exact nodup.sublist ((List.take_sublist _ _).map _)
  sorted := by
    intro matrix vector count
    exact (rankedRows_sorted matrix vector).sublist (List.take_sublist _ _)
  best := by
    intro matrix vector count row unlisted best among
    have listed := (rankedRows_perm matrix vector).mem_iff.mpr
      (List.mem_map_of_mem (List.mem_finRange row))
    have sorted := rankedRows_sorted matrix vector
    rw [← List.take_append_drop count (rankedRows matrix vector)] at listed sorted
    rcases List.mem_append.mp listed with early | late
    · exact absurd (List.mem_map_of_mem early) unlisted
    · exact (List.pairwise_append.mp sorted).2.2 best among _ late
  length := by
    intro matrix vector count
    change ((rankedRows matrix vector).take count).length = _
    rw [List.length_take, (rankedRows_perm matrix vector).length_eq, List.length_map,
      List.length_finRange]

/-- Two entries, of which the one with the greater scores is the first to expire. -/
def overtaken : List (Moment measured Nat) :=
  [.plain 0 (.store (asking "dddd") 1 (.given (some (.of 1)))),
    .plain 0 (.store (asking "a") 2 (.given none))]

/-- The cache with both entries is reached. -/
theorem overtaken_reached :
    ∃ cache partition, (ticking measured Nat).Reachable cache ∧
      cache.partitions.get? (partitionKeyFor measured (asking "b").ctx) = some partition ∧
      partition.exactIndex.get? "b" = none ∧ Live (.of 5) partition "t:2" ∧
      Live (.of 0) partition "t:1" ∧
      (cache.lookupInternal measured (.of 5) (asking "b")).1 =
        .miss { reason := "no_live_candidates" } ∧
      measured.index.search (purgedExact measured (.of 0) "b"
        (cache.scope measured partition)).partition.index [1] measured.topK = .ok [("t:1", 4)] := by
  have leads : ∃ cache, Machine.follow (fun cache turn => some (SemanticCache.stepAt
      (measured.answering turn.answers) cache turn.clock turn.operation).2) overtaken
        ({} : SemanticCache Nat Nat WholeSeconds measured.index.State) = some cache ∧
      ∃ partition, cache.partitions.get? (partitionKeyFor measured (asking "b").ctx) =
          some partition ∧
        partition.exactIndex.get? "b" = none ∧ Live (.of 5) partition "t:2" ∧
        Live (.of 0) partition "t:1" ∧
        (cache.lookupInternal measured (.of 5) (asking "b")).1 =
          .miss { reason := "no_live_candidates" } ∧
        measured.index.search (purgedExact measured (.of 0) "b"
          (cache.scope measured partition)).partition.index [1] measured.topK =
            .ok [("t:1", 4)] :=
    ⟨_, rfl, _, rfl, rfl, ⟨_, rfl, rfl⟩, ⟨_, rfl, rfl⟩, rfl, rfl⟩
  obtain ⟨cache, leads, partition, shown⟩ := leads
  exact ⟨cache, partition,
    ⟨_, Machine.Run.follow (fun _ _ _ => Option.some.inj) (.start rfl) leads⟩, shown⟩

/-- A live entry is not seen behind an expired one. -/
theorem lookup_misses_live :
    ¬ ∀ (cache : SemanticCache Nat Nat WholeSeconds measured.index.State)
      (partition : Partition Nat WholeSeconds measured.index.State) (request : Request Unit)
      (now : WholeSeconds), (ticking measured Nat).Reachable cache →
      (measured.isCacheable request).cacheable = true →
      cache.partitions.get? (partitionKeyFor measured request.ctx) = some partition →
      (∀ id entry, partition.exactIndex.get? (measured.exactHash request.query) = some id →
        partition.entries.get? id = some entry → expired now entry.expiresAt = true) →
      JudgesBest measured (numpyIndex_ranking smallProducts_ranks 1) now request cache partition := by
  intro best
  obtain ⟨cache, partition, reachable, held, inexact, live, -, said, -⟩ := overtaken_reached
  have judged := best cache partition (asking "b") (.of 5) reachable rfl held (by
    intro id entry indexed
    rw [show measured.exactHash (asking "b").query = "b" from rfl, inexact] at indexed
    cases indexed)
  exact judged.candidates said "t:2" live

/-- As long as both entries live, the better one is judged. -/
theorem lookup_judges_best_iff_overtaken :
    ∃ (cache : SemanticCache Nat Nat WholeSeconds measured.index.State)
      (partition : Partition Nat WholeSeconds measured.index.State),
      cache.partitions.get? (partitionKeyFor measured (asking "b").ctx) = some partition ∧
      JudgesBest measured (numpyIndex_ranking smallProducts_ranks 1) (.of 0) (asking "b") cache
        partition := by
  obtain ⟨cache, partition, reachable, held, inexact, -, live, -, searched⟩ := overtaken_reached
  refine ⟨cache, partition, held, ?_⟩
  have condition := lookup_judges_best_iff (by decide) (numpyIndex_ranking smallProducts_ranks 1)
    reachable (.of 0) { embed := measured.embed, sameIntent := measured.sameIntent } (asking "b")
    rfl held (by
      intro id entry indexed
      rw [show measured.exactHash (asking "b").query = "b" from rfl, inexact] at indexed
      cases indexed) rfl searched
  exact condition.mpr (Or.inr ⟨("t:1", 4), List.mem_cons_self, live⟩)

end Semantic
