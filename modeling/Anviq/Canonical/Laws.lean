import Anviq.Canonical.Normalize
import Anviq.Json.CanonicalForm

/-! # Laws of normalising

Normalising commutes with a change of the numbers, and keeps what holds of the names and the
numbers of a value. Values that are the same are normalised alike.
-/

namespace Canonical

variable {ν μ : Type}

/-! ## Normalising a renumbered value -/

theorem allStrings_map (f : ν → μ) (elements : List (Json ν)) :
    allStrings (elements.map (Json.map f)) = allStrings elements := by
  induction elements with
  | nil => rfl
  | cons element elements ih => cases element <;> simp [allStrings, Json.map, ih]

theorem normalizeRequired_map (f : ν → μ) (required : Json ν) :
    normalizeRequired (required.map f) = (normalizeRequired required).map f := by
  cases required with
  | arr elements =>
      simp only [Json.map, Json.mapElements_eq, normalizeRequired, allStrings_map]
      cases allStrings elements <;> simp [Json.map]
  | _ => rfl

/-- Normalising does not look at numbers. -/
theorem normalizeSchema_map (f : ν → μ) (node : Json ν) :
    normalizeSchema (node.map f) = (normalizeSchema node).map f := by
  induction node using Json.induction with
  | null => rfl
  | bool value => rfl
  | num value => rfl
  | str value => rfl
  | arr elements ih =>
      simp only [Json.map, Json.mapElements_eq, normalizeSchema, normalizeElements_eq,
        List.map_map]
      congr 1
      exact List.map_congr_left ih
  | obj members ih =>
      simp only [Json.map, Json.mapMembers_eq, normalizeSchema, normalizeMembers_eq,
        List.filter_map, List.map_map]
      congr 1
      refine List.map_congr_left fun member present => Prod.ext rfl ?_
      have value := ih member (List.mem_of_mem_filter present)
      simp only [normalizeMember, Function.comp_apply, value]
      split
      · exact normalizeRequired_map f _
      · rfl

theorem normalizeOptional_map (f : ν → μ) (tool : Json.Members ν) (name : String) :
    normalizeOptional (Json.mapMembers f tool) name =
      Json.mapMembers f (normalizeOptional tool name) := by
  unfold normalizeOptional
  rw [Json.Members.get?_map]
  cases tool.get? name with
  | none => rfl
  | some value => simp only [Option.map_some, Json.mapMembers, normalizeSchema_map]

/-! ## What normalising keeps -/

theorem normalizeRequired_namesPairwise {r : String → String → Prop} {required : Json ν}
    (holds : required.NamesPairwise r) : (normalizeRequired required).NamesPairwise r := by
  cases required with
  | arr elements =>
      unfold normalizeRequired
      dsimp only
      split
      · rw [Json.namesPairwise_arr]
        intro element present
        obtain ⟨string, -, rfl⟩ := List.mem_map.mp present
        trivial
      · exact holds
  | _ => exact holds

theorem normalizeRequired_allNumbers {P : ν → Prop} {required : Json ν}
    (holds : required.AllNumbers P) : (normalizeRequired required).AllNumbers P := by
  cases required with
  | arr elements =>
      unfold normalizeRequired
      dsimp only
      split
      · rw [Json.allNumbers_arr]
        intro element present
        obtain ⟨string, -, rfl⟩ := List.mem_map.mp present
        trivial
      · exact holds
  | _ => exact holds

/-- Normalising keeps the order of names. -/
theorem normalizeSchema_namesPairwise {r : String → String → Prop} {node : Json ν}
    (holds : node.NamesPairwise r) : (normalizeSchema node).NamesPairwise r := by
  induction node using Json.induction with
  | null => trivial
  | bool value => trivial
  | num value => trivial
  | str value => trivial
  | arr elements ih =>
      rw [Json.namesPairwise_arr] at holds
      rw [normalizeSchema, normalizeElements_eq, Json.namesPairwise_arr]
      exact List.forall_mem_map.mpr fun element present => ih element present (holds element present)
  | obj members ih =>
      rw [Json.namesPairwise_obj] at holds
      rw [normalizeSchema, normalizeMembers_eq, Json.namesPairwise_obj, List.map_map]
      refine ⟨holds.1.sublist (List.Sublist.map Prod.fst (List.filter_sublist ..)), ?_⟩
      refine List.forall_mem_map.mpr fun member present => ?_
      have among := List.mem_of_mem_filter present
      have value := ih member among (holds.2 member among)
      simp only [normalizeMember]
      split
      · exact normalizeRequired_namesPairwise value
      · exact value

/-- A normalised definition names each of its members once. -/
theorem normalized_distinct {tool : Json.Members ν} {name description inputSchema : Json ν}
    (distinct : (Json.obj tool).Distinct) (nameDistinct : name.Distinct)
    (descriptionDistinct : description.Distinct) (schemaDistinct : inputSchema.Distinct) :
    (Json.obj ([("name", name), ("description", description), ("inputSchema", inputSchema)] ++
      normalizeOptional tool "outputSchema" ++ normalizeOptional tool "annotations")).Distinct := by
  rw [Json.Distinct, Json.namesPairwise_obj] at distinct ⊢
  have optional (name : String) : ∀ entry ∈ normalizeOptional tool name, entry.2.Distinct := by
    unfold normalizeOptional
    cases found : tool.get? name with
    | none => exact fun _ absent => absurd absent List.not_mem_nil
    | some value =>
        intro entry present
        rw [List.mem_singleton.mp present]
        exact normalizeSchema_namesPairwise (distinct.2 _ (Json.Members.mem_of_get? found))
  refine ⟨?_, ?_⟩
  · unfold normalizeOptional
    cases tool.get? "outputSchema" <;> cases tool.get? "annotations" <;> simp
  · intro entry present
    obtain front | annotations := List.mem_append.mp present
    · obtain fixed | output := List.mem_append.mp front
      · simp only [List.mem_cons, List.not_mem_nil, or_false] at fixed
        obtain rfl | rfl | rfl := fixed
        · exact nameDistinct
        · exact descriptionDistinct
        · exact schemaDistinct
      · exact optional "outputSchema" entry output
    · exact optional "annotations" entry annotations

/-- Normalising brings in no numbers. -/
theorem normalizeSchema_allNumbers {P : ν → Prop} {node : Json ν} (holds : node.AllNumbers P) :
    (normalizeSchema node).AllNumbers P := by
  induction node using Json.induction with
  | null => trivial
  | bool value => trivial
  | num value => exact holds
  | str value => trivial
  | arr elements ih =>
      rw [Json.allNumbers_arr] at holds
      rw [normalizeSchema, normalizeElements_eq, Json.allNumbers_arr]
      exact List.forall_mem_map.mpr fun element present => ih element present (holds element present)
  | obj members ih =>
      rw [Json.allNumbers_obj] at holds
      rw [normalizeSchema, normalizeMembers_eq, Json.allNumbers_obj]
      refine List.forall_mem_map.mpr fun member present => ?_
      have among := List.mem_of_mem_filter present
      have value := ih member among (holds member among)
      simp only [normalizeMember]
      split
      · exact normalizeRequired_allNumbers value
      · exact value

/-- A normalised definition has no other numbers than the definition. -/
theorem normalized_allNumbers {P : ν → Prop} {tool : Json.Members ν}
    {name description inputSchema : Json ν} (holds : (Json.obj tool).AllNumbers P)
    (nameHolds : name.AllNumbers P) (descriptionHolds : description.AllNumbers P)
    (schemaHolds : inputSchema.AllNumbers P) :
    (Json.obj ([("name", name), ("description", description), ("inputSchema", inputSchema)] ++
      normalizeOptional tool "outputSchema" ++
      normalizeOptional tool "annotations")).AllNumbers P := by
  rw [Json.allNumbers_obj] at holds ⊢
  have optional (name : String) : ∀ entry ∈ normalizeOptional tool name, entry.2.AllNumbers P := by
    unfold normalizeOptional
    cases found : tool.get? name with
    | none => exact fun _ absent => absurd absent List.not_mem_nil
    | some value =>
        intro entry present
        rw [List.mem_singleton.mp present]
        exact normalizeSchema_allNumbers (holds _ (Json.Members.mem_of_get? found))
  intro entry present
  obtain front | annotations := List.mem_append.mp present
  · obtain fixed | output := List.mem_append.mp front
    · simp only [List.mem_cons, List.not_mem_nil, or_false] at fixed
      obtain rfl | rfl | rfl := fixed
      · exact nameHolds
      · exact descriptionHolds
      · exact schemaHolds
    · exact optional "outputSchema" entry output
  · exact optional "annotations" entry annotations

/-! ## Values that are the same -/

section Same

variable {related : ν → ν → Prop}

theorem allStrings_same {left right : List (Json ν)}
    (same : List.Forall₂ (Json.Same related) left right) : allStrings left = allStrings right := by
  induction same with
  | nil => rfl
  | cons first _ ih => cases first <;> simp only [allStrings, ih]

theorem normalizeRequired_same {left right : Json ν} (same : Json.Same related left right) :
    Json.Same related (normalizeRequired left) (normalizeRequired right) := by
  cases same with
  | @arr leftElements rightElements elements =>
      simp only [normalizeRequired, allStrings_same elements]
      cases allStrings rightElements with
      | some strings =>
          apply Json.Same.arr
          rw [List.forall₂_map_left_iff, List.forall₂_map_right_iff, List.forall₂_same]
          exact fun string _ => .str string
      | none => exact .arr elements
  | null => exact .null
  | bool value => exact .bool value
  | num numbers => exact .num numbers
  | str value => exact .str value
  | obj names values => exact .obj names values

/-- A reader of normalised members. -/
theorem get?_normalizeMembers (members : Json.Members ν) (name : String) :
    Json.Members.get? (normalizeMembers members) name =
      if name = "$comment" then none
      else (members.get? name).map fun value => (normalizeMember (name, value)).2 := by
  induction members with
  | nil => simp [normalizeMembers]
  | cons member members ih =>
      rw [normalizeMembers, Json.Members.get?_cons]
      by_cases comment : member.1 = "$comment"
      · rw [if_pos comment, ih]
        split
        · rfl
        · next other => rw [if_neg fun named => other (named.symm.trans comment)]
      · rw [if_neg comment, Json.Members.get?_cons, ih]
        by_cases named : member.1 = name
        · subst named
          simp [comment, normalizeMember]
        · rw [if_neg named, if_neg named]

/-- Normalising treats values that are the same alike. -/
theorem normalizeSchema_same {left right : Json ν} (same : Json.Same related left right) :
    Json.Same related (normalizeSchema left) (normalizeSchema right) := by
  induction left using Json.induction generalizing right with
  | null =>
      cases same
      exact .null
  | bool value =>
      cases same
      exact .bool value
  | num value =>
      cases same with
      | num numbers => exact .num numbers
  | str value =>
      cases same
      exact .str value
  | arr leftElements ih =>
      cases same with
      | arr elements =>
          rw [normalizeSchema, normalizeSchema, normalizeElements_eq, normalizeElements_eq]
          apply Json.Same.arr
          rw [List.forall₂_map_left_iff, List.forall₂_map_right_iff]
          induction elements with
          | nil => exact .nil
          | cons first _ rest =>
              rw [List.forall_mem_cons] at ih
              exact .cons (ih.1 first) (rest ih.2)
  | obj leftMembers ih =>
      cases same with
      | obj names values =>
          rw [normalizeSchema, normalizeSchema]
          refine .obj ?_ ?_
          · intro name
            rw [get?_normalizeMembers, get?_normalizeMembers]
            split
            · rfl
            · rw [Option.isSome_map, Option.isSome_map, names name]
          · intro name leftValue rightValue leftFound rightFound
            rw [get?_normalizeMembers] at leftFound rightFound
            split at leftFound
            · cases leftFound
            · next other =>
                rw [if_neg other] at rightFound
                obtain ⟨leftSource, leftNamed, rfl⟩ := Option.map_eq_some_iff.mp leftFound
                obtain ⟨rightSource, rightNamed, rfl⟩ := Option.map_eq_some_iff.mp rightFound
                have sources := ih _ (Json.Members.mem_of_get? leftNamed)
                  (values name leftSource rightSource leftNamed rightNamed)
                simp only [normalizeMember]
                split
                · exact normalizeRequired_same sources
                · exact sources

theorem normalizeOptional_same {left right : Json.Members ν}
    (same : Json.Same related (.obj left) (.obj right)) (name : String) :
    List.Forall₂ (fun first second => first.1 = second.1 ∧ Json.Same related first.2 second.2)
      (normalizeOptional left name) (normalizeOptional right name) := by
  cases same with
  | obj names values =>
      have both := names name
      unfold normalizeOptional
      cases leftFound : left.get? name with
      | none =>
          rw [leftFound, Option.isSome_none, eq_comm, Option.isSome_eq_false_iff,
            Option.isNone_iff_eq_none] at both
          rw [both]
          exact .nil
      | some leftValue =>
          rw [leftFound, Option.isSome_some, eq_comm, Option.isSome_iff_exists] at both
          obtain ⟨rightValue, rightFound⟩ := both
          rw [rightFound]
          have sources := values name leftValue rightValue leftFound rightFound
          exact .cons ⟨rfl, normalizeSchema_same sources⟩ .nil

end Same

end Canonical
