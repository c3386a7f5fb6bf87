import Anviq.Diff.Schema
import Anviq.Harness.PyValue

/-! # Expanding references

What `resolve_local_refs` leaves of the local references of a document whose references all
point to objects: those that stand beside another reference, and no others.
-/

namespace Harness.Diff

variable {lib : Stdlib} {root : PyJson}

/-! ## References in a value -/

theorem refsOfElements_eq_nil {elements : List PyJson} :
    refsOfElements elements = [] ↔ ∀ element ∈ elements, refsOf element = [] := by
  induction elements with
  | nil => simp [refsOfElements]
  | cons element elements ih => simp [refsOfElements, ih]

theorem refsOfMembers_eq_nil {members : PyDict} :
    refsOfMembers members = [] ↔ ∀ member ∈ members, refsOf member.2 = [] := by
  induction members with
  | nil => simp [refsOfMembers]
  | cons member members ih => simp [refsOfMembers, ih]

theorem refsOf_arr_eq_nil {elements : List PyJson} :
    refsOf (.arr elements) = [] ↔ ∀ element ∈ elements, refsOf element = [] := by
  rw [refsOf, refsOfElements_eq_nil]

theorem refsOf_obj_eq_nil {members : PyDict} :
    refsOf (.obj members) = [] ↔
      localRef? members = none ∧ ∀ member ∈ members, refsOf member.2 = [] := by
  rw [refsOf, List.append_eq_nil_iff, refsOfMembers_eq_nil, Option.toList_eq_nil_iff]

theorem mem_refsOfElements {elements : List PyJson} {element : PyJson} {ref : String}
    (among : element ∈ elements) (present : ref ∈ refsOf element) :
    ref ∈ refsOfElements elements := by
  induction elements with
  | nil => exact absurd among List.not_mem_nil
  | cons head elements ih =>
      rw [refsOfElements, List.mem_append]
      obtain rfl | among := List.mem_cons.mp among
      · exact Or.inl present
      · exact Or.inr (ih among)

theorem mem_refsOfMembers {members : PyDict} {member : String × PyJson} {ref : String}
    (among : member ∈ members) (present : ref ∈ refsOf member.2) :
    ref ∈ refsOfMembers members := by
  induction members with
  | nil => exact absurd among List.not_mem_nil
  | cons head members ih =>
      rw [refsOfMembers, List.mem_append]
      obtain rfl | among := List.mem_cons.mp among
      · exact Or.inl present
      · exact Or.inr (ih among)

/-- The members beside a reference. -/
def siblings (members : PyDict) : PyDict := members.filter fun member => member.1 ≠ "$ref"

mutual

/-- No local reference of the value has another one beside it, at any depth. -/
def RefsAlone : PyJson → Prop
  | .obj members =>
      ((localRef? members).isSome → refsOfMembers (siblings members) = []) ∧
        RefsAloneMembers members
  | .arr elements => RefsAloneElements elements
  | _ => True

def RefsAloneElements : List PyJson → Prop
  | [] => True
  | element :: elements => RefsAlone element ∧ RefsAloneElements elements

def RefsAloneMembers : PyDict → Prop
  | [] => True
  | (_, value) :: members => RefsAlone value ∧ RefsAloneMembers members

end

theorem refsAloneElements_iff {elements : List PyJson} :
    RefsAloneElements elements ↔ ∀ element ∈ elements, RefsAlone element := by
  induction elements with
  | nil => simp [RefsAloneElements]
  | cons element elements ih => simp [RefsAloneElements, ih]

theorem refsAloneMembers_iff {members : PyDict} :
    RefsAloneMembers members ↔ ∀ member ∈ members, RefsAlone member.2 := by
  induction members with
  | nil => simp [RefsAloneMembers]
  | cons member members ih => simp [RefsAloneMembers, ih]

/-- What holds no reference holds none beside another. -/
theorem refsAlone_of_nil {node : PyJson} (none : refsOf node = []) : RefsAlone node := by
  induction node using Json.induction with
  | arr elements ih =>
      rw [RefsAlone, refsAloneElements_iff]
      rw [refsOf_arr_eq_nil] at none
      exact fun element among => ih element among (none element among)
  | obj members ih =>
      rw [refsOf_obj_eq_nil] at none
      rw [RefsAlone, refsAloneMembers_iff]
      refine ⟨?_, fun member among => ih member among (none.2 member among)⟩
      intro some
      rw [none.1] at some
      cases some
  | _ => trivial

/-! ## Pointers -/

section Pointers

variable {P : PyJson → Prop} (null : P .null)
  (members : ∀ members : PyDict, P (.obj members) → ∀ member ∈ members, P member.2)
  (elements : ∀ elements : List PyJson, P (.arr elements) → ∀ element ∈ elements, P element)

include members elements

theorem pointerStep_holds {part : String} {node next : PyJson} (holds : P node)
    (stepped : pointerStep lib part node = .ok (some next)) : P next := by
  cases node with
  | obj own =>
      cases stepped' : Json.Members.get? own part with
      | none => simp [pointerStep, stepped'] at stepped
      | some value =>
          simp only [pointerStep, stepped', Except.ok.injEq, Option.some.injEq] at stepped
          rw [← stepped]
          exact members own holds _ (Json.Members.mem_of_get? stepped')
  | arr own =>
      simp only [pointerStep] at stepped
      split at stepped
      · cases stepped
      · next digits _ =>
          obtain ⟨index, -, stepped⟩ := bind_eq_ok.mp stepped
          split at stepped
          · obtain ⟨element, at', same⟩ := bind_eq_ok.mp stepped
            cases same
            unfold itemAt at at'
            split at at'
            · next value found =>
                split at at'
                · cases at'
                · cases at'
                  exact elements own holds _ (List.mem_of_getElem? found)
            · cases at'
          · cases stepped
  | _ => cases stepped

include null

theorem pointerWalk_holds {parts : List (List Char)} {node target : PyJson} (holds : P node)
    (found : pointerWalk lib parts node = .ok target) : P target := by
  induction parts generalizing node with
  | nil =>
      cases found
      exact holds
  | cons raw parts ih =>
      obtain ⟨step, stepped, found⟩ := bind_eq_ok.mp found
      cases step with
      | none =>
          cases found
          exact null
      | some next => exact ih (pointerStep_holds members elements holds stepped) found

/-- What a pointer finds has what every part of the root has. -/
theorem jsonPointerGet_holds {pointer : String} {target : PyJson} (holds : P root)
    (found : jsonPointerGet lib root pointer = .ok target) : P target := by
  unfold jsonPointerGet at found
  split at found
  · cases found
    exact holds
  · cases found
    exact holds
  · exact pointerWalk_holds null members elements holds found
  · cases found
    exact null

end Pointers

/-! ## Resolving -/

/-- Every local reference in the value points to an object of the document. -/
def PointsToObjects (lib : Stdlib) (root node : PyJson) : Prop :=
  ∀ ref ∈ refsOf node, ∃ members, jsonPointerGet lib root ref = .ok (.obj members)

/-- The references of a member are those of the object. -/
theorem refsOf_member {members : PyDict} {member : String × PyJson} (among : member ∈ members) :
    refsOf member.2 ⊆ refsOf (.obj members) := by
  intro ref present
  rw [refsOf]
  exact List.mem_append_right _ (mem_refsOfMembers among present)

/-- The references of an element are those of the array. -/
theorem refsOf_element {elements : List PyJson} {element : PyJson} (among : element ∈ elements) :
    refsOf element ⊆ refsOf (.arr elements) := by
  intro ref present
  rw [refsOf]
  exact mem_refsOfElements among present

theorem PointsToObjects.member {members : PyDict} (points : PointsToObjects lib root (.obj members))
    {member : String × PyJson} (among : member ∈ members) : PointsToObjects lib root member.2 := by
  intro ref present
  exact points ref (refsOf_member among present)

theorem PointsToObjects.element {elements : List PyJson}
    (points : PointsToObjects lib root (.arr elements)) {element : PyJson}
    (among : element ∈ elements) : PointsToObjects lib root element := by
  intro ref present
  exact points ref (refsOf_element among present)

/-- The target of a reference in a document is an object whose references are alone if those of
the document are. -/
theorem PointsToObjects.target (points : PointsToObjects lib root root) {pointer : String}
    {target : PyJson} (found : jsonPointerGet lib root pointer = .ok target) :
    PointsToObjects lib root target ∧ (RefsAlone root → RefsAlone target) := by
  refine jsonPointerGet_holds (P := fun node => PointsToObjects lib root node ∧
    (RefsAlone root → RefsAlone node)) ?_ ?_ ?_ ⟨points, id⟩ found
  · exact ⟨fun ref present => absurd present List.not_mem_nil, fun _ => trivial⟩
  · intro members holds member among
    refine ⟨holds.1.member among, fun alone => ?_⟩
    have whole := holds.2 alone
    rw [RefsAlone, refsAloneMembers_iff] at whole
    exact whole.2 member among
  · intro elements holds element among
    refine ⟨holds.1.element among, fun alone => ?_⟩
    have whole := holds.2 alone
    rw [RefsAlone, refsAloneElements_iff] at whole
    exact whole element among

theorem get?_merged {base changes : PyDict} {name : String} (apart : changes.get? name = none) :
    (merged base changes).get? name = base.get? name := by
  have added : Json.Members.get?
      (changes.filter fun member => (base.get? member.1).isNone) name = none := by
    rw [Json.Members.get?_eq_none] at apart ⊢
    intro present
    obtain ⟨member, kept, named⟩ := List.mem_map.mp present
    exact apart (List.mem_map.mpr ⟨member, (List.mem_filter.mp kept).1, named⟩)
  rw [merged, Json.Members.get?_append, added, Option.or_none]
  clear added
  induction base with
  | nil => rfl
  | cons member base ih =>
      rw [List.map_cons, Json.Members.get?_cons, Json.Members.get?_cons]
      split
      · next named =>
          have same : member.1 = name := named
          rw [same, apart]
          rfl
      · exact ih

/-- A merge of members without references has none. -/
theorem refsOf_merged {base changes : PyDict} (unreferenced : refsOf (.obj base) = [])
    (apart : changes.get? "$ref" = none)
    (beside : ∀ member ∈ changes, refsOf member.2 = []) :
    refsOf (.obj (merged base changes)) = [] := by
  rw [refsOf_obj_eq_nil] at unreferenced ⊢
  refine ⟨?_, ?_⟩
  · rw [localRef?, get?_merged apart]
    exact unreferenced.1
  · intro member among
    obtain inherited | added := List.mem_append.mp among
    · obtain ⟨original, present, rfl⟩ := List.mem_map.mp inherited
      cases changed : changes.get? original.1 with
      | none => exact unreferenced.2 original present
      | some value => exact beside _ (Json.Members.mem_of_get? changed)
    · exact beside member (List.mem_filter.mp added).1

/-- A merge keeps the references in the changes. -/
theorem refsOf_merged_ne {base changes : PyDict} (distinct : (changes.map Prod.fst).Nodup)
    (beside : refsOfMembers changes ≠ []) : refsOf (.obj (merged base changes)) ≠ [] := by
  intro unreferenced
  rw [refsOf_obj_eq_nil] at unreferenced
  apply beside
  rw [refsOfMembers_eq_nil]
  intro member among
  have found : changes.get? member.1 = some member.2 :=
    (Json.Members.mem_iff_get? distinct).mp among
  apply unreferenced.2 member
  cases inherited : base.get? member.1 with
  | none => exact List.mem_append_right _ (List.mem_filter.mpr ⟨among, by rw [inherited]; rfl⟩)
  | some value =>
      refine List.mem_append_left _ (List.mem_map.mpr
        ⟨(member.1, value), Json.Members.mem_of_get? inherited, ?_⟩)
      rw [found]
      rfl

theorem siblings_get? (members : PyDict) : (siblings members).get? "$ref" = none := by
  rw [siblings, Json.Members.get?_filter_ne, if_pos rfl]

section Follow

variable {follow : List String → PyJson → Except PyError PyJson} {seen : List String}

theorem resolveElements_ok {elements resolved : List PyJson} :
    resolveElements lib root follow seen elements = .ok resolved ↔
      List.Forall₂ (fun element value => resolveNode lib root follow seen element = .ok value)
        elements resolved := by
  induction elements generalizing resolved with
  | nil => simp [resolveElements, eq_comm]
  | cons element elements ih =>
      rw [resolveElements, List.forall₂_cons_left_iff, bind_eq_ok]
      constructor
      · intro found
        obtain ⟨value, here, rest⟩ := found
        obtain ⟨values, there, same⟩ := bind_eq_ok.mp rest
        cases same
        exact ⟨value, values, here, ih.mp there, rfl⟩
      · intro found
        obtain ⟨value, values, here, there, rfl⟩ := found
        exact ⟨value, here, bind_eq_ok.mpr ⟨values, ih.mpr there, rfl⟩⟩

theorem resolveMembers_ok {members resolved : PyDict} :
    resolveMembers lib root follow seen members = .ok resolved ↔
      List.Forall₂ (fun member value => value.1 = member.1 ∧
        resolveNode lib root follow seen member.2 = .ok value.2) members resolved := by
  induction members generalizing resolved with
  | nil => simp [resolveMembers, eq_comm]
  | cons member members ih =>
      rw [resolveMembers, List.forall₂_cons_left_iff, bind_eq_ok]
      constructor
      · intro found
        obtain ⟨value, here, rest⟩ := found
        obtain ⟨values, there, same⟩ := bind_eq_ok.mp rest
        cases same
        exact ⟨(member.1, value), values, ⟨rfl, here⟩, ih.mp there, rfl⟩
      · intro found
        obtain ⟨⟨name, value⟩, values, ⟨named, here⟩, there, rfl⟩ := found
        cases named
        exact ⟨value, here, bind_eq_ok.mpr ⟨values, ih.mpr there, rfl⟩⟩

/-- Resolving a node follows the references in it that are not being expanded. -/
theorem resolveNode_congr {follow' : List String → PyJson → Except PyError PyJson}
    {node : PyJson} (same : ∀ ref ∈ refsOf node, ref ∉ seen → ∀ target,
      jsonPointerGet lib root ref = .ok target →
        follow (ref :: seen) target = follow' (ref :: seen) target) :
    resolveNode lib root follow seen node = resolveNode lib root follow' seen node := by
  induction node using Json.induction with
  | obj members ih =>
      cases reference : localRef? members with
      | some ref =>
          have present : ref ∈ refsOf (.obj members) := by simp [refsOf, reference]
          simp only [resolveNode, reference]
          split
          · rfl
          · next fresh =>
              cases found : jsonPointerGet lib root ref with
              | error error => rfl
              | ok target =>
                  have followed := same ref present fresh target found
                  cases target <;> simp only [bind, Except.bind, followed]
      | none =>
          have each : ∀ members' ⊆ members, resolveMembers lib root follow seen members' =
              resolveMembers lib root follow' seen members' := by
            intro members' among
            induction members' with
            | nil => rfl
            | cons member rest ih' =>
                rw [List.cons_subset] at among
                rw [resolveMembers, resolveMembers, ih' among.2, ih member among.1 fun ref present =>
                  same ref (refsOf_member among.1 present)]
          simp only [resolveNode, reference, each members (List.Subset.refl members)]
  | arr elements ih =>
      have each : ∀ elements' ⊆ elements, resolveElements lib root follow seen elements' =
          resolveElements lib root follow' seen elements' := by
        intro elements' among
        induction elements' with
        | nil => rfl
        | cons element rest ih' =>
            rw [List.cons_subset] at among
            rw [resolveElements, resolveElements, ih' among.2, ih element among.1 fun ref present =>
              same ref (refsOf_element among.1 present)]
      simp only [resolveNode, each elements (List.Subset.refl elements)]
  | _ => rfl

/-- Only a string resolves to a string. -/
theorem resolveNode_str {node : PyJson} {text : String}
    (resolved : resolveNode lib root follow seen node = .ok (.str text)) : node = .str text := by
  cases node with
  | obj members =>
      rw [resolveNode] at resolved
      split at resolved
      · split at resolved
        · cases resolved
        · obtain ⟨target, -, resolved⟩ := bind_eq_ok.mp resolved
          split at resolved
          · cases resolved
          · obtain ⟨value, -, resolved⟩ := bind_eq_ok.mp resolved
            cases resolved
      · obtain ⟨value, -, resolved⟩ := bind_eq_ok.mp resolved
        cases resolved
  | arr elements =>
      rw [resolveNode] at resolved
      obtain ⟨value, -, resolved⟩ := bind_eq_ok.mp resolved
      cases resolved
  | str own =>
      simp only [resolveNode, Except.ok.injEq] at resolved
      exact resolved
  | _ =>
      rw [resolveNode] at resolved
      all_goals cases resolved

/-- What is no reference resolves to none. -/
theorem resolveMembers_localRef? {members resolved : PyDict} (plain : localRef? members = none)
    (found : resolveMembers lib root follow seen members = .ok resolved) :
    localRef? resolved = none := by
  rw [resolveMembers_ok] at found
  have values : ∀ {value : PyJson}, resolved.get? "$ref" = some value →
      ∃ original, members.get? "$ref" = some original ∧
        resolveNode lib root follow seen original = .ok value := by
    clear plain
    induction found with
    | nil =>
        intro value none
        cases none
    | @cons member entry members resolved here _ ih =>
        intro value present
        rw [Json.Members.get?_cons] at present ⊢
        rw [here.1] at present
        split at present
        · next named =>
            cases present
            exact ⟨member.2, if_pos named, here.2⟩
        · next other =>
            obtain ⟨original, present, resolves⟩ := ih present
            exact ⟨original, by rw [if_neg other, present], resolves⟩
  unfold localRef? at plain ⊢
  split
  · next ref present =>
      obtain ⟨original, before, resolves⟩ := values present
      rw [resolveNode_str resolves] at before
      rw [before] at plain
      exact plain
  · rfl

/-- Resolving ends, and leaves no reference where none has another beside it. -/
theorem resolveNode_alone (points : PointsToObjects lib root root)
    (followed : ∀ seen members, PointsToObjects lib root (.obj members) → ∃ resolved,
      follow seen (.obj members) = .ok resolved ∧
        (RefsAlone root → RefsAlone (.obj members) → refsOf (.obj resolved.members) = []))
    {node : PyJson} (pointing : PointsToObjects lib root node) :
    ∃ resolved, resolveNode lib root follow seen node = .ok resolved ∧
      (RefsAlone root → RefsAlone node → refsOf resolved = []) := by
  induction node using Json.induction with
  | obj members ih =>
      cases reference : localRef? members with
      | some ref =>
          have present : ref ∈ refsOf (.obj members) := by simp [refsOf, reference]
          obtain ⟨target, found⟩ := pointing ref present
          obtain ⟨pointing', alone'⟩ := points.target found
          obtain ⟨resolved, follows, unreferenced⟩ := followed (ref :: seen) _ pointing'
          rw [resolveNode, reference]
          dsimp only
          split
          · exact ⟨_, rfl, fun _ _ => rfl⟩
          · refine ⟨_, by rw [found]; simp only [bind, Except.bind, follows]; rfl, ?_⟩
            intro whole alone
            rw [RefsAlone, reference] at alone
            exact refsOf_merged (unreferenced whole (alone' whole)) (siblings_get? members)
              (refsOfMembers_eq_nil.mp (alone.1 rfl))
      | none =>
          have each : ∀ member ∈ members, ∃ entry : String × PyJson, entry.1 = member.1 ∧
              resolveNode lib root follow seen member.2 = .ok entry.2 := by
            intro member among
            obtain ⟨resolved, resolves, -⟩ := ih member among (pointing.member among)
            exact ⟨(member.1, resolved), rfl, resolves⟩
          obtain ⟨resolved, related⟩ := exists_forall₂ each
          have found := resolveMembers_ok.mpr related
          refine ⟨.obj resolved, by rw [resolveNode, reference]; simp [found, bind, Except.bind], ?_⟩
          intro whole alone
          rw [RefsAlone, refsAloneMembers_iff] at alone
          refine refsOf_obj_eq_nil.mpr ⟨resolveMembers_localRef? reference found, ?_⟩
          intro entry among
          obtain ⟨member, present, -, resolves⟩ := forall₂_exists_left related among
          obtain ⟨own, resolves', unreferenced⟩ := ih member present (pointing.member present)
          rw [resolves] at resolves'
          cases resolves'
          exact unreferenced whole (alone.2 member present)
  | arr elements ih =>
      have each : ∀ element ∈ elements, ∃ resolved,
          resolveNode lib root follow seen element = .ok resolved := by
        intro element among
        obtain ⟨resolved, resolves, -⟩ := ih element among (pointing.element among)
        exact ⟨resolved, resolves⟩
      obtain ⟨resolved, related⟩ := exists_forall₂ each
      have found := resolveElements_ok.mpr related
      refine ⟨.arr resolved, by rw [resolveNode]; simp [found, bind, Except.bind], ?_⟩
      intro whole alone
      rw [RefsAlone, refsAloneElements_iff] at alone
      rw [refsOf_arr_eq_nil]
      intro entry among
      obtain ⟨element, present, resolves⟩ := forall₂_exists_left related among
      obtain ⟨own, resolves', unreferenced⟩ := ih element present (pointing.element present)
      rw [resolves] at resolves'
      cases resolves'
      exact unreferenced whole (alone element present)
  | _ => exact ⟨_, rfl, fun _ _ => rfl⟩

/-- Outside the targets of references, resolving keeps a reference beside another one. -/
theorem resolveNode_beside (points : PointsToObjects lib root root)
    (followed : ∀ seen members, PointsToObjects lib root (.obj members) →
      ∃ resolved, follow seen (.obj members) = .ok resolved)
    {node : PyJson} (pointing : PointsToObjects lib root node) (distinct : node.Distinct)
    (beside : ¬ RefsAlone node) {resolved : PyJson}
    (found : resolveNode lib root follow [] node = .ok resolved) : refsOf resolved ≠ [] := by
  induction node using Json.induction generalizing resolved with
  | obj members ih =>
      rw [Json.Distinct, Json.namesPairwise_obj] at distinct
      have names : (members.map Prod.fst).Nodup := distinct.1
      cases reference : localRef? members with
      | some ref =>
          have present : ref ∈ refsOf (.obj members) := by simp [refsOf, reference]
          obtain ⟨target, pointed⟩ := pointing ref present
          obtain ⟨value, follows⟩ := followed [ref] _ (points.target pointed).1
          have same : resolved = .obj (merged value.members (siblings members)) := by
            simpa [resolveNode, reference, pointed, follows, bind, Except.bind, siblings, eq_comm]
              using found
          rw [same]
          refine refsOf_merged_ne (names.sublist (List.filter_sublist.map Prod.fst)) ?_
          intro none
          apply beside
          rw [RefsAlone, refsAloneMembers_iff]
          refine ⟨fun _ => none, ?_⟩
          intro member among
          apply refsAlone_of_nil
          by_cases named : member.1 = "$ref"
          · have own : members.get? "$ref" = some member.2 := by
              rw [← named]
              exact (Json.Members.mem_iff_get? names).mp among
            rw [localRef?, own] at reference
            cases value : member.2 with
            | str text => rfl
            | _ =>
                rw [value] at reference
                cases reference
          · exact refsOfMembers_eq_nil.mp none member
              (List.mem_filter.mpr ⟨among, by simpa using named⟩)
      | none =>
          rw [resolveNode, reference] at found
          obtain ⟨entries, resolves, same⟩ := bind_eq_ok.mp found
          cases same
          have some : ¬ RefsAloneMembers members := by
            intro each
            apply beside
            rw [RefsAlone, reference]
            refine ⟨?_, each⟩
            intro none
            cases none
          rw [refsAloneMembers_iff] at some
          push Not at some
          obtain ⟨member, among, beside'⟩ := some
          obtain ⟨entry, among', -, resolves'⟩ :=
            forall₂_exists_left (resolveMembers_ok.mp resolves).flip among
          rw [Ne, refsOf_obj_eq_nil]
          intro none
          exact ih member among (pointing.member among) (distinct.2 member among) beside' resolves'
            (none.2 entry among')
  | arr elements ih =>
      rw [Json.Distinct, Json.namesPairwise_arr] at distinct
      rw [resolveNode] at found
      obtain ⟨entries, resolves, same⟩ := bind_eq_ok.mp found
      cases same
      rw [RefsAlone, refsAloneElements_iff] at beside
      push Not at beside
      obtain ⟨element, among, beside'⟩ := beside
      obtain ⟨entry, among', resolves'⟩ :=
        forall₂_exists_left (resolveElements_ok.mp resolves).flip among
      rw [Ne, refsOf_arr_eq_nil]
      intro none
      exact ih element among (pointing.element among) (distinct element among) beside' resolves'
        (none entry among')
  | _ => exact absurd trivial beside

end Follow

/-- The references of the document that are not being expanded. -/
def unseen (root : PyJson) (seen : List String) : List String :=
  (refsOf root).filter fun ref => ref ∉ seen

theorem unseen_cons {seen : List String} {ref : String} (present : ref ∈ refsOf root)
    (fresh : ref ∉ seen) : (unseen root (ref :: seen)).length < (unseen root seen).length := by
  have rest : unseen root (ref :: seen) = (unseen root seen).filter fun other => other ≠ ref := by
    simp [unseen, List.filter_filter]
  rw [rest, List.length_filter_lt_length_iff_exists]
  exact ⟨ref, List.mem_filter.mpr ⟨present, by simpa using fresh⟩, by simp⟩

/-- As many expansions as there are references left to expand are enough. -/
theorem resolveRefs_enough {fuel : Nat} : ∀ {seen : List String} {node : PyJson},
    (unseen root seen).length ≤ fuel → refsOf node ⊆ refsOf root →
      resolveRefs lib root (fuel + 1) seen node = resolveRefs lib root fuel seen node := by
  have within : ∀ {ref : String} {target : PyJson}, jsonPointerGet lib root ref = .ok target →
      refsOf target ⊆ refsOf root := by
    intro ref target found
    refine jsonPointerGet_holds (P := fun node => refsOf node ⊆ refsOf root) ?_ ?_ ?_ ?_ found
    · exact List.nil_subset _
    · exact fun members holds member among => List.Subset.trans (refsOf_member among) holds
    · exact fun elements holds element among => List.Subset.trans (refsOf_element among) holds
    · exact List.Subset.refl _
  induction fuel with
  | zero =>
      intro seen node left inside
      refine resolveNode_congr ?_
      intro ref present fresh
      have fewer := unseen_cons (inside present) fresh
      omega
  | succ fuel ih =>
      intro seen node left inside
      refine resolveNode_congr ?_
      intro ref present fresh target found
      have fewer := unseen_cons (inside present) fresh
      exact ih (by omega) (within found)

/-- Resolving ends, whatever references are being expanded. -/
theorem resolveRefs_alone (points : PointsToObjects lib root root) (fuel : Nat) :
    ∀ (seen : List String) {node : PyJson}, PointsToObjects lib root node →
      ∃ resolved, resolveRefs lib root fuel seen node = .ok resolved ∧
        (RefsAlone root → RefsAlone node → refsOf resolved = []) := by
  induction fuel with
  | zero =>
      intro seen node pointing
      exact resolveNode_alone points (fun _ _ _ => ⟨.obj [], rfl, fun _ _ => rfl⟩) pointing
  | succ fuel ih =>
      intro seen node pointing
      refine resolveNode_alone points ?_ pointing
      intro seen members pointing'
      obtain ⟨resolved, resolves, unreferenced⟩ := ih seen pointing'
      refine ⟨resolved, resolves, fun whole alone => ?_⟩
      cases resolved with
      | obj members => exact unreferenced whole alone
      | _ => rfl

/-- What `resolveNode_beside` says of any number of expansions. -/
theorem resolveRefs_beside (points : PointsToObjects lib root root) {fuel : Nat} {node : PyJson}
    (pointing : PointsToObjects lib root node) (distinct : node.Distinct)
    (beside : ¬ RefsAlone node) {resolved : PyJson}
    (found : resolveRefs lib root fuel [] node = .ok resolved) : refsOf resolved ≠ [] := by
  cases fuel with
  | zero =>
      exact resolveNode_beside points (fun _ _ _ => ⟨.obj [], rfl⟩) pointing distinct beside found
  | succ fuel =>
      refine resolveNode_beside points ?_ pointing distinct beside found
      intro seen members pointing'
      obtain ⟨resolved, resolves, -⟩ := resolveRefs_alone points fuel seen pointing'
      exact ⟨resolved, resolves⟩

/-- Expanding the local references of a document whose references point to objects leaves none
exactly when no reference has another one beside it. -/
theorem resolveLocalRefs_expands (lib : Stdlib) (doc : PyJson) (distinct : doc.Distinct)
    (points : PointsToObjects lib doc doc) : ∃ resolved,
      resolveLocalRefs lib doc = .ok resolved ∧ (refsOf resolved = [] ↔ RefsAlone doc) := by
  obtain ⟨resolved, found, unreferenced⟩ := resolveRefs_alone points (refsOf doc).length [] points
  refine ⟨resolved, found, ?_, fun alone => unreferenced alone alone⟩
  intro none
  by_contra beside
  exact resolveRefs_beside points points distinct beside found none

/-- A document with a reference to a reference. -/
def plain : PyJson :=
  .obj [("properties", .obj [("x", .obj [("$ref", .str "#/$defs/a")])]),
    ("$defs", .obj [("a", .obj [("$ref", .str "#/$defs/b")]),
      ("b", .obj [("type", .str "string")])])]

/-- A reference with no other one beside it is expanded. -/
theorem resolveLocalRefs_expands_plain : ∃ resolved, resolveLocalRefs plainLib plain = .ok resolved ∧
    (refsOf resolved = [] ↔ RefsAlone plain) := by
  refine resolveLocalRefs_expands plainLib plain ?_ ?_
  · simp [plain, Json.Distinct, Json.NamesPairwise]
  · intro ref present
    have among : ref ∈ ["#/$defs/a", "#/$defs/b"] := present
    obtain rfl | rfl : ref = "#/$defs/a" ∨ ref = "#/$defs/b" := by simpa using among
    · exact ⟨[("$ref", .str "#/$defs/b")], by decide +kernel⟩
    · exact ⟨[("type", .str "string")], by decide +kernel⟩

/-- A document whose only reference has another one beside it. -/
def nested : PyJson :=
  .obj [("$ref", .str "#/$defs/a"),
    ("properties", .obj [("x", .obj [("$ref", .str "#/$defs/b")])]),
    ("$defs", .obj [("a", .obj [("type", .str "object")]), ("b", .obj [("type", .str "string")])])]

/-- A reference leads to those in its target. -/
def Leads (lib : Stdlib) (root : PyJson) (ref next : String) : Prop :=
  ref ∈ refsOf root ∧ ∃ target, jsonPointerGet lib root ref = .ok target ∧ next ∈ refsOf target

/-- The reference beside another one is left, though none leads to itself. -/
theorem resolveLocalRefs_expands_nested :
    nested.Distinct ∧ PointsToObjects plainLib nested nested ∧
      (¬ ∃ ref, Relation.TransGen (Leads plainLib nested) ref ref) ∧
      ∃ resolved, resolveLocalRefs plainLib nested = .ok resolved ∧
        refsOf resolved = ["#/$defs/b"] := by
  have targets : ∀ ref ∈ refsOf nested, ∃ members,
      jsonPointerGet plainLib nested ref = .ok (.obj members) ∧ refsOf (.obj members) = [] := by
    intro ref present
    have among : ref ∈ ["#/$defs/a", "#/$defs/b"] := present
    obtain rfl | rfl : ref = "#/$defs/a" ∨ ref = "#/$defs/b" := by simpa using among
    · exact ⟨[("type", .str "object")], by decide +kernel, rfl⟩
    · exact ⟨[("type", .str "string")], by decide +kernel, rfl⟩
  refine ⟨?_, ?_, ?_, ?_⟩
  · simp [nested, Json.Distinct, Json.NamesPairwise]
  · intro ref present
    obtain ⟨members, found, -⟩ := targets ref present
    exact ⟨members, found⟩
  · intro cyclic
    obtain ⟨ref, cycle⟩ := cyclic
    obtain ⟨next, leads, -⟩ := Relation.TransGen.head'_iff.mp cycle
    obtain ⟨present, target, found, among⟩ := leads
    obtain ⟨members, found', none⟩ := targets ref present
    rw [found] at found'
    cases found'
    rw [none] at among
    exact List.not_mem_nil among
  · refine ⟨_, rfl, ?_⟩
    decide +kernel

end Harness.Diff
