import Anviq.Diff.References
import Mathlib.Data.Finset.Card

/-! # References that form cycles

`resolve_local_refs` calls itself on the parts of a value and on the targets of references. A
target may be any part of the document, but its reference is not expanded again below it, so that
the calls come to an end.
-/

namespace Harness.Diff

variable {lib : Stdlib} {root : PyJson} {seen : List String}

/-! ## What is left to expand -/

/-- The references of a document and of a value in it that are not being expanded. -/
def pending (root : PyJson) (seen refs : List String) : Finset String :=
  (refsOf root ++ refs).toFinset.filter fun ref => ref ∉ seen

theorem mem_pending {refs : List String} {ref : String} :
    ref ∈ pending root seen refs ↔ (ref ∈ refsOf root ∨ ref ∈ refs) ∧ ref ∉ seen := by
  rw [pending, Finset.mem_filter, List.mem_toFinset, List.mem_append]

/-- A part of a value has no other references. -/
theorem pending_subset {refs others : List String} (within : refs ⊆ others) :
    (pending root seen refs).card ≤ (pending root seen others).card := by
  apply Finset.card_le_card
  intro ref present
  rw [mem_pending] at present ⊢
  exact ⟨present.1.imp_right fun held => within held, present.2⟩

/-- What a reference points to is part of the document. -/
theorem refsOf_target {ref : String} {target : PyJson}
    (found : jsonPointerGet lib root ref = .ok target) : refsOf target ⊆ refsOf root := by
  refine jsonPointerGet_holds (P := fun node => refsOf node ⊆ refsOf root) ?_ ?_ ?_ ?_ found
  · exact List.nil_subset _
  · exact fun members holds member among => List.Subset.trans (refsOf_member among) holds
  · exact fun elements holds element among => List.Subset.trans (refsOf_element among) holds
  · exact List.Subset.refl _

/-- Expanding a reference leaves fewer of them. -/
theorem pending_target {refs : List String} {ref : String} {target : PyJson}
    (present : ref ∈ refs) (fresh : ref ∉ seen)
    (found : jsonPointerGet lib root ref = .ok target) :
    (pending root (ref :: seen) (refsOf target)).card < (pending root seen refs).card := by
  apply Finset.card_lt_card
  rw [Finset.ssubset_iff_of_subset]
  · refine ⟨ref, mem_pending.mpr ⟨Or.inr present, fresh⟩, ?_⟩
    intro expanded
    exact (mem_pending.mp expanded).2 List.mem_cons_self
  · intro other left
    rw [mem_pending, List.mem_cons, not_or] at left
    rw [mem_pending]
    obtain ⟨inRoot | inTarget, -, unseen⟩ := left
    · exact ⟨Or.inl inRoot, unseen⟩
    · exact ⟨Or.inl (refsOf_target found inTarget), unseen⟩

theorem localRef?_mem {members : PyDict} {ref : String} (named : localRef? members = some ref) :
    ref ∈ refsOf (.obj members) := by
  simp [refsOf, named]

/-- Fewer references, or a smaller value with no more of them. -/
theorem lex_of_le {first second : Nat} {small large : Nat} (fewer : first ≤ second)
    (smaller : small < large) :
    Prod.Lex (· < ·) (· < ·) (first, small) (second, large) := by
  obtain less | same := Nat.lt_or_eq_of_le fewer
  · exact .left _ _ less
  · rw [same]
    exact .right _ smaller

/-! ## The calls -/

/-- A call of `resolve_local_refs`, with `_seen` and the node, calls it again. -/
inductive Calls (lib : Stdlib) (root : PyJson) :
    List String × PyJson → List String × PyJson → Prop where
  | element {seen : List String} {elements : List PyJson} {element : PyJson}
      (among : element ∈ elements) : Calls lib root (seen, .arr elements) (seen, element)
  | member {seen : List String} {members : PyDict} {member : String × PyJson}
      (plain : localRef? members = none) (among : member ∈ members) :
      Calls lib root (seen, .obj members) (seen, member.2)
  | target {seen : List String} {members : PyDict} {ref : String} {target : PyJson}
      (named : localRef? members = some ref) (fresh : ref ∉ seen)
      (found : jsonPointerGet lib root ref = .ok target) (held : target ≠ .null) :
      Calls lib root (seen, .obj members) (ref :: seen, target)

/-- A call leaves fewer references to expand, or a smaller value and no more of them. -/
theorem Calls.decrease {caller callee : List String × PyJson} (calls : Calls lib root caller callee) :
    Prod.Lex (· < ·) (· < ·) ((pending root callee.1 (refsOf callee.2)).card, sizeOf callee.2)
      ((pending root caller.1 (refsOf caller.2)).card, sizeOf caller.2) := by
  cases calls with
  | element among =>
      apply lex_of_le (pending_subset (refsOf_element among))
      have smaller := List.sizeOf_lt_of_mem among
      simp only [Json.arr.sizeOf_spec]
      omega
  | @member seen members member plain among =>
      apply lex_of_le (pending_subset (refsOf_member among))
      have smaller := List.sizeOf_lt_of_mem among
      obtain ⟨name, value⟩ := member
      simp only [Prod.mk.sizeOf_spec] at smaller
      simp only [Json.obj.sizeOf_spec]
      omega
  | target named fresh found _ => exact .left _ _ (pending_target (localRef?_mem named) fresh found)

/-- No sequence of nested calls goes on for ever. -/
theorem calls_wellFounded (lib : Stdlib) (root : PyJson) :
    WellFounded fun callee caller => Calls lib root caller callee :=
  Subrelation.wf Calls.decrease
    (InvImage.wf (fun call : List String × PyJson =>
      ((pending root call.1 (refsOf call.2)).card, sizeOf call.2)) (Prod.lex ⟨_, Nat.lt_wfRel.wf⟩ ⟨_, Nat.lt_wfRel.wf⟩).wf)

/-! ## The function -/

section Resolve

variable (lib) (root)

mutual

/-- `resolve_local_refs`, which ends on every value. -/
def resolve (seen : List String) (node : PyJson) : Except PyError PyJson :=
  match node with
  | .obj members =>
      match _named : localRef? members with
      | some ref =>
          if _fresh : ref ∈ seen then .ok (.obj [])
          else
            match _found : jsonPointerGet lib root ref with
            | .error error => .error error
            | .ok .null => .ok (.obj members)
            | .ok target => do
                let resolved ← resolve (ref :: seen) target
                .ok (.obj (merged resolved.members
                  (members.filter fun member => member.1 ≠ "$ref")))
      | none => do
          let resolved ← resolveAllMembers seen members
          .ok (.obj resolved)
  | .arr elements => do
      let resolved ← resolveAllElements seen elements
      .ok (.arr resolved)
  | node => .ok node
termination_by ((pending root seen (refsOf node)).card, sizeOf node)
decreasing_by
  · exact .left _ _ (pending_target (localRef?_mem _named) _fresh _found)
  · apply lex_of_le
    · exact pending_subset (List.subset_append_right _ _)
    · simp
  · apply lex_of_le
    · exact pending_subset (List.Subset.refl _)
    · simp

def resolveAllElements (seen : List String) (elements : List PyJson) :
    Except PyError (List PyJson) :=
  match elements with
  | [] => .ok []
  | element :: elements => do
      let resolved ← resolve seen element
      let rest ← resolveAllElements seen elements
      .ok (resolved :: rest)
termination_by ((pending root seen (refsOfElements elements)).card, sizeOf elements)
decreasing_by
  · apply lex_of_le
    · exact pending_subset (List.subset_append_left _ _)
    · simp
      omega
  · apply lex_of_le
    · exact pending_subset (List.subset_append_right _ _)
    · simp

def resolveAllMembers (seen : List String) (members : PyDict) : Except PyError PyDict :=
  match members with
  | [] => .ok []
  | (name, value) :: members => do
      let resolved ← resolve seen value
      let rest ← resolveAllMembers seen members
      .ok ((name, resolved) :: rest)
termination_by ((pending root seen (refsOfMembers members)).card, sizeOf members)
decreasing_by
  · apply lex_of_le
    · exact pending_subset (List.subset_append_left _ _)
    · simp
      omega
  · apply lex_of_le
    · exact pending_subset (List.subset_append_right _ _)
    · simp

end

end Resolve

theorem resolveAllElements_eq {elements : List PyJson}
    (each : ∀ element ∈ elements, resolve lib root seen element =
      resolveNode lib root (resolve lib root) seen element) :
    resolveAllElements lib root seen elements =
      resolveElements lib root (resolve lib root) seen elements := by
  induction elements with
  | nil => rw [resolveAllElements, resolveElements]
  | cons element elements ih =>
      rw [List.forall_mem_cons] at each
      rw [resolveAllElements, resolveElements, each.1, ih each.2]

theorem resolveAllMembers_eq {members : PyDict}
    (each : ∀ member ∈ members, resolve lib root seen member.2 =
      resolveNode lib root (resolve lib root) seen member.2) :
    resolveAllMembers lib root seen members =
      resolveMembers lib root (resolve lib root) seen members := by
  induction members with
  | nil => rw [resolveAllMembers, resolveMembers]
  | cons member members ih =>
      obtain ⟨name, value⟩ := member
      rw [List.forall_mem_cons] at each
      rw [resolveAllMembers, resolveMembers, each.1, ih each.2]

/-- The function is its body, applied to itself. -/
theorem resolve_eq (node : PyJson) :
    resolve lib root seen node = resolveNode lib root (resolve lib root) seen node := by
  induction node using Json.induction with
  | obj members ih =>
      rw [resolve, resolveNode, resolveAllMembers_eq ih]
      split
      · next ref named =>
          simp only [named]
          split
          · rfl
          · split
            · next error found => rw [found]; rfl
            · next found => rw [found]; rfl
            · next target held found =>
                rw [found]
                cases target with
                | null => exact absurd rfl held
                | _ => rfl
      · next plain =>
          simp only [plain]
  | arr elements ih =>
      rw [resolve, resolveNode, resolveAllElements_eq ih]
  | _ => rw [resolve, resolveNode] <;> simp

/-- With as many expansions as there are references left, the function is that of the model. -/
theorem resolveRefs_eq_resolve (fuel : Nat) :
    ∀ {seen : List String} {node : PyJson}, (pending root seen (refsOf node)).card ≤ fuel →
      resolveRefs lib root fuel seen node = resolve lib root seen node := by
  induction fuel with
  | zero =>
      intro seen node left
      rw [resolve_eq, resolveRefs]
      apply resolveNode_congr
      intro ref present fresh target found
      have fewer := pending_target present fresh found
      omega
  | succ fuel ih =>
      intro seen node left
      rw [resolve_eq, resolveRefs]
      apply resolveNode_congr
      intro ref present fresh target found
      have fewer := pending_target present fresh found
      exact ih (by omega)

theorem pending_document_le : (pending root [] (refsOf root)).card ≤ (refsOf root).length := by
  refine (Finset.card_le_card ?_).trans (List.toFinset_card_le (refsOf root))
  intro ref present
  rw [List.mem_toFinset]
  exact (mem_pending.mp present).1.elim id id

/-- **Resolving references terminates**: the nested calls are well founded, the function they
define is its own body, and on a document it is what is computed with a bound on the
expansions. -/
theorem resolve_terminates (lib : Stdlib) (root : PyJson) :
    (WellFounded fun callee caller => Calls lib root caller callee) ∧
      (∀ seen node, resolve lib root seen node =
        resolveNode lib root (resolve lib root) seen node) ∧
      resolve lib root [] root = resolveLocalRefs lib root :=
  ⟨calls_wellFounded lib root, fun _ node => resolve_eq node,
    (resolveRefs_eq_resolve _ pending_document_le).symm⟩

end Harness.Diff
