import Mathlib.Data.List.Nodup
import Mathlib.Logic.Function.Basic

/-! # Doubly linked lists

Nodes on a heap that point at each other. Unlinking a node and linking one after
another keep the nodes in a list.
-/

namespace LinkedList

variable {Ref : Type}

/-- The pointers of the nodes. -/
@[ext] structure Links (Ref : Type) where
  prev : Ref → Option Ref
  next : Ref → Option Ref

/-- Neighbours point at each other. -/
def Linked (links : Links Ref) : List Ref → Prop
  | first :: second :: rest =>
      links.next first = some second ∧ links.prev second = some first ∧
        Linked links (second :: rest)
  | _ => True

variable {links other : Links Ref}

/-- A list is two lists that share a node. -/
theorem linked_append {front back : List Ref} {node : Ref} :
    Linked links (front ++ node :: back) ↔
      Linked links (front ++ [node]) ∧ Linked links (node :: back) := by
  induction front with
  | nil => simp [Linked]
  | cons first front ih =>
      cases front with
      | nil => cases back <;> simp [Linked, and_assoc]
      | cons second front =>
          simp only [List.cons_append, Linked] at ih ⊢
          rw [ih]
          simp only [and_assoc]

/-- Only the pointers inward matter. -/
theorem Linked.congr {nodes : List Ref}
    (next : ∀ node ∈ nodes.dropLast, other.next node = links.next node)
    (prev : ∀ node ∈ nodes.tail, other.prev node = links.prev node)
    (linked : Linked links nodes) : Linked other nodes := by
  induction nodes with
  | nil => trivial
  | cons first nodes ih =>
      cases nodes with
      | nil => trivial
      | cons second nodes =>
          rw [List.dropLast_cons_cons, List.forall_mem_cons] at next
          rw [List.tail_cons, List.forall_mem_cons] at prev
          obtain ⟨forward, backward, rest⟩ := linked
          exact ⟨next.1.trans forward, prev.1.trans backward, ih next.2 prev.2 rest⟩

/-- A node of a list stands between two others. -/
theorem Linked.neighbours {front back : List Ref} {before node after : Ref}
    (linked : Linked links (front ++ before :: node :: after :: back)) :
    links.prev node = some before ∧ links.next node = some after := by
  obtain ⟨-, -, backward, forward, -⟩ := linked_append.mp linked
  exact ⟨backward, forward⟩

/-- A list of nodes between two sentinels. -/
def Between (links : Links Ref) (head : Ref) (nodes : List Ref) (tail : Ref) : Prop :=
  Linked links (head :: (nodes ++ [tail])) ∧ (head :: (nodes ++ [tail])).Nodup

/-- Only the pointers of the nodes in the list matter. -/
theorem Between.congr {head tail : Ref} {nodes : List Ref}
    (same : ∀ node ∈ head :: (nodes ++ [tail]), other.next node = links.next node ∧
      other.prev node = links.prev node)
    (between : Between links head nodes tail) : Between other head nodes tail := by
  refine ⟨between.1.congr ?_ ?_, between.2⟩
  · intro node present
    exact (same node (List.dropLast_subset _ present)).1
  · intro node present
    exact (same node (List.mem_of_mem_tail present)).2

/-- The node before the tail is the last one. -/
theorem Between.last {head tail node : Ref} {front : List Ref}
    (between : Between links head (front ++ [node]) tail) : links.prev tail = some node := by
  have linked := between.1
  rw [List.append_assoc, ← List.cons_append] at linked
  exact (linked_append.mp linked).2.2.1

variable [DecidableEq Ref]

/-- Take a node out between its neighbours. -/
def Links.unlink (links : Links Ref) (before node after : Ref) : Links Ref where
  prev := Function.update (Function.update links.prev after (some before)) node none
  next := Function.update (Function.update links.next before (some after)) node none

/-- Put a node between two neighbours. -/
def Links.link (links : Links Ref) (before node after : Ref) : Links Ref where
  prev := Function.update (Function.update links.prev node (some before)) after (some node)
  next := Function.update (Function.update links.next node (some after)) before (some node)

/-- Without an unlinked node, the others are a list. -/
theorem Linked.unlink {front back : List Ref} {before node after : Ref}
    (linked : Linked links (front ++ before :: node :: after :: back))
    (nodup : (front ++ before :: node :: after :: back).Nodup) :
    Linked (links.unlink before node after) (front ++ before :: after :: back) := by
  obtain ⟨start, -, -, -, -, rest⟩ := linked_append.mp linked
  rw [List.nodup_append, List.nodup_cons, List.nodup_cons, List.nodup_cons] at nodup
  simp only [List.mem_cons, not_or] at nodup
  obtain ⟨-, ⟨⟨beforeNode, beforeAfter, beforeBack⟩, ⟨nodeAfter, nodeBack⟩, afterBack, -⟩, apart⟩ :=
    nodup
  have frontApart {first : Ref} (present : first ∈ front) :
      first ≠ before ∧ first ≠ node ∧ first ≠ after :=
    ⟨apart first present before (by simp), apart first present node (by simp),
      apart first present after (by simp)⟩
  apply linked_append.mpr
  refine ⟨start.congr ?_ ?_, ?_, ?_, rest.congr ?_ ?_⟩
  · intro first present
    rw [List.dropLast_concat] at present
    obtain ⟨notBefore, notNode, -⟩ := frontApart present
    simp only [Links.unlink, Function.update_of_ne notNode, Function.update_of_ne notBefore]
  · intro first present
    have among := List.mem_of_mem_tail present
    have notNode : first ≠ node := by
      rcases List.mem_append.mp among with early | last
      · exact (frontApart early).2.1
      · exact List.mem_singleton.mp last ▸ beforeNode
    have notAfter : first ≠ after := by
      rcases List.mem_append.mp among with early | last
      · exact (frontApart early).2.2
      · exact List.mem_singleton.mp last ▸ beforeAfter
    simp only [Links.unlink, Function.update_of_ne notNode, Function.update_of_ne notAfter]
  · simp only [Links.unlink, Function.update_of_ne beforeNode, Function.update_self]
  · simp only [Links.unlink, Function.update_of_ne (Ne.symm nodeAfter), Function.update_self]
  · intro last present
    have among := List.dropLast_subset _ present
    have notNode : last ≠ node := by
      rcases List.mem_cons.mp among with rfl | late
      · exact Ne.symm nodeAfter
      · exact fun same => nodeBack (same ▸ late)
    have notBefore : last ≠ before := by
      rcases List.mem_cons.mp among with rfl | late
      · exact Ne.symm beforeAfter
      · exact fun same => beforeBack (same ▸ late)
    simp only [Links.unlink, Function.update_of_ne notNode, Function.update_of_ne notBefore]
  · intro last present
    have notNode : last ≠ node := fun same => nodeBack (same ▸ present)
    have notAfter : last ≠ after := fun same => afterBack (same ▸ present)
    simp only [Links.unlink, Function.update_of_ne notNode, Function.update_of_ne notAfter]

/-- With a new node after the first, the nodes are a list. -/
theorem Linked.link {back : List Ref} {before node after : Ref}
    (linked : Linked links (before :: after :: back))
    (nodup : (before :: node :: after :: back).Nodup) :
    Linked (links.link before node after) (before :: node :: after :: back) := by
  obtain ⟨-, -, rest⟩ := linked
  rw [List.nodup_cons, List.nodup_cons, List.nodup_cons] at nodup
  simp only [List.mem_cons, not_or] at nodup
  obtain ⟨⟨beforeNode, beforeAfter, beforeBack⟩, ⟨nodeAfter, nodeBack⟩, afterBack, -⟩ := nodup
  refine ⟨?_, ?_, ?_, ?_, rest.congr ?_ ?_⟩
  · simp only [Links.link, Function.update_self]
  · simp only [Links.link, Function.update_of_ne nodeAfter, Function.update_self]
  · simp only [Links.link, Function.update_of_ne (Ne.symm beforeNode), Function.update_self]
  · simp only [Links.link, Function.update_self]
  · intro last present
    have among := List.dropLast_subset _ present
    have notNode : last ≠ node := by
      rcases List.mem_cons.mp among with rfl | late
      · exact Ne.symm nodeAfter
      · exact fun same => nodeBack (same ▸ late)
    have notBefore : last ≠ before := by
      rcases List.mem_cons.mp among with rfl | late
      · exact Ne.symm beforeAfter
      · exact fun same => beforeBack (same ▸ late)
    simp only [Links.link, Function.update_of_ne notBefore, Function.update_of_ne notNode]
  · intro last present
    have notNode : last ≠ node := fun same => nodeBack (same ▸ present)
    have notAfter : last ≠ after := fun same => afterBack (same ▸ present)
    simp only [Links.link, Function.update_of_ne notAfter, Function.update_of_ne notNode]

/-! ## Between the sentinels -/

omit [DecidableEq Ref] in
/-- A node between the sentinels has one of the list on either side of it. -/
theorem Between.around {head tail node : Ref} {front back : List Ref}
    (between : Between links head (front ++ node :: back) tail) :
    ∃ early before after late, head :: front = early ++ [before] ∧ back ++ [tail] = after :: late ∧
      links.prev node = some before ∧ links.next node = some after ∧
      head :: (front ++ node :: back ++ [tail]) = early ++ before :: node :: after :: late := by
  obtain ⟨early, before, start⟩ : ∃ early before, head :: front = early ++ [before] :=
    ⟨_, _, (List.dropLast_append_getLast (List.cons_ne_nil head front)).symm⟩
  obtain ⟨after, late, finish⟩ : ∃ after late, back ++ [tail] = after :: late := by
    cases back with
    | nil => exact ⟨tail, [], rfl⟩
    | cons first back => exact ⟨first, back ++ [tail], rfl⟩
  have whole : head :: (front ++ node :: back ++ [tail]) =
      early ++ before :: node :: after :: late := by
    rw [List.append_assoc, List.cons_append, ← List.cons_append, start, finish, List.append_assoc]
    rfl
  have linked := between.1
  rw [whole] at linked
  obtain ⟨backward, forward⟩ := linked.neighbours
  exact ⟨early, before, after, late, start, finish, backward, forward, whole⟩

/-- Any node between the sentinels can be unlinked. -/
theorem Between.unlink {head tail node : Ref} {front back : List Ref}
    (between : Between links head (front ++ node :: back) tail) :
    ∃ before after, links.prev node = some before ∧ links.next node = some after ∧
      Between (links.unlink before node after) head (front ++ back) tail := by
  obtain ⟨early, before, after, late, start, finish, backward, forward, whole⟩ := between.around
  obtain ⟨linked, nodup⟩ := between
  have shorter : head :: (front ++ back ++ [tail]) = early ++ before :: after :: late := by
    rw [List.append_assoc, ← List.cons_append, start, finish, List.append_assoc]
    rfl
  rw [whole] at linked nodup
  refine ⟨before, after, backward, forward, ?_, ?_⟩
  · rw [shorter]
    exact linked.unlink nodup
  · rw [shorter]
    apply List.Nodup.sublist _ nodup
    apply List.Sublist.append_left
    exact (List.sublist_cons_self _ _).cons_cons _

/-- A new node can be linked after the head. -/
theorem Between.link {head tail node : Ref} {nodes : List Ref}
    (between : Between links head nodes tail) (fresh : node ∉ head :: (nodes ++ [tail])) :
    ∃ after, links.next head = some after ∧
      Between (links.link head node after) head (node :: nodes) tail := by
  obtain ⟨linked, nodup⟩ := between
  obtain ⟨after, late, finish⟩ : ∃ after late, nodes ++ [tail] = after :: late := by
    cases nodes with
    | nil => exact ⟨tail, [], rfl⟩
    | cons first back => exact ⟨first, back ++ [tail], rfl⟩
  have longer : (head :: (node :: nodes ++ [tail])).Nodup := by
    rw [List.mem_cons, not_or] at fresh
    rw [List.nodup_cons] at nodup
    rw [List.cons_append, List.nodup_cons, List.nodup_cons, List.mem_cons, not_or]
    exact ⟨⟨Ne.symm fresh.1, nodup.1⟩, fresh.2, nodup.2⟩
  refine ⟨after, ?_, ?_, longer⟩
  · rw [finish] at linked
    exact linked.1
  · rw [List.cons_append, finish] at longer ⊢
    rw [finish] at linked
    exact linked.link longer

/-- The nodes `next` leads to, up to the tail. -/
def Links.walk (links : Links Ref) (tail : Ref) : Nat → Ref → List Ref
  | 0, _ => []
  | fuel + 1, node =>
      match links.next node with
      | none => []
      | some next => if next = tail then [] else next :: links.walk tail fuel next

/-- Walking from the head meets every node, in order. -/
theorem Between.walk {head tail : Ref} {nodes : List Ref} (between : Between links head nodes tail) :
    links.walk tail nodes.length head = nodes := by
  obtain ⟨linked, nodup⟩ := between
  induction nodes generalizing head with
  | nil => rfl
  | cons first nodes ih =>
      have other : first ≠ tail := by
        rw [List.nodup_cons, List.cons_append, List.nodup_cons] at nodup
        intro same
        exact nodup.2.1 (by simp [same])
      obtain ⟨forward, -, rest⟩ := linked
      rw [List.length_cons, Links.walk, forward]
      simp only [other, ↓reduceIte]
      rw [ih rest (List.nodup_cons.mp nodup).2]

/-! ## Following the pointers -/

/-- Following pointers from a node leads to the last one, past these nodes. -/
inductive Leads (follow : Ref → Option Ref) (last : Ref) : Ref → List Ref → Prop
  | reaches {node : Ref} : follow node = some last → Leads follow last node []
  | visits {node next : Ref} {rest : List Ref} :
      follow node = some next → next ≠ last → Leads follow last next rest →
        Leads follow last node (next :: rest)

omit [DecidableEq Ref] in
/-- `next` leads from the head to the tail, past every node in order. -/
theorem Between.leads {head tail : Ref} {nodes : List Ref} (between : Between links head nodes tail) :
    Leads links.next tail head nodes := by
  obtain ⟨linked, nodup⟩ := between
  induction nodes generalizing head with
  | nil => exact .reaches linked.1
  | cons first nodes ih =>
      rw [List.nodup_cons] at nodup
      have other : first ≠ tail := by
        have apart := nodup.2
        rw [List.cons_append, List.nodup_cons] at apart
        intro same
        exact apart.1 (by simp [same])
      exact .visits linked.1 other (ih linked.2.2 nodup.2)

/-- The pointers the other way round. -/
def Links.flip (links : Links Ref) : Links Ref where
  prev := links.next
  next := links.prev

omit [DecidableEq Ref] in
theorem Linked.flip {nodes : List Ref} (linked : Linked links nodes) :
    Linked links.flip nodes.reverse := by
  induction nodes with
  | nil => trivial
  | cons first nodes ih =>
      cases nodes with
      | nil => trivial
      | cons second nodes =>
          obtain ⟨forward, backward, rest⟩ := linked
          have flipped := ih rest
          rw [List.reverse_cons] at flipped
          rw [List.reverse_cons, List.reverse_cons, List.append_assoc, List.singleton_append]
          exact linked_append.mpr ⟨flipped, backward, forward, trivial⟩

omit [DecidableEq Ref] in
/-- The list the other way round. -/
theorem Between.flip {head tail : Ref} {nodes : List Ref} (between : Between links head nodes tail) :
    Between links.flip tail nodes.reverse head := by
  have reversed : tail :: (nodes.reverse ++ [head]) = (head :: (nodes ++ [tail])).reverse := by simp
  rw [Between, reversed]
  exact ⟨between.1.flip, List.nodup_reverse.mpr between.2⟩

/-! ## Nodes outside the list -/

/-- Only these nodes have pointers. -/
def OnlyLinked (links : Links Ref) (nodes : List Ref) : Prop :=
  ∀ node ∉ nodes, links.prev node = none ∧ links.next node = none

/-- An unlinked node has no pointers, and no other has lost or got any. -/
theorem OnlyLinked.unlink {head tail node before after : Ref} {front back : List Ref}
    (only : OnlyLinked links (head :: (front ++ node :: back ++ [tail])))
    (between : Between links head (front ++ node :: back) tail)
    (backward : links.prev node = some before) (forward : links.next node = some after) :
    OnlyLinked (links.unlink before node after) (head :: (front ++ back ++ [tail])) := by
  obtain ⟨early, before', after', late, start, finish, backward', forward', whole⟩ := between.around
  obtain rfl : before = before' := Option.some.inj (backward.symm.trans backward')
  obtain rfl : after = after' := Option.some.inj (forward.symm.trans forward')
  have shorter : head :: (front ++ back ++ [tail]) = early ++ before :: after :: late := by
    rw [List.append_assoc, ← List.cons_append, start, finish, List.append_assoc]
    rfl
  rw [shorter]
  rw [whole] at only
  intro other absent
  by_cases same : other = node
  · rw [same]
    exact ⟨Function.update_self .., Function.update_self ..⟩
  · rw [List.mem_append, List.mem_cons, List.mem_cons, not_or, not_or, not_or] at absent
    obtain ⟨notEarly, notBefore, notAfter, notLate⟩ := absent
    have outside : other ∉ early ++ before :: node :: after :: late := by
      simp only [List.mem_append, List.mem_cons, not_or]
      exact ⟨notEarly, notBefore, same, notAfter, notLate⟩
    simp only [Links.unlink, Function.update_of_ne same, Function.update_of_ne notAfter,
      Function.update_of_ne notBefore]
    exact only other outside

/-- Linking a node gives no other one pointers. -/
theorem OnlyLinked.link {head tail node after : Ref} {nodes : List Ref}
    (only : OnlyLinked links (head :: (nodes ++ [tail]))) (between : Between links head nodes tail)
    (forward : links.next head = some after) :
    OnlyLinked (links.link head node after) (head :: (node :: nodes ++ [tail])) := by
  have present : after ∈ nodes ++ [tail] := by
    have linked := between.1
    cases nodes with
    | nil =>
        rw [linked.1] at forward
        exact Option.some.inj forward ▸ List.mem_singleton_self _
    | cons first nodes =>
        rw [List.cons_append] at linked
        rw [linked.1] at forward
        exact Option.some.inj forward ▸ List.mem_cons_self
  intro other absent
  rw [List.mem_cons, List.cons_append, List.mem_cons, not_or, not_or] at absent
  obtain ⟨notHead, notNode, outside⟩ := absent
  have notAfter : other ≠ after := fun same => outside (same ▸ present)
  simp only [Links.link, Function.update_of_ne notNode, Function.update_of_ne notAfter,
    Function.update_of_ne notHead]
  exact only other (List.not_mem_cons_of_ne_of_not_mem notHead outside)

end LinkedList
