import Mathlib.Data.List.Basic
import Mathlib.Data.List.Forall2
import Mathlib.Data.List.Induction

/-! # Runs of labelled machines

A machine is given by its start states and its labelled steps. A run is the
list of the labels taken, in order; the invariant rule proves a property of a
state together with the labels that led to it, and a simulation carries runs of
one machine to runs of another.
-/

/-- A place in a history with one more label: the last one, or one before it. -/
theorem concat_eq_append_cons {Label : Type*} {labels earlier later : List Label}
    {last label : Label} :
    labels ++ [last] = earlier ++ label :: later ↔
      (later = [] ∧ labels = earlier ∧ last = label) ∨
        ∃ between, later = between ++ [last] ∧ labels = earlier ++ label :: between := by
  constructor
  · intro same
    obtain rfl | ⟨between, final, rfl⟩ := List.eq_nil_or_concat later
    · obtain ⟨rfl, single⟩ := List.append_inj' same rfl
      cases single
      exact Or.inl ⟨rfl, rfl, rfl⟩
    · rw [List.concat_eq_append, ← List.cons_append, ← List.append_assoc] at same
      obtain ⟨rfl, single⟩ := List.append_inj' same rfl
      cases single
      exact Or.inr ⟨between, List.concat_eq_append, rfl⟩
  · intro place
    obtain ⟨rfl, rfl, rfl⟩ | ⟨between, rfl, rfl⟩ := place
    · rfl
    · rw [List.append_assoc, List.cons_append]

/-- A labelled transition system. -/
structure Machine (State Label : Type*) where
  start : State → Prop
  step : State → Label → State → Prop

namespace Machine

variable {State Label State' Label' : Type*}

/-- The states a list of labels leads to. -/
inductive Run (machine : Machine State Label) : List Label → State → Prop where
  | start {state : State} (starts : machine.start state) : Run machine [] state
  | concat {labels : List Label} {state next : State} {label : Label}
      (run : Run machine labels state) (step : machine.step state label next) :
      Run machine (labels ++ [label]) next

/-- A state some run reaches. -/
def Reachable (machine : Machine State Label) (state : State) : Prop :=
  ∃ labels, machine.Run labels state

/-- What holds at the start and is kept by every step holds after every run. -/
theorem Run.invariant {machine : Machine State Label} {P : List Label → State → Prop}
    (starts : ∀ state, machine.start state → P [] state)
    (steps : ∀ labels state label next, P labels state → machine.step state label next →
      P (labels ++ [label]) next)
    {labels : List Label} {state : State} (run : machine.Run labels state) : P labels state := by
  induction run with
  | start begins => exact starts _ begins
  | concat _ step ih => exact steps _ _ _ _ ih step

/-- A run ends with its last step. -/
theorem Run.concat_inv {machine : Machine State Label} {labels : List Label} {label : Label}
    {next : State} (run : machine.Run (labels ++ [label]) next) :
    ∃ state, machine.Run labels state ∧ machine.step state label next := by
  generalize ends : labels ++ [label] = all at run
  cases run with
  | start _ => simp at ends
  | concat before step =>
      obtain ⟨rfl, single⟩ := List.append_inj' ends rfl
      cases single
      exact ⟨_, before, step⟩

/-- The labels of a run say where it leads if every label of a step does. -/
theorem Run.deterministic {machine : Machine State Label}
    (starts : ∀ left right, machine.start left → machine.start right → left = right)
    (steps : ∀ state label left right, machine.step state label left →
      machine.step state label right → left = right)
    {labels : List Label} {left right : State} (run : machine.Run labels left)
    (other : machine.Run labels right) : left = right := by
  induction run generalizing right with
  | start begins =>
      generalize ends : ([] : List Label) = none at other
      cases other with
      | start begins' => exact starts _ _ begins begins'
      | concat _ _ => simp at ends
  | concat _ step ih =>
      obtain ⟨state, before, step'⟩ := other.concat_inv
      rw [← ih before] at step'
      exact steps _ _ _ _ step step'

/-- Labels the steps do not tell apart lead to the same states. -/
theorem Run.relabel {machine : Machine State Label} {alike : Label → Label → Prop}
    (steps : ∀ state label label' next, alike label label' → machine.step state label next →
      machine.step state label' next)
    {labels labels' : List Label} {state : State} (run : machine.Run labels state)
    (same : List.Forall₂ alike labels labels') : machine.Run labels' state := by
  induction run generalizing labels' with
  | start begins =>
      cases same
      exact .start begins
  | concat _ step ih =>
      rw [← List.forall₂_reverse_iff, List.reverse_concat] at same
      cases reversed : labels'.reverse with
      | nil =>
          rw [reversed] at same
          cases same
      | cons last earlier =>
          rw [reversed] at same
          obtain ⟨lastAlike, before⟩ := List.forall₂_cons.mp same
          obtain rfl : labels' = earlier.reverse ++ [last] := by
            rw [← List.reverse_reverse labels', reversed, List.reverse_cons]
          rw [← List.reverse_reverse earlier, List.forall₂_reverse_iff] at before
          exact (ih before).concat (steps _ _ _ _ lastAlike step)

/-- The machine that only takes steps with a property. -/
def restrict (machine : Machine State Label) (P : State → Label → Prop) : Machine State Label where
  start := machine.start
  step state label next := P state label ∧ machine.step state label next

/-- A run of a restricted machine is a run. -/
theorem Run.unrestricted {machine : Machine State Label} {P : State → Label → Prop}
    {labels : List Label} {state : State} (run : (machine.restrict P).Run labels state) :
    machine.Run labels state := by
  induction run with
  | start begins => exact .start begins
  | concat _ step ih => exact ih.concat step.2

/-- The machine from a state on. -/
def onwards (machine : Machine State Label) (first : State) : Machine State Label where
  start state := state = first
  step := machine.step

/-- A run that goes on. -/
theorem Run.append {machine : Machine State Label} {earlier later : List Label} {first last : State}
    (run : machine.Run earlier first) (rest : (machine.onwards first).Run later last) :
    machine.Run (earlier ++ later) last := by
  induction rest with
  | start begins =>
      cases begins
      rw [List.append_nil]
      exact run
  | concat _ step ih =>
      rw [← List.append_assoc]
      exact ih.concat step

/-- A run passes through a state at every place. -/
theorem Run.split {machine : Machine State Label} {earlier later : List Label} {last : State}
    (run : machine.Run (earlier ++ later) last) :
    ∃ first, machine.Run earlier first ∧ (machine.onwards first).Run later last := by
  induction later using List.reverseRec generalizing last with
  | nil =>
      rw [List.append_nil] at run
      exact ⟨last, run, .start rfl⟩
  | append_singleton later label ih =>
      rw [← List.append_assoc] at run
      rcases run.concat_inv with ⟨state, before, step⟩
      rcases ih before with ⟨first, front, rest⟩
      exact ⟨first, front, rest.concat step⟩

/-- The step at a place of a run. -/
theorem Run.middle {machine : Machine State Label} {earlier later : List Label} {label : Label}
    {last : State} (run : machine.Run (earlier ++ label :: later) last) :
    ∃ state next, machine.Run earlier state ∧ machine.step state label next := by
  rw [List.append_cons] at run
  rcases run.split with ⟨next, front, -⟩
  rcases front.concat_inv with ⟨state, before, step⟩
  exact ⟨state, next, before, step⟩

/-- What holds at a state of a run, and is kept by the steps with a property, holds after such
steps. -/
theorem Run.kept {machine : Machine State Label} {P : State → Prop} {good : Label → Prop}
    (steps : ∀ labels state label next, machine.Run labels state → P state → good label →
      machine.step state label next → P next)
    {earlier later : List Label} {first last : State} (run : machine.Run earlier first)
    (holds : P first) (rest : (machine.onwards first).Run later last)
    (all : ∀ label ∈ later, good label) : P last := by
  induction rest with
  | start begins =>
      cases begins
      exact holds
  | concat before step ih =>
      rw [List.forall_mem_append, List.forall_mem_singleton] at all
      exact steps _ _ _ _ (run.append before) (ih all.1) all.2 step

/-- Where labels lead from a state, if each of them can be taken. -/
def follow (handle : State → Label → Option State) : List Label → State → Option State
  | [], state => some state
  | label :: labels, state => (handle state label).bind (follow handle labels)

theorem follow_append (handle : State → Label → Option State) (front back : List Label)
    (state : State) :
    follow handle (front ++ back) state = (follow handle front state).bind (follow handle back) := by
  induction front generalizing state with
  | nil => rfl
  | cons label front ih =>
      simp only [List.cons_append, follow, Option.bind_assoc, funext ih]

/-- What can be followed from a run is a run. -/
theorem Run.follow {machine : Machine State Label} {handle : State → Label → Option State}
    (steps : ∀ state label next, handle state label = some next → machine.step state label next)
    {earlier labels : List Label} {state next : State} (run : machine.Run earlier state)
    (leads : Machine.follow handle labels state = some next) :
    machine.Run (earlier ++ labels) next := by
  induction labels generalizing earlier state with
  | nil =>
      cases leads
      rw [List.append_nil]
      exact run
  | cons label labels ih =>
      obtain ⟨middle, handled, leads⟩ := Option.bind_eq_some_iff.mp leads
      have whole := ih (run.concat (steps _ _ _ handled)) leads
      rw [List.append_assoc, List.singleton_append] at whole
      exact whole

/-- The invariant rule for a property of states alone. -/
theorem Reachable.invariant {machine : Machine State Label} {P : State → Prop}
    (starts : ∀ state, machine.start state → P state)
    (steps : ∀ state label next, P state → machine.step state label next → P next)
    {state : State} (reachable : machine.Reachable state) : P state := by
  obtain ⟨labels, run⟩ := reachable
  exact run.invariant (P := fun _ state => P state) starts
    fun _ state label next holds step => steps state label next holds step

/-- A map of states under which every step of one machine is a step of another,
or is invisible to it. -/
structure Simulation (concrete : Machine State Label) (abstract : Machine State' Label') where
  view : State → State'
  label : State → Label → Option Label'
  start : ∀ state, concrete.start state → abstract.start (view state)
  step : ∀ state label' next, concrete.step state label' next →
    match label state label' with
    | none => view next = view state
    | some label' => abstract.step (view state) label' (view next)

/-- A simulation carries reachable states to reachable states. -/
theorem Simulation.reachable {concrete : Machine State Label} {abstract : Machine State' Label'}
    (simulation : Simulation concrete abstract) {state : State}
    (reachable : concrete.Reachable state) : abstract.Reachable (simulation.view state) := by
  refine reachable.invariant (P := fun state => abstract.Reachable (simulation.view state))
    (fun state starts => ⟨[], .start (simulation.start state starts)⟩) ?_
  intro state label next ⟨labels, run⟩ step
  have seen := simulation.step state label next step
  cases visible : simulation.label state label with
  | none =>
      rw [visible] at seen
      change abstract.Reachable (simulation.view next)
      rw [seen]
      exact ⟨labels, run⟩
  | some label' =>
      rw [visible] at seen
      exact ⟨labels ++ [label'], run.concat seen⟩

end Machine
