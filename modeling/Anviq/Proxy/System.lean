import Anviq.Proxy.Eventlog
import Anviq.Proxy.Gateway

/-! # The proxy as a system

The sessions of a process, their writer, and the goroutines that work on them.
A step lets one goroutine perform its next session operation, or moves an event
towards its file; which goroutine moves next, and what the upstream, the control
plane, the quarantine and the schema cache answer, is arbitrary.
-/

namespace Proxy

variable {Schema : Type}

/-- The state of a process. `settled` is history: the session and the revision of
each verdict that took effect. -/
structure System (Schema : Type) where
  audit : Audit Schema
  goroutines : List (String × Goroutine Schema) := []
  settled : List (String × Nat) := []

/-- A revision of a key is waiting for a verdict. -/
def Session.awaits (session : Session Schema) (key : String) (revision : Nat) : Bool :=
  match (session.pinned key).bind PinnedTool.pending with
  | some change => change.revision = revision && !change.verdictApplied
  | none => false

/-- The revision whose verdict takes effect at a goroutine's turn. -/
def Goroutine.settles (around : Surroundings Schema) (session : Session Schema) :
    Goroutine Schema → Option Nat
  | .reporting report =>
      if around.control.isSome && session.awaits (key report.server report.tool) report.revision
      then some report.revision
      else none
  | _ => none

namespace System

/-- One goroutine of a session takes its turn. -/
def turned (gateway : Gateway Schema) (system : System Schema) (id : String)
    (around : Surroundings Schema) (goroutine : Goroutine Schema)
    (front back : List (String × Goroutine Schema)) : System Schema :=
  let session := system.audit.sessions id
  let turn := goroutine.turn gateway around session
  { audit := system.audit.operated id turn.session turn.events
    goroutines := front ++ turn.next.map (id, ·) ++ back
    settled := system.settled ++ ((goroutine.settles around session).map (id, ·)).toList }

end System

/-- A step of a process. -/
inductive SystemLabel (Schema : Type) where
  | arrive (id server agent body : String)
  | turn (id : String) (goroutine : Goroutine Schema) (around : Surroundings Schema)
  | emit (id : String)
  | write
  | close

/-- The steps of a process. -/
inductive SystemStep (gateway : Gateway Schema) :
    System Schema → SystemLabel Schema → System Schema → Prop where
  | arrive {system : System Schema} (id server agent body : String) :
      SystemStep gateway system (.arrive id server agent body)
        { system with goroutines := system.goroutines ++ [(id, .arrived server agent body)] }
  | turn {system : System Schema} {id : String} {goroutine : Goroutine Schema}
      {front back : List (String × Goroutine Schema)} (around : Surroundings Schema)
      (running : system.goroutines = front ++ (id, goroutine) :: back)
      (unlocked : system.audit.outbox id = []) :
      SystemStep gateway system (.turn id goroutine around)
        (system.turned gateway id around goroutine front back)
  | emit {system : System Schema} {id : String} {event : Event} {rest : List Event}
      (held : system.audit.outbox id = event :: rest) :
      SystemStep gateway system (.emit id)
        { system with audit := system.audit.emitted id event rest }
  | write {system : System Schema} {id : String} {event : Event} {rest : List (String × Event)}
      (queued : system.audit.writer.channel = (id, event) :: rest) :
      SystemStep gateway system .write
        { system with
          audit := { system.audit with writer := system.audit.writer.append id event rest } }
  | close {system : System Schema} :
      SystemStep gateway system .close
        { system with
          audit :=
            { system.audit with writer := { system.audit.writer with closed := true } } }

/-- A process whose channel holds `capacity` events. -/
def machine (gateway : Gateway Schema) (capacity : Nat) :
    Machine (System Schema) (SystemLabel Schema) where
  start := fun system => system = { audit := Audit.initial capacity }
  step := SystemStep gateway

/-! ## Executing a schedule -/

/-- What a schedule makes happen next; a goroutine is chosen by its position. -/
inductive Move (Schema : Type) where
  | arrive (id server agent body : String)
  | turn (position : Nat) (around : Surroundings Schema)
  | emit (id : String)
  | write

/-- Perform a move, if it is possible. -/
def System.perform (gateway : Gateway Schema) (system : System Schema) :
    Move Schema → Option (System Schema)
  | .arrive id server agent body =>
      some { system with goroutines := system.goroutines ++ [(id, .arrived server agent body)] }
  | .turn position around =>
      match system.goroutines.drop position with
      | (id, goroutine) :: back =>
          if (system.audit.outbox id).isEmpty then
            some (system.turned gateway id around goroutine (system.goroutines.take position) back)
          else none
      | [] => none
  | .emit id =>
      match system.audit.outbox id with
      | event :: rest => some { system with audit := system.audit.emitted id event rest }
      | [] => none
  | .write =>
      match system.audit.writer.channel with
      | (id, event) :: rest =>
          some { system with
            audit := { system.audit with writer := system.audit.writer.append id event rest } }
      | [] => none

/-- Perform the moves of a schedule. -/
def System.play (gateway : Gateway Schema) (system : System Schema) (moves : List (Move Schema)) :
    Option (System Schema) :=
  moves.foldlM (System.perform gateway) system

/-- A move is a step. -/
theorem System.perform_step {gateway : Gateway Schema} {system next : System Schema}
    {move : Move Schema} (performed : system.perform gateway move = some next) :
    ∃ label, SystemStep gateway system label next := by
  cases move with
  | arrive id server agent body =>
      obtain rfl := Option.some.inj performed
      exact ⟨_, .arrive id server agent body⟩
  | turn position around =>
      simp only [perform] at performed
      split at performed
      · next id goroutine back rest =>
          split at performed
          · next unlocked =>
              obtain rfl := Option.some.inj performed
              refine ⟨_, .turn around ?_ (List.isEmpty_iff.mp unlocked)⟩
              rw [← rest, List.take_append_drop]
          · exact absurd performed (by simp)
      · exact absurd performed (by simp)
  | emit id =>
      simp only [perform] at performed
      split at performed
      · next event rest held =>
          obtain rfl := Option.some.inj performed
          exact ⟨_, .emit held⟩
      · exact absurd performed (by simp)
  | write =>
      simp only [perform] at performed
      split at performed
      · next id event rest queued =>
          obtain rfl := Option.some.inj performed
          exact ⟨_, .write queued⟩
      · exact absurd performed (by simp)

/-- A schedule leads from reachable states to reachable states. -/
theorem System.play_reachable {gateway : Gateway Schema} {capacity : Nat} {system last : System Schema}
    (reachable : (machine gateway capacity).Reachable system) {moves : List (Move Schema)}
    (played : system.play gateway moves = some last) :
    (machine gateway capacity).Reachable last := by
  induction moves generalizing system with
  | nil =>
      obtain rfl := Option.some.inj played
      exact reachable
  | cons move moves ih =>
      rw [play, List.foldlM_cons] at played
      obtain ⟨next, performed, rest⟩ := Option.bind_eq_some_iff.mp played
      obtain ⟨label, step⟩ := perform_step performed
      obtain ⟨labels, run⟩ := reachable
      exact ih ⟨labels ++ [label], run.concat step⟩ rest

end Proxy
