import Mathlib.Data.List.Forall2

/-! # Plays

A deterministic component that answers operations one after another, or crashes.
Two components whose states a relation keeps related answer alike for ever.
-/

namespace Play

variable {State State' Input Reply : Type}

/-- The replies to the inputs, each with the state after it. -/
def play (step : State → Input → Option (Reply × State)) :
    State → List Input → Option (List (Reply × State))
  | _, [] => some []
  | state, input :: inputs => do
      let (reply, next) ← step state input
      let rest ← play step next inputs
      some ((reply, next) :: rest)

/-- Related states answer an input alike, without a crash, and stay related. -/
def Simulates (step : State → Input → Option (Reply × State))
    (step' : State' → Input → Option (Reply × State')) (related : State → State' → Prop)
    (input : Input) : Prop :=
  ∀ state state', related state state' → ∃ reply next next',
    step state input = some (reply, next) ∧ step' state' input = some (reply, next') ∧
      related next next'

/-- **Simulation.** Components that answer every input alike answer all of them
alike, and pass through related states. -/
theorem play_simulates {step : State → Input → Option (Reply × State)}
    {step' : State' → Input → Option (Reply × State')} {related : State → State' → Prop}
    {inputs : List Input} (simulates : ∀ input ∈ inputs, Simulates step step' related input)
    {state : State} {state' : State'} (start : related state state') :
    ∃ answers answers', play step state inputs = some answers ∧
      play step' state' inputs = some answers' ∧
      List.Forall₂ (fun answer answer' => answer.1 = answer'.1 ∧ related answer.2 answer'.2)
        answers answers' := by
  induction inputs generalizing state state' with
  | nil => exact ⟨[], [], rfl, rfl, .nil⟩
  | cons input inputs ih =>
      rw [List.forall_mem_cons] at simulates
      obtain ⟨reply, next, next', stepped, stepped', related⟩ := simulates.1 state state' start
      obtain ⟨rest, rest', played, played', alike⟩ := ih simulates.2 related
      refine ⟨(reply, next) :: rest, (reply, next') :: rest', ?_, ?_, .cons ⟨rfl, related⟩ alike⟩
      · simp only [play, stepped, played, Option.bind_eq_bind, Option.bind_some]
      · simp only [play, stepped', played', Option.bind_eq_bind, Option.bind_some]

/-- The state after the inputs. -/
def after (step : State → Input → Option (Reply × State)) : State → List Input → Option State
  | state, [] => some state
  | state, input :: inputs => do
      let (_, next) ← step state input
      after step next inputs

/-- Related states both answer an input, each in its own way, and stay related. -/
def Preserves (step : State → Input → Option (Reply × State))
    (step' : State' → Input → Option (Reply × State')) (related : State → State' → Prop) : Prop :=
  ∀ input state state', related state state' → ∃ reply reply' next next',
    step state input = some (reply, next) ∧ step' state' input = some (reply', next') ∧
      related next next'

/-- Whatever the inputs, related states are followed by related states. -/
theorem after_preserves {step : State → Input → Option (Reply × State)}
    {step' : State' → Input → Option (Reply × State')} {related : State → State' → Prop}
    (preserves : Preserves step step' related) (inputs : List Input) {state : State}
    {state' : State'} (start : related state state') :
    ∃ last last', after step state inputs = some last ∧ after step' state' inputs = some last' ∧
      related last last' := by
  induction inputs generalizing state state' with
  | nil => exact ⟨state, state', rfl, rfl, start⟩
  | cons input inputs ih =>
      obtain ⟨reply, reply', next, next', stepped, stepped', related⟩ :=
        preserves input state state' start
      obtain ⟨last, last', reached, reached', related⟩ := ih related
      refine ⟨last, last', ?_, ?_, related⟩
      · simp only [after, stepped, reached, Option.bind_eq_bind, Option.bind_some]
      · simp only [after, stepped', reached', Option.bind_eq_bind, Option.bind_some]

/-- What related answers show alike. -/
theorem map_eq_of_forall₂ {Shown : Type} {related : State → State' → Prop}
    {answers : List (Reply × State)} {answers' : List (Reply × State')}
    (alike : List.Forall₂ (fun answer answer' => answer.1 = answer'.1 ∧
      related answer.2 answer'.2) answers answers') (show' : Reply × State → Shown)
    (show'' : Reply × State' → Shown)
    (same : ∀ reply state state', related state state' →
      show' (reply, state) = show'' (reply, state')) :
    answers.map show' = answers'.map show'' := by
  induction alike with
  | nil => rfl
  | @cons answer answer' _ _ head _ ih =>
      obtain ⟨reply, state⟩ := answer
      obtain ⟨reply', state'⟩ := answer'
      obtain ⟨rfl, related⟩ := head
      rw [List.map_cons, List.map_cons, ih, same reply state state' related]

end Play
