import Anviq.Machine.Play
import Anviq.Machine.Run
import Mathlib.Logic.Function.Basic

/-! # Objects behind one lock

A call takes the lock, works through its body one access at a time, and gives the lock back, while
other threads take their steps in between. Another machine carries a call out in an instant, some
time between the call and its return. `Ahead` relates the two: what the threads see of them is the
same, and the calls taken are a play of the object.
-/

namespace Locked

/-! ## Bodies -/

/-- What runs under the lock, one access at a time; a body that fails has raised an exception. -/
inductive Body (State Result : Type) where
  | done (result : Result)
  | fail
  | act (write : State → State) (rest : State → Body State Result)

namespace Body

variable {State Result Next : Type}

/-- The body when nothing comes in between. -/
def run : Body State Result → State → Option (Result × State)
  | done result, state => some (result, state)
  | fail, _ => none
  | act write rest, state => (rest (write state)).run (write state)

/-- One body after another. -/
def bind : Body State Result → (Result → Body State Next) → Body State Next
  | done result, after => after result
  | fail, _ => fail
  | act write rest, after => act write fun state => (rest state).bind after

instance : Monad (Body State) where
  pure := done
  bind := bind

/-- Looking at the object. -/
def look (value : State → Option Result) : Body State Result :=
  act id fun state =>
    match value state with
    | some result => done result
    | none => fail

/-- A write to the object. -/
def write (change : State → State) : Body State Unit := act change fun _ => done ()

@[simp] theorem run_done (result : Result) (state : State) :
    (done result).run state = some (result, state) := rfl

@[simp] theorem run_pure (result : Result) (state : State) :
    (pure result : Body State Result).run state = some (result, state) := rfl

@[simp] theorem run_fail (state : State) : (fail : Body State Result).run state = none := rfl

@[simp] theorem run_bind (body : Body State Result) (after : Result → Body State Next)
    (state : State) :
    (body >>= after).run state =
      (body.run state).bind fun ended => (after ended.1).run ended.2 := by
  change (body.bind after).run state = _
  induction body generalizing state with
  | done result => rfl
  | fail => rfl
  | act write rest ih => exact ih (write state) (write state)

@[simp] theorem run_look (value : State → Option Result) (state : State) :
    (look value).run state = (value state).map fun result => (result, state) := by
  rw [look, run, id]
  cases value state <;> rfl

@[simp] theorem run_write (change : State → State) (state : State) :
    (write change).run state = some ((), change state) := rfl

@[simp] theorem run_look_bind (value : State → Option Result) (after : Result → Body State Next)
    (state : State) :
    (look value >>= after).run state =
      (value state).bind fun result => (after result).run state := by
  rw [run_bind, run_look]
  cases value state <;> rfl

@[simp] theorem run_write_bind (change : State → State) (after : Unit → Body State Next)
    (state : State) : (write change >>= after).run state = (after ()).run (change state) := rfl

/-- What is made of a result is made of it after the run. -/
@[simp] theorem run_map (shown : Result → Next) (body : Body State Result) (state : State) :
    (shown <$> body).run state = (body.run state).map fun ended => (shown ended.1, ended.2) := by
  rw [Option.map_eq_bind]
  exact run_bind body (fun result => pure (shown result)) state

/-- A choice runs the branch that is chosen. -/
@[simp] theorem run_ite (condition : Prop) [Decidable condition] (left right : Body State Result)
    (state : State) :
    (if condition then left else right).run state =
      if condition then left.run state else right.run state := by
  split <;> rfl

end Body

/-! ## The locked machine -/

/-- Where a thread is. -/
inductive Stage (Call State Reply : Type) where
  | idle
  | waiting (call : Call)
  | inside (call : Call) (rest : Body State Reply)
  | leaving (reply : Reply)

/-- An object, who holds its lock, and where the threads are. -/
structure Guarded (Thread Call State Reply : Type) where
  shared : State
  holder : Option Thread := none
  stage : Thread → Stage Call State Reply := fun _ => .idle

/-- A move of a thread. -/
inductive Move (Thread Call Reply : Type) where
  | call (thread : Thread) (call : Call)
  | acquire (thread : Thread)
  | act (thread : Thread)
  | release (thread : Thread)
  | raise (thread : Thread)
  | leave (thread : Thread) (reply : Reply)

section Machines

variable {Thread Call State Reply : Type} [DecidableEq Thread]

/-- The moves of a thread at a place. Only who acquires the lock asks whether it is free. -/
inductive GuardedStep (body : Call → Body State Reply) :
    Guarded Thread Call State Reply → Move Thread Call Reply →
      Guarded Thread Call State Reply → Prop
  | call {object : Guarded Thread Call State Reply} {thread : Thread} (call : Call)
      (idle : object.stage thread = .idle) :
      GuardedStep body object (.call thread call)
        { object with stage := Function.update object.stage thread (.waiting call) }
  | acquire {object : Guarded Thread Call State Reply} {thread : Thread} {call : Call}
      (waits : object.stage thread = .waiting call) (free : object.holder = none) :
      GuardedStep body object (.acquire thread)
        { object with
          holder := some thread
          stage := Function.update object.stage thread (.inside call (body call)) }
  | act {object : Guarded Thread Call State Reply} {thread : Thread} {call : Call}
      {write : State → State} {rest : State → Body State Reply}
      (works : object.stage thread = .inside call (.act write rest)) :
      GuardedStep body object (.act thread)
        { object with
          shared := write object.shared
          stage := Function.update object.stage thread (.inside call (rest (write object.shared))) }
  | release {object : Guarded Thread Call State Reply} {thread : Thread} {call : Call}
      {reply : Reply} (finished : object.stage thread = .inside call (.done reply)) :
      GuardedStep body object (.release thread)
        { object with
          holder := none
          stage := Function.update object.stage thread (.leaving reply) }
  | raise {object : Guarded Thread Call State Reply} {thread : Thread} {call : Call}
      (failed : object.stage thread = .inside call .fail) :
      GuardedStep body object (.raise thread)
        { object with holder := none, stage := Function.update object.stage thread .idle }
  | leave {object : Guarded Thread Call State Reply} {thread : Thread} {reply : Reply}
      (leaves : object.stage thread = .leaving reply) :
      GuardedStep body object (.leave thread reply)
        { object with stage := Function.update object.stage thread .idle }

/-- The machine of an object that starts like this, with a free lock and idle threads. -/
def lockedMachine (body : Call → Body State Reply) (initial : State) :
    Machine (Guarded Thread Call State Reply) (Move Thread Call Reply) where
  start object := object = { shared := initial }
  step := GuardedStep body

/-- Where a move leads, if the thread can make it. -/
def move [DecidableEq Reply] (body : Call → Body State Reply)
    (object : Guarded Thread Call State Reply) :
    Move Thread Call Reply → Option (Guarded Thread Call State Reply)
  | .call thread asked =>
      match object.stage thread with
      | .idle => some { object with stage := Function.update object.stage thread (.waiting asked) }
      | _ => none
  | .acquire thread =>
      match object.stage thread, object.holder with
      | .waiting asked, none =>
          some { object with
            holder := some thread
            stage := Function.update object.stage thread (.inside asked (body asked)) }
      | _, _ => none
  | .act thread =>
      match object.stage thread with
      | .inside asked (.act write rest) =>
          some { object with
            shared := write object.shared
            stage :=
              Function.update object.stage thread (.inside asked (rest (write object.shared))) }
      | _ => none
  | .release thread =>
      match object.stage thread with
      | .inside _ (.done reply) =>
          some { object with
            holder := none
            stage := Function.update object.stage thread (.leaving reply) }
      | _ => none
  | .raise thread =>
      match object.stage thread with
      | .inside _ .fail =>
          some { object with holder := none, stage := Function.update object.stage thread .idle }
      | _ => none
  | .leave thread reply =>
      match object.stage thread with
      | .leaving own =>
          if own = reply then
            some { object with stage := Function.update object.stage thread .idle }
          else none
      | _ => none

/-- What can be computed is a step. -/
theorem step_of_move [DecidableEq Reply] (body : Call → Body State Reply)
    (object : Guarded Thread Call State Reply) (asked : Move Thread Call Reply)
    (next : Guarded Thread Call State Reply) (moved : move body object asked = some next) :
    GuardedStep body object asked next := by
  cases asked with
  | call thread asked =>
      dsimp only [move] at moved
      split at moved
      · rename_i idle
        cases moved
        exact .call asked idle
      · cases moved
  | acquire thread =>
      dsimp only [move] at moved
      split at moved
      · rename_i waits free
        cases moved
        exact .acquire waits free
      · cases moved
  | act thread =>
      dsimp only [move] at moved
      split at moved
      · rename_i works
        cases moved
        exact .act works
      · cases moved
  | release thread =>
      dsimp only [move] at moved
      split at moved
      · rename_i finished
        cases moved
        exact .release finished
      · cases moved
  | raise thread =>
      dsimp only [move] at moved
      split at moved
      · rename_i failed
        cases moved
        exact .raise failed
      · cases moved
  | leave thread reply =>
      dsimp only [move] at moved
      split at moved
      · rename_i leaves
        split at moved
        · rename_i same
          cases moved
          exact .leave (same ▸ leaves)
        · cases moved
      · cases moved

/-! ## The atomic machine -/

/-- Where a thread is when calls take an instant. -/
inductive AtomicStage (Call Reply : Type) where
  | idle
  | waiting (call : Call)
  | leaving (reply : Reply)

/-- An object and where the threads are. -/
structure Atomic (Thread Call State Reply : Type) where
  shared : State
  stage : Thread → AtomicStage Call Reply := fun _ => .idle

/-- A move of a thread: a call is taken in an instant. -/
inductive Instant (Thread Call Reply : Type) where
  | call (thread : Thread) (call : Call)
  | take (thread : Thread) (call : Call) (reply : Reply)
  | leave (thread : Thread) (reply : Reply)

inductive AtomicStep (spec : State → Call → Option (Reply × State)) :
    Atomic Thread Call State Reply → Instant Thread Call Reply →
      Atomic Thread Call State Reply → Prop
  | call {object : Atomic Thread Call State Reply} {thread : Thread} (call : Call)
      (idle : object.stage thread = .idle) :
      AtomicStep spec object (.call thread call)
        { object with stage := Function.update object.stage thread (.waiting call) }
  | take {object : Atomic Thread Call State Reply} {thread : Thread} {call : Call} {reply : Reply}
      {next : State} (waits : object.stage thread = .waiting call)
      (answers : spec object.shared call = some (reply, next)) :
      AtomicStep spec object (.take thread call reply)
        { shared := next, stage := Function.update object.stage thread (.leaving reply) }
  | leave {object : Atomic Thread Call State Reply} {thread : Thread} {reply : Reply}
      (leaves : object.stage thread = .leaving reply) :
      AtomicStep spec object (.leave thread reply)
        { object with stage := Function.update object.stage thread .idle }

/-- The machine whose calls take an instant. -/
def atomicMachine (spec : State → Call → Option (Reply × State)) (initial : State) :
    Machine (Atomic Thread Call State Reply) (Instant Thread Call Reply) where
  start object := object = { shared := initial }
  step := AtomicStep spec

/-! ## Histories -/

/-- What the threads see: calls and returns. -/
inductive Seen (Thread Call Reply : Type) where
  | call (thread : Thread) (call : Call)
  | leave (thread : Thread) (reply : Reply)

def Move.seen? : Move Thread Call Reply → Option (Seen Thread Call Reply)
  | .call thread asked => some (.call thread asked)
  | .leave thread reply => some (.leave thread reply)
  | .acquire _ => none
  | .act _ => none
  | .release _ => none
  | .raise _ => none

def Instant.seen? : Instant Thread Call Reply → Option (Seen Thread Call Reply)
  | .call thread asked => some (.call thread asked)
  | .leave thread reply => some (.leave thread reply)
  | .take .. => none

/-- The call that is taken. -/
def Instant.taken? : Instant Thread Call Reply → Option (Call × Reply)
  | .take _ asked reply => some (asked, reply)
  | .call .. => none
  | .leave .. => none

/-! ## Sequential plays -/

section Sequential

theorem filterMap_concat {α β : Type} (seen : α → Option β) (earlier : List α) (last : α) :
    (earlier ++ [last]).filterMap seen = earlier.filterMap seen ++ (seen last).toList := by
  rw [List.filterMap_append]
  cases found : seen last <;> simp [found]

variable {spec : State → Call → Option (Reply × State)} {initial : State}

/-- The calls that are taken, and the replies to them, are a play of the object. -/
theorem sequential {instants : List (Instant Thread Call Reply)}
    {object : Atomic Thread Call State Reply}
    (run : (atomicMachine spec initial).Run instants object) :
    ∃ answers, Play.play spec initial ((instants.filterMap Instant.taken?).map Prod.fst) =
      some answers ∧ answers.map Prod.fst = (instants.filterMap Instant.taken?).map Prod.snd := by
  suffices every : ∃ answers,
      answers.map Prod.fst = (instants.filterMap Instant.taken?).map Prod.snd ∧
        ∀ calls,
          Play.play spec initial ((instants.filterMap Instant.taken?).map Prod.fst ++ calls) =
            (Play.play spec object.shared calls).map (answers ++ ·) by
    rcases every with ⟨answers, replies, plays⟩
    refine ⟨answers, ?_, replies⟩
    have whole := plays []
    rw [List.append_nil] at whole
    rw [whole, Play.play, Option.map_some, List.append_nil]
  induction run with
  | start begins =>
      cases begins
      exact ⟨[], rfl, fun calls => by simp⟩
  | @concat instants object next instant _ step ih =>
      rcases ih with ⟨answers, replies, plays⟩
      rw [filterMap_concat]
      cases step with
      | call asked idle =>
          rw [Instant.taken?, Option.toList_none, List.append_nil]
          exact ⟨answers, replies, plays⟩
      | leave leaves =>
          rw [Instant.taken?, Option.toList_none, List.append_nil]
          exact ⟨answers, replies, plays⟩
      | @take thread asked reply last waits answered =>
          refine ⟨answers ++ [(reply, last)], ?_, ?_⟩
          · simp [Instant.taken?, replies]
          · intro calls
            rw [List.map_append, List.append_assoc, plays]
            simp only [Instant.taken?, Option.toList_some, List.map_cons, List.map_nil,
              List.cons_append, List.nil_append, Play.play, answered, Option.bind_eq_bind,
              Option.bind_some]
            cases Play.play spec last calls with
            | none => rfl
            | some rest => simp

end Sequential

/-! ## Linearisation -/

section Linearisation

variable {body : Call → Body State Reply} {spec : State → Call → Option (Reply × State)}
  {sound : State → Prop}

/-- From a sound state the body of a call answers as it should, and leaves a sound state. -/
structure Implements (body : Call → Body State Reply) (spec : State → Call → Option (Reply × State))
    (sound : State → Prop) : Prop where
  run : ∀ state call, sound state → (body call).run state = spec state call
  answers : ∀ state call, sound state → ∃ reply next, spec state call = some (reply, next) ∧
    sound next

/-- Where a thread is in the two machines: inside, it has its reply already. -/
def SameStage (shared next : State) : Stage Call State Reply → AtomicStage Call Reply → Prop
  | .idle, .idle => True
  | .waiting call, .waiting call' => call = call'
  | .inside _ rest, .leaving reply => rest.run shared = some (reply, next)
  | .leaving reply, .leaving reply' => reply = reply'
  | _, _ => False

/-- The atomic machine is ahead by what the holder of the lock has still to do. -/
structure Ahead (sound : State → Prop) (object : Guarded Thread Call State Reply)
    (atomic : Atomic Thread Call State Reply) : Prop where
  sound : sound atomic.shared
  free : object.holder = none → object.shared = atomic.shared
  stages : ∀ thread, SameStage object.shared atomic.shared (object.stage thread)
    (atomic.stage thread)
  holder : ∀ thread, object.holder = some thread ↔
    ∃ call rest, object.stage thread = .inside call rest

variable {object next : Guarded Thread Call State Reply} {atomic : Atomic Thread Call State Reply}
  {move : Move Thread Call Reply}

/-- A stage that is not inside does not depend on the object. -/
theorem SameStage.outside {shared next shared' next' : State} {stage : Stage Call State Reply}
    {stage' : AtomicStage Call Reply} (same : SameStage shared next stage stage')
    (outside : ∀ call rest, stage ≠ .inside call rest) : SameStage shared' next' stage stage' := by
  cases stage with
  | inside call rest => exact absurd rfl (outside call rest)
  | _ => cases stage' <;> exact same

/-- The stages after one thread has moved on. -/
theorem sameStage_update {shared next : State} {stage : Thread → Stage Call State Reply}
    {stage' : Thread → AtomicStage Call Reply} {thread : Thread} {own : Stage Call State Reply}
    {own' : AtomicStage Call Reply} (here : SameStage shared next own own')
    (others : ∀ other, other ≠ thread → SameStage shared next (stage other) (stage' other))
    (other : Thread) :
    SameStage shared next (Function.update stage thread own other)
      (Function.update stage' thread own' other) := by
  by_cases same : other = thread
  · rw [same, Function.update_self, Function.update_self]
    exact here
  · rw [Function.update_of_ne same, Function.update_of_ne same]
    exact others other same

/-- Who holds the lock after one thread has moved on. -/
theorem holder_update {stage : Thread → Stage Call State Reply} {thread : Thread}
    {own : Stage Call State Reply} {holder : Option Thread}
    (here : holder = some thread ↔ ∃ call rest, own = .inside call rest)
    (others : ∀ other, other ≠ thread →
      (holder = some other ↔ ∃ call rest, stage other = .inside call rest)) (other : Thread) :
    holder = some other ↔
      ∃ call rest, Function.update stage thread own other = .inside call rest := by
  by_cases same : other = thread
  · rw [same, Function.update_self]
    exact here
  · rw [Function.update_of_ne same]
    exact others other same

/-- The stages after one thread has moved on, while the atomic machine waits. -/
theorem sameStage_updateLeft {shared next : State} {stage : Thread → Stage Call State Reply}
    {stage' : Thread → AtomicStage Call Reply} {thread : Thread} {own : Stage Call State Reply}
    (here : SameStage shared next own (stage' thread))
    (others : ∀ other, other ≠ thread → SameStage shared next (stage other) (stage' other))
    (other : Thread) :
    SameStage shared next (Function.update stage thread own other) (stage' other) := by
  have every := sameStage_update here others other
  rw [Function.update_eq_self] at every
  exact every

section Stages

omit [DecidableEq Thread]

/-- Who waits, waits in both machines. -/
theorem Ahead.waiting (ahead : Ahead sound object atomic) {thread : Thread} {asked : Call}
    (waits : object.stage thread = .waiting asked) : atomic.stage thread = .waiting asked := by
  have stage := ahead.stages thread
  rw [waits] at stage
  cases stage' : atomic.stage thread with
  | waiting call =>
      rw [stage'] at stage
      cases stage
      rfl
  | _ => rw [stage'] at stage; exact stage.elim

/-- Who leaves, leaves with the same reply. -/
theorem Ahead.leaving (ahead : Ahead sound object atomic) {thread : Thread} {reply : Reply}
    (leaves : object.stage thread = .leaving reply) : atomic.stage thread = .leaving reply := by
  have stage := ahead.stages thread
  rw [leaves] at stage
  cases stage' : atomic.stage thread with
  | leaving reply' =>
      rw [stage'] at stage
      cases stage
      rfl
  | _ => rw [stage'] at stage; exact stage.elim

/-- Who is idle, is idle in both machines. -/
theorem Ahead.idle (ahead : Ahead sound object atomic) {thread : Thread}
    (idle : object.stage thread = .idle) : atomic.stage thread = .idle := by
  have stage := ahead.stages thread
  rw [idle] at stage
  cases stage' : atomic.stage thread with
  | idle => rfl
  | _ => rw [stage'] at stage; exact stage.elim

/-- Who is inside has left in the atomic machine, with what the rest of the body comes to. -/
theorem Ahead.taken (ahead : Ahead sound object atomic) {thread : Thread} {asked : Call}
    {rest : Body State Reply} (inside : object.stage thread = .inside asked rest) :
    ∃ reply, atomic.stage thread = .leaving reply ∧
      rest.run object.shared = some (reply, atomic.shared) := by
  have stage := ahead.stages thread
  rw [inside] at stage
  cases stage' : atomic.stage thread with
  | leaving reply =>
      rw [stage'] at stage
      exact ⟨reply, rfl, stage⟩
  | _ => rw [stage'] at stage; exact stage.elim

/-- Who is inside holds the lock. -/
theorem Ahead.held (ahead : Ahead sound object atomic) {thread : Thread} {asked : Call}
    {rest : Body State Reply} (inside : object.stage thread = .inside asked rest) :
    object.holder = some thread := (ahead.holder thread).mpr ⟨asked, rest, inside⟩

/-- Two threads are never inside together. -/
theorem Ahead.alone (ahead : Ahead sound object atomic) {thread : Thread} {asked : Call}
    {rest : Body State Reply} (inside : object.stage thread = .inside asked rest) :
    ∀ other, other ≠ thread → ∀ call rest', object.stage other ≠ .inside call rest' := by
  intro other distinct call rest' also
  have held := ahead.held inside
  rw [ahead.held also] at held
  exact distinct (Option.some.inj held)

/-- Who is not inside does not hold the lock. -/
theorem Ahead.holder_iff (ahead : Ahead sound object atomic) {thread : Thread}
    {own : Stage Call State Reply}
    (before : ∀ call rest, object.stage thread ≠ .inside call rest)
    (after : ∀ call rest, own ≠ .inside call rest) :
    object.holder = some thread ↔ ∃ call rest, own = .inside call rest := by
  rw [ahead.holder]
  constructor
  · rintro ⟨call, rest, inside⟩
    exact absurd inside (before call rest)
  · rintro ⟨call, rest, inside⟩
    exact absurd inside (after call rest)

end Stages

/-- The lock is taken: the atomic machine carries the call out. -/
theorem Ahead.acquire (implements : Implements body spec sound) (ahead : Ahead sound object atomic)
    {thread : Thread} {asked : Call} (waits : object.stage thread = .waiting asked)
    (free : object.holder = none) :
    ∃ instant atomic', AtomicStep spec atomic instant atomic' ∧ instant.seen? = none ∧
      Ahead sound
        { object with
          holder := some thread
          stage := Function.update object.stage thread (.inside asked (body asked)) } atomic' := by
  rcases implements.answers atomic.shared asked ahead.sound with ⟨reply, last, answers, sound'⟩
  have outside : ∀ other call rest, object.stage other ≠ .inside call rest := by
    intro other call rest inside
    rw [ahead.held inside] at free
    cases free
  refine ⟨_, _, .take (ahead.waiting waits) answers, rfl, sound', (fun taken => by cases taken),
    ?_, ?_⟩
  · refine sameStage_update ?_ fun other _ => (ahead.stages other).outside (outside other)
    change (body asked).run object.shared = some (reply, last)
    rw [ahead.free free, implements.run _ _ ahead.sound, answers]
  · refine holder_update (iff_of_true rfl ⟨_, _, rfl⟩) fun other distinct => iff_of_false ?_ ?_
    · exact fun same => distinct (Option.some.inj same).symm
    · rintro ⟨call, rest, inside⟩
      exact outside other call rest inside

/-- A step of the body: the atomic machine is ahead by one step less. -/
theorem Ahead.act (ahead : Ahead sound object atomic) {thread : Thread} {asked : Call}
    {write : State → State} {rest : State → Body State Reply}
    (works : object.stage thread = .inside asked (.act write rest)) :
    Ahead sound
      { object with
        shared := write object.shared
        stage := Function.update object.stage thread (.inside asked (rest (write object.shared))) }
      atomic := by
  have held := ahead.held works
  rcases ahead.taken works with ⟨reply, leaves, runs⟩
  refine ⟨ahead.sound, fun free => ?_, ?_, ?_⟩
  · rw [show object.holder = none from free] at held
    cases held
  · refine sameStage_updateLeft ?_ fun other distinct =>
      (ahead.stages other).outside (ahead.alone works other distinct)
    rw [leaves]
    exact runs
  · exact holder_update (iff_of_true held ⟨_, _, rfl⟩) fun other _ => ahead.holder other

/-- The lock is given back: the two machines hold the same object. -/
theorem Ahead.release (ahead : Ahead sound object atomic) {thread : Thread} {asked : Call}
    {reply : Reply} (finished : object.stage thread = .inside asked (.done reply)) :
    Ahead sound
      { object with
        holder := none
        stage := Function.update object.stage thread (.leaving reply) } atomic := by
  rcases ahead.taken finished with ⟨reply', leaves, runs⟩
  have same := Prod.mk.inj (Option.some.inj runs)
  refine ⟨ahead.sound, fun _ => same.2, ?_, ?_⟩
  · refine sameStage_updateLeft ?_ fun other _ => ahead.stages other
    rw [leaves]
    exact same.1
  · refine holder_update (iff_of_false (by simp) (by simp)) fun other distinct =>
      iff_of_false (by simp) ?_
    rintro ⟨call, rest, inside⟩
    exact ahead.alone finished other distinct call rest inside

/-- What a move of a thread is to the atomic machine: nothing, or an instant that is seen alike. -/
def Matched (spec : State → Call → Option (Reply × State)) (sound : State → Prop)
    (atomic : Atomic Thread Call State Reply) (move : Move Thread Call Reply)
    (next : Guarded Thread Call State Reply) : Prop :=
  move.seen? = none ∧ Ahead sound next atomic ∨
    ∃ instant atomic', AtomicStep spec atomic instant atomic' ∧ instant.seen? = move.seen? ∧
      Ahead sound next atomic'

/-- The atomic machine keeps up. -/
theorem Ahead.step (implements : Implements body spec sound) (ahead : Ahead sound object atomic)
    (step : GuardedStep body object move next) : Matched spec sound atomic move next := by
  cases step with
  | @call thread asked idle =>
      refine Or.inr ⟨_, _, .call asked (ahead.idle idle), rfl, ahead.sound, ahead.free, ?_, ?_⟩
      · exact sameStage_update (show asked = asked from rfl) fun other _ => ahead.stages other
      · exact holder_update (ahead.holder_iff (by simp [idle]) (by simp)) fun other _ =>
          ahead.holder other
  | acquire waits free => exact Or.inr (ahead.acquire implements waits free)
  | act works => exact Or.inl ⟨rfl, ahead.act works⟩
  | release finished => exact Or.inl ⟨rfl, ahead.release finished⟩
  | raise failed =>
      rcases ahead.taken failed with ⟨reply, _, runs⟩
      cases runs
  | @leave thread reply leaves =>
      refine Or.inr ⟨_, _, .leave (ahead.leaving leaves), rfl, ahead.sound, ahead.free, ?_, ?_⟩
      · exact sameStage_update trivial fun other _ => ahead.stages other
      · exact holder_update (ahead.holder_iff (by simp [leaves]) (by simp)) fun other _ =>
          ahead.holder other

/-- **Linearisation.** Whatever the threads do, they see what they would see of an object whose
calls take an instant, some time between the call and the return. -/
theorem linearised {initial : State} (implements : Implements body spec sound)
    (begins : sound initial) {moves : List (Move Thread Call Reply)}
    (run : (lockedMachine body initial).Run moves object) :
    ∃ instants atomic, (atomicMachine spec initial).Run instants atomic ∧
      instants.filterMap Instant.seen? = moves.filterMap Move.seen? ∧
      Ahead sound object atomic := by
  induction run with
  | start starts =>
      cases starts
      exact ⟨[], _, .start rfl, rfl, begins, fun _ => rfl, fun _ => trivial,
        fun _ => by simp⟩
  | concat _ step ih =>
      rcases ih with ⟨instants, atomic, run, seen, ahead⟩
      rcases ahead.step implements step with
        ⟨unseen, ahead⟩ | ⟨instant, atomic', taken, same, ahead⟩
      · refine ⟨instants, atomic, run, ?_, ahead⟩
        rw [filterMap_concat, unseen, Option.toList_none, List.append_nil, seen]
      · refine ⟨instants ++ [instant], atomic', run.concat taken, ?_, ahead⟩
        rw [filterMap_concat, filterMap_concat, same, seen]

/-- No call raises. -/
theorem never_raises {initial : State} (implements : Implements body spec sound)
    (begins : sound initial) {moves : List (Move Thread Call Reply)}
    (run : (lockedMachine body initial).Run moves object) (thread : Thread) :
    Move.raise thread ∉ moves := by
  induction run with
  | start _ => simp
  | concat run step ih =>
      rw [List.mem_append, List.mem_singleton]
      rintro (earlier | rfl)
      · exact ih earlier
      · cases step with
        | raise failed =>
            rcases linearised implements begins run with ⟨_, _, _, _, ahead⟩
            rcases ahead.taken failed with ⟨_, _, runs⟩
            cases runs

/-- Who is inside took the lock at some place of the run, while nobody had it, and nobody since;
and has still to do what makes of the object now what the whole body makes of the object then. -/
theorem entered {initial : State} (implements : Implements body spec sound)
    (begins : sound initial) {moves : List (Move Thread Call Reply)}
    (run : (lockedMachine body initial).Run moves object) {thread : Thread} {asked : Call}
    {rest : Body State Reply} (inside : object.stage thread = .inside asked rest) :
    ∃ earlier between held, moves = earlier ++ .acquire thread :: between ∧
      (∀ other, .acquire other ∉ between) ∧
      (lockedMachine body initial).Run earlier held ∧ held.holder = none ∧
      rest.run object.shared = (body asked).run held.shared := by
  induction run generalizing rest with
  | start starts =>
      cases starts
      cases inside
  | @concat moves object next move run step ih =>
      have before {rest : Body State Reply} (was : object.stage thread = .inside asked rest)
          (working : ∀ other, move ≠ .acquire other) :
          ∃ earlier between held, moves ++ [move] = earlier ++ .acquire thread :: between ∧
            (∀ other, .acquire other ∉ between) ∧
            (lockedMachine body initial).Run earlier held ∧ held.holder = none ∧
            rest.run object.shared = (body asked).run held.shared := by
        rcases ih was with ⟨earlier, between, held, rfl, alone, ran, free, same⟩
        refine ⟨earlier, between ++ [move], held, by simp, ?_, ran, free, same⟩
        intro other present
        rcases List.mem_append.mp present with old | last
        · exact alone other old
        · exact working other (List.mem_singleton.mp last).symm
      have elsewhere {actor : Thread} {own : Stage Call State Reply}
          (outside : ∀ call rest, own ≠ .inside call rest)
          (now : Function.update object.stage actor own thread = .inside asked rest) :
          object.stage thread = .inside asked rest := by
        by_cases same : thread = actor
        · rw [same, Function.update_self] at now
          exact absurd now (outside asked rest)
        · rwa [Function.update_of_ne same] at now
      cases step with
      | call asked idle => exact before (elsewhere (by simp) inside) (by simp)
      | @acquire actor call waits free =>
          dsimp only at inside
          by_cases same : thread = actor
          · rw [same, Function.update_self] at inside
            cases inside
            exact ⟨moves, [], object, by rw [same], by simp, run, free, rfl⟩
          · rw [Function.update_of_ne same] at inside
            rcases linearised implements begins run with ⟨_, _, _, _, ahead⟩
            rw [ahead.held inside] at free
            cases free
      | @act actor call write rest' works =>
          dsimp only at inside
          by_cases same : thread = actor
          · rw [same, Function.update_self] at inside
            cases inside
            exact before (same ▸ works) (by simp)
          · rw [Function.update_of_ne same] at inside
            rcases linearised implements begins run with ⟨_, _, _, _, ahead⟩
            exact absurd inside (ahead.alone works thread same asked rest)
      | release finished => exact before (elsewhere (by simp) inside) (by simp)
      | raise failed => exact before (elsewhere (by simp) inside) (by simp)
      | leave leaves => exact before (elsewhere (by simp) inside) (by simp)

/-- A call that is not over can go on, unless another thread is inside, and that one can. -/
theorem Ahead.progress (ahead : Ahead sound object atomic)
    {thread : Thread} (busy : object.stage thread ≠ .idle) :
    ∃ move next, GuardedStep body object move next ∧ ∀ asker call, move ≠ .call asker call := by
  have inside : ∀ other call rest, object.stage other = .inside call rest →
      ∃ move next, GuardedStep body object move next ∧ ∀ asker call, move ≠ .call asker call := by
    intro other call rest works
    cases rest with
    | done reply => exact ⟨_, _, .release works, fun _ _ equal => by cases equal⟩
    | fail => exact ⟨_, _, .raise works, fun _ _ equal => by cases equal⟩
    | act write rest => exact ⟨_, _, .act works, fun _ _ equal => by cases equal⟩
  cases stage : object.stage thread with
  | idle => exact absurd stage busy
  | waiting call =>
      cases held : object.holder with
      | none => exact ⟨_, _, .acquire stage held, fun _ _ equal => by cases equal⟩
      | some other =>
          rcases (ahead.holder other).mp held with ⟨call, rest, works⟩
          exact inside other call rest works
  | inside call rest => exact inside thread call rest stage
  | leaving reply => exact ⟨_, _, .leave stage, fun _ _ equal => by cases equal⟩

end Linearisation

end Machines

end Locked
