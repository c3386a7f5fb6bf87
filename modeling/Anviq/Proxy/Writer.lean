import Anviq.Proxy.Eventlog
import Mathlib.Data.Finset.Basic

/-! # The writer of the event log, step by step

`Enqueue` and `Close` are called from any number of goroutines while the writer goroutine
drains the channel. Here every access to what they share is a step of its own: the lock, the
flag, the channel, the count of drops. The calls and the writer goroutine take their steps in
any order. A panic stops everything.
-/

namespace Proxy

/-- `record`. -/
abbrev LogRecord := String × Event

/-- How far a call of `Enqueue` has come. It returns when it lets go of the lock. -/
inductive EnqueueStage where
  | locking
  | checking
  | sending
  | counting
  | returning (sent : Bool)
  | returned (sent : Bool)

/-- How far a call of `Close` has come. -/
inductive CloseStage (Error : Type) where
  | locking
  | testing
  | closing
  | unlocking
  | waiting
  | returned (error : Option Error)

/-- A call: not made yet, or one of `Enqueue` or `Close`. -/
inductive WriterCall (Error : Type) where
  | idle
  | enqueue (record : LogRecord) (stage : EnqueueStage)
  | close (stage : CloseStage Error)

/-- How far `run` has come. -/
inductive WriterLoop where
  | receiving
  | writing (record : LogRecord)
  | finishing
  | finished

/-- What the disk and `json.Marshal` answer. -/
structure Disk (Error : Type) where
  opens : String → Bool
  marshals : Event → Bool
  writes : Bool
  closes : String → Option Error

/-- `Writer`, with the calls and the writer goroutine. `accepted`, `taken`, `counted` and
`failures` are history: the records sent and the calls that sent them, the records received, the
calls of `Enqueue` that have counted a drop, and the drops counted by `run`. -/
structure SharedWriter (Call Error : Type) where
  capacity : Nat
  readers : Finset Call := ∅
  writer : Option Call := none
  closed : Bool := false
  closeErr : Option Error := none
  channel : List LogRecord := []
  channelClosed : Bool := false
  done : Bool := false
  drops : Nat := 0
  files : List String := []
  calls : Call → WriterCall Error := fun _ => .idle
  loop : WriterLoop := .receiving
  panicked : Bool := false
  accepted : List (Call × LogRecord) := []
  taken : List LogRecord := []
  counted : List Call := []
  failures : Nat := 0

variable {Call Error : Type} [DecidableEq Call]

namespace SharedWriter

/-- `NewWriter`. -/
def new (capacity : Int) : SharedWriter Call Error where
  capacity := if capacity ≤ 0 then 4096 else capacity.toNat

/-- A call has come further. -/
def moved (state : SharedWriter Call Error) (call : Call) (stage : WriterCall Error) :
    SharedWriter Call Error :=
  { state with calls := Function.update state.calls call stage }

/-- The next step of a call of `Enqueue`. -/
def enqueueStep (state : SharedWriter Call Error) (call : Call) (record : LogRecord) :
    EnqueueStage → Option (SharedWriter Call Error)
  | .locking =>
      if state.writer = none then
        some ({ state with readers := insert call state.readers }.moved call
          (.enqueue record .checking))
      else none
  | .checking =>
      if state.closed ∨ validSessionId record.1 = false then
        some (state.moved call (.enqueue record .counting))
      else some (state.moved call (.enqueue record .sending))
  | .sending =>
      if state.channelClosed then some { state with panicked := true }
      else if state.channel.length < state.capacity then
        some ({ state with
          channel := state.channel ++ [record]
          accepted := state.accepted ++ [(call, record)] }.moved call
            (.enqueue record (.returning true)))
      else some (state.moved call (.enqueue record .counting))
  | .counting =>
      some ({ state with drops := state.drops + 1, counted := state.counted ++ [call] }.moved call
        (.enqueue record (.returning false)))
  | .returning sent =>
      some ({ state with readers := state.readers.erase call }.moved call
        (.enqueue record (.returned sent)))
  | .returned _ => none

/-- The next step of a call of `Close`. -/
def closeStep (state : SharedWriter Call Error) (call : Call) :
    CloseStage Error → Option (SharedWriter Call Error)
  | .locking =>
      if state.writer = none ∧ state.readers = ∅ then
        some ({ state with writer := some call }.moved call (.close .testing))
      else none
  | .testing =>
      if state.closed then some (state.moved call (.close .unlocking))
      else some ({ state with closed := true }.moved call (.close .closing))
  | .closing =>
      if state.channelClosed then some { state with panicked := true }
      else some ({ state with channelClosed := true }.moved call (.close .unlocking))
  | .unlocking => some ({ state with writer := none }.moved call (.close .waiting))
  | .waiting =>
      if state.done then some (state.moved call (.close (.returned state.closeErr))) else none
  | .returned _ => none

/-- `fileFor`: the open files, and whether there is one for the session. -/
def fileFor (disk : Disk Error) (files : List String) (sessionId : String) : List String × Bool :=
  if sessionId ∈ files then (files, true)
  else if validSessionId sessionId = false then (files, false)
  else if disk.opens sessionId then (files ++ [sessionId], true)
  else (files, false)

/-- The body of the loop of `run`: the open files, and whether the record was written. -/
def write (disk : Disk Error) (files : List String) (record : LogRecord) : List String × Bool :=
  let (files, opened) := fileFor disk files record.1
  (files, opened && disk.marshals record.2 && disk.writes)

/-- The next step of `run`, which is over when the channel is closed and empty. -/
def loopStep (state : SharedWriter Call Error) (disk : Disk Error) :
    WriterLoop → Option (SharedWriter Call Error)
  | .receiving =>
      match state.channel with
      | record :: rest =>
          some { state with
            channel := rest, loop := .writing record, taken := state.taken ++ [record] }
      | [] => if state.channelClosed then some { state with loop := .finishing } else none
  | .writing record =>
      let (files, written) := write disk state.files record
      if written then some { state with files, loop := .receiving }
      else
        some { state with
          files, loop := .receiving, drops := state.drops + 1, failures := state.failures + 1 }
  | .finishing =>
      some { state with
        closeErr := state.files.findSome? disk.closes, done := true, loop := .finished }
  | .finished => none

end SharedWriter

/-- What happens next: a call is made, or takes a step, or the writer goroutine does. -/
inductive WriterEvent (Call Error : Type) where
  | enqueue (call : Call) (record : LogRecord)
  | close (call : Call)
  | advance (call : Call)
  | run (disk : Disk Error)

/-- One step. -/
def SharedWriter.handle (state : SharedWriter Call Error) (event : WriterEvent Call Error) :
    Option (SharedWriter Call Error) :=
  if state.panicked then none
  else
    match event with
    | .enqueue call record =>
        match state.calls call with
        | .idle => some (state.moved call (.enqueue record .locking))
        | _ => none
    | .close call =>
        match state.calls call with
        | .idle => some (state.moved call (.close .locking))
        | _ => none
    | .advance call =>
        match state.calls call with
        | .idle => none
        | .enqueue record stage => state.enqueueStep call record stage
        | .close stage => state.closeStep call stage
    | .run disk => state.loopStep disk state.loop

/-- Calls and the writer goroutine in any order. -/
def writerMachine (Call Error : Type) [DecidableEq Call] (capacity : Int) :
    Machine (SharedWriter Call Error) (WriterEvent Call Error) where
  start state := state = .new capacity
  step state event next := state.handle event = some next

/-! ## What a step can do -/

/-- The next step of a call, with what it has found. -/
inductive CallStep (state : SharedWriter Call Error) (call : Call) :
    WriterCall Error → SharedWriter Call Error → Prop
  | callEnqueue {record : LogRecord} :
      CallStep state call .idle (state.moved call (.enqueue record .locking))
  | callClose : CallStep state call .idle (state.moved call (.close .locking))
  | readLock {record : LogRecord} (free : state.writer = none) :
      CallStep state call (.enqueue record .locking)
        ({ state with readers := insert call state.readers }.moved call (.enqueue record .checking))
  | refuse {record : LogRecord} :
      CallStep state call (.enqueue record .checking) (state.moved call (.enqueue record .counting))
  | letIn {record : LogRecord} (opened : state.closed = false) :
      CallStep state call (.enqueue record .checking) (state.moved call (.enqueue record .sending))
  | sendPanics {record : LogRecord} (shut : state.channelClosed = true) :
      CallStep state call (.enqueue record .sending) { state with panicked := true }
  | send {record : LogRecord} (opened : state.channelClosed = false) :
      CallStep state call (.enqueue record .sending)
        ({ state with
          channel := state.channel ++ [record]
          accepted := state.accepted ++ [(call, record)] }.moved call
            (.enqueue record (.returning true)))
  | overflow {record : LogRecord} :
      CallStep state call (.enqueue record .sending) (state.moved call (.enqueue record .counting))
  | count {record : LogRecord} :
      CallStep state call (.enqueue record .counting)
        ({ state with drops := state.drops + 1, counted := state.counted ++ [call] }.moved call
          (.enqueue record (.returning false)))
  | readUnlock {record : LogRecord} {sent : Bool} :
      CallStep state call (.enqueue record (.returning sent))
        ({ state with readers := state.readers.erase call }.moved call
          (.enqueue record (.returned sent)))
  | lock (free : state.writer = none) (unread : state.readers = ∅) :
      CallStep state call (.close .locking)
        ({ state with writer := some call }.moved call (.close .testing))
  | again (closed : state.closed = true) :
      CallStep state call (.close .testing) (state.moved call (.close .unlocking))
  | shut (opened : state.closed = false) :
      CallStep state call (.close .testing)
        ({ state with closed := true }.moved call (.close .closing))
  | closePanics (shut : state.channelClosed = true) :
      CallStep state call (.close .closing) { state with panicked := true }
  | close (opened : state.channelClosed = false) :
      CallStep state call (.close .closing)
        ({ state with channelClosed := true }.moved call (.close .unlocking))
  | unlock :
      CallStep state call (.close .unlocking)
        ({ state with writer := none }.moved call (.close .waiting))
  | wake (done : state.done = true) :
      CallStep state call (.close .waiting)
        (state.moved call (.close (.returned state.closeErr)))

/-- The next step of the writer goroutine, with what it has found. -/
inductive LoopStep (state : SharedWriter Call Error) : SharedWriter Call Error → Prop
  | take {record : LogRecord} {rest : List LogRecord} (receiving : state.loop = .receiving)
      (queued : state.channel = record :: rest) :
      LoopStep state { state with
        channel := rest, loop := .writing record, taken := state.taken ++ [record] }
  | drained (receiving : state.loop = .receiving) (empty : state.channel = [])
      (shut : state.channelClosed = true) : LoopStep state { state with loop := .finishing }
  | wrote {record : LogRecord} {files : List String} (writing : state.loop = .writing record) :
      LoopStep state { state with files, loop := .receiving }
  | failed {record : LogRecord} {files : List String} (writing : state.loop = .writing record) :
      LoopStep state { state with
        files, loop := .receiving, drops := state.drops + 1, failures := state.failures + 1 }
  | finish {error : Option Error} (finishing : state.loop = .finishing) :
      LoopStep state { state with closeErr := error, done := true, loop := .finished }

variable {state next : SharedWriter Call Error} {call : Call}

theorem callStep_of_enqueue {record : LogRecord} {stage : EnqueueStage}
    (stepped : state.enqueueStep call record stage = some next) :
    CallStep state call (.enqueue record stage) next := by
  unfold SharedWriter.enqueueStep at stepped
  cases stage with
  | locking =>
      dsimp only at stepped
      split at stepped
      · next free => exact Option.some.inj stepped ▸ .readLock free
      · cases stepped
  | checking =>
      dsimp only at stepped
      split at stepped
      · exact Option.some.inj stepped ▸ .refuse
      · next passed =>
          rw [not_or, Bool.not_eq_true] at passed
          exact Option.some.inj stepped ▸ .letIn passed.1
  | sending =>
      dsimp only at stepped
      split at stepped
      · next shut => exact Option.some.inj stepped ▸ .sendPanics shut
      · next opened =>
          split at stepped
          · exact Option.some.inj stepped ▸ .send (Bool.eq_false_iff.mpr opened)
          · exact Option.some.inj stepped ▸ .overflow
  | counting => exact Option.some.inj stepped ▸ .count
  | returning sent => exact Option.some.inj stepped ▸ .readUnlock
  | returned sent => cases stepped

theorem callStep_of_close {stage : CloseStage Error}
    (stepped : state.closeStep call stage = some next) :
    CallStep state call (.close stage) next := by
  unfold SharedWriter.closeStep at stepped
  cases stage with
  | locking =>
      dsimp only at stepped
      split at stepped
      · next free => exact Option.some.inj stepped ▸ .lock free.1 free.2
      · cases stepped
  | testing =>
      dsimp only at stepped
      split at stepped
      · next closed => exact Option.some.inj stepped ▸ .again closed
      · next opened => exact Option.some.inj stepped ▸ .shut (Bool.eq_false_iff.mpr opened)
  | closing =>
      dsimp only at stepped
      split at stepped
      · next shut => exact Option.some.inj stepped ▸ .closePanics shut
      · next opened => exact Option.some.inj stepped ▸ .close (Bool.eq_false_iff.mpr opened)
  | unlocking => exact Option.some.inj stepped ▸ .unlock
  | waiting =>
      dsimp only at stepped
      split at stepped
      · next done => exact Option.some.inj stepped ▸ .wake done
      · cases stepped
  | returned error => cases stepped

omit [DecidableEq Call] in
theorem loopStep_of_run {disk : Disk Error} (stepped : state.loopStep disk state.loop = some next) :
    LoopStep state next := by
  unfold SharedWriter.loopStep at stepped
  cases loop : state.loop with
  | receiving =>
      simp only [loop] at stepped
      split at stepped
      · next record rest queued => exact Option.some.inj stepped ▸ .take loop queued
      · next empty =>
          split at stepped
          · next shut => exact Option.some.inj stepped ▸ .drained loop empty shut
          · cases stepped
  | writing record =>
      simp only [loop] at stepped
      split at stepped
      · exact Option.some.inj stepped ▸ .wrote loop
      · exact Option.some.inj stepped ▸ .failed loop
  | finishing =>
      simp only [loop] at stepped
      exact Option.some.inj stepped ▸ .finish loop
  | finished =>
      simp only [loop] at stepped
      cases stepped

/-- A step is one of a call or of the writer goroutine. -/
theorem handle_cases {event : WriterEvent Call Error} (stepped : state.handle event = some next) :
    (∃ call, CallStep state call (state.calls call) next) ∨ LoopStep state next := by
  unfold SharedWriter.handle at stepped
  split at stepped
  · cases stepped
  · cases event with
    | enqueue call record =>
        dsimp only at stepped
        split at stepped
        · next idle => exact Or.inl ⟨call, idle ▸ Option.some.inj stepped ▸ .callEnqueue⟩
        · cases stepped
    | close call =>
        dsimp only at stepped
        split at stepped
        · next idle => exact Or.inl ⟨call, idle ▸ Option.some.inj stepped ▸ .callClose⟩
        · cases stepped
    | advance call =>
        dsimp only at stepped
        split at stepped
        · cases stepped
        · next record stage held => exact Or.inl ⟨call, held ▸ callStep_of_enqueue stepped⟩
        · next stage held => exact Or.inl ⟨call, held ▸ callStep_of_close stepped⟩
    | run disk => exact Or.inr (loopStep_of_run stepped)

/-! ## The lock -/

namespace WriterCall

/-- The call holds the lock for reading. -/
def reads : WriterCall Error → Bool
  | enqueue _ .checking | enqueue _ .sending | enqueue _ .counting | enqueue _ (.returning _) => true
  | _ => false

/-- The call holds the lock for writing. -/
def locks : WriterCall Error → Bool
  | close .testing | close .closing | close .unlocking => true
  | _ => false

end WriterCall

/-- What holds of the stage a call has come to, and of the stages of the others. -/
theorem forall_update {calls : Call → WriterCall Error} {stage : WriterCall Error}
    {P : Call → WriterCall Error → Prop} (here : P call stage)
    (others : ∀ other, other ≠ call → P other (calls other)) (other : Call) :
    P other (Function.update calls call stage other) :=
  (Function.forall_update_iff calls P).mpr ⟨here, others⟩ other

/-- Who holds the lock: any number of readers, or one writer. -/
structure Locked (readers : Finset Call) (writer : Option Call) (calls : Call → WriterCall Error) :
    Prop where
  reading : ∀ call, call ∈ readers ↔ (calls call).reads = true
  writing : ∀ call, writer = some call ↔ (calls call).locks = true
  exclusive : writer ≠ none → readers = ∅

namespace Locked

variable {readers : Finset Call} {writer : Option Call} {calls : Call → WriterCall Error}
  {stage : WriterCall Error}

/-- A call neither takes nor lets go of the lock. -/
theorem update (locked : Locked readers writer calls) (reads : stage.reads = (calls call).reads)
    (locks : stage.locks = (calls call).locks) :
    Locked readers writer (Function.update calls call stage) where
  reading :=
    forall_update (P := fun other value => other ∈ readers ↔ value.reads = true)
      (reads ▸ locked.reading call) fun other _ => locked.reading other
  writing :=
    forall_update (P := fun other value => writer = some other ↔ value.locks = true)
      (locks ▸ locked.writing call) fun other _ => locked.writing other
  exclusive := locked.exclusive

/-- `RLock`. -/
theorem readLock (locked : Locked readers writer calls) (free : writer = none)
    (reads : stage.reads = true) (locks : stage.locks = false) :
    Locked (insert call readers) writer (Function.update calls call stage) where
  reading :=
    forall_update (P := fun other value => other ∈ insert call readers ↔ value.reads = true)
      (by simp [reads]) fun other apart => by
        rw [Finset.mem_insert, or_iff_right apart]
        exact locked.reading other
  writing :=
    forall_update (P := fun other value => writer = some other ↔ value.locks = true)
      (by simp [free, locks]) fun other _ => locked.writing other
  exclusive taken := absurd free taken

/-- `RUnlock`. -/
theorem readUnlock (locked : Locked readers writer calls) (reads : stage.reads = false)
    (locks : stage.locks = (calls call).locks) :
    Locked (readers.erase call) writer (Function.update calls call stage) where
  reading :=
    forall_update (P := fun other value => other ∈ readers.erase call ↔ value.reads = true)
      (by simp [reads]) fun other apart => by
        rw [Finset.mem_erase, and_iff_right apart]
        exact locked.reading other
  writing :=
    forall_update (P := fun other value => writer = some other ↔ value.locks = true)
      (locks ▸ locked.writing call) fun other _ => locked.writing other
  exclusive taken := by
    rw [locked.exclusive taken]
    rfl

/-- `Lock`. -/
theorem lock (locked : Locked readers writer calls) (free : writer = none) (unread : readers = ∅)
    (reads : stage.reads = (calls call).reads) (locks : stage.locks = true) :
    Locked readers (some call) (Function.update calls call stage) where
  reading :=
    forall_update (P := fun other value => other ∈ readers ↔ value.reads = true)
      (reads ▸ locked.reading call) fun other _ => locked.reading other
  writing :=
    forall_update (P := fun other value => some call = some other ↔ value.locks = true)
      (by simp [locks]) fun other apart => by
        rw [← locked.writing other, free, Option.some_inj]
        exact iff_of_false apart.symm (by simp)
  exclusive _ := unread

/-- `Unlock`. -/
theorem unlock (locked : Locked readers writer calls) (held : (calls call).locks = true)
    (reads : stage.reads = (calls call).reads) (locks : stage.locks = false) :
    Locked readers none (Function.update calls call stage) where
  reading :=
    forall_update (P := fun other value => other ∈ readers ↔ value.reads = true)
      (reads ▸ locked.reading call) fun other _ => locked.reading other
  writing :=
    forall_update (P := fun other value => none = some other ↔ value.locks = true)
      (by simp [locks]) fun other apart => by
        rw [← locked.writing other, (locked.writing call).mpr held, Option.some_inj]
        exact iff_of_false (by simp) apart.symm
  exclusive taken := absurd rfl taken

end Locked

theorem locked_callStep {stage : WriterCall Error}
    (locked : Locked state.readers state.writer state.calls) (held : state.calls call = stage)
    (step : CallStep state call stage next) : Locked next.readers next.writer next.calls := by
  cases step with
  | readLock free => exact locked.readLock free rfl rfl
  | readUnlock => exact locked.readUnlock rfl (by rw [held]; rfl)
  | lock free unread => exact locked.lock free unread (by rw [held]; rfl) rfl
  | unlock => exact locked.unlock (by rw [held]; rfl) (by rw [held]; rfl) rfl
  | sendPanics => exact locked
  | closePanics => exact locked
  | _ => exact locked.update (by rw [held]; rfl) (by rw [held]; rfl)

/-! ## The flag and the channel -/

namespace WriterCall

/-- The call has passed the check, and may send. -/
def sends : WriterCall Error → Bool
  | enqueue _ .sending | enqueue _ (.returning true) => true
  | _ => false

/-- The call has set the flag, and will close the channel. -/
def shuts : WriterCall Error → Bool
  | close .closing => true
  | _ => false

/-- The channel was closed, by the call or before it. -/
def past : WriterCall Error → Bool
  | close .unlocking | close .waiting | close (.returned _) => true
  | _ => false

theorem reads_of_sends {stage : WriterCall Error} (sends : stage.sends = true) :
    stage.reads = true := by
  cases stage with
  | enqueue record stage =>
      cases stage with
      | sending => rfl
      | returning sent => rfl
      | _ => cases sends
  | _ => cases sends

theorem locks_of_shuts {stage : WriterCall Error} (shuts : stage.shuts = true) :
    stage.locks = true := by
  cases stage with
  | close stage =>
      cases stage with
      | closing => rfl
      | _ => cases shuts
  | _ => cases shuts

end WriterCall

/-- Once the flag is set no call may send; the channel is closed after it, by the call that set
the flag. -/
structure Shutting (closed channelClosed : Bool) (calls : Call → WriterCall Error) : Prop where
  stopped : closed = true → ∀ call, (calls call).sends = false
  shutting : ∀ call, (calls call).shuts = true → closed = true ∧ channelClosed = false
  flagged : channelClosed = true → closed = true
  passed : ∀ call, (calls call).past = true → channelClosed = true
  pending : closed = true → channelClosed = true ∨ ∃ call, (calls call).shuts = true

namespace Shutting

variable {closed channelClosed : Bool} {calls : Call → WriterCall Error}
  {stage : WriterCall Error}

theorem update (shutting : Shutting closed channelClosed calls)
    (sends : stage.sends = true → closed = false) (shuts : stage.shuts = (calls call).shuts)
    (past : stage.past = true → channelClosed = true) :
    Shutting closed channelClosed (Function.update calls call stage) where
  stopped set :=
    forall_update (P := fun _ value => value.sends = false)
      (by
        cases may : stage.sends with
        | false => rfl
        | true =>
            rw [sends may] at set
            cases set) fun other _ => shutting.stopped set other
  shutting :=
    forall_update (P := fun _ value => value.shuts = true → closed = true ∧ channelClosed = false)
      (shuts ▸ shutting.shutting call) fun other _ => shutting.shutting other
  flagged := shutting.flagged
  passed :=
    forall_update (P := fun _ value => value.past = true → channelClosed = true)
      past fun other _ => shutting.passed other
  pending set := by
    refine (shutting.pending set).imp_right ?_
    intro found
    obtain ⟨other, found⟩ := found
    refine ⟨other, ?_⟩
    by_cases same : other = call
    · rw [same, Function.update_self, shuts, ← same, found]
    · rw [Function.update_of_ne same, found]

/-- `Close` sets the flag: no call has passed the check. -/
theorem shut (shutting : Shutting closed channelClosed calls) (opened : closed = false)
    (unread : ∀ other, (calls other).reads = false) (sends : stage.sends = false)
    (past : stage.past = false) (shuts : stage.shuts = true) :
    Shutting true channelClosed (Function.update calls call stage) := by
  have channelOpen : channelClosed = false := by
    cases shut : channelClosed with
    | false => rfl
    | true => exact absurd (shutting.flagged shut) (by simp [opened])
  constructor
  case stopped =>
    intro _
    refine forall_update (P := fun _ value => value.sends = false) sends ?_
    intro other _
    cases may : (calls other).sends with
    | false => rfl
    | true => exact absurd (WriterCall.reads_of_sends may) (by simp [unread other])
  case shutting => exact fun _ _ => ⟨rfl, channelOpen⟩
  case flagged => exact fun _ => rfl
  case passed =>
    refine forall_update (P := fun _ value => value.past = true → channelClosed = true) ?_ ?_
    · intro passed
      rw [past] at passed
      cases passed
    · exact fun other _ => shutting.passed other
  case pending => exact fun _ => Or.inr ⟨call, by rw [Function.update_self, shuts]⟩

/-- `Close` closes the channel, and no other call will. -/
theorem close (shutting : Shutting closed channelClosed calls) (held : (calls call).shuts = true)
    (alone : ∀ other, other ≠ call → (calls other).shuts = false) (sends : stage.sends = false)
    (shuts : stage.shuts = false) : Shutting closed true (Function.update calls call stage) where
  stopped set :=
    forall_update (P := fun _ value => value.sends = false) sends
      fun other _ => shutting.stopped set other
  shutting :=
    forall_update (P := fun _ value => value.shuts = true → closed = true ∧ true = false)
      (by simp [shuts]) fun other apart => by simp [alone other apart]
  flagged _ := (shutting.shutting call held).1
  passed _ _ := rfl
  pending _ := Or.inl rfl

end Shutting

omit [DecidableEq Call] in
/-- No two calls hold the lock for writing. -/
theorem Locked.alone {readers : Finset Call} {writer : Option Call}
    {calls : Call → WriterCall Error} (locked : Locked readers writer calls) {other : Call}
    (holds : (calls call).locks = true) (others : (calls other).locks = true) : other = call := by
  have held := (locked.writing call).mpr holds
  rw [(locked.writing other).mpr others] at held
  exact Option.some.inj held

omit [DecidableEq Call] in
/-- No call reads while another holds the lock for writing. -/
theorem Locked.unread {readers : Finset Call} {writer : Option Call}
    {calls : Call → WriterCall Error} (locked : Locked readers writer calls)
    (holds : (calls call).locks = true) (other : Call) : (calls other).reads = false := by
  have empty := locked.exclusive (by simp [(locked.writing call).mpr holds])
  rw [Bool.eq_false_iff, ne_eq, ← locked.reading other, empty]
  exact Finset.notMem_empty other

theorem shutting_callStep {stage : WriterCall Error}
    (locked : Locked state.readers state.writer state.calls)
    (shutting : Shutting state.closed state.channelClosed state.calls)
    (held : state.calls call = stage) (step : CallStep state call stage next) :
    Shutting next.closed next.channelClosed next.calls := by
  cases step with
  | letIn opened => exact shutting.update (fun _ => opened) (by rw [held]; rfl) (by simp [WriterCall.past])
  | send opened =>
      refine shutting.update (fun _ => ?_) (by rw [held]; rfl) (by simp [WriterCall.past])
      cases set : state.closed with
      | false => rfl
      | true =>
          have stopped := shutting.stopped set call
          rw [held] at stopped
          cases stopped
  | again closed =>
      have holds : (state.calls call).locks = true := by rw [held]; rfl
      refine shutting.update (by simp [WriterCall.sends]) (by rw [held]; rfl) (fun _ => ?_)
      rcases shutting.pending closed with shut | ⟨other, shuts⟩
      · exact shut
      · obtain rfl := locked.alone holds (WriterCall.locks_of_shuts shuts)
        rw [held] at shuts
        cases shuts
  | shut opened =>
      have holds : (state.calls call).locks = true := by rw [held]; rfl
      exact shutting.shut opened (locked.unread holds) rfl rfl rfl
  | close opened =>
      have holds : (state.calls call).locks = true := by rw [held]; rfl
      refine shutting.close (by rw [held]; rfl) (fun other apart => ?_) rfl rfl
      rw [Bool.eq_false_iff]
      intro shuts
      exact apart (locked.alone holds (WriterCall.locks_of_shuts shuts))
  | unlock =>
      refine shutting.update (by simp [WriterCall.sends]) (by rw [held]; rfl) fun _ => ?_
      exact shutting.passed call (by rw [held]; rfl)
  | wake done =>
      refine shutting.update (by simp [WriterCall.sends]) (by rw [held]; rfl) fun _ => ?_
      exact shutting.passed call (by rw [held]; rfl)
  | sendPanics => exact shutting
  | closePanics => exact shutting
  | _ =>
      exact shutting.update (by simp [WriterCall.sends]) (by rw [held]; rfl)
        (by simp [WriterCall.past])

/-- No call sends on the closed channel, or closes it again. -/
theorem calm_callStep {stage : WriterCall Error} (calm : state.panicked = false)
    (shutting : Shutting state.closed state.channelClosed state.calls)
    (held : state.calls call = stage) (step : CallStep state call stage next) :
    next.panicked = false := by
  cases step with
  | sendPanics shut =>
      have stopped := shutting.stopped (shutting.flagged shut) call
      rw [held] at stopped
      cases stopped
  | closePanics shut =>
      have opened := (shutting.shutting call (by rw [held]; rfl)).2
      rw [shut] at opened
      cases opened
  | _ => exact calm

/-! ## The records -/

namespace WriterCall

/-- The record of a call whose result is `true`. -/
def sent : WriterCall Error → Option LogRecord
  | enqueue record (.returning true) | enqueue record (.returned true) => some record
  | _ => none

/-- The result of the call is `false`. -/
def refused : WriterCall Error → Bool
  | enqueue _ (.returning false) | enqueue _ (.returned false) => true
  | _ => false

/-- The call of `Close` has returned. -/
def ended : WriterCall Error → Bool
  | close (.returned _) => true
  | _ => false

end WriterCall

/-- The records sent are those of the calls that accepted them, one each, and are received in
order; each call that refused its record has counted it once. -/
structure Accounted (accepted : List (Call × LogRecord)) (taken channel : List LogRecord)
    (counted : List Call) (drops failures : Nat) (calls : Call → WriterCall Error) : Prop where
  fifo : accepted.map Prod.snd = taken ++ channel
  sent : ∀ call record, (call, record) ∈ accepted ↔ (calls call).sent = some record
  sentOnce : (accepted.map Prod.fst).Nodup
  refused : ∀ call, call ∈ counted ↔ (calls call).refused = true
  refusedOnce : counted.Nodup
  drops : drops = counted.length + failures

namespace Accounted

variable {accepted : List (Call × LogRecord)} {taken channel : List LogRecord}
  {counted : List Call} {drops failures : Nat} {calls : Call → WriterCall Error}
  {stage : WriterCall Error}

theorem update (accounted : Accounted accepted taken channel counted drops failures calls)
    (sent : stage.sent = (calls call).sent) (refused : stage.refused = (calls call).refused) :
    Accounted accepted taken channel counted drops failures (Function.update calls call stage) where
  fifo := accounted.fifo
  sent :=
    forall_update (P := fun other value => ∀ record, (other, record) ∈ accepted ↔
      value.sent = some record) (sent ▸ accounted.sent call) fun other _ => accounted.sent other
  sentOnce := accounted.sentOnce
  refused :=
    forall_update (P := fun other value => other ∈ counted ↔ value.refused = true)
      (refused ▸ accounted.refused call) fun other _ => accounted.refused other
  refusedOnce := accounted.refusedOnce
  drops := accounted.drops

/-- A call that has not accepted a record sends it. -/
theorem send (accounted : Accounted accepted taken channel counted drops failures calls)
    {record : LogRecord} (unsent : (calls call).sent = none)
    (refused : stage.refused = (calls call).refused) (sent : stage.sent = some record) :
    Accounted (accepted ++ [(call, record)]) taken (channel ++ [record]) counted drops failures
      (Function.update calls call stage) := by
  have new : ∀ other, (call, other) ∉ accepted := by
    intro other present
    have before := (accounted.sent call other).mp present
    rw [unsent] at before
    cases before
  constructor
  case fifo =>
    rw [List.map_append, accounted.fifo, List.append_assoc]
    rfl
  case sent =>
    refine forall_update (P := fun other value => ∀ record', (other, record') ∈ accepted ++
      [(call, record)] ↔ value.sent = some record') ?_ ?_
    · intro record'
      rw [List.mem_append, or_iff_right (new record'), sent]
      simp [eq_comm]
    · intro other apart record'
      rw [List.mem_append, ← accounted.sent]
      exact or_iff_left (by simp [apart])
  case sentOnce =>
    rw [List.map_append, List.nodup_append]
    refine ⟨accounted.sentOnce, List.nodup_singleton _, ?_⟩
    intro first among second last same
    obtain ⟨⟨other, record'⟩, present, rfl⟩ := List.mem_map.mp among
    obtain rfl : second = call := List.mem_singleton.mp last
    exact new record' (same ▸ present)
  case refused =>
    exact forall_update (P := fun other value => other ∈ counted ↔ value.refused = true)
      (refused ▸ accounted.refused call) fun other _ => accounted.refused other
  case refusedOnce => exact accounted.refusedOnce
  case drops => exact accounted.drops

/-- A call that has not counted its record counts it. -/
theorem count (accounted : Accounted accepted taken channel counted drops failures calls)
    (new : (calls call).refused = false) (sent : stage.sent = (calls call).sent)
    (refused : stage.refused = true) :
    Accounted accepted taken channel (counted ++ [call]) (drops + 1) failures
      (Function.update calls call stage) := by
  have uncounted : call ∉ counted := by
    rw [accounted.refused call, new]
    exact Bool.false_ne_true
  constructor
  case fifo => exact accounted.fifo
  case sent =>
    exact forall_update (P := fun other value => ∀ record, (other, record) ∈ accepted ↔
      value.sent = some record) (sent ▸ accounted.sent call) fun other _ => accounted.sent other
  case sentOnce => exact accounted.sentOnce
  case refused =>
    refine forall_update (P := fun other value => other ∈ counted ++ [call] ↔
      value.refused = true) (by simp [refused]) ?_
    intro other apart
    rw [List.mem_append, List.mem_singleton, or_iff_left apart]
    exact accounted.refused other
  case refusedOnce =>
    rw [List.nodup_append]
    refine ⟨accounted.refusedOnce, List.nodup_singleton _, ?_⟩
    intro first among second last same
    rw [same, List.mem_singleton.mp last] at among
    exact uncounted among
  case drops =>
    rw [accounted.drops, List.length_append, List.length_singleton]
    omega

end Accounted

/-- What the writer goroutine has left to do. -/
structure Drained (loop : WriterLoop) (channel : List LogRecord) (channelClosed done : Bool)
    (calls : Call → WriterCall Error) : Prop where
  empty : loop = .finishing ∨ loop = .finished → channel = [] ∧ channelClosed = true
  finished : done = true → loop = .finished
  ended : ∀ call, (calls call).ended = true → done = true

theorem Drained.update {loop : WriterLoop} {channel : List LogRecord} {channelClosed done : Bool}
    {calls : Call → WriterCall Error} {stage : WriterCall Error}
    (drained : Drained loop channel channelClosed done calls)
    (ended : stage.ended = true → done = true) :
    Drained loop channel channelClosed done (Function.update calls call stage) where
  empty := drained.empty
  finished := drained.finished
  ended :=
    forall_update (P := fun _ value => value.ended = true → done = true) ended
      fun other _ => drained.ended other

/-- What holds of the writer at every moment. -/
structure SharedWriter.Sound (state : SharedWriter Call Error) : Prop where
  calm : state.panicked = false
  locked : Locked state.readers state.writer state.calls
  shutting : Shutting state.closed state.channelClosed state.calls
  accounted : Accounted state.accepted state.taken state.channel state.counted state.drops
    state.failures state.calls
  drained : Drained state.loop state.channel state.channelClosed state.done state.calls

theorem accounted_callStep {stage : WriterCall Error} (sound : state.Sound)
    (held : state.calls call = stage) (step : CallStep state call stage next) :
    Accounted next.accepted next.taken next.channel next.counted next.drops next.failures
      next.calls := by
  have accounted := sound.accounted
  cases step with
  | send opened => exact accounted.send (by rw [held]; rfl) (by rw [held]; rfl) rfl
  | count => exact accounted.count (by rw [held]; rfl) (by rw [held]; rfl) rfl
  | @readUnlock record sent =>
      cases sent with
      | true => exact accounted.update (by rw [held]; rfl) (by rw [held]; rfl)
      | false => exact accounted.update (by rw [held]; rfl) (by rw [held]; rfl)
  | sendPanics => exact accounted
  | closePanics => exact accounted
  | _ => exact accounted.update (by rw [held]; rfl) (by rw [held]; rfl)

theorem drained_callStep {stage : WriterCall Error} (sound : state.Sound)
    (held : state.calls call = stage) (step : CallStep state call stage next) :
    Drained next.loop next.channel next.channelClosed next.done next.calls := by
  have drained := sound.drained
  cases step with
  | send opened =>
      refine Drained.update ⟨?_, drained.finished, drained.ended⟩ (by simp [WriterCall.ended])
      intro finishing
      have shut := (drained.empty finishing).2
      rw [opened] at shut
      cases shut
  | close opened =>
      refine Drained.update ⟨?_, drained.finished, drained.ended⟩ (by simp [WriterCall.ended])
      exact fun finishing => ⟨(drained.empty finishing).1, rfl⟩
  | wake done => exact drained.update fun _ => done
  | sendPanics => exact drained
  | closePanics => exact drained
  | _ => exact drained.update (by simp [WriterCall.ended])

omit [DecidableEq Call] in
theorem sound_loopStep (sound : state.Sound) (step : LoopStep state next) : next.Sound := by
  have accounted := sound.accounted
  have drained := sound.drained
  have undone : state.loop ≠ .finished → state.done = false := by
    intro unfinished
    rw [Bool.eq_false_iff]
    exact fun done => unfinished (drained.finished done)
  cases step with
  | take receiving queued =>
      refine ⟨sound.calm, sound.locked, sound.shutting, ⟨?_, accounted.sent, accounted.sentOnce,
        accounted.refused, accounted.refusedOnce, accounted.drops⟩, ⟨by simp, ?_, drained.ended⟩⟩
      · rw [accounted.fifo, queued, List.append_assoc, List.singleton_append]
      · simp [undone (by simp [receiving])]
  | drained receiving empty shut =>
      refine ⟨sound.calm, sound.locked, sound.shutting, accounted, ⟨fun _ => ⟨empty, shut⟩, ?_,
        drained.ended⟩⟩
      simp [undone (by simp [receiving])]
  | wrote writing =>
      refine ⟨sound.calm, sound.locked, sound.shutting, accounted, ⟨by simp, ?_, drained.ended⟩⟩
      simp [undone (by simp [writing])]
  | failed writing =>
      refine ⟨sound.calm, sound.locked, sound.shutting, ⟨accounted.fifo, accounted.sent,
        accounted.sentOnce, accounted.refused, accounted.refusedOnce, ?_⟩,
        ⟨by simp, ?_, drained.ended⟩⟩
      · dsimp only
        rw [accounted.drops]
        rfl
      · simp [undone (by simp [writing])]
  | finish finishing =>
      refine ⟨sound.calm, sound.locked, sound.shutting, accounted,
        ⟨fun _ => drained.empty (Or.inl finishing), fun _ => rfl, fun _ _ => rfl⟩⟩

theorem sound_step {event : WriterEvent Call Error} (sound : state.Sound)
    (stepped : state.handle event = some next) : next.Sound := by
  rcases handle_cases stepped with ⟨call, step⟩ | step
  · exact ⟨calm_callStep sound.calm sound.shutting rfl step, locked_callStep sound.locked rfl step,
      shutting_callStep sound.locked sound.shutting rfl step, accounted_callStep sound rfl step,
      drained_callStep sound rfl step⟩
  · exact sound_loopStep sound step

theorem sound_of_reachable {capacity : Int} {state : SharedWriter Call Error}
    (reachable : (writerMachine Call Error capacity).Reachable state) : state.Sound := by
  apply reachable.invariant
  · intro state starts
    rw [show state = .new capacity from starts]
    refine ⟨rfl, ⟨?_, ?_, ?_⟩, ⟨?_, ?_, ?_, ?_, ?_⟩, ⟨rfl, ?_, List.nodup_nil, ?_, List.nodup_nil,
      rfl⟩, ⟨?_, ?_, ?_⟩⟩ <;> simp [SharedWriter.new, WriterCall.reads, WriterCall.locks,
        WriterCall.sends, WriterCall.shuts, WriterCall.past, WriterCall.sent, WriterCall.refused,
        WriterCall.ended]
  · exact fun state event next sound stepped => sound_step sound stepped

/-! ## Nothing is lost, and nothing is sent after the end -/

/-- Once the flag is set no step lets a call return `true`. -/
theorem returned_callStep {other : Call} {record : LogRecord} {stage : WriterCall Error}
    (shutting : Shutting state.closed state.channelClosed state.calls)
    (closed : state.closed = true) (held : state.calls call = stage)
    (step : CallStep state call stage next)
    (returned : next.calls other = .enqueue record (.returned true)) :
    state.calls other = .enqueue record (.returned true) := by
  have stopped := shutting.stopped closed call
  rw [held] at stopped
  by_cases same : other = call
  · subst same
    cases step with
    | @readUnlock record sent =>
        simp only [SharedWriter.moved, Function.update_self] at returned
        cases returned
        cases stopped
    | sendPanics => exact returned
    | closePanics => exact returned
    | _ =>
        simp only [SharedWriter.moved, Function.update_self] at returned
        cases returned
  · cases step with
    | sendPanics => exact returned
    | closePanics => exact returned
    | _ =>
        simp only [SharedWriter.moved, Function.update_of_ne same] at returned
        exact returned

/-- What callers of the writer can count on. -/
structure SharedWriter.Reliable (state : SharedWriter Call Error) : Prop where
  /-- Nothing was sent on the closed channel, which was closed once at most. -/
  calm : state.panicked = false
  /-- A call that has returned `true` has sent its record, and no call has sent two. -/
  sent : ∀ call record, state.calls call = .enqueue record (.returned true) →
    (call, record) ∈ state.accepted
  sentOnce : (state.accepted.map Prod.fst).Nodup
  /-- The records are received in the order they were sent, all of them before `Close` returns. -/
  inOrder : state.taken <+: state.accepted.map Prod.snd
  all : ∀ call error, state.calls call = .close (.returned error) →
    state.taken = state.accepted.map Prod.snd
  /-- The drops are the calls that have refused a record, each once, and the failures of `run`. -/
  refused : ∀ call record, state.calls call = .enqueue record (.returned false) →
    state.counted.count call = 1
  counted : ∀ call ∈ state.counted, ∃ record, state.calls call = .enqueue record (.returning false) ∨
    state.calls call = .enqueue record (.returned false)
  drops : state.drops = state.counted.length + state.failures
  /-- No call returns `true` once the flag is set. -/
  stopped : state.closed = true → ∀ event next, state.handle event = some next →
    ∀ call record, next.calls call = .enqueue record (.returned true) →
      state.calls call = .enqueue record (.returned true)

/-- **The writer loses no record it has accepted.** In every interleaving of calls of `Enqueue` and
`Close` with the writer goroutine, whatever the capacity and whatever the disk answers. -/
theorem writer_reliable {capacity : Int} {state : SharedWriter Call Error}
    (reachable : (writerMachine Call Error capacity).Reachable state) : state.Reliable := by
  have sound := sound_of_reachable reachable
  have accounted := sound.accounted
  constructor
  case calm => exact sound.calm
  case sent =>
    intro call record returned
    rw [accounted.sent, returned]
    rfl
  case sentOnce => exact accounted.sentOnce
  case inOrder => exact ⟨state.channel, accounted.fifo.symm⟩
  case all =>
    intro call error returned
    have done := sound.drained.ended call (by rw [returned]; rfl)
    have empty := (sound.drained.empty (Or.inr (sound.drained.finished done))).1
    rw [accounted.fifo, empty, List.append_nil]
  case refused =>
    intro call record returned
    apply List.count_eq_one_of_mem accounted.refusedOnce
    rw [accounted.refused, returned]
    rfl
  case counted =>
    intro call present
    have refused := (accounted.refused call).mp present
    cases held : state.calls call with
    | enqueue record stage =>
        rw [held] at refused
        cases stage with
        | returning sent =>
            cases sent with
            | false => exact ⟨record, Or.inl rfl⟩
            | true => cases refused
        | returned sent =>
            cases sent with
            | false => exact ⟨record, Or.inr rfl⟩
            | true => cases refused
        | _ => cases refused
    | _ =>
        rw [held] at refused
        cases refused
  case drops => exact accounted.drops
  case stopped =>
    intro closed event next stepped call record returned
    rcases handle_cases stepped with ⟨other, step⟩ | step
    · exact returned_callStep sound.shutting closed rfl step returned
    · cases step <;> exact returned

/-- A disk that fails at nothing. -/
def sturdyDisk : Disk Unit where
  opens _ := true
  marshals _ := true
  writes := true
  closes _ := none

/-- The start of session `s`. -/
def startRecord : LogRecord :=
  ("s", { seq := 0, ts := "", sessionId := "s", fields := .sessionStart "a", prevHash := none,
          eventHash := "" })

/-- A record is accepted, the writer is closed and has drained its channel, and then one more
record is offered. -/
def closingEvents : List (WriterEvent Nat Unit) :=
  [.enqueue 0 startRecord, .close 1, .advance 0, .advance 0, .advance 0, .advance 0, .advance 1,
    .advance 1, .enqueue 2 startRecord, .run sturdyDisk, .advance 1, .advance 1, .advance 2,
    .run sturdyDisk, .advance 2, .advance 2, .advance 2, .run sturdyDisk, .run sturdyDisk,
    .advance 1]

/-- A record that does not fit is dropped and counted, and the writer closes when the other is
taken. -/
theorem writer_reliable_closing :
    ∃ state, (writerMachine Nat Unit 1).Reachable state ∧ state.Reliable ∧
      state.taken = [startRecord] ∧ state.drops = 1 ∧
      state.calls 1 = .close (.returned none) := by
  have leads : ∃ state, Machine.follow SharedWriter.handle closingEvents
      (SharedWriter.new 1) = some state ∧ state.taken = [startRecord] ∧ state.drops = 1 ∧
      state.calls 1 = .close (.returned none) := ⟨_, rfl, rfl, rfl, rfl⟩
  obtain ⟨state, leads, shown⟩ := leads
  have reachable : (writerMachine Nat Unit 1).Reachable state :=
    ⟨_, Machine.Run.follow (fun _ _ _ => id) (.start rfl) leads⟩
  exact ⟨state, reachable, writer_reliable reachable, shown⟩

end Proxy
