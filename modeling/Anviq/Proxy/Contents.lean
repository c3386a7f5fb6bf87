import Anviq.Proxy.Reports
import Anviq.Proxy.SessionTrust

/-! # What pins and reports hold

A pin holds a definition under its own hash, and a report in flight names the hash of the pin it
was started from and the hash of the change it asks about. `Described` relates the pins of a
session to its reports in flight; each session operation keeps it, and so does every step of the
process. The contract of a tool is the hash its pin holds; a turn leaves it, or makes the change of
a report that was cleared the new one.
-/

namespace Proxy

variable {Schema : Type}

/-- A pin and its pending change are under their own hashes, and a change that compiled was found
on a pin that had compiled. -/
structure PinnedTool.Hashed (env : Env) (pin : PinnedTool Schema) : Prop where
  held : pin.schemaError = "" → env.toolHash pin.tool = .ok pin.defHash
  proposed : ∀ change, pin.pending = some change → env.toolHash change.newTool = .ok change.newHash
  compiled : ∀ change, pin.pending = some change → change.schemaError = "" → pin.schemaError = ""

/-- A report carries definitions of the hashes it names. -/
structure Report.Hashed (env : Env) (report : Report) : Prop where
  old : env.toolHash report.oldDef = .ok report.oldHash
  new : env.toolHash report.newDef = .ok report.newHash

/-- A report is about the change that is pending on a pin, if it has its revision. -/
def Report.About (report : Report) (pin : PinnedTool Schema) : Prop :=
  ∀ change, pin.pending = some change → change.revision = report.revision →
    report.oldHash = pin.defHash ∧ report.newHash = change.newHash

/-- The pins of a session and its reports in flight say what they are about. -/
structure Described (env : Env) (session : Session Schema) (inFlight : List Report) : Prop where
  pins : ∀ key pin, session.pinned key = some pin → pin.Hashed env
  reports : ∀ report ∈ inFlight, report.Hashed env
  about : ∀ report ∈ inFlight, ∀ pin,
    session.pinned (key report.server report.tool) = some pin → report.About pin

/-! ## Pins -/

namespace PinnedTool.Hashed

variable {env : Env} {server : String} {tool : Tool} {defHash schemaError : String}
  {schema : Option Schema} {nextChange : Nat} {pin : PinnedTool Schema}

/-- Marks are not part of a pin's contents. -/
theorem marked (hashed : pin.Hashed env) (invalidDefinition : String) (suspended : Bool) :
    ({ pin with invalidDefinition, suspended } : PinnedTool Schema).Hashed env :=
  ⟨hashed.held, hashed.proposed, hashed.compiled⟩

/-- A pin without its pending change. -/
theorem settled (hashed : pin.Hashed env) (invalidDefinition : String) (suspended : Bool) :
    ({ pin with invalidDefinition, suspended, pending := none } : PinnedTool Schema).Hashed env :=
  ⟨hashed.held, (fun _ absent => by cases absent), (fun _ absent => by cases absent)⟩

/-- A pin whose pending change has other marks. -/
theorem remarked (hashed : pin.Hashed env) {change : PendingChange Schema}
    (outstanding : pin.pending = some change) (unreachable verdictApplied : Bool) :
    ({ pin with pending := some { change with unreachable, verdictApplied } } :
      PinnedTool Schema).Hashed env where
  held := hashed.held
  proposed := by
    rintro _ ⟨⟩
    exact hashed.proposed change outstanding
  compiled := by
    rintro _ ⟨⟩
    exact hashed.compiled change outstanding

/-- The pin that a cleared change becomes. -/
theorem promoted (hashed : pin.Hashed env) {change : PendingChange Schema}
    (outstanding : pin.pending = some change) : change.promoted.Hashed env :=
  ⟨fun _ => hashed.proposed change outstanding, (fun _ absent => by cases absent),
    (fun _ absent => by cases absent)⟩

/-- The pin of a definition that cannot be verified. -/
theorem rejected {found : Option (PinnedTool Schema)}
    (hashed : ∀ pin, found = some pin → pin.Hashed env) {reason : String} (given : reason ≠ "") :
    (Session.rejected found reason).Hashed env := by
  cases found with
  | none =>
      exact ⟨fun verified => absurd verified given, (fun _ absent => by cases absent),
        (fun _ absent => by cases absent)⟩
  | some pin => exact (hashed pin rfl).settled reason true

/-- Observing a definition under its hash keeps a pin under its own. -/
theorem observe (hashing : env.toolHash tool = .ok defHash) (found : Option (PinnedTool Schema))
    (hashed : ∀ pin, found = some pin → pin.Hashed env) :
    (Proxy.observe server tool defHash schema schemaError nextChange found).pin.Hashed env := by
  revert hashed
  refine observe_cases (P := fun found observation =>
    (∀ pin, found = some pin → pin.Hashed env) → observation.pin.Hashed env) ?_ ?_ ?_ ?_ ?_ found
  · exact fun _ => ⟨fun _ => hashing, (fun _ absent => by cases absent),
      (fun _ absent => by cases absent)⟩
  · intro pin _ hashed
    simp only [observeUnchanged]
    split
    · exact (hashed pin rfl).settled "" false
    · exact (hashed pin rfl).marked "" pin.suspended
  · exact fun pin _ _ _ _ => ⟨fun _ => hashing, (fun _ absent => by cases absent),
      (fun _ absent => by cases absent)⟩
  · intro pin change _ _ outstanding _ hashed
    unfold observePending
    split
    · exact (hashed pin rfl).marked "" pin.suspended
    · split
      · exact ((hashed pin rfl).marked "" pin.suspended).remarked outstanding false
          change.verdictApplied
      · exact (hashed pin rfl).marked "" pin.suspended
  · intro pin _ uncorrected _ hashed
    refine ⟨(hashed pin rfl).held, ?_, ?_⟩
    · rintro _ ⟨⟩
      exact hashing
    · rintro _ ⟨⟩ compiled
      exact not_not.mp fun invalid => uncorrected ⟨invalid, compiled⟩

/-- What a report makes of a pin is under its own hash. -/
theorem settle (hashed : pin.Hashed env) {change : PendingChange Schema}
    (outstanding : pin.pending = some change) (name : String) (unreachable : Bool)
    (verdict : Verdict) :
    (pin.settle server name change unreachable verdict).1.Hashed env := by
  rw [PinnedTool.settle_pin]
  split
  · exact hashed.remarked outstanding true change.verdictApplied
  · split
    · exact hashed.promoted outstanding
    · exact hashed.remarked outstanding change.unreachable true

end PinnedTool.Hashed

/-! ## Session operations -/

/-- The change on a pin is the one that was on the pin before it, or is newer than `nextChange`. -/
def PinnedTool.Succeeds (nextChange : Nat) (found : Option (PinnedTool Schema))
    (pin : PinnedTool Schema) : Prop :=
  ∀ change, pin.pending = some change → nextChange < change.revision ∨
    ∃ before old, found = some before ∧ before.pending = some old ∧
      old.revision = change.revision ∧ old.newHash = change.newHash ∧ before.defHash = pin.defHash

/-- A pin without a change. -/
theorem PinnedTool.succeeds_of_settled {nextChange : Nat} {found : Option (PinnedTool Schema)}
    {pin : PinnedTool Schema} (settled : pin.pending = none) : pin.Succeeds nextChange found :=
  fun change outstanding => by rw [settled] at outstanding; cases outstanding

/-- A definition that is observed starts a newer change or leaves the one there was. -/
theorem observe_succeeds {server : String} {tool : Tool} {defHash schemaError : String}
    {schema : Option Schema} {nextChange : Nat} (found : Option (PinnedTool Schema)) :
    (observe server tool defHash schema schemaError nextChange found).pin.Succeeds nextChange
      found := by
  refine observe_cases (P := fun found observation => observation.pin.Succeeds nextChange found)
    ?_ ?_ ?_ ?_ ?_ found
  · exact PinnedTool.succeeds_of_settled rfl
  · intro pin _ change
    simp only [observeUnchanged]
    split
    · exact fun absent => by cases absent
    · exact fun outstanding => .inr ⟨pin, change, rfl, outstanding, rfl, rfl, rfl⟩
  · exact fun _ _ _ _ => PinnedTool.succeeds_of_settled rfl
  · intro pin change _ _ outstanding _ other
    unfold observePending
    split
    · exact fun same => .inr ⟨pin, other, rfl, same, rfl, rfl, rfl⟩
    · split
      · rintro ⟨⟩
        exact .inr ⟨pin, change, rfl, outstanding, rfl, rfl, rfl⟩
      · exact fun same => .inr ⟨pin, other, rfl, same, rfl, rfl, rfl⟩
  · rintro pin _ _ _ _ ⟨⟩
    exact .inl (Nat.lt_succ_self nextChange)

/-- The report of an observed definition says what it is about. -/
theorem observe_report {env : Env} {server : String} {tool : Tool} {defHash schemaError : String}
    {schema : Option Schema} {nextChange : Nat} {name : String} {report : Report}
    (hashing : env.toolHash tool = .ok defHash) (found : Option (PinnedTool Schema))
    (hashed : ∀ pin, found = some pin → pin.Hashed env) :
    let observation := observe server tool defHash schema schemaError nextChange found
    observation.outcome.report? server name = some report →
      report.Hashed env ∧ report.About observation.pin := by
  revert hashed
  refine observe_cases (P := fun found observation => (∀ pin, found = some pin → pin.Hashed env) →
    observation.outcome.report? server name = some report →
      report.Hashed env ∧ report.About observation.pin) ?_ ?_ ?_ ?_ ?_ found
  · intro _ started
    rw [Tracked.report?_eq_none] at started
    · cases started
    · simp only [observeFirst]
      split_ifs <;> exact ⟨Action.noConfusion, Action.noConfusion⟩
  · intro pin _ _ started
    rw [Tracked.report?_eq_none (Tracked.observeUnchanged_quiet ..).1] at started
    cases started
  · intro pin _ _ _ _ started
    rw [Tracked.report?_eq_none ⟨Action.noConfusion, Action.noConfusion⟩] at started
    cases started
  · intro pin change _ _ outstanding again hashed
    unfold observePending
    split
    · intro started
      rw [Tracked.report?_eq_none ⟨Action.noConfusion, Action.noConfusion⟩] at started
      cases started
    · next compilable =>
        split
        · intro started
          rw [ListOutcome.report?, if_pos (.inr rfl)] at started
          cases started
          have compiled := (hashed pin rfl).compiled change outstanding (not_not.mp compilable)
          refine ⟨⟨(hashed pin rfl).held compiled, hashing⟩, ?_⟩
          rintro _ ⟨⟩ _
          exact ⟨rfl, again.symm⟩
        · intro started
          rw [Tracked.report?_eq_none ⟨Action.noConfusion, Action.noConfusion⟩] at started
          cases started
  · intro pin _ uncorrected _ hashed started
    by_cases invalid : schemaError = ""
    · have compiled : pin.schemaError = "" := not_not.mp fun broken => uncorrected ⟨broken, invalid⟩
      simp only [observeMismatch, invalid, ListOutcome.report?, ne_eq, not_true_eq_false,
        ↓reduceIte, true_or, Option.some.injEq] at started
      subst started
      refine ⟨⟨(hashed pin rfl).held compiled, hashing⟩, ?_⟩
      rintro _ ⟨⟩ _
      exact ⟨rfl, rfl⟩
    · simp [observeMismatch, ListOutcome.report?, invalid] at started

namespace Described

variable {env : Env} {session next : Session Schema} {inFlight : List Report}

theorem new (id : String) : Described env ({ id } : Session Schema) [] :=
  ⟨(fun _ _ absent => by cases absent), (fun _ absent => by cases absent),
    (fun _ absent => by cases absent)⟩

/-- Reports in flight may be reordered and may land. -/
theorem fewer (described : Described env session inFlight) {flying : List Report}
    (among : ∀ report ∈ flying, report ∈ inFlight) : Described env session flying :=
  ⟨described.pins, fun report present => described.reports report (among report present),
    fun report present => described.about report (among report present)⟩

/-- An operation that leaves the pins alone. -/
theorem samePins (described : Described env session inFlight) (same : next.SamePins session) :
    Described env next inFlight where
  pins := same.pinned ▸ described.pins
  reports := described.reports
  about := same.pinned ▸ described.about

/-- An operation that replaces one pin. -/
theorem replace (described : Described env session inFlight)
    (allocated : ∀ report ∈ inFlight, report.revision ≤ session.nextChange) {key : String}
    {pin : PinnedTool Schema}
    (pinned : next.pinned = Function.update session.pinned key (some pin))
    (hashed : pin.Hashed env) (succeeds : pin.Succeeds session.nextChange (session.pinned key)) :
    Described env next inFlight where
  pins := by
    intro other found present
    rw [pinned] at present
    by_cases same : other = key
    · rw [same, Function.update_self] at present
      cases present
      exact hashed
    · rw [Function.update_of_ne same] at present
      exact described.pins other found present
  reports := described.reports
  about := by
    intro report flying found present change outstanding revision
    rw [pinned] at present
    by_cases same : Proxy.key report.server report.tool = key
    · rw [same, Function.update_self] at present
      cases present
      rcases succeeds change outstanding with newer | ⟨before, old, held, was, sameRevision,
        sameHash, sameDef⟩
      · have bound := allocated report flying
        omega
      · have told := described.about report flying before (same ▸ held) old was
          (sameRevision.trans revision)
        exact ⟨told.1.trans sameDef, told.2.trans sameHash⟩
    · rw [Function.update_of_ne same] at present
      exact described.about report flying found present change outstanding revision

/-- A report starts. -/
theorem start (described : Described env session inFlight) {report : Option Report}
    (hashed : ∀ started ∈ report, started.Hashed env)
    (about : ∀ started ∈ report, ∀ pin,
      session.pinned (key started.server started.tool) = some pin → started.About pin) :
    Described env session (report.toList ++ inFlight) where
  pins := described.pins
  reports := by
    intro flying present
    rcases List.mem_append.mp present with started | before
    · exact hashed flying (Option.mem_toList.mp started)
    · exact described.reports flying before
  about := by
    intro flying present
    rcases List.mem_append.mp present with started | before
    · exact about flying (Option.mem_toList.mp started)
    · exact described.about flying before

variable (allocated : ∀ report ∈ inFlight, report.revision ≤ session.nextChange)

theorem emitEvent (described : Described env session inFlight) (fields : EventFields) :
    Described env (session.emitEvent env fields).1 inFlight :=
  described.samePins (session.buildEvents_samePins env [fields])

theorem ensureStarted (described : Described env session inFlight) (agent : String) :
    Described env (session.ensureStarted env agent).1 inFlight :=
  described.samePins
    ⟨session.ensureStarted_pinned env agent, session.ensureStarted_nextChange env agent⟩

include allocated in
theorem rejectDefinition (described : Described env session inFlight) (server name : String)
    {reason : String} (given : reason ≠ "") :
    Described env (session.rejectDefinition env server name reason).1 inFlight :=
  described.replace allocated (session.rejectDefinition_pinned env server name reason)
    (.rejected (described.pins _) given) (PinnedTool.succeeds_of_settled rfl)

include allocated in
/-- An observed definition starts a report that says what it is about. -/
theorem observeDefinition (described : Described env session inFlight) (server : String)
    {tool : Tool} {defHash : String} (hashing : env.toolHash tool = .ok defHash)
    (schema : Option Schema) (schemaError : String) :
    Described env (session.observeDefinition env server tool defHash schema schemaError).1
      (((session.observeDefinition env server tool defHash schema schemaError).2.2.report? server
        (toolName tool)).toList ++ inFlight) := by
  have pinned := session.observeDefinition_pinned env server tool defHash schema schemaError
  have told {report : Report} (started : (observe server tool defHash schema schemaError
      session.nextChange (session.pinned (key server (toolName tool)))).outcome.report? server
        (toolName tool) = some report) :=
    observe_report hashing _ (described.pins (key server (toolName tool))) started
  rw [session.observeDefinition_outcome env server tool defHash schema schemaError]
  refine (described.replace allocated pinned (.observe hashing _ (described.pins _))
    (observe_succeeds _)).start (fun started present => (told present).1) ?_
  intro started present pin found
  rcases Tracked.report?_eq_some present with ⟨-, sameServer, sameTool⟩
  rw [pinned, sameServer, sameTool, Function.update_self] at found
  cases found
  exact (told present).2

/-- A report that lands. -/
theorem applyVerdict {report : Report}
    (described : Described env session (report :: inFlight))
    (allocated : ∀ report ∈ inFlight, report.revision ≤ session.nextChange)
    (unreachable : Bool) (verdict : Verdict) :
    Described env
      (session.applyVerdict env report.server report.tool report.revision unreachable verdict).1
      inFlight := by
  have landed := described.fewer fun other => List.mem_cons_of_mem report (a := other)
  rcases session.applyVerdict_cases env report.server report.tool report.revision unreachable
    verdict with ⟨-, ignored⟩ | ⟨pin, change, found, outstanding, -, -, settles⟩
  · rw [ignored]
    exact landed
  · have pinned := congrArg (fun next => next.1.pinned) settles
    simp only [Session.buildEvents_pinned, Session.setPin_pinned] at pinned
    refine landed.replace allocated pinned
      ((described.pins _ pin found).settle outstanding report.tool unreachable verdict) ?_
    rw [PinnedTool.settle_pin, found]
    split
    · rintro _ ⟨⟩
      exact .inr ⟨pin, change, rfl, outstanding, rfl, rfl, rfl⟩
    · split
      · exact PinnedTool.succeeds_of_settled rfl
      · rintro _ ⟨⟩
        exact .inr ⟨pin, change, rfl, outstanding, rfl, rfl, rfl⟩

end Described

/-! ## What a turn does to the pins -/

/-- A turn keeps the pins of its session, or replaces one: by an observed definition with what the
schema cache answered for it, by one that is rejected, or by what a report makes of its change. -/
inductive Goroutine.Repins (gateway : Gateway Schema) (around : Surroundings Schema)
    (session next : Session Schema) : Goroutine Schema → Prop where
  | kept {goroutine : Goroutine Schema} (same : next.pinned = session.pinned) :
      Repins gateway around session next goroutine
  | observed {server defHash : String} {held : Option String} {listing : Listing} {tool : Tool}
      {tools : List Tool} {inputSchema : Json.Members Number}
      (hashed : gateway.env.toolHash tool = .ok defHash)
      (schema : tool.get? "inputSchema" = some (.obj inputSchema))
      (pinned : next.pinned = Function.update session.pinned (key server (toolName tool))
        (some (session.observation server tool defHash
          (compileResult (around.compiled defHash inputSchema)).1
          (compileResult (around.compiled defHash inputSchema)).2).pin)) :
      Repins gateway around session next (.inspecting server held listing (tool :: tools))
  | rejected {goroutine : Goroutine Schema} {server name reason : String} (given : reason ≠ "")
      (pinned : next.pinned = Function.update session.pinned (key server name)
        (some (Session.rejected (session.pinned (key server name)) reason))) :
      Repins gateway around session next goroutine
  | settled {report : Report} {pin : PinnedTool Schema} {change : PendingChange Schema}
      (found : session.pinned (key report.server report.tool) = some pin)
      (outstanding : pin.pending = some change) (current : change.revision = report.revision)
      (pinned : next.pinned = Function.update session.pinned (key report.server report.tool)
        (some (pin.settle report.server report.tool change around.control.isNone
          (around.control.getD {})).1)) :
      Repins gateway around session next (.reporting report)

/-- A reason is more than its heading. -/
theorem reason_given (heading detail : String) (given : heading ≠ "") : heading ++ detail ≠ "" :=
  fun absurdity => given (String.append_eq_empty_iff.mp absurdity).1

section Repins

variable (gateway : Gateway Schema) (around : Surroundings Schema) (session : Session Schema)

theorem inspectTool_repins (server : String) (held : Option String) (listing : Listing)
    (tool : Tool) (tools : List Tool) :
    (Goroutine.inspecting server held listing (tool :: tools)).Repins gateway around session
      (inspectTool gateway.env around server session listing tool).session := by
  unfold inspectTool
  dsimp only
  split
  · exact .rejected (by decide) (session.rejectDefinition_pinned ..)
  · split
    · exact .kept (session.emitEvent_pinned ..)
    · unfold observeTool
      dsimp only
      split
      · exact .kept (session.emitEvent_pinned ..)
      · split
        · next error _ =>
            exact .rejected (reason_given "definition cannot be hashed: " error (by decide))
              (session.rejectDefinition_pinned ..)
        · next defHash hashed =>
            split
            · next inputSchema schema =>
                exact .observed hashed schema (session.observeDefinition_pinned ..)
            · exact .rejected (by decide) (session.rejectDefinition_pinned ..)

theorem applyVerdict_repins (report : Report) :
    (Goroutine.reporting report).Repins gateway around session
      (session.applyVerdict gateway.env report.server report.tool report.revision
        around.control.isNone (around.control.getD {})).1 := by
  rcases session.applyVerdict_cases gateway.env report.server report.tool report.revision
    around.control.isNone (around.control.getD {}) with
    ⟨-, ignored⟩ | ⟨pin, change, found, outstanding, current, -, settles⟩
  · exact .kept (congrArg (fun next => next.1.pinned) ignored)
  · refine .settled found outstanding current ?_
    rw [settles, Session.buildEvents_pinned, Session.setPin_pinned]

/-- Whatever a goroutine does, it keeps the pins of its session or replaces one. -/
theorem turn_repins (goroutine : Goroutine Schema) :
    goroutine.Repins gateway around session (goroutine.turn gateway around session).session := by
  cases goroutine with
  | arrived server agent body =>
      rw [Goroutine.turn]
      split
      · exact .kept rfl
      · exact .kept (session.ensureStarted_pinned gateway.env agent)
  | dispatched server request =>
      rw [Goroutine.turn]
      split
      · exact .kept rfl
      · split
        · unfold dispatchCall
          split
          · exact .kept rfl
          · split
            · exact .kept rfl
            · split
              · exact .kept (session.emitEvent_pinned ..)
              · dsimp only
                split <;> exact .kept rfl
        · exact .kept rfl
  | relisting server => exact .kept rfl
  | inspecting server held listing tools =>
      cases tools with
      | nil => exact .kept rfl
      | cons tool tools =>
          exact inspectTool_repins gateway around session server held listing tool tools
  | reporting report => exact applyVerdict_repins gateway around session report
  | allowed server params decision =>
      rw [Goroutine.turn]
      split
      · exact .kept (session.emitEvent_pinned ..)
      · exact .kept rfl
  | warned server params decision =>
      rw [Goroutine.turn, auditCall]
      split <;> exact .kept (session.emitEvent_pinned ..)
  | posted server callId => exact .kept (session.emitEvent_pinned ..)
  | failed callId reason => exact .kept (session.emitEvent_pinned ..)

end Repins

/-! ## The contract of a tool -/

namespace Session

/-- The hash a session holds a tool to, once a definition of it has compiled. -/
def contract? (session : Session Schema) (key : String) : Option String :=
  (session.pinned key).bind fun pin => if pin.schemaError = "" then some pin.defHash else none

theorem contract?_eq_some {session : Session Schema} {key hash : String} :
    session.contract? key = some hash ↔
      ∃ pin, session.pinned key = some pin ∧ pin.schemaError = "" ∧ pin.defHash = hash := by
  unfold contract?
  constructor
  · intro held
    rcases Option.bind_eq_some_iff.mp held with ⟨pin, found, given⟩
    split at given
    · next compiled =>
        cases given
        exact ⟨pin, found, compiled, rfl⟩
    · cases given
  · rintro ⟨pin, found, compiled, rfl⟩
    rw [found, Option.bind_some, if_pos compiled]

theorem contract?_samePins {session next : Session Schema} (same : next.SamePins session)
    (key : String) : next.contract? key = session.contract? key := by
  unfold contract?
  rw [same.pinned]

/-- A call that is allowed without a warning is held to the contract. -/
theorem contract?_of_allowed {session : Session Schema} {server tool : String}
    (allowed : (session.prepareCall server tool).allow = true)
    (trusted : (session.prepareCall server tool).code = "") :
    session.contract? (key server tool) = some (session.prepareCall server tool).defHash := by
  unfold prepareCall at allowed trusted ⊢
  cases found : session.pinned (key server tool) with
  | none =>
      rw [found] at allowed
      cases allowed
  | some pin =>
      rw [found] at allowed trusted
      rcases decide_allow allowed with ⟨-, compiled, ⟨-, defHash, -⟩ | ⟨_, -, -, -, -, code, -⟩⟩
      · exact contract?_eq_some.mpr ⟨pin, found, compiled, defHash.symm⟩
      · exact absurd (code.symm.trans trusted) (by decide)

/-- Replacing a pin by one of the same contract. -/
theorem contract?_replace {session next : Session Schema} {key other hash : String}
    {pin : PinnedTool Schema}
    (pinned : next.pinned = Function.update session.pinned key (some pin))
    (same : ∀ before, session.pinned key = some before → before.schemaError = "" →
      pin.schemaError = "" ∧ pin.defHash = before.defHash)
    (held : session.contract? other = some hash) : next.contract? other = some hash := by
  rcases contract?_eq_some.mp held with ⟨before, found, compiled, rfl⟩
  by_cases mine : other = key
  · subst mine
    refine contract?_eq_some.mpr ⟨pin, ?_, same before found compiled⟩
    rw [pinned, Function.update_self]
  · refine contract?_eq_some.mpr ⟨before, ?_, compiled, rfl⟩
    rw [pinned, Function.update_of_ne mine, found]

end Session

/-- Observing a definition never touches a contract. -/
theorem observe_contract {server : String} {tool : Tool} {defHash schemaError : String}
    {schema : Option Schema} {nextChange : Nat} (found : Option (PinnedTool Schema))
    (before : PinnedTool Schema) (held : found = some before) (compiled : before.schemaError = "") :
    let pin := (observe server tool defHash schema schemaError nextChange found).pin
    pin.schemaError = "" ∧ pin.defHash = before.defHash := by
  revert held
  refine observe_cases (P := fun found observation => found = some before →
    observation.pin.schemaError = "" ∧ observation.pin.defHash = before.defHash)
    ?_ ?_ ?_ ?_ ?_ found
  · exact fun absent => by cases absent
  · rintro pin _ ⟨⟩
    simp only [observeUnchanged]
    split <;> exact ⟨compiled, rfl⟩
  · rintro pin _ invalid _ ⟨⟩
    exact absurd compiled invalid
  · rintro pin change _ _ _ _ ⟨⟩
    unfold observePending
    split
    · exact ⟨compiled, rfl⟩
    · split <;> exact ⟨compiled, rfl⟩
  · rintro pin _ _ _ ⟨⟩
    exact ⟨compiled, rfl⟩

/-- A goroutine makes the change of its report the contract. -/
structure Goroutine.Promotes (goroutine : Goroutine Schema) (around : Surroundings Schema)
    (session : Session Schema) (key : String) (report : Report) (hash : String) : Prop where
  reporting : goroutine = .reporting report
  about : Proxy.key report.server report.tool = key
  cleared : ∃ verdict, around.control = some verdict ∧
    (verdict.action = "resume" ∨ verdict.action = "warn")
  outstanding : ∃ pin change, session.pinned key = some pin ∧ pin.pending = some change ∧
    change.revision = report.revision ∧ change.newHash = hash

section Contract

variable (gateway : Gateway Schema) (around : Surroundings Schema) {session : Session Schema}
  {key hash : String}

/-- What a report makes of a pin leaves its contract alone, or makes the change the contract. -/
theorem settle_contract {report : Report} {pin : PinnedTool Schema} {change : PendingChange Schema}
    {next : Session Schema}
    (found : session.pinned (Proxy.key report.server report.tool) = some pin)
    (outstanding : pin.pending = some change) (current : change.revision = report.revision)
    (pinned : next.pinned = Function.update session.pinned (Proxy.key report.server report.tool)
      (some (pin.settle report.server report.tool change around.control.isNone
        (around.control.getD {})).1))
    (held : session.contract? key = some hash) :
    next.contract? key = some hash ∨ ∃ new, next.contract? key = some new ∧
      (Goroutine.reporting report).Promotes around session key report new := by
  rw [PinnedTool.settle_pin] at pinned
  have same (marked : PinnedTool Schema) (schemaError : marked.schemaError = pin.schemaError)
      (defHash : marked.defHash = pin.defHash) : ∀ before,
      session.pinned (Proxy.key report.server report.tool) = some before →
        before.schemaError = "" → marked.schemaError = "" ∧ marked.defHash = before.defHash := by
    intro before at' compiled
    cases found.symm.trans at'
    exact ⟨schemaError.trans compiled, defHash⟩
  split at pinned
  · exact .inl (Session.contract?_replace pinned (same _ rfl rfl) held)
  · next reached =>
      split at pinned
      · next cleared =>
          by_cases mine : key = Proxy.key report.server report.tool
          · subst mine
            refine .inr ⟨change.newHash, Session.contract?_eq_some.mpr ⟨change.promoted, ?_, rfl,
              rfl⟩, rfl, rfl, ?_, pin, change, found, outstanding, current, rfl⟩
            · rw [pinned, Function.update_self]
            · cases answer : around.control with
              | none => exact absurd (by rw [answer]; rfl) reached
              | some verdict =>
                  rw [answer] at cleared
                  exact ⟨verdict, rfl, cleared.2⟩
          · refine .inl ?_
            rcases Session.contract?_eq_some.mp held with ⟨before, at', compiled, rfl⟩
            refine Session.contract?_eq_some.mpr ⟨before, ?_, compiled, rfl⟩
            rw [pinned, Function.update_of_ne mine, at']
      · exact .inl (Session.contract?_replace pinned (same _ rfl rfl) held)

/-- Whatever a goroutine does, a contract only changes to the change of a report that the control
plane has cleared. -/
theorem turn_contract (goroutine : Goroutine Schema) (held : session.contract? key = some hash) :
    (goroutine.turn gateway around session).session.contract? key = some hash ∨
      ∃ report new, (goroutine.turn gateway around session).session.contract? key = some new ∧
        goroutine.Promotes around session key report new := by
  cases turn_repins gateway around session goroutine with
  | kept same => exact .inl (by rw [Session.contract?, same]; exact held)
  | observed hashed schema pinned =>
      exact .inl (Session.contract?_replace pinned (observe_contract _) held)
  | rejected given pinned =>
      refine .inl (Session.contract?_replace pinned (fun before found compiled => ?_) held)
      rw [found]
      exact ⟨compiled, rfl⟩
  | @settled report pin change found outstanding current pinned =>
      rcases settle_contract around found outstanding current pinned held with
        kept | ⟨new, becomes, promotes⟩
      · exact .inl kept
      · exact .inr ⟨report, new, becomes, promotes⟩

end Contract

/-! ## Turns -/

section Turns

variable (gateway : Gateway Schema) (around : Surroundings Schema) {session : Session Schema}
  {rest : List Report}

/-- A turn that only emits an event and starts no report. -/
theorem emitTurn_described (described : Described gateway.env session rest) (fields : EventFields)
    {next : List (Goroutine Schema)} (quiet : reportsOf next = []) :
    Described gateway.env (emitTurn gateway.env session fields next).session
      (reportsOf (emitTurn gateway.env session fields next).next ++ rest) := by
  change Described gateway.env (session.emitEvent gateway.env fields).1 (reportsOf next ++ rest)
  rw [quiet]
  exact described.emitEvent fields

/-- One round of the loop over a list starts a report that says what it is about. -/
theorem inspectTool_described (described : Described gateway.env session rest)
    (allocated : ∀ report ∈ rest, report.revision ≤ session.nextChange) (server : String)
    (listing : Listing) (tool : Tool) :
    Described gateway.env (inspectTool gateway.env around server session listing tool).session
      ((inspectTool gateway.env around server session listing tool).report.toList ++ rest) := by
  unfold inspectTool
  dsimp only
  split
  · exact described.rejectDefinition allocated server _ (by decide)
  · split
    · exact described.emitEvent _
    · unfold observeTool
      dsimp only
      split
      · rw [Tracked.report?_eq_none ⟨Action.noConfusion, Action.noConfusion⟩]
        exact described.emitEvent _
      · cases hashing : gateway.env.toolHash tool with
        | error error =>
            rw [Tracked.report?_eq_none ⟨Action.noConfusion, Action.noConfusion⟩]
            exact described.rejectDefinition allocated server _
              (reason_given "definition cannot be hashed: " error (by decide))
        | ok defHash =>
            dsimp only
            split
            · exact described.observeDefinition allocated server hashing _ _
            · rw [Tracked.report?_eq_none ⟨Action.noConfusion, Action.noConfusion⟩]
              exact described.rejectDefinition allocated server _ (by decide)

/-- Whatever a goroutine does, its session stays described by the reports in flight after it. -/
theorem turn_described (goroutine : Goroutine Schema)
    (described : Described gateway.env session (goroutine.report?.toList ++ rest))
    (allocated : ∀ report ∈ rest, report.revision ≤ session.nextChange) :
    Described gateway.env (goroutine.turn gateway around session).session
      (reportsOf (goroutine.turn gateway around session).next ++ rest) := by
  cases goroutine with
  | arrived server agent body =>
      rw [Goroutine.turn]
      split
      · exact described
      · exact described.ensureStarted agent
  | dispatched server request =>
      rw [Goroutine.turn]
      split
      · rw [reportsOf_startInspection]
        exact described
      · split
        · unfold dispatchCall
          split
          · exact described
          · split
            · exact described
            · split
              · exact emitTurn_described gateway described _ rfl
              · dsimp only
                split
                · exact described
                · exact described
        · exact described
  | relisting server =>
      rw [Goroutine.turn, reportsOf_startInspection]
      exact described
  | inspecting server held listing tools =>
      cases tools with
      | nil => exact described
      | cons tool tools =>
          have inspected := inspectTool_described gateway around described allocated server listing
            tool
          simp only [Goroutine.turn]
          cases started : (inspectTool gateway.env around server session listing tool).report with
          | none =>
              rw [started] at inspected
              exact inspected
          | some report =>
              rw [started] at inspected
              exact inspected
  | reporting report => exact described.applyVerdict allocated _ _
  | allowed server params decision =>
      rw [Goroutine.turn]
      split
      · exact emitTurn_described gateway described _ rfl
      · exact described
  | warned server params decision =>
      rw [Goroutine.turn, auditCall]
      split <;> exact emitTurn_described gateway described _ rfl
  | posted server callId =>
      rw [Goroutine.turn]
      refine emitTurn_described gateway described _ ?_
      split <;> rfl
  | failed callId reason => exact emitTurn_described gateway described _ rfl

end Turns

/-! ## Runs -/

namespace System

variable {gateway : Gateway Schema} {system next : System Schema}

/-- Sending an event leaves the pins of every session alone. -/
theorem emitted_samePins (audit : Audit Schema) (sender : String) (event : Event)
    (rest : List Event) (id : String) :
    ((audit.emitted sender event rest).sessions id).SamePins (audit.sessions id) := by
  unfold Audit.emitted
  split
  split
  · exact ⟨rfl, rfl⟩
  · by_cases mine : id = sender
    · subst mine
      dsimp only
      rw [Function.update_self]
      exact ⟨rfl, rfl⟩
    · dsimp only
      rw [Function.update_of_ne mine]
      exact ⟨rfl, rfl⟩

/-- A session is described by its reports in flight. -/
def DescribesChanges (env : Env) (system : System Schema) (id : String) : Prop :=
  Described env (system.audit.sessions id) (system.inFlight id)

/-- The reports of a session in flight, around a goroutine of its own. -/
theorem inFlight_running {id : String} {goroutine : Goroutine Schema}
    {front back : List (String × Goroutine Schema)}
    (running : system.goroutines = front ++ (id, goroutine) :: back) :
    system.inFlight id =
      ({ system with goroutines := front } : System Schema).inFlight id ++
        (goroutine.report?.toList ++
          ({ system with goroutines := back } : System Schema).inFlight id) := by
  simp only [inFlight, goroutinesOf, running, reportsOf, List.filterMap_append,
    List.filterMap_cons, ↓reduceIte]
  cases goroutine.report? <;> rfl

/-- A turn keeps every session described. -/
theorem turned_describes {id : String} {around : Surroundings Schema}
    {goroutine : Goroutine Schema} {front back : List (String × Goroutine Schema)}
    (running : system.goroutines = front ++ (id, goroutine) :: back)
    (allocated : ∀ report ∈ system.inFlight id,
      report.revision ≤ (system.audit.sessions id).nextChange)
    (describes : ∀ id, system.DescribesChanges gateway.env id) (other : String) :
    (system.turned gateway id around goroutine front back).DescribesChanges gateway.env other := by
  by_cases same : other = id
  · subst same
    have before := describes other
    unfold DescribesChanges at before ⊢
    rw [inFlight_running running] at before allocated
    have turned := turn_described gateway around goroutine
      (before.fewer fun report present => (List.perm_append_comm_assoc _ _ _).mem_iff.mp present)
      (fun report present => allocated report ((List.perm_append_comm_assoc _ _ _).mem_iff.mp
        (List.mem_append_right _ present)))
    have sessions : (system.turned gateway other around goroutine front back).audit.sessions other =
        (goroutine.turn gateway around (system.audit.sessions other)).session :=
      Function.update_self ..
    rw [sessions, inFlight, goroutinesOf_turned_self, reportsOf, List.filterMap_append,
      List.filterMap_append, List.append_assoc]
    exact turned.fewer fun report present =>
      (List.perm_append_comm_assoc _ _ _).mem_iff.mp present
  · have sessions : (system.turned gateway id around goroutine front back).audit.sessions other =
        system.audit.sessions other := Function.update_of_ne same _ _
    unfold DescribesChanges
    rw [sessions, inFlight, goroutinesOf_turned_other same running]
    exact describes other

/-- Every step keeps every session described. -/
theorem step_describes {label : SystemLabel Schema} (step : SystemStep gateway system label next)
    (tracks : ∀ id, system.TracksChanges id)
    (describes : ∀ id, system.DescribesChanges gateway.env id) (id : String) :
    next.DescribesChanges gateway.env id := by
  cases step with
  | arrive arrived server agent body =>
      have same : ({ system with goroutines :=
          system.goroutines ++ [(arrived, .arrived server agent body)] } : System Schema).inFlight
            id = system.inFlight id := by
        simp only [inFlight, goroutinesOf, reportsOf, List.filterMap_append]
        by_cases mine : arrived = id <;> simp [mine, Goroutine.report?]
      unfold DescribesChanges
      rw [same]
      exact describes id
  | turn around running unlocked =>
      exact turned_describes running (tracks _).allocated describes id
  | @emit sender event rest held => exact (describes id).samePins (emitted_samePins ..)
  | write queued => exact describes id
  | close => exact describes id

/-- Every session of a state a process reaches is described by its reports in flight. -/
theorem reachable_describes {capacity : Nat}
    (reachable : (machine gateway capacity).Reachable system) (id : String) :
    system.DescribesChanges gateway.env id := by
  refine (reachable.invariant (P := fun system => (∀ id, system.TracksChanges id) ∧
    ∀ id, system.DescribesChanges gateway.env id) ?_ ?_).2 id
  · rintro _ rfl
    exact ⟨fun id => Tracked.new id, fun id => Described.new id⟩
  · intro _ _ _ invariants step
    exact ⟨step_tracks step invariants.1, step_describes step invariants.1 invariants.2⟩

end System

end Proxy
