import Anviq.Proxy.System

/-! # Every change is reported once

A change that waits for a verdict has exactly one report in flight, or is marked
unreachable so that the next list retries it. `Tracked` relates the pending
changes of a session to its reports in flight and to the verdicts that have taken
effect; each session operation keeps it, and so does every step of the process.
-/

namespace Proxy

variable {Schema : Type}

/-- `change` is pending for `key`. -/
def Session.Pending (session : Session Schema) (key : String) (change : PendingChange Schema) :
    Prop :=
  ∃ pin, session.pinned key = some pin ∧ pin.pending = some change

/-- The report of a change is in flight, or has failed, or was answered. -/
inductive Reported (inFlight : List Report) (key : String) (change : PendingChange Schema) :
    Prop where
  | flying (report : Report) (present : report ∈ inFlight)
      (revision : report.revision = change.revision)
      (key_eq : Proxy.key report.server report.tool = key)
      (reachable : change.unreachable = false) (unanswered : change.verdictApplied = false)
  | failed (landed : ∀ report ∈ inFlight, report.revision ≠ change.revision)
      (unreachable : change.unreachable = true) (unanswered : change.verdictApplied = false)
  | answered (landed : ∀ report ∈ inFlight, report.revision ≠ change.revision)
      (reachable : change.unreachable = false) (applied : change.verdictApplied = true)

/-- The pending changes of a session against its reports in flight and the
revisions whose verdict has taken effect. -/
structure Tracked (session : Session Schema) (inFlight : List Report) (settled : List Nat) :
    Prop where
  distinct : (inFlight.map Report.revision).Nodup
  allocated : ∀ report ∈ inFlight, report.revision ≤ session.nextChange
  pendingAllocated : ∀ key change, session.Pending key change →
    change.revision ≤ session.nextChange
  pendingDistinct : ∀ left right leftChange rightChange, session.Pending left leftChange →
    session.Pending right rightChange → leftChange.revision = rightChange.revision → left = right
  reported : ∀ key change, session.Pending key change → change.schemaError = "" →
    Reported inFlight key change
  unreported : ∀ key change, session.Pending key change → change.schemaError ≠ "" →
    ∀ report ∈ inFlight, report.revision ≠ change.revision
  settledAllocated : ∀ revision ∈ settled, revision ≤ session.nextChange
  settledDistinct : settled.Nodup
  settledLanded : ∀ report ∈ inFlight, report.revision ∉ settled
  settledApplied : ∀ key change, session.Pending key change → change.revision ∈ settled →
    change.verdictApplied = true

namespace Session

/-- What is pending after a pin has been replaced. -/
theorem pending_update {before after : Session Schema} {key : String} {pin : PinnedTool Schema}
    (pinned : after.pinned = Function.update before.pinned key (some pin)) (other : String)
    (change : PendingChange Schema) :
    after.Pending other change ↔
      (other = key ∧ pin.pending = some change) ∨ (other ≠ key ∧ before.Pending other change) := by
  unfold Pending
  rw [pinned]
  by_cases same : other = key
  · subst same
    simp
  · simp [same]

theorem awaits_iff {session : Session Schema} {key : String} {revision : Nat} :
    session.awaits key revision = true ↔
      ∃ change, session.Pending key change ∧ change.revision = revision ∧
        change.verdictApplied = false := by
  unfold awaits Pending
  cases found : session.pinned key with
  | none => simp
  | some pin =>
      cases outstanding : pin.pending with
      | none => simp [outstanding]
      | some change => simp [outstanding]

end Session

namespace Tracked

variable {session next : Session Schema} {inFlight : List Report} {settled : List Nat}

/-- A session that has seen no list. -/
theorem new (id : String) : Tracked ({ id } : Session Schema) [] [] where
  distinct := List.nodup_nil
  allocated := fun _ absent => absurd absent List.not_mem_nil
  pendingAllocated := fun _ _ ⟨_, absent, _⟩ => absurd absent (by simp)
  pendingDistinct := fun _ _ _ _ ⟨_, absent, _⟩ => absurd absent (by simp)
  reported := fun _ _ ⟨_, absent, _⟩ => absurd absent (by simp)
  unreported := fun _ _ ⟨_, absent, _⟩ => absurd absent (by simp)
  settledAllocated := fun _ absent => absurd absent List.not_mem_nil
  settledDistinct := List.nodup_nil
  settledLanded := fun _ absent => absurd absent List.not_mem_nil
  settledApplied := fun _ _ ⟨_, absent, _⟩ => absurd absent (by simp)

/-- The order of the reports does not matter. -/
theorem perm (tracked : Tracked session inFlight settled) {reordered : List Report}
    (same : inFlight.Perm reordered) : Tracked session reordered settled where
  distinct := (same.map Report.revision).nodup_iff.mp tracked.distinct
  allocated := fun report present => tracked.allocated report (same.mem_iff.mpr present)
  pendingAllocated := tracked.pendingAllocated
  pendingDistinct := tracked.pendingDistinct
  reported := fun key change pending compilable => by
    cases tracked.reported key change pending compilable with
    | flying report present revision key_eq reachable unanswered =>
        exact .flying report (same.mem_iff.mp present) revision key_eq reachable unanswered
    | failed landed unreachable unanswered =>
        exact .failed (fun report present => landed report (same.mem_iff.mpr present)) unreachable
          unanswered
    | answered landed reachable applied =>
        exact .answered (fun report present => landed report (same.mem_iff.mpr present)) reachable
          applied
  unreported := fun key change pending invalid report present =>
    tracked.unreported key change pending invalid report (same.mem_iff.mpr present)
  settledAllocated := tracked.settledAllocated
  settledDistinct := tracked.settledDistinct
  settledLanded := fun report present => tracked.settledLanded report (same.mem_iff.mpr present)
  settledApplied := tracked.settledApplied

/-- An operation that starts no change and settles none. -/
theorem forget (tracked : Tracked session inFlight settled)
    (fewer : ∀ key change, next.Pending key change → session.Pending key change)
    (nextChange : next.nextChange = session.nextChange) : Tracked next inFlight settled where
  __ := tracked
  allocated := nextChange ▸ tracked.allocated
  pendingAllocated := fun key change pending =>
    nextChange ▸ tracked.pendingAllocated key change (fewer key change pending)
  pendingDistinct := fun left right _ _ leftPending rightPending =>
    tracked.pendingDistinct left right _ _ (fewer left _ leftPending) (fewer right _ rightPending)
  reported := fun key change pending => tracked.reported key change (fewer key change pending)
  unreported := fun key change pending => tracked.unreported key change (fewer key change pending)
  settledAllocated := nextChange ▸ tracked.settledAllocated
  settledApplied := fun key change pending =>
    tracked.settledApplied key change (fewer key change pending)

/-- An operation that leaves the pins alone. -/
theorem samePins (tracked : Tracked session inFlight settled) (same : next.SamePins session) :
    Tracked next inFlight settled := by
  refine tracked.forget (fun key change ⟨pin, found, outstanding⟩ => ?_) same.nextChange
  exact ⟨pin, same.pinned ▸ found, outstanding⟩

/-- An operation that replaces a pin by one whose pending change, if any, was
pending before. -/
theorem replace (tracked : Tracked session inFlight settled) {key : String}
    {pin : PinnedTool Schema}
    (pinned : next.pinned = Function.update session.pinned key (some pin))
    (nextChange : next.nextChange = session.nextChange)
    (kept : ∀ change, pin.pending = some change → session.Pending key change) :
    Tracked next inFlight settled := by
  refine tracked.forget (fun other change pending => ?_) nextChange
  rcases (Session.pending_update pinned other change).mp pending with ⟨rfl, outstanding⟩ | ⟨_, before⟩
  · exact kept change outstanding
  · exact before

/-- An operation that marks the pending change of one key: its revision stays,
and the marks fit the reports in flight and the verdicts settled after it. -/
theorem mark (tracked : Tracked session inFlight settled) {key : String} {pin : PinnedTool Schema}
    (pinned : next.pinned = Function.update session.pinned key (some pin))
    (nextChange : next.nextChange = session.nextChange) {change marked : PendingChange Schema}
    (pending : session.Pending key change) (outstanding : pin.pending = some marked)
    (sameRevision : marked.revision = change.revision) {flying : List Report} {done : List Nat}
    (distinct : (flying.map Report.revision).Nodup)
    (allocated : ∀ report ∈ flying, report.revision ≤ session.nextChange)
    (others : ∀ report : Report, report.revision ≠ change.revision →
      (report ∈ flying ↔ report ∈ inFlight))
    (reported : marked.schemaError = "" → Reported flying key marked)
    (unreported : marked.schemaError ≠ "" → ∀ report ∈ flying, report.revision ≠ marked.revision)
    (settledAllocated : ∀ revision ∈ done, revision ≤ session.nextChange)
    (settledDistinct : done.Nodup) (settledLanded : ∀ report ∈ flying, report.revision ∉ done)
    (settledOthers : ∀ revision ∈ done, revision ≠ change.revision → revision ∈ settled)
    (settledApplied : marked.revision ∈ done → marked.verdictApplied = true) :
    Tracked next flying done := by
  have split := Session.pending_update pinned
  have elsewhere {other : String} {otherChange : PendingChange Schema} (apart : other ≠ key)
      (before : session.Pending other otherChange) : otherChange.revision ≠ change.revision :=
    fun same => apart (tracked.pendingDistinct _ _ _ _ before pending same)
  have here {otherChange : PendingChange Schema} (found : pin.pending = some otherChange) :
      otherChange = marked := Option.some.inj (found.symm.trans outstanding)
  refine ⟨distinct, nextChange ▸ allocated, ?_, ?_, ?_, ?_, nextChange ▸ settledAllocated,
    settledDistinct, settledLanded, ?_⟩
  · intro other otherChange after
    rw [nextChange]
    rcases (split other otherChange).mp after with ⟨rfl, found⟩ | ⟨_, before⟩
    · rw [here found, sameRevision]
      exact tracked.pendingAllocated _ _ pending
    · exact tracked.pendingAllocated _ _ before
  · intro left right leftChange rightChange leftAfter rightAfter same
    rcases (split left leftChange).mp leftAfter with ⟨rfl, leftFound⟩ | ⟨leftApart, leftBefore⟩
    · rcases (split right rightChange).mp rightAfter with ⟨rfl, _⟩ | ⟨rightApart, rightBefore⟩
      · rfl
      · rw [here leftFound, sameRevision] at same
        exact absurd same.symm (elsewhere rightApart rightBefore)
    · rcases (split right rightChange).mp rightAfter with ⟨rfl, rightFound⟩ | ⟨_, rightBefore⟩
      · rw [here rightFound, sameRevision] at same
        exact absurd same (elsewhere leftApart leftBefore)
      · exact tracked.pendingDistinct _ _ _ _ leftBefore rightBefore same
  · intro other otherChange after compilable
    rcases (split other otherChange).mp after with ⟨rfl, found⟩ | ⟨apart, before⟩
    · rw [here found] at compilable ⊢
      exact reported compilable
    · have fresh := elsewhere apart before
      cases tracked.reported other otherChange before compilable with
      | flying report present revision key_eq reachable unanswered =>
          exact .flying report ((others report (revision ▸ fresh)).mpr present) revision key_eq
            reachable unanswered
      | failed landed unreachable unanswered =>
          refine .failed (fun report present same => ?_) unreachable unanswered
          exact landed report ((others report (same ▸ fresh)).mp present) same
      | answered landed reachable applied =>
          refine .answered (fun report present same => ?_) reachable applied
          exact landed report ((others report (same ▸ fresh)).mp present) same
  · intro other otherChange after invalid report present same
    rcases (split other otherChange).mp after with ⟨rfl, found⟩ | ⟨apart, before⟩
    · rw [here found] at invalid same
      exact unreported invalid report present same
    · exact tracked.unreported other otherChange before invalid report
        ((others report (same ▸ elsewhere apart before)).mp present) same
  · intro other otherChange after present
    rcases (split other otherChange).mp after with ⟨rfl, found⟩ | ⟨apart, before⟩
    · rw [here found] at present ⊢
      exact settledApplied present
    · exact tracked.settledApplied other otherChange before
        (settledOthers _ present (elsewhere apart before))

/-- A new change takes the next revision, and its report, if its schema compiled,
is the only one of that revision. -/
theorem start (tracked : Tracked session inFlight settled) {key : String} {pin : PinnedTool Schema}
    (pinned : next.pinned = Function.update session.pinned key (some pin))
    (nextChange : next.nextChange = session.nextChange + 1) {change : PendingChange Schema}
    (outstanding : pin.pending = some change)
    (revision : change.revision = session.nextChange + 1) (reachable : change.unreachable = false)
    (unanswered : change.verdictApplied = false) {report : Option Report}
    (reportRevision : ∀ started ∈ report, started.revision = change.revision)
    (reportKey : ∀ started ∈ report, Proxy.key started.server started.tool = key)
    (reported : change.schemaError = "" ↔ report.isSome) :
    Tracked next (report.toList ++ inFlight) settled := by
  have split := Session.pending_update pinned
  have earlier (landed : Report) (present : landed ∈ inFlight) : landed.revision ≠ change.revision := by
    have bound := tracked.allocated landed present
    omega
  have here {otherChange : PendingChange Schema} (found : pin.pending = some otherChange) :
      otherChange = change := Option.some.inj (found.symm.trans outstanding)
  have elsewhere {other : String} {otherChange : PendingChange Schema}
      (before : session.Pending other otherChange) : otherChange.revision ≠ change.revision := by
    have bound := tracked.pendingAllocated other otherChange before
    omega
  have old {present : Report} (member : present ∈ report.toList ++ inFlight) :
      present.revision = change.revision ∨ present ∈ inFlight :=
    (List.mem_append.mp member).imp_left fun started =>
      reportRevision present (Option.mem_toList.mp started)
  refine ⟨?_, ?_, ?_, ?_, ?_, ?_, ?_, tracked.settledDistinct, ?_, ?_⟩
  · cases report with
    | none => exact tracked.distinct
    | some started =>
        refine List.nodup_cons.mpr ⟨fun repeated => ?_, tracked.distinct⟩
        obtain ⟨landed, present, same⟩ := List.mem_map.mp repeated
        exact earlier landed present (same.trans (reportRevision started rfl))
  · intro present member
    rcases old member with started | landed
    · omega
    · exact (tracked.allocated present landed).trans (by omega)
  · intro other otherChange after
    rcases (split other otherChange).mp after with ⟨rfl, found⟩ | ⟨_, before⟩
    · rw [here found]
      omega
    · exact (tracked.pendingAllocated other otherChange before).trans (by omega)
  · intro left right leftChange rightChange leftAfter rightAfter same
    rcases (split left leftChange).mp leftAfter with ⟨rfl, leftFound⟩ | ⟨_, leftBefore⟩
    · rcases (split right rightChange).mp rightAfter with ⟨rfl, _⟩ | ⟨_, rightBefore⟩
      · rfl
      · rw [here leftFound] at same
        exact absurd same.symm (elsewhere rightBefore)
    · rcases (split right rightChange).mp rightAfter with ⟨rfl, rightFound⟩ | ⟨_, rightBefore⟩
      · rw [here rightFound] at same
        exact absurd same (elsewhere leftBefore)
      · exact tracked.pendingDistinct _ _ _ _ leftBefore rightBefore same
  · intro other otherChange after compilable
    rcases (split other otherChange).mp after with ⟨rfl, found⟩ | ⟨_, before⟩
    · rw [here found] at compilable ⊢
      obtain ⟨started, present⟩ := Option.isSome_iff_exists.mp (reported.mp compilable)
      exact .flying started (by simp [present]) (reportRevision started present)
        (reportKey started present) reachable unanswered
    · cases tracked.reported other otherChange before compilable with
      | flying landed present revision key_eq reachable unanswered =>
          exact .flying landed (List.mem_append_right _ present) revision key_eq reachable unanswered
      | failed landed unreachable unanswered =>
          refine .failed (fun present member same => ?_) unreachable unanswered
          rcases old member with started | flying
          · exact elsewhere before (same.symm.trans started)
          · exact landed present flying same
      | answered landed reachable applied =>
          refine .answered (fun present member same => ?_) reachable applied
          rcases old member with started | flying
          · exact elsewhere before (same.symm.trans started)
          · exact landed present flying same
  · intro other otherChange after invalid present member same
    rcases (split other otherChange).mp after with ⟨rfl, found⟩ | ⟨_, before⟩
    · rw [here found] at invalid same
      cases report with
      | none => exact earlier present member same
      | some started => exact invalid (reported.mpr rfl)
    · rcases old member with started | flying
      · exact elsewhere before (same.symm.trans started)
      · exact tracked.unreported other otherChange before invalid present flying same
  · exact fun done member => (tracked.settledAllocated done member).trans (by omega)
  · intro present member done
    rcases old member with started | flying
    · have bound := tracked.settledAllocated _ done
      omega
    · exact tracked.settledLanded present flying done
  · intro other otherChange after done
    rcases (split other otherChange).mp after with ⟨rfl, found⟩ | ⟨_, before⟩
    · rw [here found] at done
      have bound := tracked.settledAllocated _ done
      omega
    · exact tracked.settledApplied other otherChange before done

/-! ## Session operations -/

section Operations

variable (env : Env)

/-- Only a mismatch and a retry are reported. -/
theorem report?_eq_none {outcome : ListOutcome} {server tool : String}
    (quiet : outcome.action ≠ .mismatch ∧ outcome.action ≠ .retry) :
    outcome.report? server tool = none := by
  simp only [ListOutcome.report?, quiet.1, quiet.2, or_self, ↓reduceIte]

/-- A report carries the revision of its outcome. -/
theorem report?_eq_some {outcome : ListOutcome} {server tool : String} {report : Report}
    (started : outcome.report? server tool = some report) :
    report.revision = outcome.revision ∧ report.server = server ∧ report.tool = tool := by
  unfold ListOutcome.report? at started
  split at started
  · obtain rfl := Option.some.inj started
    exact ⟨rfl, rfl, rfl⟩
  · exact absurd started (by simp)

/-- The pinned definition again starts no report and no change. -/
theorem observeUnchanged_quiet (server : String) (tool : Tool) (defHash schemaError : String)
    (nextChange : Nat) (hadInvalidDefinition : Bool) (pin : PinnedTool Schema) :
    let observation := observeUnchanged server tool defHash schemaError nextChange
      hadInvalidDefinition pin
    (observation.outcome.action ≠ .mismatch ∧ observation.outcome.action ≠ .retry) ∧
      ∀ change, observation.pin.pending = some change → pin.pending = some change := by
  refine ⟨?_, fun change => ?_⟩
  · simp only [observeUnchanged]
    constructor <;> split_ifs <;> exact fun absurdity => Action.noConfusion absurdity
  · simp only [observeUnchanged]
    split_ifs
    · exact fun absent => absurd absent (by simp)
    · exact id

/-- The pending definition again: a failed report is retried under its revision,
and anything else starts nothing. -/
theorem observePending_reported (tracked : Tracked session inFlight settled) {server : String}
    {tool : Tool} {defHash : String} {pin : PinnedTool Schema} {change : PendingChange Schema}
    (pending : session.Pending (key server (toolName tool)) change)
    (outstanding : pin.pending = some change)
    (pinned : next.pinned = Function.update session.pinned (key server (toolName tool))
      (some (observePending server tool defHash session.nextChange pin change).pin))
    (nextChange : next.nextChange = session.nextChange) :
    Tracked next
      (((observePending server tool defHash session.nextChange pin change).outcome.report? server
        (toolName tool)).toList ++ inFlight) settled := by
  have kept (after : PinnedTool Schema) (same : after.pending = pin.pending)
      (update : next.pinned =
        Function.update session.pinned (key server (toolName tool)) (some after)) :
      Tracked next inFlight settled := by
    refine tracked.replace update nextChange fun other found => ?_
    rw [same, outstanding] at found
    exact Option.some.inj found ▸ pending
  unfold observePending at pinned ⊢
  by_cases invalid : change.schemaError ≠ ""
  · simp only [invalid, ne_eq, not_false_eq_true, ↓reduceIte] at pinned ⊢
    rw [report?_eq_none ⟨Action.noConfusion, Action.noConfusion⟩]
    exact kept pin rfl pinned
  · simp only [invalid, ↓reduceIte] at pinned ⊢
    by_cases failed : change.unreachable ∧ ¬ change.verdictApplied
    · rw [if_pos failed] at pinned ⊢
      simp only [ListOutcome.report?, or_true, ↓reduceIte, Option.toList_some, List.cons_append,
        List.nil_append]
      have unanswered : change.verdictApplied = false := by simpa using failed.2
      have landed : ∀ report ∈ inFlight, report.revision ≠ change.revision := by
        cases tracked.reported _ _ pending (not_not.mp invalid) with
        | flying _ _ _ _ reachable _ => exact absurd failed.1 (by simp [reachable])
        | failed landed _ _ => exact landed
        | answered _ _ applied => exact absurd unanswered (by simp [applied])
      refine tracked.mark pinned nextChange pending rfl (by rfl) ?_ ?_ ?_ ?_ ?_
        tracked.settledAllocated tracked.settledDistinct ?_ (fun _ done _ => done) ?_
      · refine List.nodup_cons.mpr ⟨fun repeated => ?_, tracked.distinct⟩
        obtain ⟨report, present, same⟩ := List.mem_map.mp repeated
        exact landed report present same
      · intro report present
        rcases List.mem_cons.mp present with rfl | earlier
        · exact tracked.pendingAllocated _ _ pending
        · exact tracked.allocated report earlier
      · intro report different
        refine ⟨fun present => (List.mem_cons.mp present).resolve_left ?_, List.mem_cons_of_mem _⟩
        rintro rfl
        exact different rfl
      · exact fun _ => .flying _ List.mem_cons_self rfl rfl rfl unanswered
      · exact fun contradiction => absurd contradiction invalid
      · intro report present done
        rcases List.mem_cons.mp present with rfl | earlier
        · have applied := tracked.settledApplied _ _ pending done
          exact absurd applied (by simp [unanswered])
        · exact tracked.settledLanded report earlier done
      · exact tracked.settledApplied _ change pending
    · rw [if_neg failed] at pinned ⊢
      rw [report?_eq_none ⟨Action.noConfusion, Action.noConfusion⟩]
      exact kept pin rfl pinned

/-- A new definition starts a change, and its report if it compiled. -/
theorem observeMismatch_reported (tracked : Tracked session inFlight settled) {server : String}
    {tool : Tool} {defHash schemaError : String} {schema : Option Schema} {pin : PinnedTool Schema}
    (pinned : next.pinned = Function.update session.pinned (key server (toolName tool))
      (some (observeMismatch server tool defHash schema schemaError session.nextChange pin).pin))
    (nextChange : next.nextChange = session.nextChange + 1) :
    Tracked next
      (((observeMismatch server tool defHash schema schemaError
        session.nextChange pin).outcome.report? server (toolName tool)).toList ++ inFlight)
      settled := by
  refine tracked.start pinned nextChange rfl rfl rfl rfl ?_ ?_ ?_
  · exact fun report started => (report?_eq_some started).1
  · intro report started
    obtain ⟨-, sameServer, sameTool⟩ := report?_eq_some started
    rw [sameServer, sameTool]
  · by_cases invalid : schemaError = ""
    · simp [observeMismatch, ListOutcome.report?, invalid]
    · simp [observeMismatch, ListOutcome.report?, invalid]

/-- A rejected definition forgets the change. -/
theorem rejectDefinition (tracked : Tracked session inFlight settled) (server name reason : String) :
    Tracked (session.rejectDefinition env server name reason).1 inFlight settled :=
  tracked.replace (session.rejectDefinition_pinned env server name reason)
    (session.rejectDefinition_nextChange env server name reason)
    fun _ absent => absurd absent (by simp [Session.rejected])

theorem emitEvent (tracked : Tracked session inFlight settled) (fields : EventFields) :
    Tracked (session.emitEvent env fields).1 inFlight settled :=
  tracked.samePins (session.buildEvents_samePins env [fields])

theorem ensureStarted (tracked : Tracked session inFlight settled) (agent : String) :
    Tracked (session.ensureStarted env agent).1 inFlight settled :=
  tracked.samePins ⟨session.ensureStarted_pinned env agent, session.ensureStarted_nextChange env agent⟩

/-- An observed definition starts the report its outcome calls for. -/
theorem observeDefinition (tracked : Tracked session inFlight settled) (server : String)
    (tool : Tool) (defHash : String) (schema : Option Schema) (schemaError : String) :
    Tracked (session.observeDefinition env server tool defHash schema schemaError).1
      (((session.observeDefinition env server tool defHash schema schemaError).2.2.report? server
        (toolName tool)).toList ++ inFlight) settled := by
  have pinned := session.observeDefinition_pinned env server tool defHash schema schemaError
  have nextChange := session.observeDefinition_nextChange env server tool defHash schema schemaError
  rw [session.observeDefinition_outcome env server tool defHash schema schemaError]
  unfold Session.observation at pinned nextChange ⊢
  cases found : session.pinned (key server (toolName tool)) with
  | none =>
      rw [found] at pinned nextChange
      rw [report?_eq_none]
      · exact tracked.replace pinned nextChange fun _ absent => absurd absent (by
          simp [observe, observeFirst])
      · simp only [observe, observeFirst]
        split_ifs <;> exact ⟨Action.noConfusion, Action.noConfusion⟩
  | some pin =>
      rw [found] at pinned nextChange
      by_cases same : pin.defHash = defHash
      · rw [observe_unchanged same] at pinned nextChange ⊢
        obtain ⟨quiet, kept⟩ := observeUnchanged_quiet server tool defHash schemaError
          session.nextChange (decide (pin.invalidDefinition ≠ ""))
          { pin with invalidDefinition := "" }
        rw [report?_eq_none quiet]
        exact tracked.replace pinned nextChange fun change outstanding =>
          ⟨pin, found, kept change outstanding⟩
      · by_cases corrected : pin.schemaError ≠ "" ∧ schemaError = ""
        · rw [observe_corrected same corrected.1 corrected.2] at pinned nextChange ⊢
          rw [report?_eq_none ⟨Action.noConfusion, Action.noConfusion⟩]
          exact tracked.replace pinned nextChange fun _ absent => absurd absent (by
            simp [observeCorrected])
        · by_cases again : ∃ change, pin.pending = some change ∧ change.newHash = defHash
          · obtain ⟨change, outstanding, again⟩ := again
            rw [observe_pending same corrected outstanding again] at pinned nextChange ⊢
            refine tracked.observePending_reported ⟨pin, found, outstanding⟩ outstanding pinned ?_
            rw [nextChange]
            unfold observePending
            split_ifs <;> rfl
          · have fresh : ∀ change, pin.pending = some change → change.newHash ≠ defHash :=
              fun change outstanding equal => again ⟨change, outstanding, equal⟩
            rw [observe_mismatch same corrected fresh] at pinned nextChange ⊢
            exact tracked.observeMismatch_reported pinned nextChange

/-- A report that finds its change waiting is about the key it was started for,
and the change is not marked. -/
theorem waiting (report : Report) (tracked : Tracked session (report :: inFlight) settled)
    {key : String} {change : PendingChange Schema} (pending : session.Pending key change)
    (current : change.revision = report.revision) :
    change.schemaError = "" ∧ change.unreachable = false ∧ change.verdictApplied = false ∧
      Proxy.key report.server report.tool = key := by
  have compilable : change.schemaError = "" := by
    by_contra invalid
    exact tracked.unreported key change pending invalid report List.mem_cons_self current.symm
  cases tracked.reported key change pending compilable with
  | flying other present revision key_eq reachable unanswered =>
      have same : other = report :=
        List.inj_on_of_nodup_map tracked.distinct present List.mem_cons_self
          (revision.trans current)
      exact ⟨compilable, reachable, unanswered, same ▸ key_eq⟩
  | failed landed _ _ => exact absurd current.symm (landed report List.mem_cons_self)
  | answered landed _ _ => exact absurd current.symm (landed report List.mem_cons_self)

/-- A report that lands without a change waiting for it is dropped. -/
theorem drop (report : Report) (tracked : Tracked session (report :: inFlight) settled)
    (stale : session.awaits (key report.server report.tool) report.revision = false) :
    Tracked session inFlight settled where
  __ := tracked
  distinct := (List.nodup_cons.mp tracked.distinct).2
  allocated := fun other present => tracked.allocated other (List.mem_cons_of_mem _ present)
  reported := fun key change pending compilable => by
    cases tracked.reported key change pending compilable with
    | flying other present revision key_eq reachable unanswered =>
        rcases List.mem_cons.mp present with rfl | flying
        · have awaited := Session.awaits_iff.mpr ⟨change, key_eq ▸ pending, revision.symm, unanswered⟩
          rw [stale] at awaited
          exact absurd awaited (by decide)
        · exact .flying other flying revision key_eq reachable unanswered
    | failed landed unreachable unanswered =>
        exact .failed (fun other present => landed other (List.mem_cons_of_mem _ present))
          unreachable unanswered
    | answered landed reachable applied =>
        exact .answered (fun other present => landed other (List.mem_cons_of_mem _ present))
          reachable applied
  unreported := fun key change pending invalid other present =>
    tracked.unreported key change pending invalid other (List.mem_cons_of_mem _ present)
  settledLanded := fun other present =>
    tracked.settledLanded other (List.mem_cons_of_mem _ present)

/-- A report in flight that lands marks its change, settles it, or is dropped. -/
theorem applyVerdict (report : Report) (tracked : Tracked session (report :: inFlight) settled)
    (unreachable : Bool) (verdict : Verdict) :
    Tracked
      (session.applyVerdict env report.server report.tool report.revision unreachable verdict).1
      inFlight
      (settled ++
        if !unreachable && session.awaits (key report.server report.tool) report.revision
        then [report.revision] else []) := by
  obtain ⟨stale, ignored⟩ | ⟨pin, change, found, outstanding, current, unanswered, settles⟩ :=
    session.applyVerdict_cases env report.server report.tool report.revision unreachable verdict
  · have quiet : session.awaits (key report.server report.tool) report.revision = false := by
      rw [← Bool.not_eq_true, Session.awaits_iff]
      rintro ⟨change, ⟨pin, found, outstanding⟩, current, unanswered⟩
      rw [stale pin change found outstanding current] at unanswered
      exact absurd unanswered (by decide)
    rw [ignored, quiet, Bool.and_false, if_neg Bool.false_ne_true, List.append_nil]
    exact tracked.drop report quiet
  · have pending : session.Pending (key report.server report.tool) change :=
      ⟨pin, found, outstanding⟩
    have awaited : session.awaits (key report.server report.tool) report.revision = true :=
      Session.awaits_iff.mpr ⟨change, pending, current, unanswered⟩
    obtain ⟨compilable, reachable, -, -⟩ := tracked.waiting report pending current
    obtain ⟨fresh, distinct⟩ := List.nodup_cons.mp tracked.distinct
    have landed : ∀ other ∈ inFlight, other.revision ≠ change.revision := fun other present same =>
      fresh (List.mem_map.mpr ⟨other, present, same.trans current⟩)
    have others : ∀ other : Report, other.revision ≠ change.revision →
        (other ∈ inFlight ↔ other ∈ report :: inFlight) := fun other different => by
      refine ⟨List.mem_cons_of_mem _, fun present => (List.mem_cons.mp present).resolve_left ?_⟩
      rintro rfl
      exact different current.symm
    have unsettled : report.revision ∉ settled :=
      tracked.settledLanded report List.mem_cons_self
    have pinned := congrArg (fun next => next.1.pinned) settles
    have nextChange := congrArg (fun next => next.1.nextChange) settles
    simp only [Session.buildEvents_pinned, Session.setPin_pinned] at pinned
    simp only [Session.buildEvents_nextChange, Session.setPin] at nextChange
    rw [awaited, Bool.and_true]
    have allocated : ∀ other ∈ inFlight, other.revision ≤ session.nextChange :=
      fun other present => tracked.allocated other (List.mem_cons_of_mem _ present)
    have settledLanded : ∀ other ∈ inFlight, other.revision ∉ settled :=
      fun other present => tracked.settledLanded other (List.mem_cons_of_mem _ present)
    cases unreachable with
    | true =>
        rw [Bool.not_true, if_neg Bool.false_ne_true, List.append_nil]
        exact tracked.mark pinned nextChange pending rfl (by rfl) distinct allocated others
          (fun _ => .failed landed rfl unanswered)
          (fun invalid => absurd compilable invalid) tracked.settledAllocated
          tracked.settledDistinct settledLanded (fun _ done _ => done)
          (tracked.settledApplied _ change pending)
    | false =>
        rw [Bool.not_false, if_pos rfl]
        have doneAllocated : ∀ revision ∈ settled ++ [report.revision],
            revision ≤ session.nextChange := by
          intro revision done
          rcases List.mem_append.mp done with earlier | last
          · exact tracked.settledAllocated revision earlier
          · rw [List.mem_singleton.mp last]
            exact tracked.allocated report List.mem_cons_self
        have doneDistinct : (settled ++ [report.revision]).Nodup :=
          List.nodup_append.mpr ⟨tracked.settledDistinct, List.nodup_singleton _, by
            rintro revision earlier _ last rfl
            exact unsettled (List.mem_singleton.mp last ▸ earlier)⟩
        have doneLanded : ∀ other ∈ inFlight, other.revision ∉ settled ++ [report.revision] := by
          intro other present done
          rcases List.mem_append.mp done with earlier | last
          · exact settledLanded other present earlier
          · exact landed other present ((List.mem_singleton.mp last).trans current.symm)
        have doneOthers : ∀ revision ∈ settled ++ [report.revision],
            revision ≠ change.revision → revision ∈ settled := by
          intro revision done different
          refine (List.mem_append.mp done).resolve_right fun last => different ?_
          exact (List.mem_singleton.mp last).trans current.symm
        have applied (after : Session Schema)
            (update : after.pinned = Function.update session.pinned _
              (some { pin with pending := some { change with verdictApplied := true } }))
            (sameCounter : after.nextChange = session.nextChange) :
            Tracked after inFlight (settled ++ [report.revision]) :=
          tracked.mark update sameCounter pending rfl (by rfl) distinct allocated others
            (fun _ => .answered landed reachable rfl) (fun invalid => absurd compilable invalid)
            doneAllocated doneDistinct doneLanded doneOthers (fun _ => rfl)
        rw [PinnedTool.settle_pin, if_neg Bool.false_ne_true] at pinned
        split at pinned
        · have middle := applied (session.setPin (key report.server report.tool) _) rfl rfl
          have promoted := pinned
          rw [← Function.update_idem] at promoted
          exact middle.replace promoted nextChange fun _ absent => absurd absent (by
            simp [PendingChange.promoted])
        · exact applied _ pinned nextChange

end Operations

end Tracked

/-! ## Goroutines -/

/-- The report a goroutine is delivering. -/
def Goroutine.report? : Goroutine Schema → Option Report
  | .reporting report => some report
  | _ => none

/-- The reports among goroutines. -/
def reportsOf (goroutines : List (Goroutine Schema)) : List Report :=
  goroutines.filterMap Goroutine.report?

section Turns

variable (gateway : Gateway Schema) (around : Surroundings Schema) {session : Session Schema}
  {rest : List Report} {settled : List Nat}

/-- No report is among the goroutines that inspect a list. -/
theorem reportsOf_startInspection (server : String) (asked : Bool) :
    reportsOf (startInspection gateway.parseFloat server asked around.upstream :
      List (Goroutine Schema)) =
      [] := by
  unfold startInspection
  cases around.upstream with
  | error => rfl
  | ok body =>
      dsimp only
      split <;> rfl

/-- A turn that only emits an event and starts no report. -/
theorem emitTurn_tracked (tracked : Tracked session rest settled) (fields : EventFields)
    {next : List (Goroutine Schema)} (quiet : reportsOf next = []) :
    Tracked (emitTurn gateway.env session fields next).session
      (reportsOf (emitTurn gateway.env session fields next).next ++ rest) settled := by
  change Tracked (session.emitEvent gateway.env fields).1 (reportsOf next ++ rest) settled
  rw [quiet]
  exact tracked.emitEvent gateway.env fields

/-- One round of the loop over a list starts the report its outcome calls for. -/
theorem inspectTool_tracked (tracked : Tracked session rest settled) (server : String)
    (listing : Listing) (tool : Tool) :
    Tracked (inspectTool gateway.env around server session listing tool).session
      ((inspectTool gateway.env around server session listing tool).report.toList ++ rest)
      settled := by
  unfold inspectTool
  dsimp only
  split
  · exact tracked.rejectDefinition gateway.env server _ _
  · split
    · exact tracked.emitEvent gateway.env _
    · unfold observeTool
      dsimp only
      split
      · rw [Tracked.report?_eq_none ⟨Action.noConfusion, Action.noConfusion⟩]
        exact tracked.emitEvent gateway.env _
      · cases gateway.env.toolHash tool with
        | error error =>
            rw [Tracked.report?_eq_none ⟨Action.noConfusion, Action.noConfusion⟩]
            exact tracked.rejectDefinition gateway.env server _ _
        | ok defHash =>
            dsimp only
            split
            · exact tracked.observeDefinition gateway.env server tool defHash _ _
            · rw [Tracked.report?_eq_none ⟨Action.noConfusion, Action.noConfusion⟩]
              exact tracked.rejectDefinition gateway.env server _ _

/-- **One turn.** Whatever a goroutine does, the session's changes stay tracked by
the reports in flight after it. -/
theorem turn_tracked (goroutine : Goroutine Schema)
    (tracked : Tracked session (goroutine.report?.toList ++ rest) settled) :
    Tracked (goroutine.turn gateway around session).session
      (reportsOf (goroutine.turn gateway around session).next ++ rest)
      (settled ++ (goroutine.settles around session).toList) := by
  cases goroutine with
  | arrived server agent body =>
      simp only [Goroutine.settles, Option.toList_none, List.append_nil, Goroutine.turn]
      split
      · exact tracked
      · exact tracked.ensureStarted gateway.env agent
  | dispatched server request =>
      simp only [Goroutine.settles, Option.toList_none, List.append_nil, Goroutine.turn]
      split
      · rw [reportsOf_startInspection]
        exact tracked
      · split
        · unfold dispatchCall
          split
          · exact tracked
          · split
            · exact tracked
            · split
              · exact emitTurn_tracked gateway tracked _ rfl
              · dsimp only
                split
                · exact tracked
                · exact tracked
        · exact tracked
  | relisting server =>
      simp only [Goroutine.settles, Option.toList_none, List.append_nil, Goroutine.turn]
      rw [reportsOf_startInspection]
      exact tracked
  | inspecting server held listing tools =>
      simp only [Goroutine.settles, Option.toList_none, List.append_nil]
      cases tools with
      | nil => exact tracked
      | cons tool tools =>
          have inspected := inspectTool_tracked gateway around tracked server listing tool
          simp only [Goroutine.turn]
          cases started : (inspectTool gateway.env around server session listing tool).report with
          | none =>
              rw [started] at inspected
              exact inspected
          | some report =>
              rw [started] at inspected
              exact inspected
  | reporting report =>
      have applied := tracked.applyVerdict gateway.env report around.control.isNone
        (around.control.getD {})
      have settles : ((Goroutine.reporting report).settles around session).toList =
          if !around.control.isNone && session.awaits (key report.server report.tool) report.revision
          then [report.revision] else [] := by
        simp only [Goroutine.settles, Option.not_isNone]
        split <;> rfl
      rw [settles]
      exact applied
  | allowed server params decision =>
      simp only [Goroutine.settles, Option.toList_none, List.append_nil, Goroutine.turn]
      split
      · exact emitTurn_tracked gateway tracked _ rfl
      · exact tracked
  | warned server params decision =>
      simp only [Goroutine.settles, Option.toList_none, List.append_nil, Goroutine.turn, auditCall]
      split <;> exact emitTurn_tracked gateway tracked _ rfl
  | posted server callId =>
      simp only [Goroutine.settles, Option.toList_none, List.append_nil, Goroutine.turn]
      refine emitTurn_tracked gateway tracked _ ?_
      split <;> rfl
  | failed callId reason =>
      simp only [Goroutine.settles, Option.toList_none, List.append_nil, Goroutine.turn]
      exact emitTurn_tracked gateway tracked _ rfl

end Turns

/-! ## Runs -/

namespace System

/-- The goroutines of a session. -/
def goroutinesOf (system : System Schema) (id : String) : List (Goroutine Schema) :=
  system.goroutines.filterMap fun running => if running.1 = id then some running.2 else none

/-- The reports of a session that are in flight. -/
def inFlight (system : System Schema) (id : String) : List Report :=
  reportsOf (system.goroutinesOf id)

/-- The revisions of a session whose verdict took effect. -/
def settledOf (system : System Schema) (id : String) : List Nat :=
  system.settled.filterMap fun settled => if settled.1 = id then some settled.2 else none

/-- The changes of a session are tracked. -/
def TracksChanges (system : System Schema) (id : String) : Prop :=
  Tracked (system.audit.sessions id) (system.inFlight id) (system.settledOf id)

variable {gateway : Gateway Schema} {system next : System Schema}

/-- The goroutines of a session after one of its turns. -/
theorem goroutinesOf_turned_self {id : String} {around : Surroundings Schema}
    {goroutine : Goroutine Schema} {front back : List (String × Goroutine Schema)} :
    (system.turned gateway id around goroutine front back).goroutinesOf id =
      ({ system with goroutines := front } : System Schema).goroutinesOf id ++
        (goroutine.turn gateway around (system.audit.sessions id)).next ++
        ({ system with goroutines := back } : System Schema).goroutinesOf id := by
  simp [turned, goroutinesOf, List.filterMap_append, List.filterMap_map]

/-- The goroutines of a session after a turn of another. -/
theorem goroutinesOf_turned_other {id other : String} (apart : other ≠ id)
    {around : Surroundings Schema} {goroutine : Goroutine Schema}
    {front back : List (String × Goroutine Schema)}
    (running : system.goroutines = front ++ (id, goroutine) :: back) :
    (system.turned gateway id around goroutine front back).goroutinesOf other =
      system.goroutinesOf other := by
  simp [turned, goroutinesOf, running, List.filterMap_append, List.filterMap_map, Ne.symm apart]

/-- A turn keeps the changes of every session tracked. -/
theorem turned_tracks {id : String} {around : Surroundings Schema} {goroutine : Goroutine Schema}
    {front back : List (String × Goroutine Schema)}
    (running : system.goroutines = front ++ (id, goroutine) :: back)
    (tracks : ∀ id, system.TracksChanges id) (other : String) :
    (system.turned gateway id around goroutine front back).TracksChanges other := by
  unfold TracksChanges
  by_cases same : other = id
  · subst same
    have before := tracks other
    unfold TracksChanges inFlight at before
    have split : reportsOf (system.goroutinesOf other) =
        reportsOf (({ system with goroutines := front } : System Schema).goroutinesOf other) ++
          (goroutine.report?.toList ++
            reportsOf (({ system with goroutines := back } : System Schema).goroutinesOf other)) := by
      simp only [goroutinesOf, running, reportsOf, List.filterMap_append, List.filterMap_cons,
        ↓reduceIte]
      cases goroutine.report? <;> rfl
    rw [split] at before
    have turned := turn_tracked gateway around goroutine
      (before.perm (List.perm_append_comm_assoc _ _ _))
    have sessions : (system.turned gateway other around goroutine front back).audit.sessions other =
        (goroutine.turn gateway around (system.audit.sessions other)).session :=
      Function.update_self ..
    have settled : (system.turned gateway other around goroutine front back).settledOf other =
        system.settledOf other ++
          (goroutine.settles around (system.audit.sessions other)).toList := by
      simp only [settledOf, System.turned, List.filterMap_append]
      cases goroutine.settles around (system.audit.sessions other) <;> simp
    rw [sessions, settled, inFlight, goroutinesOf_turned_self, reportsOf, List.filterMap_append,
      List.filterMap_append, List.append_assoc]
    exact turned.perm (List.perm_append_comm_assoc _ _ _)
  · have before := tracks other
    have sessions : (system.turned gateway id around goroutine front back).audit.sessions other =
        system.audit.sessions other := Function.update_of_ne same _ _
    have settled : (system.turned gateway id around goroutine front back).settledOf other =
        system.settledOf other := by
      simp only [settledOf, System.turned, List.filterMap_append]
      cases goroutine.settles around (system.audit.sessions id) <;> simp [Ne.symm same]
    rw [sessions, settled, inFlight, goroutinesOf_turned_other same running]
    exact before

/-- Every step keeps the changes of every session tracked. -/
theorem step_tracks {label : SystemLabel Schema} (step : SystemStep gateway system label next)
    (tracks : ∀ id, system.TracksChanges id) (id : String) : next.TracksChanges id := by
  cases step with
  | arrive arrived server agent body =>
      have same : ({ system with goroutines :=
          system.goroutines ++ [(arrived, .arrived server agent body)] } : System Schema).inFlight
            id = system.inFlight id := by
        simp only [inFlight, goroutinesOf, reportsOf, List.filterMap_append]
        by_cases mine : arrived = id <;> simp [mine, Goroutine.report?]
      unfold TracksChanges
      rw [same]
      exact tracks id
  | turn around running unlocked => exact turned_tracks running tracks id
  | @emit sender event rest held =>
      refine (tracks id).samePins ?_
      change ((system.audit.emitted sender event rest).sessions id).SamePins
        (system.audit.sessions id)
      unfold Audit.emitted
      split
      split
      · exact ⟨rfl, rfl⟩
      · by_cases mine : id = sender
        · subst mine
          dsimp only
          rw [Function.update_self]
          exact ⟨rfl, rfl⟩
        · dsimp only
          rw [Function.update_of_ne mine]
          exact ⟨rfl, rfl⟩
  | write queued => exact tracks id
  | close => exact tracks id

/-- The changes of every session are tracked in every state a process reaches. -/
theorem reachable_tracks {capacity : Nat} (reachable : (machine gateway capacity).Reachable system)
    (id : String) : system.TracksChanges id := by
  refine reachable.invariant (P := fun system => ∀ id, system.TracksChanges id) ?_ ?_ id
  · rintro _ rfl id
    exact Tracked.new id
  · exact fun _ _ _ tracks step => step_tracks step tracks

/-- The reports of a revision that are in flight. -/
def reportsOfRevision (system : System Schema) (id : String) (revision : Nat) : List Report :=
  (system.inFlight id).filter fun report => report.revision = revision

/-- **Changes are reported exactly once.** In every state a process reaches, each
pending change whose schema compiled has exactly one report in flight, or is
marked unreachable with none, or has had its verdict applied with none; no
revision has two reports in flight or two verdicts that took effect; and a
report that is not about the pending change of its key changes nothing. -/
theorem changes_reported_once {capacity : Nat}
    (reachable : (machine gateway capacity).Reachable system) (id : String) :
    (∀ key change, (system.audit.sessions id).Pending key change → change.schemaError = "" →
      ((system.reportsOfRevision id change.revision).length = 1 ∧
          change.unreachable = false ∧ change.verdictApplied = false) ∨
        (system.reportsOfRevision id change.revision = [] ∧
          change.unreachable = true ∧ change.verdictApplied = false) ∨
        (system.reportsOfRevision id change.revision = [] ∧
          change.unreachable = false ∧ change.verdictApplied = true)) ∧
      (∀ revision, (system.reportsOfRevision id revision).length ≤ 1) ∧
      (system.settledOf id).Nodup ∧
      ∀ report ∈ system.inFlight id,
        (∀ change, (system.audit.sessions id).Pending (key report.server report.tool) change →
          change.revision ≠ report.revision) →
        ∀ around : Surroundings Schema,
          (Goroutine.reporting report).turn gateway around (system.audit.sessions id) =
            { session := system.audit.sessions id } := by
  have tracked := reachable_tracks reachable id
  have atMostOne (revision : Nat) : (system.reportsOfRevision id revision).length ≤ 1 := by
    have counted := List.nodup_iff_count_le_one.mp tracked.distinct revision
    rw [List.count_eq_countP, List.countP_map] at counted
    rw [reportsOfRevision, ← List.countP_eq_length_filter]
    exact counted
  refine ⟨fun key change pending compilable => ?_, atMostOne, tracked.settledDistinct, ?_⟩
  · have none_of_landed (landed : ∀ report ∈ system.inFlight id,
        report.revision ≠ change.revision) :
        system.reportsOfRevision id change.revision = [] := by
      rw [reportsOfRevision, List.filter_eq_nil_iff]
      simpa using landed
    cases tracked.reported key change pending compilable with
    | flying report present revision key_eq reachable unanswered =>
        refine Or.inl ⟨le_antisymm (atMostOne _) ?_, reachable, unanswered⟩
        exact List.length_pos_of_mem (List.mem_filter.mpr ⟨present, by simpa using revision⟩)
    | failed landed unreachable unanswered =>
        exact Or.inr (Or.inl ⟨none_of_landed landed, unreachable, unanswered⟩)
    | answered landed reachable applied =>
        exact Or.inr (Or.inr ⟨none_of_landed landed, reachable, applied⟩)
  · intro report _ other around
    have stale : (system.audit.sessions id).Stale (Proxy.key report.server report.tool)
        report.revision := fun pin change found outstanding current =>
      absurd current (other change ⟨pin, found, outstanding⟩)
    simp only [Goroutine.turn, Session.applyVerdict_stale _ _ _ _ _ _ _ stale]

/-- A tool is listed, and listed again with another description. -/
def changedListing : List (Move Unit) :=
  let list := "\x7b\"method\":\"tools/list\"\x7d"
  let around (description : String) : Surroundings Unit :=
    { quarantined := fun _ _ => false
      compiled := fun _ _ => .ok ()
      upstream := .ok ("\x7b\"result\":\x7b\"tools\":[\x7b\"name\":\"read\",\"description\":\"" ++
        description ++ "\",\"inputSchema\":\x7b\x7d\x7d]\x7d\x7d") }
  [.arrive "session" "files" "agent" list, .turn 0 (around ""), .emit "session",
    .turn 0 (around "old"), .turn 0 (around ""), .emit "session", .turn 0 (around ""),
    .arrive "session" "files" "agent" list, .turn 0 (around ""), .turn 0 (around "new"),
    .turn 0 (around "")]

/-- A process that hashes a definition to its description. -/
def describing : Gateway Unit where
  env :=
    { sha256Hex := fun json =>
        match Json.Members.get? json.members "description" with
        | some (.str description) => .ok description
        | _ => .ok "event"
      clock := fun _ => "" }
  parseFloat := fun _ => none
  validate := fun _ _ => .ok ()

/-- A definition that has changed is reported once. -/
theorem changes_reported_once_changedListing :
    ∃ system : System Unit, (machine describing 8).Reachable system ∧
      (system.reportsOfRevision "session" 1).length = 1 := by
  have flying : (play describing { audit := Audit.initial 8 } changedListing).map
      (fun system => (system.reportsOfRevision "session" 1).length) = some 1 := by decide +kernel
  obtain ⟨system, played, one⟩ := Option.map_eq_some_iff.mp flying
  have reachable : (machine describing 8).Reachable system :=
    play_reachable ⟨[], .start rfl⟩ played
  exact ⟨system, reachable, le_antisymm ((changes_reported_once reachable "session").2.1 1) one.ge⟩

end System

end Proxy
