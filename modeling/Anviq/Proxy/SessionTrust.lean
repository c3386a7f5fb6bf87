import Anviq.Proxy.Session

/-! # Session trust safety

A run of one session is a sequence of observations, rejections and reports in
any order; reports may be delayed, reordered, repeated or stale, so nothing is
assumed of them. `Sound` and `Broken` describe a pin against the operations that
led to it: a pin that holds a compilable definition remembers where that
definition came from, and a pin that holds none has seen no compilable
definition. Both are preserved by every operation
(`Proxy.Session.run_traced`), and every call that `PrepareCall` allows is
justified by them (`Proxy.Session.prepareCall_trusted`).
-/

namespace Proxy

variable {Schema : Type}

/-- An observation as `observeTool` makes it: the hash of a definition is never
empty, the schema is nil exactly when there is a schema error, and whether the
definition compiles depends on its hash only. -/
structure Observed (compiles : String → Prop) (Schema : Type) where
  server : String
  tool : Tool
  defHash : String
  schema : Option Schema
  schemaError : String
  hashed : defHash ≠ ""
  schema_none : schema = none ↔ schemaError ≠ ""
  compiled : schemaError = "" ↔ compiles defHash

/-- The key an observation is about. -/
def Observed.key {compiles : String → Prop} (seen : Observed compiles Schema) : String :=
  Proxy.key seen.server (toolName seen.tool)

/-- The operations of a session's run that concern its pins. -/
inductive SessionOp (compiles : String → Prop) (Schema : Type) where
  | observe (seen : Observed compiles Schema)
  | reject (server name reason : String) (given : reason ≠ "")
  | report (server toolName : String) (revision : Nat) (unreachable : Bool) (verdict : Verdict)

namespace SessionOp

variable {compiles : String → Prop}

/-- The key an operation is about. -/
def key : SessionOp compiles Schema → String
  | .observe seen => seen.key
  | .reject server name _ _ => Proxy.key server name
  | .report server toolName _ _ _ => Proxy.key server toolName

/-- The session after an operation. -/
def apply (env : Env) (session : Session Schema) : SessionOp compiles Schema → Session Schema
  | .observe seen =>
      (session.observeDefinition env seen.server seen.tool seen.defHash seen.schema
        seen.schemaError).1
  | .reject server name reason _ => (session.rejectDefinition env server name reason).1
  | .report server toolName revision unreachable verdict =>
      (session.applyVerdict env server toolName revision unreachable verdict).1

end SessionOp

/-- The hash of the definition a pin is about: the pending one while there is one. -/
def PinnedTool.currentHash (pin : PinnedTool Schema) : String :=
  pin.pending.elim pin.defHash PendingChange.newHash

/-- What was last heard of a tool's definition. -/
inductive Sighting where
  | observed (defHash : String)
  | rejected
deriving DecidableEq

section History

variable {compiles : String → Prop}

/-- What an operation says about the definition of `key`. -/
def SessionOp.sighting? (key : String) (op : SessionOp compiles Schema) : Option Sighting :=
  if op.key = key then
    match op with
    | .observe seen => some (.observed seen.defHash)
    | .reject .. => some .rejected
    | .report .. => none
  else none

/-- The hash of the compilable definition of `key` an operation observes. -/
def SessionOp.compiled? (key : String) (op : SessionOp compiles Schema) : Option String :=
  if op.key = key then
    match op with
    | .observe seen => if seen.schemaError = "" then some seen.defHash else none
    | _ => none
  else none

/-- The most recent observation or rejection of `key`. -/
def lastSighting (key : String) (ops : List (SessionOp compiles Schema)) : Option Sighting :=
  (ops.filterMap (SessionOp.sighting? key)).getLast?

/-- The hash of the first compilable definition of `key`. -/
def firstCompilable (key : String) (ops : List (SessionOp compiles Schema)) : Option String :=
  (ops.filterMap (SessionOp.compiled? key)).head?

/-- `schema` was passed in with an observation of `defHash` for `key`. -/
def PassedIn (key defHash : String) (schema : Schema) (ops : List (SessionOp compiles Schema)) :
    Prop :=
  ∃ seen : Observed compiles Schema, .observe seen ∈ ops ∧ seen.key = key ∧
    seen.defHash = defHash ∧ seen.schema = some schema

theorem PassedIn.concat {key defHash : String} {schema : Schema}
    {ops : List (SessionOp compiles Schema)} (passed : PassedIn key defHash schema ops)
    (op : SessionOp compiles Schema) : PassedIn key defHash schema (ops ++ [op]) := by
  obtain ⟨seen, member, rest⟩ := passed
  exact ⟨seen, List.mem_append_left _ member, rest⟩

/-- The report of `key`'s change `revision` that carries a classification. -/
def SessionOp.Classifies (key : String) (revision : Nat) (op : SessionOp compiles Schema) : Prop :=
  ∃ server toolName verdict, op = .report server toolName revision false verdict ∧
    Proxy.key server toolName = key

/-- A failed report of `key`'s change `revision`. -/
def SessionOp.Fails (key : String) (revision : Nat) (op : SessionOp compiles Schema) : Prop :=
  ∃ server toolName verdict, op = .report server toolName revision true verdict ∧
    Proxy.key server toolName = key

end History

namespace Session

variable {compiles : String → Prop} (env : Env)

/-- The session after a run. -/
def run (session : Session Schema) (ops : List (SessionOp compiles Schema)) : Session Schema :=
  ops.foldl (SessionOp.apply env) session

@[simp] theorem run_nil (session : Session Schema) :
    session.run env ([] : List (SessionOp compiles Schema)) = session := rfl

@[simp] theorem run_concat (session : Session Schema) (ops : List (SessionOp compiles Schema))
    (op : SessionOp compiles Schema) :
    session.run env (ops ++ [op]) = op.apply env (session.run env ops) := by
  simp only [run, List.foldl_append, List.foldl_cons, List.foldl_nil]

/-- A session as the store creates it. -/
def new (id : String) : Session Schema := { id }

/-- The outcome of an observation made after a run. -/
def outcomeAfter (id : String) (ops : List (SessionOp compiles Schema))
    (seen : Observed compiles Schema) : ListOutcome :=
  (((new id : Session Schema).run env ops).observation seen.server seen.tool seen.defHash seen.schema
    seen.schemaError).outcome

/-- The hash a session pins for `key` after a run. -/
def pinnedHash (id : String) (ops : List (SessionOp compiles Schema)) (key : String) :
    Option String :=
  (((new id : Session Schema).run env ops).pinned key).map PinnedTool.defHash

/-- **The report a change is waiting for.** The change was allocated its
revision by an observation of its definition that found the pin `pinHash`; while
no verdict is applied, none has been given since; and a change marked unreachable
has had its report fail, with no retry after that. -/
structure Outstanding (id : String) (key pinHash : String) (change : PendingChange Schema)
    (before : List (SessionOp compiles Schema)) (seen : Observed compiles Schema)
    (since : List (SessionOp compiles Schema)) : Prop where
  key_eq : seen.key = key
  defHash : seen.defHash = change.newHash
  schema : seen.schema = change.newSchema
  schemaError : seen.schemaError = change.schemaError
  revision : (outcomeAfter env id before seen).revision = change.revision
  oldHash : (outcomeAfter env id before seen).oldHash = pinHash
  against : pinnedHash env id before key = some pinHash
  unanswered : change.verdictApplied = false →
    ∀ op ∈ since, ¬ op.Classifies key change.revision
  failed : change.schemaError = "" → change.unreachable = true → change.verdictApplied = false →
    ∃ during failure after, since = during ++ failure :: after ∧
      failure.Fails key change.revision ∧
      ∀ early again late, after = early ++ .observe again :: late → again.key = key →
        (outcomeAfter env id (before ++ .observe seen :: during ++ failure :: early) again).action ≠
          .retry

/-- **A definition approved by verdict.** A resume or warn verdict made `defHash`
the pin of `key`: it carried exactly the revision under which that definition
had been observed against the pin that was current when the verdict arrived. -/
def Approved (id key defHash : String) (ops : List (SessionOp compiles Schema)) : Prop :=
  ∃ before seen since server toolName revision verdict after,
    ops = before ++ .observe seen :: since ++
      .report server toolName revision false verdict :: after ∧
    Proxy.key server toolName = key ∧ seen.key = key ∧ seen.defHash = defHash ∧
    (verdict.action = "resume" ∨ verdict.action = "warn") ∧
    (outcomeAfter env id before seen).revision = revision ∧
    pinnedHash env id before key = some (outcomeAfter env id before seen).oldHash ∧
    pinnedHash env id (before ++ .observe seen :: since) key =
      some (outcomeAfter env id before seen).oldHash ∧
    pinnedHash env id (before ++ .observe seen :: since ++
      [.report server toolName revision false verdict]) key = some defHash

/-- A pin that holds no compilable definition. -/
structure Broken (key : String) (ops : List (SessionOp compiles Schema))
    (pin : PinnedTool Schema) : Prop where
  schemaError : pin.schemaError ≠ ""
  uncompilable : firstCompilable key ops = none
  defHash : pin.defHash = "" ∨ ¬ compiles pin.defHash
  pending : ∀ change, pin.pending = some change → change.schemaError ≠ ""

/-- A pin that holds a compilable definition. -/
structure Sound (id key : String) (ops : List (SessionOp compiles Schema))
    (pin : PinnedTool Schema) : Prop where
  schemaError : pin.schemaError = ""
  origin : firstCompilable key ops = some pin.defHash ∨ Approved env id key pin.defHash ops
  compiles : compiles pin.defHash
  schema : ∃ schema, pin.schema = some schema ∧ PassedIn key pin.defHash schema ops
  blocked : pin.invalidDefinition ≠ "" → pin.suspended = true ∧ pin.pending = none
  seen : pin.invalidDefinition = "" →
    lastSighting key ops = some (.observed pin.currentHash) ∧ pin.suspended = pin.pending.isSome
  outstanding : ∀ change, pin.pending = some change →
    ∃ before seen since, ops = before ++ .observe seen :: since ∧
      Outstanding env id key pin.defHash change before seen since

/-- What the operations of a run say about the pin of a key. -/
def Traced (id key : String) (ops : List (SessionOp compiles Schema)) :
    Option (PinnedTool Schema) → Prop
  | none => firstCompilable key ops = none
  | some pin => Broken key ops pin ∨ Sound env id key ops pin

/-! ## Histories grow at the end -/

section Growth

variable {key : String} {ops : List (SessionOp compiles Schema)}

theorem lastSighting_concat (op : SessionOp compiles Schema) :
    lastSighting key (ops ++ [op]) = (op.sighting? key).or (lastSighting key ops) := by
  simp only [lastSighting, List.filterMap_append, List.filterMap_cons, List.filterMap_nil]
  cases op.sighting? key <;> simp

theorem firstCompilable_concat (op : SessionOp compiles Schema) :
    firstCompilable key (ops ++ [op]) = (firstCompilable key ops).or (op.compiled? key) := by
  simp only [firstCompilable, List.filterMap_append, List.filterMap_cons, List.filterMap_nil,
    List.head?_append]
  cases op.compiled? key <;> simp

theorem sighting?_of_key_ne {op : SessionOp compiles Schema} (other : op.key ≠ key) :
    op.sighting? key = none := by
  simp only [SessionOp.sighting?, other, ↓reduceIte]

theorem compiled?_of_key_ne {op : SessionOp compiles Schema} (other : op.key ≠ key) :
    op.compiled? key = none := by
  simp only [SessionOp.compiled?, other, ↓reduceIte]

theorem Approved.concat {id defHash : String} (approved : Approved env id key defHash ops)
    (op : SessionOp compiles Schema) : Approved env id key defHash (ops ++ [op]) := by
  obtain ⟨before, seen, since, server, toolName, revision, verdict, after, rfl, rest⟩ := approved
  exact ⟨before, seen, since, server, toolName, revision, verdict, after ++ [op], by simp, rest⟩

/-- A wait goes on through any operation that neither settles nor retries the
report. -/
theorem Outstanding.concat {id pinHash : String} {change : PendingChange Schema}
    {before since : List (SessionOp compiles Schema)} {seen : Observed compiles Schema}
    (waiting : Outstanding env id key pinHash change before seen since)
    (op : SessionOp compiles Schema)
    (unanswered : change.verdictApplied = false → ¬ op.Classifies key change.revision)
    (unretried : change.schemaError = "" → change.unreachable = true →
      change.verdictApplied = false → ∀ again, op = .observe again → again.key ≠ key) :
    Outstanding env id key pinHash change before seen (since ++ [op]) where
  __ := waiting
  unanswered := fun open_ other member => by
    rcases List.mem_append.mp member with earlier | last
    · exact waiting.unanswered open_ other earlier
    · rw [List.mem_singleton.mp last]
      exact unanswered open_
  failed := fun compilable unreachable open_ => by
    obtain ⟨during, failure, after, rfl, fails, quiet⟩ :=
      waiting.failed compilable unreachable open_
    refine ⟨during, failure, after ++ [op], by simp, fails, ?_⟩
    intro early again late split same
    rcases List.eq_nil_or_concat late with rfl | ⟨front, last, rfl⟩
    · have ends := List.append_inj_right' split rfl
      exact absurd same (unretried compilable unreachable open_ again (by simpa using ends))
    · rw [List.concat_eq_append, ← List.cons_append, ← List.append_assoc] at split
      exact quiet early again front (List.append_inj_left' split rfl) same

/-- An operation on another key leaves the description of a pin as it is. -/
theorem Traced.concat_of_key_ne {id : String} {found : Option (PinnedTool Schema)}
    (traced : Traced env id key ops found) {op : SessionOp compiles Schema} (other : op.key ≠ key) :
    Traced env id key (ops ++ [op]) found := by
  have sameFirst : firstCompilable key (ops ++ [op]) = firstCompilable key ops := by
    rw [firstCompilable_concat, compiled?_of_key_ne other, Option.or_none]
  have sameLast : lastSighting key (ops ++ [op]) = lastSighting key ops := by
    rw [lastSighting_concat, sighting?_of_key_ne other, Option.none_or]
  cases found with
  | none => exact sameFirst.trans traced
  | some pin =>
      rcases traced with broken | sound
      · exact Or.inl { broken with uncompilable := sameFirst.trans broken.uncompilable }
      · refine Or.inr
          { sound with
            origin := ?_
            schema := ?_
            seen := fun valid => by rw [sameLast]; exact sound.seen valid
            outstanding := ?_ }
        · rw [sameFirst]
          exact sound.origin.imp_right fun approved => approved.concat env op
        · obtain ⟨schema, held, passed⟩ := sound.schema
          exact ⟨schema, held, passed.concat op⟩
        · intro change outstanding
          obtain ⟨before, seen, since, rfl, waiting⟩ := sound.outstanding change outstanding
          refine ⟨before, seen, since ++ [op], by simp, waiting.concat env op ?_ ?_⟩
          · rintro - ⟨server, toolName, verdict, rfl, same⟩
            exact other same
          · rintro - - - again rfl
            exact other

theorem lastSighting_observe {seen : Observed compiles Schema} (same : seen.key = key) :
    lastSighting key (ops ++ [.observe seen]) = some (.observed seen.defHash) := by
  simp only [lastSighting_concat, SessionOp.sighting?, SessionOp.key, same, ↓reduceIte,
    Option.some_or]

theorem firstCompilable_observe {seen : Observed compiles Schema} (same : seen.key = key) :
    firstCompilable key (ops ++ [.observe seen]) =
      (firstCompilable key ops).or (if seen.schemaError = "" then some seen.defHash else none) := by
  simp only [firstCompilable_concat, SessionOp.compiled?, SessionOp.key, same, ↓reduceIte]

theorem firstCompilable_uncompilable {seen : Observed compiles Schema} (same : seen.key = key)
    (uncompilable : firstCompilable key ops = none) (error : seen.schemaError ≠ "") :
    firstCompilable key (ops ++ [.observe seen]) = none := by
  rw [firstCompilable_observe same, uncompilable, if_neg error, Option.or_none]

theorem firstCompilable_keep {defHash : String} {op : SessionOp compiles Schema}
    (first : firstCompilable key ops = some defHash) :
    firstCompilable key (ops ++ [op]) = some defHash := by
  rw [firstCompilable_concat, first, Option.some_or]

/-- Where a pin came from stays true as the run goes on. -/
theorem origin_concat {id defHash : String} (op : SessionOp compiles Schema)
    (origin : firstCompilable key ops = some defHash ∨ Approved env id key defHash ops) :
    firstCompilable key (ops ++ [op]) = some defHash ∨ Approved env id key defHash (ops ++ [op]) :=
  origin.imp firstCompilable_keep fun approved => approved.concat env op

theorem schema_concat {pin : PinnedTool Schema} (op : SessionOp compiles Schema)
    (held : ∃ schema, pin.schema = some schema ∧ PassedIn key pin.defHash schema ops) :
    ∃ schema, pin.schema = some schema ∧ PassedIn key pin.defHash schema (ops ++ [op]) := by
  obtain ⟨schema, present, passed⟩ := held
  exact ⟨schema, present, passed.concat op⟩

end Growth

/-! ## Observations -/

section Observe

variable {id : String} {ops : List (SessionOp compiles Schema)} {seen : Observed compiles Schema}

/-- A compilable definition that becomes the pin directly is the first one. -/
theorem sound_of_first (uncompilable : firstCompilable seen.key ops = none)
    (compilable : seen.schemaError = "") :
    Sound env id seen.key (ops ++ [.observe seen])
      { defHash := seen.defHash, tool := seen.tool, schema := seen.schema
        riskClass := riskClass seen.tool } where
  schemaError := rfl
  origin := Or.inl (by
    rw [firstCompilable_observe rfl, uncompilable, if_pos compilable, Option.none_or])
  compiles := seen.compiled.mp compilable
  schema := by
    cases present : seen.schema with
    | none => exact absurd compilable (seen.schema_none.mp present)
    | some schema =>
        exact ⟨schema, rfl, seen, List.mem_append_right _ (List.mem_singleton.mpr rfl), rfl, rfl,
          present⟩
  blocked := fun invalid => absurd rfl invalid
  seen := fun _ => ⟨lastSighting_observe rfl, rfl⟩
  outstanding := fun _ absent => absurd absent (by simp)

theorem observeFirst_traced (nextChange : Nat) (uncompilable : firstCompilable seen.key ops = none) :
    Traced env id seen.key (ops ++ [.observe seen])
      (some (observeFirst seen.server seen.tool seen.defHash seen.schema seen.schemaError
        nextChange).pin) := by
  by_cases compilable : seen.schemaError = ""
  · refine Or.inr ?_
    have sound : Sound env id seen.key _ _ := sound_of_first env uncompilable compilable
    simpa [observeFirst, compilable] using sound
  · refine Or.inl ⟨compilable, firstCompilable_uncompilable rfl uncompilable compilable, ?_, ?_⟩
    · exact Or.inr fun compiles => compilable (seen.compiled.mpr compiles)
    · exact fun _ absent => absurd absent (by simp [observeFirst])

/-- Observing anything but a compilable definition leaves a broken pin broken. -/
theorem broken_observe {pin : PinnedTool Schema} (broken : Broken seen.key ops pin) (nextChange : Nat) :
    Traced env id seen.key (ops ++ [.observe seen])
      (some (observe seen.server seen.tool seen.defHash seen.schema seen.schemaError nextChange
        (some pin)).pin) := by
  have kept (error : seen.schemaError ≠ "") :=
    firstCompilable_uncompilable rfl broken.uncompilable error
  by_cases same : pin.defHash = seen.defHash
  · have error : seen.schemaError ≠ "" := fun compilable => by
      rcases broken.defHash with empty | uncompilable
      · exact seen.hashed (same.symm.trans empty)
      · exact uncompilable (same ▸ seen.compiled.mp compilable)
    rw [observe_unchanged same]
    simp only [observeUnchanged, error, false_and, decide_false, Bool.false_eq_true, ↓reduceIte]
    exact Or.inl ⟨broken.schemaError, kept error, broken.defHash, broken.pending⟩
  · by_cases compilable : seen.schemaError = ""
    · rw [observe_corrected same broken.schemaError compilable]
      exact Or.inr (sound_of_first env broken.uncompilable compilable)
    · have uncorrected : ¬ (pin.schemaError ≠ "" ∧ seen.schemaError = "") := fun both =>
        compilable both.2
      by_cases again : ∃ change, pin.pending = some change ∧ change.newHash = seen.defHash
      · obtain ⟨change, outstanding, again⟩ := again
        have invalid := broken.pending change outstanding
        rw [observe_pending same uncorrected outstanding again]
        simp only [observePending, invalid, ne_eq, not_false_eq_true, ↓reduceIte]
        exact Or.inl ⟨broken.schemaError, kept compilable, broken.defHash, broken.pending⟩
      · rw [observe_mismatch same uncorrected fun change outstanding equal =>
          again ⟨change, outstanding, equal⟩]
        refine Or.inl ⟨broken.schemaError, kept compilable, broken.defHash, ?_⟩
        rintro _ ⟨⟩
        exact compilable

/-- The pinned definition observed again is trusted again, whatever was pending. -/
theorem sound_unchanged {pin : PinnedTool Schema} (sound : Sound env id seen.key ops pin)
    (same : pin.defHash = seen.defHash) (nextChange : Nat) :
    Sound env id seen.key (ops ++ [.observe seen])
      (observeUnchanged seen.server seen.tool seen.defHash seen.schemaError nextChange
        (decide (pin.invalidDefinition ≠ "")) { pin with invalidDefinition := "" }).pin := by
  have compilable : seen.schemaError = "" := seen.compiled.mpr (same ▸ sound.compiles)
  have active (after : PinnedTool Schema) (defHash : after.defHash = pin.defHash)
      (schema : after.schema = pin.schema) (schemaError : after.schemaError = "")
      (valid : after.invalidDefinition = "") (unblocked : after.suspended = false)
      (settled : after.pending = none) :
      Sound env id seen.key (ops ++ [.observe seen]) after := by
    refine ⟨schemaError, defHash ▸ origin_concat env _ sound.origin, defHash ▸ sound.compiles, ?_,
      fun invalid => absurd valid invalid, fun _ => ⟨?_, ?_⟩, ?_⟩
    · rw [defHash, schema]
      exact schema_concat _ sound.schema
    · rw [lastSighting_observe rfl, PinnedTool.currentHash, settled, Option.elim_none, defHash, same]
    · rw [unblocked, settled, Option.isSome_none]
    · rw [settled]
      exact fun _ absent => absurd absent (by simp)
  by_cases restored : pin.invalidDefinition ≠ "" ∨ pin.pending.isSome = true
  · simp only [observeUnchanged, compilable, restored, decide_eq_true_eq, true_and, decide_true,
      ↓reduceIte]
    exact active _ rfl rfl sound.schemaError rfl rfl rfl
  · simp only [observeUnchanged, compilable, restored, decide_eq_true_eq, true_and, decide_false,
      Bool.false_eq_true, ↓reduceIte]
    push Not at restored
    have settled : pin.pending = none := by simpa using restored.2
    have unblocked : pin.suspended = false := by
      rw [(sound.seen restored.1).2, settled, Option.isSome_none]
    exact active _ rfl rfl sound.schemaError rfl unblocked settled

/-- A new change waits for the report that carries its revision. -/
theorem sound_mismatch {pin : PinnedTool Schema} (sound : Sound env id seen.key ops pin)
    (found : ((new id : Session Schema).run env ops).pinned seen.key = some pin)
    (changed : pin.defHash ≠ seen.defHash)
    (fresh : ∀ change, pin.pending = some change → change.newHash ≠ seen.defHash) :
    Sound env id seen.key (ops ++ [.observe seen])
      (observeMismatch seen.server seen.tool seen.defHash seen.schema seen.schemaError
        ((new id : Session Schema).run env ops).nextChange
        { pin with invalidDefinition := "" }).pin where
  schemaError := sound.schemaError
  origin := origin_concat env _ sound.origin
  compiles := sound.compiles
  schema := schema_concat _ sound.schema
  blocked := fun invalid => absurd rfl invalid
  seen := fun _ => ⟨lastSighting_observe rfl, rfl⟩
  outstanding := by
    rintro _ ⟨⟩
    have outcome : outcomeAfter env id ops seen =
        (observeMismatch seen.server seen.tool seen.defHash seen.schema seen.schemaError
          ((new id : Session Schema).run env ops).nextChange
          { pin with invalidDefinition := "" }).outcome := by
      rw [outcomeAfter, observation, show key seen.server (toolName seen.tool) = seen.key from rfl,
        found, observe_mismatch changed (fun both => both.1 sound.schemaError) fresh]
    refine ⟨ops, seen, [], rfl, ?_⟩
    exact
      { key_eq := rfl
        defHash := rfl
        schema := rfl
        schemaError := rfl
        revision := by rw [outcome]; rfl
        oldHash := by rw [outcome]; rfl
        against := by rw [pinnedHash, found]; rfl
        unanswered := fun _ _ absent => absurd absent List.not_mem_nil
        failed := fun _ unreachable => absurd unreachable Bool.false_ne_true }

/-- The pending definition observed again keeps waiting; a failed report is
retried under the same revision. -/
theorem sound_pending {pin : PinnedTool Schema} (sound : Sound env id seen.key ops pin)
    {change : PendingChange Schema} (outstanding : pin.pending = some change)
    (again : change.newHash = seen.defHash) (nextChange : Nat) :
    Sound env id seen.key (ops ++ [.observe seen])
      (observePending seen.server seen.tool seen.defHash nextChange
        { pin with invalidDefinition := "" } change).pin := by
  have valid : pin.invalidDefinition = "" := by
    by_contra invalid
    rw [(sound.blocked invalid).2] at outstanding
    exact absurd outstanding (by simp)
  have blocked : pin.suspended = true := by
    rw [(sound.seen valid).2, outstanding, Option.isSome_some]
  obtain ⟨before, first, since, history, waiting⟩ := sound.outstanding change outstanding
  have waits (after : PendingChange Schema) (sameHash : after.newHash = change.newHash)
      (still : Outstanding env id seen.key pin.defHash after before first
        (since ++ [.observe seen])) :
      Sound env id seen.key (ops ++ [.observe seen])
        { pin with invalidDefinition := "", pending := some after } := by
    refine ⟨sound.schemaError, origin_concat env _ sound.origin, sound.compiles,
      schema_concat _ sound.schema, fun invalid => absurd rfl invalid, fun _ => ⟨?_, blocked⟩, ?_⟩
    · rw [lastSighting_observe rfl, PinnedTool.currentHash, Option.elim_some, sameHash, again]
    · rintro _ ⟨⟩
      exact ⟨before, first, since ++ [.observe seen], by rw [history]; simp, still⟩
  have unclassified : ¬ (SessionOp.observe seen).Classifies seen.key change.revision := by
    rintro ⟨_, _, _, absurdity, _⟩
    exact absurd absurdity (by simp)
  have unchangedPin : pin = { pin with pending := some change } := by rw [← outstanding]
  simp only [observePending]
  split
  · next invalid =>
      rw [show ({ pin with invalidDefinition := "" } : PinnedTool Schema) =
        { pin with invalidDefinition := "", pending := some change } by rw [← outstanding]]
      exact waits change rfl (waiting.concat env _ (fun _ => unclassified)
        fun compilable => absurd compilable invalid)
  · split
    · refine waits _ rfl ?_
      exact
        { waiting with
          unanswered := fun open_ op member => by
            rcases List.mem_append.mp member with earlier | last
            · exact waiting.unanswered open_ op earlier
            · rw [List.mem_singleton.mp last]
              exact unclassified
          failed := fun _ unreachable => absurd unreachable Bool.false_ne_true }
    · next reachable =>
        rw [show ({ pin with invalidDefinition := "" } : PinnedTool Schema) =
          { pin with invalidDefinition := "", pending := some change } by rw [← outstanding]]
        exact waits change rfl (waiting.concat env _ (fun _ => unclassified)
          fun _ unreachable open_ => absurd ⟨unreachable, by simp [open_]⟩ reachable)

/-- Observing a definition keeps a sound pin sound. -/
theorem sound_observe {pin : PinnedTool Schema}
    (found : ((new id : Session Schema).run env ops).pinned seen.key = some pin)
    (sound : Sound env id seen.key ops pin) :
    Sound env id seen.key (ops ++ [.observe seen])
      (observe seen.server seen.tool seen.defHash seen.schema seen.schemaError
        ((new id : Session Schema).run env ops).nextChange (some pin)).pin := by
  have uncorrected : ¬ (pin.schemaError ≠ "" ∧ seen.schemaError = "") := fun both =>
    both.1 sound.schemaError
  by_cases same : pin.defHash = seen.defHash
  · rw [observe_unchanged same]
    exact sound_unchanged env sound same _
  · by_cases again : ∃ change, pin.pending = some change ∧ change.newHash = seen.defHash
    · obtain ⟨change, outstanding, again⟩ := again
      rw [observe_pending same uncorrected outstanding again]
      exact sound_pending env sound outstanding again _
    · have fresh : ∀ change, pin.pending = some change → change.newHash ≠ seen.defHash :=
        fun change outstanding equal => again ⟨change, outstanding, equal⟩
      rw [observe_mismatch same uncorrected fresh]
      exact sound_mismatch env sound found same fresh

end Observe

/-! ## Reports -/

section Report

variable {key : String} {ops : List (SessionOp compiles Schema)} {server toolName : String}
  {revision : Nat} {unreachable : Bool} {verdict : Verdict} {pin : PinnedTool Schema}
  {change : PendingChange Schema}

theorem firstCompilable_report :
    firstCompilable key (ops ++ [.report server toolName revision unreachable verdict]) =
      firstCompilable key ops := by
  rw [firstCompilable_concat]
  simp only [SessionOp.compiled?, ite_self, Option.or_none]

theorem lastSighting_report :
    lastSighting key (ops ++ [.report server toolName revision unreachable verdict]) =
      lastSighting key ops := by
  rw [lastSighting_concat]
  simp only [SessionOp.sighting?, ite_self, Option.none_or]

/-- A report about a broken pin leaves it broken: its change cannot be resumed. -/
theorem broken_settle (broken : Broken key ops pin) (outstanding : pin.pending = some change) :
    Broken key (ops ++ [.report server toolName revision unreachable verdict])
      (pin.settle server toolName change unreachable verdict).1 := by
  have invalid := broken.pending change outstanding
  have uncompilable : firstCompilable key
      (ops ++ [.report server toolName revision unreachable verdict]) = none :=
    firstCompilable_report.trans broken.uncompilable
  unfold PinnedTool.settle
  cases unreachable with
  | true =>
      refine ⟨broken.schemaError, uncompilable, broken.defHash, ?_⟩
      rintro _ ⟨⟩
      exact invalid
  | false =>
      simp only [Bool.false_eq_true, ↓reduceIte, invalid, ne_eq, not_false_eq_true]
      refine ⟨broken.schemaError, uncompilable, broken.defHash, ?_⟩
      rintro _ ⟨⟩
      exact invalid

/-- A pin with an outstanding change is marked by that change only. -/
theorem Sound.valid {id : String} (sound : Sound env id key ops pin)
    (outstanding : pin.pending = some change) : pin.invalidDefinition = "" := by
  by_contra invalid
  rw [(sound.blocked invalid).2] at outstanding
  exact absurd outstanding (by simp)

theorem Sound.suspended {id : String} (sound : Sound env id key ops pin)
    (outstanding : pin.pending = some change) : pin.suspended = true := by
  rw [(sound.seen (sound.valid env outstanding)).2, outstanding, Option.isSome_some]

/-- A report that does not promote the change marks it; the pin is the same
otherwise. -/
theorem sound_marked {id : String} (sound : Sound env id key ops pin)
    (outstanding : pin.pending = some change) {marked : PendingChange Schema}
    (sameHash : marked.newHash = change.newHash)
    (still : ∀ (before : List (SessionOp compiles Schema)) (seen : Observed compiles Schema)
      (since : List (SessionOp compiles Schema)),
      Outstanding env id key pin.defHash change before seen since →
        Outstanding env id key pin.defHash marked before seen
          (since ++ [.report server toolName revision unreachable verdict])) :
    Sound env id key (ops ++ [.report server toolName revision unreachable verdict])
      { pin with pending := some marked } := by
  have valid := sound.valid env outstanding
  refine ⟨sound.schemaError, origin_concat env _ sound.origin, sound.compiles,
    schema_concat _ sound.schema, fun invalid => absurd valid invalid, fun _ => ⟨?_, ?_⟩, ?_⟩
  · rw [lastSighting_report, (sound.seen valid).1, PinnedTool.currentHash, PinnedTool.currentHash,
      outstanding, Option.elim_some, Option.elim_some, sameHash]
  · exact sound.suspended env outstanding
  · rintro _ ⟨⟩
    obtain ⟨before, seen, since, rfl, waiting⟩ := sound.outstanding change outstanding
    exact ⟨before, seen, _, by simp, still before seen since waiting⟩

/-- A report that finds nothing to settle answers no outstanding change. -/
theorem sound_stale {id : String} (sound : Sound env id key ops pin)
    (stale : ∀ change, pin.pending = some change → change.revision = revision →
      change.verdictApplied = true) :
    Sound env id key (ops ++ [.report server toolName revision unreachable verdict]) pin where
  __ := sound
  origin := origin_concat env _ sound.origin
  schema := schema_concat _ sound.schema
  seen := fun valid => lastSighting_report.symm ▸ sound.seen valid
  outstanding := fun change outstanding => by
    obtain ⟨before, seen, since, rfl, waiting⟩ := sound.outstanding change outstanding
    refine ⟨before, seen, since ++ [.report server toolName revision unreachable verdict], by simp,
      waiting.concat env _ ?_ ?_⟩
    · rintro open_ ⟨_, _, _, sameReport, _⟩
      obtain ⟨-, -, current, -, -⟩ := SessionOp.report.inj sameReport
      rw [stale change outstanding current.symm] at open_
      exact absurd open_ (by decide)
    · rintro - - - again absurdity
      exact absurd absurdity (by simp)

/-- A resume or warn verdict makes the outstanding change the pin. -/
theorem sound_promoted {id : String} (sound : Sound env id key ops pin)
    (found : ((new id : Session Schema).run env ops).pinned key = some pin)
    (outstanding : pin.pending = some change) (same : Proxy.key server toolName = key)
    (current : change.revision = revision) (compilable : change.schemaError = "")
    (cleared : verdict.action = "resume" ∨ verdict.action = "warn")
    (promoted : (((new id : Session Schema).run env
      (ops ++ [.report server toolName revision false verdict])).pinned key) =
        some change.promoted) :
    Sound env id key (ops ++ [.report server toolName revision false verdict])
      change.promoted := by
  have valid := sound.valid env outstanding
  obtain ⟨before, seen, since, rfl, waiting⟩ := sound.outstanding change outstanding
  have seenCompilable : seen.schemaError = "" := waiting.schemaError.trans compilable
  refine ⟨rfl, Or.inr ?_, ?_, ?_, fun invalid => absurd rfl invalid, fun _ => ⟨?_, rfl⟩, ?_⟩
  · refine ⟨before, seen, since, server, toolName, revision, verdict, [], by simp, same,
      waiting.key_eq, waiting.defHash, cleared, waiting.revision.trans current, ?_, ?_, ?_⟩
    · rw [waiting.against, waiting.oldHash]
    · rw [pinnedHash, found, Option.map_some, waiting.oldHash]
    · rw [pinnedHash, promoted]
      rfl
  · rw [PendingChange.promoted, ← waiting.defHash]
    exact seen.compiled.mp seenCompilable
  · cases present : seen.schema with
    | none => exact absurd seenCompilable (seen.schema_none.mp present)
    | some schema =>
        exact ⟨schema, waiting.schema.symm.trans present, seen, by simp, waiting.key_eq,
          waiting.defHash, present⟩
  · rw [lastSighting_report, (sound.seen valid).1, PinnedTool.currentHash, outstanding]
    rfl
  · exact fun _ absent => absurd absent (by simp [PendingChange.promoted])

/-- A report about the outstanding change of a sound pin keeps it sound. -/
theorem sound_settle {id : String} (sound : Sound env id key ops pin)
    (found : ((new id : Session Schema).run env ops).pinned key = some pin)
    (outstanding : pin.pending = some change) (same : Proxy.key server toolName = key)
    (current : change.revision = revision)
    (after : ((new id : Session Schema).run env
      (ops ++ [.report server toolName revision unreachable verdict])).pinned key =
        some (pin.settle server toolName change unreachable verdict).1) :
    Sound env id key (ops ++ [.report server toolName revision unreachable verdict])
      (pin.settle server toolName change unreachable verdict).1 := by
  have applied : Sound env id key (ops ++ [.report server toolName revision unreachable verdict])
      { pin with pending := some { change with verdictApplied := true } } := by
    refine sound_marked env sound outstanding (by rfl) fun before seen since waiting => ?_
    exact
      { waiting with
        unanswered := fun open_ => absurd open_.symm Bool.false_ne_true
        failed := fun _ _ open_ => absurd open_.symm Bool.false_ne_true }
  cases unreachable with
  | true =>
      refine sound_marked env sound outstanding (by rfl) fun before seen since waiting => ?_
      refine
        { waiting with
          unanswered := fun open_ op member => ?_
          failed := fun _ _ _ => ⟨since, _, [], rfl, ⟨server, toolName, verdict, ?_, same⟩, ?_⟩ }
      · rcases List.mem_append.mp member with earlier | last
        · exact waiting.unanswered open_ op earlier
        · rw [List.mem_singleton.mp last]
          rintro ⟨_, _, _, absurdity, _⟩
          exact absurd absurdity (by simp)
      · rw [current]
      · intro early again late absurdity
        exact absurd absurdity (by simp)
  | false =>
      simp only [PinnedTool.settle, Bool.false_eq_true, ↓reduceIte] at after ⊢
      by_cases invalid : change.schemaError ≠ ""
      · rw [if_pos invalid]
        exact applied
      · rw [if_neg invalid] at after ⊢
        by_cases cleared : verdict.action = "resume" ∨ verdict.action = "warn"
        · rw [if_pos cleared] at after ⊢
          exact sound_promoted env sound found outstanding same current (not_not.mp invalid)
            cleared after
        · rw [if_neg cleared]
          split
          · exact applied
          · exact applied

end Report

/-! ## Every operation, every run -/

section Run

variable {id key : String} {ops : List (SessionOp compiles Schema)}

theorem apply_pinned_of_key_ne (session : Session Schema) {op : SessionOp compiles Schema}
    (other : op.key ≠ key) : (op.apply env session).pinned key = session.pinned key := by
  cases op with
  | observe seen =>
      rw [SessionOp.apply, observeDefinition_pinned]
      exact Function.update_of_ne (Ne.symm other) _ _
  | reject server name reason given =>
      rw [SessionOp.apply, rejectDefinition_pinned]
      exact Function.update_of_ne (Ne.symm other) _ _
  | report server toolName revision unreachable verdict =>
      obtain stale | ⟨pin, change, -, -, -, -, settled⟩ :=
        session.applyVerdict_cases env server toolName revision unreachable verdict
      · rw [SessionOp.apply, stale.2]
      · rw [SessionOp.apply, settled, buildEvents_pinned, setPin_pinned]
        exact Function.update_of_ne (Ne.symm other) _ _

theorem observe_traced {seen : Observed compiles Schema}
    (traced : Traced env id seen.key ops
      (((new id : Session Schema).run env ops).pinned seen.key)) :
    Traced env id seen.key (ops ++ [.observe seen])
      (((new id : Session Schema).run env (ops ++ [.observe seen])).pinned seen.key) := by
  rw [run_concat, SessionOp.apply, observeDefinition_pinned, Observed.key, Function.update_self,
    observation]
  change Traced env id seen.key _ (some (observe _ _ _ _ _ _
    (((new id : Session Schema).run env ops).pinned seen.key)).pin)
  cases found : ((new id : Session Schema).run env ops).pinned seen.key with
  | none =>
      rw [found] at traced
      exact observeFirst_traced env _ traced
  | some pin =>
      rw [found] at traced
      rcases traced with broken | sound
      · exact broken_observe env broken _
      · exact Or.inr (sound_observe env found sound)

theorem reject_traced {server name reason : String} (given : reason ≠ "")
    (traced : Traced env id (Proxy.key server name) ops
      (((new id : Session Schema).run env ops).pinned (Proxy.key server name))) :
    Traced env id (Proxy.key server name) (ops ++ [.reject server name reason given])
      (((new id : Session Schema).run env (ops ++ [.reject server name reason given])).pinned
        (Proxy.key server name)) := by
  have sameFirst : firstCompilable (Proxy.key server name)
      (ops ++ [(.reject server name reason given : SessionOp compiles Schema)]) =
        firstCompilable (Proxy.key server name) ops := by
    rw [firstCompilable_concat]
    simp only [SessionOp.compiled?, ite_self, Option.or_none]
  rw [run_concat, SessionOp.apply, rejectDefinition_pinned, Function.update_self]
  cases found : ((new id : Session Schema).run env ops).pinned (Proxy.key server name) with
  | none =>
      rw [found] at traced
      exact Or.inl ⟨given, sameFirst.trans traced, Or.inl rfl, fun _ absent => absurd absent (by
        simp [rejected])⟩
  | some pin =>
      rw [found] at traced
      rcases traced with broken | sound
      · exact Or.inl ⟨broken.schemaError, sameFirst.trans broken.uncompilable, broken.defHash,
          fun _ absent => absurd absent (by simp [rejected])⟩
      · exact Or.inr
          { schemaError := sound.schemaError
            origin := origin_concat env _ sound.origin
            compiles := sound.compiles
            schema := schema_concat _ sound.schema
            blocked := fun _ => ⟨rfl, rfl⟩
            seen := fun valid => absurd valid given
            outstanding := fun _ absent => absurd absent (by simp [rejected]) }

theorem report_traced {server toolName : String} {revision : Nat} {unreachable : Bool}
    {verdict : Verdict}
    (traced : Traced env id (Proxy.key server toolName) ops
      (((new id : Session Schema).run env ops).pinned (Proxy.key server toolName))) :
    Traced env id (Proxy.key server toolName)
      (ops ++ [.report server toolName revision unreachable verdict])
      (((new id : Session Schema).run env
        (ops ++ [.report server toolName revision unreachable verdict])).pinned
          (Proxy.key server toolName)) := by
  have step := run_concat env (new id : Session Schema) ops
    (.report server toolName revision unreachable verdict)
  obtain ⟨stale, ignored⟩ | ⟨pin, change, found, outstanding, current, -, settled⟩ :=
    ((new id : Session Schema).run env ops).applyVerdict_cases env server toolName revision
      unreachable verdict
  · rw [step, SessionOp.apply, ignored]
    cases found : ((new id : Session Schema).run env ops).pinned (Proxy.key server toolName) with
    | none =>
        rw [found] at traced
        exact firstCompilable_report.trans traced
    | some pin =>
        rw [found] at traced
        rcases traced with broken | sound
        · exact Or.inl
            { broken with uncompilable := firstCompilable_report.trans broken.uncompilable }
        · exact Or.inr (sound_stale env sound (stale pin · found))
  · have after : ((new id : Session Schema).run env
        (ops ++ [(.report server toolName revision unreachable verdict :
          SessionOp compiles Schema)])).pinned (Proxy.key server toolName) =
          some (pin.settle server toolName change unreachable verdict).1 := by
      rw [step, SessionOp.apply, settled, buildEvents_pinned, setPin_pinned, Function.update_self]
    rw [found] at traced
    rw [after]
    rcases traced with broken | sound
    · exact Or.inl (broken_settle broken outstanding)
    · exact Or.inr (sound_settle env sound found outstanding rfl current after)

/-- One step of a run keeps every pin traced. -/
theorem apply_traced (op : SessionOp compiles Schema)
    (traced : ∀ key, Traced env id key ops (((new id : Session Schema).run env ops).pinned key))
    (key : String) :
    Traced env id key (ops ++ [op])
      (((new id : Session Schema).run env (ops ++ [op])).pinned key) := by
  by_cases same : op.key = key
  · subst same
    cases op with
    | observe seen => exact observe_traced env (traced seen.key)
    | reject server name reason given =>
        exact reject_traced env given (traced (Proxy.key server name))
    | report server toolName revision unreachable verdict =>
        exact report_traced env (traced (Proxy.key server toolName))
  · rw [run_concat, apply_pinned_of_key_ne env _ same]
    exact (traced key).concat_of_key_ne env same

/-- Every pin of every run is described by the operations that led to it. -/
theorem run_traced (ops : List (SessionOp compiles Schema)) (key : String) :
    Traced env id key ops (((new id : Session Schema).run env ops).pinned key) := by
  induction ops using List.reverseRecOn generalizing key with
  | nil => rfl
  | append_singleton ops op ih => exact apply_traced env op ih key

/-- The two ways `PrepareCall` allows a call of a pinned tool. -/
theorem decide_allow {pin : PinnedTool Schema} (allowed : pin.decide.allow = true) :
    pin.invalidDefinition = "" ∧ pin.schemaError = "" ∧
      ((pin.suspended = false ∧ pin.decide.defHash = pin.defHash ∧
          pin.decide.schema = pin.schema) ∨
        ∃ change, pin.pending = some change ∧ change.schemaError = "" ∧ pin.suspended = true ∧
          pin.failOpen change = true ∧ pin.decide.code = "WARN_CONTROL_PLANE_UNREACHABLE" ∧
          pin.decide.defHash = change.newHash ∧ pin.decide.schema = change.newSchema) := by
  unfold PinnedTool.decide at allowed ⊢
  split at allowed
  · exact absurd allowed (by simp)
  · next valid =>
      rw [if_neg valid]
      split at allowed
      · exact absurd allowed (by simp)
      · next compilable =>
          rw [if_neg compilable]
          refine ⟨not_not.mp valid, not_not.mp compilable, ?_⟩
          cases outstanding : pin.pending with
          | none =>
              simp only [outstanding] at allowed ⊢
              cases suspended : pin.suspended with
              | false => exact Or.inl ⟨rfl, rfl, rfl⟩
              | true => simp [suspended] at allowed
          | some change =>
              simp only [outstanding] at allowed ⊢
              split at allowed
              · exact absurd allowed (by simp)
              · next changeCompilable =>
                  rw [if_neg changeCompilable]
                  cases suspended : pin.suspended with
                  | false => exact Or.inl ⟨rfl, rfl, rfl⟩
                  | true =>
                      simp only [suspended, Bool.not_true, Bool.false_eq_true,
                        ↓reduceIte] at allowed ⊢
                      by_cases open_ : pin.failOpen change = true
                      · refine Or.inr ⟨change, rfl, not_not.mp changeCompilable, trivial, open_, ?_⟩
                        simp only [open_, ↓reduceIte, and_self]
                      · simp [open_] at allowed

/-- What the fail-open condition says. -/
theorem failOpen_iff {pin : PinnedTool Schema} {change : PendingChange Schema} :
    pin.failOpen change = true ↔
      change.verdictApplied = false ∧ change.unreachable = true ∧ pin.riskClass = .readOnly ∧
        change.riskClass = .readOnly := by
  simp only [PinnedTool.failOpen, Bool.and_eq_true, Bool.not_eq_true', decide_eq_true_eq, and_assoc]

/-- **Trust safety.** A call that `PrepareCall` allows is for the definition last
observed, carries the schema that came with that definition, and either the
definition is the pin, as the first compilable one or by a verdict on its own
revision, or the call is let through fail-open while the control plane cannot
be reached. -/
theorem prepareCall_trusted (id : String) (ops : List (SessionOp compiles Schema))
    (server toolName : String)
    (allowed : (((new id : Session Schema).run env ops).prepareCall server toolName).allow = true) :
    let decision := ((new id : Session Schema).run env ops).prepareCall server toolName
    lastSighting (Proxy.key server toolName) ops = some (.observed decision.defHash) ∧
      (∃ schema, decision.schema = some schema ∧
        PassedIn (Proxy.key server toolName) decision.defHash schema ops) ∧
      ∃ pin, ((new id : Session Schema).run env ops).pinned (Proxy.key server toolName) = some pin ∧
        ((pin.suspended = false ∧ pin.defHash = decision.defHash ∧
            (firstCompilable (Proxy.key server toolName) ops = some decision.defHash ∨
              Approved env id (Proxy.key server toolName) decision.defHash ops)) ∨
          decision.code = "WARN_CONTROL_PLANE_UNREACHABLE" ∧
            ∃ change, pin.pending = some change ∧ change.newHash = decision.defHash ∧
              change.verdictApplied = false ∧ change.unreachable = true ∧
              change.schemaError = "" ∧ pin.riskClass = .readOnly ∧ change.riskClass = .readOnly ∧
              ∃ before seen since, ops = before ++ .observe seen :: since ∧
                Outstanding env id (Proxy.key server toolName) pin.defHash change before seen since) := by
  have traced : Traced env id _ ops _ := run_traced env ops (Proxy.key server toolName)
  dsimp only
  unfold prepareCall at allowed ⊢
  cases found : ((new id : Session Schema).run env ops).pinned (Proxy.key server toolName) with
  | none =>
      rw [found] at allowed
      exact absurd allowed (by simp)
  | some pin =>
      rw [found] at allowed traced
      dsimp only at allowed ⊢
      obtain ⟨valid, compilable, pinned | ⟨change, outstanding, changeCompilable, suspended,
        failOpen, code, defHash, schema⟩⟩ := decide_allow allowed
      · obtain ⟨active, defHash, schema⟩ := pinned
        have sound := traced.resolve_left fun broken => broken.schemaError compilable
        have settled : pin.pending = none := by
          have blocked := (sound.seen valid).2
          rw [active] at blocked
          simpa using blocked.symm
        refine ⟨?_, ?_, pin, rfl, Or.inl ⟨active, defHash.symm, ?_⟩⟩
        · rw [(sound.seen valid).1, PinnedTool.currentHash, settled, Option.elim_none, defHash]
        · rw [schema, defHash]
          exact sound.schema
        · rw [defHash]
          exact sound.origin
      · have sound := traced.resolve_left fun broken => broken.schemaError compilable
        obtain ⟨fresh, unreachable, readOnly, changeReadOnly⟩ := failOpen_iff.mp failOpen
        obtain ⟨before, seen, since, history, waiting⟩ := sound.outstanding change outstanding
        refine ⟨?_, ?_, pin, rfl, Or.inr ⟨code, change, outstanding, defHash.symm, fresh,
          unreachable, changeCompilable, readOnly, changeReadOnly, before, seen, since, history,
          waiting⟩⟩
        · rw [(sound.seen valid).1, PinnedTool.currentHash, outstanding, Option.elim_some, defHash]
        · rw [schema, defHash]
          cases present : seen.schema with
          | none =>
              exact absurd (waiting.schemaError.trans changeCompilable)
                (seen.schema_none.mp present)
          | some compiled =>
              exact ⟨compiled, waiting.schema.symm.trans present, seen, by simp [history],
                waiting.key_eq, waiting.defHash, present⟩

/-- A definition is pinned, changed and cleared by a verdict on the change. -/
def clearedChange : List (SessionOp (fun _ => True) Unit) :=
  [.observe ⟨"files", [("name", .str "read")], "old", some (), "", by decide, by decide, by decide⟩,
    .observe ⟨"files", [("name", .str "read"), ("description", .str "changed")], "new", some (), "",
      by decide, by decide, by decide⟩,
    .report "files" "read" 1 false { action := "resume" }]

/-- A cleared change is the contract from then on. -/
theorem prepareCall_trusted_clearedChange :
    let env : Env := ⟨fun _ => .ok "", fun _ => ""⟩
    let decision := ((new "session" : Session Unit).run env clearedChange).prepareCall "files" "read"
    decision.defHash = "new" ∧
      lastSighting (Proxy.key "files" "read") clearedChange = some (.observed decision.defHash) :=
  ⟨by decide, (prepareCall_trusted ⟨fun _ => .ok "", fun _ => ""⟩ "session" clearedChange "files"
    "read" (by decide)).1⟩

end Run

end Session

end Proxy
