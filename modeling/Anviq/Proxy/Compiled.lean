import Anviq.Proxy.Contents

/-! # Compiled contracts

A contract that lets a call through has a schema: the one the schema cache gave when the session was
shown a definition with the hash of the contract. `Compiled` says so of a pin and of the change on
it. Every operation on a pin keeps it, so every run of the process does.
-/

namespace Proxy

variable {Schema : Type}

/-- Unless it has a schema error, a contract has a schema, and that schema was given for its
hash. -/
def Gave (given : String → Schema → Prop) (schemaError defHash : String)
    (schema : Option Schema) : Prop :=
  schemaError = "" → ∃ compiled, schema = some compiled ∧ given defHash compiled

/-- A pin and its pending change have the schemas that were given for their hashes. -/
structure PinnedTool.Compiled (given : String → Schema → Prop) (pin : PinnedTool Schema) :
    Prop where
  held : Gave given pin.schemaError pin.defHash pin.schema
  proposed : ∀ change, pin.pending = some change →
    Gave given change.schemaError change.newHash change.newSchema

/-- The session was shown a definition of the key and of the hash, and the schema cache gave the
schema for it. -/
def ShownCompiled (gateway : Gateway Schema) (labels : List (SystemLabel Schema))
    (id key defHash : String) (schema : Schema) : Prop :=
  ∃ server held listing tool tools around inputSchema,
    .turn id (.inspecting server held listing (tool :: tools)) around ∈ labels ∧
      Proxy.key server (toolName tool) = key ∧ gateway.env.toolHash tool = .ok defHash ∧
      tool.get? "inputSchema" = some (.obj inputSchema) ∧
      around.compiled defHash inputSchema = .ok schema

/-! ## Pins -/

/-- The schema cache gives a schema or an error. -/
theorem compileResult_gave {given : String → Schema → Prop} {defHash : String}
    {compiled : Except String Schema}
    (gives : ∀ schema, compiled = .ok schema → given defHash schema) :
    Gave given (compileResult compiled).2 defHash (compileResult compiled).1 := by
  cases compiled with
  | ok schema => exact fun _ => ⟨schema, rfl, gives schema rfl⟩
  | error detail =>
      exact fun clean => absurd clean (reason_given "schemacache: " detail (by decide))

namespace PinnedTool.Compiled

variable {given wider : String → Schema → Prop} {pin : PinnedTool Schema}
  {server defHash schemaError : String} {tool : Tool} {schema : Option Schema} {nextChange : Nat}

theorem mono (compiled : pin.Compiled given)
    (also : ∀ defHash schema, given defHash schema → wider defHash schema) :
    pin.Compiled wider where
  held := fun clean =>
    (compiled.held clean).imp fun schema gave => ⟨gave.1, also pin.defHash schema gave.2⟩
  proposed := fun change outstanding clean =>
    (compiled.proposed change outstanding clean).imp fun schema gave =>
      ⟨gave.1, also change.newHash schema gave.2⟩

/-- Marks are not part of a pin's contents. -/
theorem marked (compiled : pin.Compiled given) (invalidDefinition : String) (suspended : Bool) :
    ({ pin with invalidDefinition, suspended } : PinnedTool Schema).Compiled given :=
  ⟨compiled.held, compiled.proposed⟩

/-- A pin without its pending change. -/
theorem settled (compiled : pin.Compiled given) (invalidDefinition : String) (suspended : Bool) :
    ({ pin with invalidDefinition, suspended, pending := none } : PinnedTool Schema).Compiled
      given :=
  ⟨compiled.held, fun _ absent => by cases absent⟩

/-- A pin whose pending change has other marks. -/
theorem remarked (compiled : pin.Compiled given) {change : PendingChange Schema}
    (outstanding : pin.pending = some change) (unreachable verdictApplied : Bool) :
    ({ pin with pending := some { change with unreachable, verdictApplied } } :
      PinnedTool Schema).Compiled given where
  held := compiled.held
  proposed := by
    rintro _ ⟨⟩
    exact compiled.proposed change outstanding

/-- The pin of a definition that cannot be verified. -/
theorem rejected {found : Option (PinnedTool Schema)}
    (compiled : ∀ pin, found = some pin → pin.Compiled given) {reason : String}
    (stated : reason ≠ "") : (Session.rejected found reason).Compiled given := by
  cases found with
  | none => exact ⟨fun clean => absurd clean stated, fun _ absent => by cases absent⟩
  | some pin => exact (compiled pin rfl).settled reason true

/-- A definition comes with the schema that was given for it. -/
theorem observe (gave : Gave given schemaError defHash schema)
    (found : Option (PinnedTool Schema)) (compiled : ∀ pin, found = some pin → pin.Compiled given) :
    (Proxy.observe server tool defHash schema schemaError nextChange found).pin.Compiled given := by
  revert compiled
  refine observe_cases (P := fun found observation =>
    (∀ pin, found = some pin → pin.Compiled given) → observation.pin.Compiled given)
    ?_ ?_ ?_ ?_ ?_ found
  · exact fun _ => ⟨gave, fun _ absent => by cases absent⟩
  · intro pin _ compiled
    simp only [observeUnchanged]
    split
    · exact (compiled pin rfl).settled "" false
    · exact (compiled pin rfl).marked "" pin.suspended
  · exact fun pin _ _ clean _ => ⟨fun _ => gave clean, fun _ absent => by cases absent⟩
  · intro pin change _ _ outstanding _ compiled
    unfold observePending
    split
    · exact (compiled pin rfl).marked "" pin.suspended
    · split
      · exact ((compiled pin rfl).marked "" pin.suspended).remarked outstanding false
          change.verdictApplied
      · exact (compiled pin rfl).marked "" pin.suspended
  · intro pin _ _ _ compiled
    refine ⟨(compiled pin rfl).held, ?_⟩
    rintro _ ⟨⟩
    exact gave

/-- A report that lands makes a change the pin only if its schema compiled. -/
theorem settle (compiled : pin.Compiled given) {change : PendingChange Schema}
    (outstanding : pin.pending = some change) (name : String) (unreachable : Bool)
    (verdict : Verdict) : (pin.settle server name change unreachable verdict).1.Compiled given := by
  rw [PinnedTool.settle_pin]
  split
  · exact compiled.remarked outstanding true change.verdictApplied
  · split
    · next cleared =>
        exact ⟨fun _ => compiled.proposed change outstanding cleared.1,
          fun _ absent => by cases absent⟩
    · exact compiled.remarked outstanding change.unreachable true

/-- A call is let through under a contract with a schema. -/
theorem decide (compiled : pin.Compiled given) (allowed : pin.decide.allow = true) :
    ∃ schema, pin.decide.schema = some schema ∧ given pin.decide.defHash schema := by
  rcases Session.decide_allow allowed with
    ⟨-, clean, ⟨-, defHash, schema⟩ | ⟨change, outstanding, changeClean, -, -, -, defHash, schema⟩⟩
  · rw [defHash, schema]
    exact compiled.held clean
  · rw [defHash, schema]
    exact compiled.proposed change outstanding changeClean

end PinnedTool.Compiled

/-! ## Runs -/

section Runs

variable {gateway : Gateway Schema} {capacity : Nat} {system : System Schema}
  {labels : List (SystemLabel Schema)} {label : SystemLabel Schema} {id key : String}

theorem ShownCompiled.later {defHash : String} {schema : Schema}
    (shown : ShownCompiled gateway labels id key defHash schema) :
    ShownCompiled gateway (labels ++ [label]) id key defHash schema := by
  rcases shown with ⟨server, held, listing, tool, tools, around, inputSchema, among, rest⟩
  exact ⟨server, held, listing, tool, tools, around, inputSchema, List.mem_append_left _ among,
    rest⟩

/-- The pins of a session are compiled. -/
def CompiledPins (gateway : Gateway Schema) (labels : List (SystemLabel Schema)) (id : String)
    (session : Session Schema) : Prop :=
  ∀ key pin, session.pinned key = some pin → pin.Compiled (ShownCompiled gateway labels id key)

theorem CompiledPins.later {session : Session Schema}
    (compiled : CompiledPins gateway labels id session) (label : SystemLabel Schema) :
    CompiledPins gateway (labels ++ [label]) id session :=
  fun key pin found => (compiled key pin found).mono fun _ _ shown => shown.later

/-- Replacing one pin by a compiled one. -/
theorem CompiledPins.replace {session next : Session Schema}
    (compiled : CompiledPins gateway labels id session) {pin : PinnedTool Schema}
    (pinned : next.pinned = Function.update session.pinned key (some pin))
    (given : pin.Compiled (ShownCompiled gateway labels id key)) :
    CompiledPins gateway labels id next := by
  intro other found present
  rw [pinned] at present
  by_cases same : other = key
  · rw [same, Function.update_self] at present
    cases present
    rw [same]
    exact given
  · rw [Function.update_of_ne same] at present
    exact compiled other found present

/-- Whatever a goroutine does, the pins of its session stay compiled. -/
theorem turn_compiled (around : Surroundings Schema) {session : Session Schema}
    (goroutine : Goroutine Schema) (compiled : CompiledPins gateway labels id session) :
    CompiledPins gateway (labels ++ [.turn id goroutine around]) id
      (goroutine.turn gateway around session).session := by
  have before := compiled.later (.turn id goroutine around)
  cases turn_repins gateway around session goroutine with
  | kept same => exact fun key pin found => before key pin (same ▸ found)
  | @observed server defHash held listing tool tools inputSchema hashed schema pinned =>
      refine before.replace pinned (.observe (compileResult_gave ?_) _ (before _))
      exact fun compiled given => ⟨server, held, listing, tool, tools, around, inputSchema,
        List.mem_append_right _ List.mem_cons_self, rfl, hashed, schema, given⟩
  | rejected stated pinned => exact before.replace pinned (.rejected (before _) stated)
  | settled found outstanding current pinned =>
      exact before.replace pinned ((before _ _ found).settle outstanding _ _ _)

/-- In every run the pins of every session are compiled. -/
theorem run_compiled (run : (machine gateway capacity).Run labels system) (id : String) :
    CompiledPins gateway labels id (system.audit.sessions id) := by
  induction run with
  | start begins =>
      cases begins
      exact fun key pin absent => by cases absent
  | @concat labels system next label run step ih =>
      cases step with
      | arrive actor server agent body => exact ih.later _
      | @turn actor goroutine front back around running unlocked =>
          by_cases own : id = actor
          · subst own
            have session : (system.turned gateway id around goroutine front back).audit.sessions
              id = _ := Function.update_self ..
            rw [session]
            exact turn_compiled around goroutine ih
          · have session : (system.turned gateway actor around goroutine front
              back).audit.sessions id = system.audit.sessions id := Function.update_of_ne own ..
            rw [session]
            exact ih.later _
      | @emit actor event rest held =>
          have same := (System.emitted_samePins system.audit actor event rest id).pinned
          exact fun key pin found => ih.later _ key pin (same ▸ found)
      | write queued => exact ih.later _
      | close => exact ih.later _

/-- A call is only let through under a schema that was compiled for its contract. -/
theorem prepareCall_compiled (run : (machine gateway capacity).Run labels system)
    {server tool : String}
    (allowed : ((system.audit.sessions id).prepareCall server tool).allow = true) :
    ∃ schema, ((system.audit.sessions id).prepareCall server tool).schema = some schema ∧
      ShownCompiled gateway labels id (Proxy.key server tool)
        ((system.audit.sessions id).prepareCall server tool).defHash schema := by
  unfold Session.prepareCall at allowed ⊢
  cases found : (system.audit.sessions id).pinned (Proxy.key server tool) with
  | none =>
      rw [found] at allowed
      cases allowed
  | some pin =>
      rw [found] at allowed
      exact (run_compiled run id _ pin found).decide allowed

end Runs

end Proxy
