import Anviq.Proxy.Schemacache
import Anviq.Proxy.SessionTrust

/-! # Recovery

What blocks a tool is undone when its pinned definition comes back
(`Proxy.Session.trusted_pin_recovers`), and a tool whose first definitions did
not compile is pinned by the first one that does, unless that one has the hash
of the definition it corrects (`Proxy.Session.first_corrected_pinned`).

A definition is shown to the session together with the result of compiling it;
definitions of one hash need not compile alike. A pinned definition that is shown
with a schema error loses the mark of what blocked it and stays blocked. The
schema cache rules this out: what has compiled once compiles again
(`Proxy.Cache.answer_ok`).
-/

namespace Proxy

variable {Schema : Type}

/-- A definition as it is shown to a session: its hash, which is never empty, and
what compiling its input schema gave. -/
structure Shown (Schema : Type) where
  server : String
  tool : Tool
  defHash : String
  schema : Option Schema
  schemaError : String
  hashed : defHash ≠ ""

/-- The key a definition is for. -/
def Shown.key (shown : Shown Schema) : String := Proxy.key shown.server (toolName shown.tool)

/-- The operations on the pins of a session. A rejection gives a reason. -/
inductive PinOp (Schema : Type) where
  | observe (shown : Shown Schema)
  | reject (server name reason : String) (given : reason ≠ "")
  | report (server toolName : String) (revision : Nat) (unreachable : Bool) (verdict : Verdict)

namespace PinOp

/-- The key an operation is about. -/
def key : PinOp Schema → String
  | .observe shown => shown.key
  | .reject server name _ _ => Proxy.key server name
  | .report server toolName _ _ _ => Proxy.key server toolName

/-- The session after an operation. -/
def apply (env : Env) (session : Session Schema) : PinOp Schema → Session Schema
  | .observe shown =>
      (session.observeDefinition env shown.server shown.tool shown.defHash shown.schema
        shown.schemaError).1
  | .reject server name reason _ => (session.rejectDefinition env server name reason).1
  | .report server toolName revision unreachable verdict =>
      (session.applyVerdict env server toolName revision unreachable verdict).1

/-- The hash of the pin an operation makes where there is none. -/
def creates? (key : String) (op : PinOp Schema) : Option String :=
  if op.key = key then
    match op with
    | .observe shown => some shown.defHash
    | .reject .. => some ""
    | .report .. => none
  else none

/-- A resume or warn verdict on the outstanding change of a key, which is current
and compiles: it makes the change the pin. -/
def Repins (session : Session Schema) (key : String) : PinOp Schema → Prop
  | .report server toolName revision unreachable verdict =>
      Proxy.key server toolName = key ∧ unreachable = false ∧
        (verdict.action = "resume" ∨ verdict.action = "warn") ∧
        ∃ pin change, session.pinned key = some pin ∧ pin.pending = some change ∧
          change.revision = revision ∧ change.verdictApplied = false ∧ change.schemaError = ""
  | _ => False

/-- The compilable pin of a key is not shown with a schema error. -/
def Steady (session : Session Schema) (key : String) : PinOp Schema → Prop
  | .observe shown =>
      shown.key = key → ∀ pin, session.pinned key = some pin → pin.schemaError = "" →
        pin.defHash = shown.defHash → shown.schemaError = ""
  | _ => True

end PinOp

/-- The hash of the pin that the first observation or rejection of a key made. -/
def firstPin (key : String) (ops : List (PinOp Schema)) : Option String :=
  (ops.filterMap (PinOp.creates? key)).head?

theorem firstPin_concat (key : String) (ops : List (PinOp Schema)) (op : PinOp Schema) :
    firstPin key (ops ++ [op]) = (firstPin key ops).or (op.creates? key) := by
  rw [firstPin, List.filterMap_append, List.head?_append, firstPin]
  congr 1
  cases created : op.creates? key <;> simp [created]

theorem PinOp.creates?_of_key_ne {key : String} {op : PinOp Schema} (other : op.key ≠ key) :
    op.creates? key = none := by
  simp only [creates?, other, ↓reduceIte]

namespace Session

variable (env : Env)

/-- The session after some operations on its pins. -/
def afterOps (session : Session Schema) (ops : List (PinOp Schema)) : Session Schema :=
  ops.foldl (PinOp.apply env) session

theorem afterOps_concat (session : Session Schema) (ops : List (PinOp Schema)) (op : PinOp Schema) :
    session.afterOps env (ops ++ [op]) = op.apply env (session.afterOps env ops) := by
  simp only [afterOps, List.foldl_append, List.foldl_cons, List.foldl_nil]

/-! ## What an operation does to one pin -/

section Step

variable {session : Session Schema} {key : String}

/-- The ways an operation can treat the pin of a key: leave it, make it, clear a
block, correct it, note what it saw, suspend it, reject it, or settle a report. -/
theorem apply_cases {P : Option (PinnedTool Schema) → Option (PinnedTool Schema) → Prop}
    (op : PinOp Schema) (kept : op.creates? key = none → ∀ found, P found found)
    (first : ∀ shown, op = .observe shown → shown.key = key →
      P none (some (observeFirst shown.server shown.tool shown.defHash shown.schema
        shown.schemaError session.nextChange).pin))
    (restored : ∀ shown pin, op = .observe shown → shown.key = key → pin.defHash = shown.defHash →
      shown.schemaError = "" →
      P (some pin) (some { pin with invalidDefinition := "", suspended := false, pending := none }))
    (left : ∀ shown pin, op = .observe shown → shown.key = key → pin.defHash = shown.defHash →
      (shown.schemaError = "" → pin.invalidDefinition = "" ∧ pin.pending = none) →
      P (some pin) (some { pin with invalidDefinition := "" }))
    (corrected : ∀ shown pin, op = .observe shown → shown.key = key →
      pin.schemaError ≠ "" → shown.schemaError = "" →
      P (some pin) (some { defHash := shown.defHash, tool := shown.tool, schema := shown.schema,
                           riskClass := riskClass shown.tool }))
    (again : ∀ shown pin change flag, op = .observe shown → shown.key = key →
      pin.pending = some change →
      P (some pin) (some { pin with
        invalidDefinition := "", pending := some { change with unreachable := flag } }))
    (mismatch : ∀ shown pin, op = .observe shown → shown.key = key →
      ¬ (pin.schemaError ≠ "" ∧ shown.schemaError = "") →
      P (some pin) (some (observeMismatch shown.server shown.tool shown.defHash shown.schema
        shown.schemaError session.nextChange { pin with invalidDefinition := "" }).pin))
    (reject : ∀ server name reason given found, op = .reject server name reason given →
      op.key = key → P found (some (rejected found reason)))
    (settled : ∀ pin change (unreachable : Bool), op.creates? key = none → pin.pending = some change →
      P (some pin) (some { pin with
        pending := some (if unreachable then { change with unreachable := true }
          else { change with verdictApplied := true }) }))
    (promoted : ∀ pin change, op.creates? key = none → op.Repins session key →
      pin.pending = some change → change.schemaError = "" →
      P (some pin) (some change.promoted)) :
    P (session.pinned key) ((op.apply env session).pinned key) := by
  cases op with
  | observe shown =>
      rw [PinOp.apply, observeDefinition_pinned]
      by_cases about : shown.key = key
      · have here : Proxy.key shown.server (toolName shown.tool) = key := about
        rw [here, Function.update_self, observation, here]
        apply observe_cases (P := fun found seen => P found (some seen.pin))
        · exact first shown rfl about
        · intro pin same
          unfold observeUnchanged
          dsimp only
          split
          · next clears =>
              have clears := of_decide_eq_true clears
              exact restored shown pin rfl about same clears.1
          · next stays =>
              apply left shown pin rfl about same
              intro compiles
              have stays := of_decide_eq_false (eq_false_of_ne_true stays)
              simp only [compiles, decide_eq_true_eq, true_and, not_or, ne_eq, not_not,
                Option.isSome_iff_ne_none] at stays
              exact stays
        · intro pin _ invalid compiles
          exact corrected shown pin rfl about invalid compiles
        · intro pin change _ _ outstanding _
          have unmarked : some { pin with invalidDefinition := "" } =
              some { pin with
                invalidDefinition := ""
                pending := some { change with unreachable := change.unreachable } } := by
            rw [← outstanding]
          unfold observePending
          split_ifs
          · exact unmarked ▸ again shown pin change _ rfl about outstanding
          · exact again shown pin change false rfl about outstanding
          · exact unmarked ▸ again shown pin change _ rfl about outstanding
        · intro pin _ uncorrected _
          exact mismatch shown pin rfl about uncorrected
      · have elsewhere : Proxy.key shown.server (toolName shown.tool) ≠ key := about
        rw [Function.update_of_ne (Ne.symm elsewhere)]
        exact kept (PinOp.creates?_of_key_ne about) _
  | reject server name reason given =>
      rw [PinOp.apply, rejectDefinition_pinned]
      by_cases about : Proxy.key server name = key
      · rw [about, Function.update_self]
        exact reject server name reason given _ rfl about
      · rw [Function.update_of_ne (Ne.symm about)]
        exact kept (PinOp.creates?_of_key_ne about) _
  | report server toolName revision unreachable verdict =>
      have creates : PinOp.creates? key
          (.report server toolName revision unreachable verdict : PinOp Schema) = none := by
        simp only [PinOp.creates?, ite_self]
      rw [PinOp.apply]
      obtain ⟨-, unchanged⟩ | ⟨pin, change, found, outstanding, current, fresh, settles⟩ :=
        session.applyVerdict_cases env server toolName revision unreachable verdict
      · rw [unchanged]
        exact kept creates _
      rw [settles, buildEvents_pinned, setPin_pinned]
      by_cases about : Proxy.key server toolName = key
      · rw [about] at found
        rw [about, Function.update_self, found, PinnedTool.settle_pin]
        cases unreachable with
        | true => exact settled pin change true creates outstanding
        | false =>
            simp only [Bool.false_eq_true, ↓reduceIte]
            split
            · next clears =>
                exact promoted pin change creates ⟨about, rfl, clears.2, pin, change, found,
                  outstanding, current, fresh, clears.1⟩ outstanding clears.1
            · exact settled pin change false creates outstanding
      · rw [Function.update_of_ne (Ne.symm about)]
        exact kept creates _

/-- Revisions only grow. -/
theorem le_apply_nextChange (op : PinOp Schema) :
    session.nextChange ≤ (op.apply env session).nextChange := by
  cases op with
  | observe shown =>
      rw [PinOp.apply, observeDefinition_nextChange, observation]
      apply observe_cases (P := fun _ seen => session.nextChange ≤ seen.nextChange)
      · exact le_refl _
      · intro pin _
        unfold observeUnchanged
        exact le_refl _
      · intro pin _ _ _
        exact le_refl _
      · intro pin change _ _ _ _
        unfold observePending
        split_ifs <;> exact le_refl _
      · intro pin _ _ _
        exact Nat.le_succ _
  | reject server name reason given => rw [PinOp.apply, rejectDefinition_nextChange]
  | report server toolName revision unreachable verdict =>
      rw [PinOp.apply]
      obtain ⟨-, unchanged⟩ | ⟨pin, change, -, -, -, -, settled⟩ :=
        session.applyVerdict_cases env server toolName revision unreachable verdict
      · rw [unchanged]
      · rw [settled, buildEvents_nextChange]
        exact le_refl _

end Step

/-! ## Before any definition has compiled -/

/-- No definition of a key has compiled. -/
def NoneCompiled (key : String) (ops : List (PinOp Schema)) : Prop :=
  ∀ shown, .observe shown ∈ ops → shown.key = key → shown.schemaError ≠ ""

/-- A pin that holds no compilable definition: it has the hash that came first, and
no change of it compiles. -/
def Unfit (key : String) (ops : List (PinOp Schema)) : Option (PinnedTool Schema) → Prop
  | none => firstPin key ops = none
  | some pin =>
      firstPin key ops = some pin.defHash ∧ pin.schemaError ≠ "" ∧
        ∀ change, pin.pending = some change → change.schemaError ≠ ""

section Unfit

variable {key : String} {ops : List (PinOp Schema)}

theorem firstPin_keep {hash : String} (op : PinOp Schema) (made : firstPin key ops = some hash) :
    firstPin key (ops ++ [op]) = some hash := by
  rw [firstPin_concat, made, Option.some_or]

theorem unfit_step {session : Session Schema} {op : PinOp Schema}
    (none : ∀ shown, op = .observe shown → shown.key = key → shown.schemaError ≠ "") :
    Unfit key ops (session.pinned key) →
      Unfit key (ops ++ [op]) ((op.apply env session).pinned key) := by
  apply apply_cases env (P := fun found next => Unfit key ops found → Unfit key (ops ++ [op]) next)
  case kept =>
    intro silent found unfit
    cases found with
    | none =>
        have unmade : firstPin key ops = .none := unfit
        rw [Unfit, firstPin_concat, unmade, silent, Option.none_or]
    | some pin => exact ⟨firstPin_keep op unfit.1, unfit.2⟩
  case first =>
    intro shown made about unfit
    have unmade : firstPin key ops = .none := unfit
    refine ⟨?_, none shown made about, fun change outstanding => absurd outstanding (by
      simp [observeFirst])⟩
    have creates : op.creates? key = some shown.defHash := by
      have here : (PinOp.observe shown).key = key := about
      rw [made]
      simp only [PinOp.creates?, here, ↓reduceIte]
    rw [firstPin_concat, unmade, creates, Option.none_or]
    rfl
  case restored =>
    intro shown pin made about _ compiles
    exact absurd compiles (none shown made about)
  case left =>
    intro shown pin made about _ _ unfit
    exact ⟨firstPin_keep op unfit.1, unfit.2⟩
  case corrected =>
    intro shown pin made about _ compiles
    exact absurd compiles (none shown made about)
  case again =>
    intro shown pin change flag made about outstanding unfit
    refine ⟨firstPin_keep op unfit.1, unfit.2.1, ?_⟩
    intro marked same
    obtain rfl := Option.some.inj same
    exact unfit.2.2 change outstanding
  case mismatch =>
    intro shown pin made about _ unfit
    refine ⟨firstPin_keep op unfit.1, unfit.2.1, ?_⟩
    intro change outstanding
    obtain rfl := Option.some.inj outstanding
    exact none shown made about
  case reject =>
    intro server name reason given found made about unfit
    cases found with
    | none =>
        have unmade : firstPin key ops = .none := unfit
        refine ⟨?_, given, fun change outstanding => absurd outstanding (by simp [rejected])⟩
        have creates : op.creates? key = some "" := by
          rw [made] at about ⊢
          simp only [PinOp.creates?, about, ↓reduceIte]
        rw [firstPin_concat, unmade, creates, Option.none_or]
        rfl
    | some pin =>
        exact ⟨firstPin_keep op unfit.1, unfit.2.1, fun change outstanding =>
          absurd outstanding (by simp [rejected])⟩
  case settled =>
    intro pin change unreachable _ outstanding unfit
    refine ⟨firstPin_keep op unfit.1, unfit.2.1, ?_⟩
    intro marked same
    obtain rfl := Option.some.inj same
    cases unreachable <;> exact unfit.2.2 change outstanding
  case promoted =>
    intro pin change _ _ outstanding compiles unfit
    exact absurd compiles (unfit.2.2 change outstanding)

theorem unfit_after (id : String) (ops : List (PinOp Schema)) (none : NoneCompiled key ops) :
    Unfit key ops (((new id : Session Schema).afterOps env ops).pinned key) := by
  induction ops using List.reverseRecOn with
  | nil => rfl
  | append_singleton ops op ih =>
      rw [afterOps_concat]
      apply unfit_step env ?_ (ih fun shown seen => none shown (List.mem_append_left _ seen))
      rintro shown rfl
      exact none shown (by simp)

end Unfit

/-- **The first corrected definition becomes the pin** exactly if its hash is not
the one the key was first pinned with: then it is pinned and callable. -/
theorem first_corrected_pinned (id : String) (ops : List (PinOp Schema)) (shown : Shown Schema)
    (none : NoneCompiled shown.key ops) (compiles : shown.schemaError = "") :
    let session := (new id : Session Schema).afterOps env ops
    let observed := session.observeDefinition env shown.server shown.tool shown.defHash shown.schema
      shown.schemaError
    let decision := observed.1.prepareCall shown.server (toolName shown.tool)
    (observed.2.2.action = .pinned ∧ decision.allow = true ∧ decision.defHash = shown.defHash) ↔
      firstPin shown.key ops ≠ some shown.defHash := by
  have unfit := unfit_after env id ops none
  dsimp only
  generalize (new id : Session Schema).afterOps env ops = session at unfit ⊢
  rw [observeDefinition_outcome, prepareCall, observeDefinition_pinned, Function.update_self,
    observation]
  have here : Proxy.key shown.server (toolName shown.tool) = shown.key := rfl
  rw [here, compiles]
  cases found : session.pinned shown.key with
  | none =>
      rw [found] at unfit
      have unmade : firstPin shown.key ops = .none := unfit
      rw [unmade]
      simp [observe, observeFirst, PinnedTool.decide]
  | some pin =>
      rw [found] at unfit
      obtain ⟨made, invalid, -⟩ := unfit
      rw [made, ne_eq, Option.some.injEq]
      by_cases same : pin.defHash = shown.defHash
      · rw [observe_unchanged same]
        simp only [same, not_true_eq_false, iff_false]
        rintro ⟨pinned, -⟩
        revert pinned
        unfold observeUnchanged
        dsimp only
        split <;> simp
      · rw [observe_corrected same invalid rfl]
        simp [same, observeCorrected, PinnedTool.decide]

/-- The tool of `requiring`, shown under a hash. -/
def shownRequiring (names : List String) (defHash : String) (hashed : defHash ≠ "")
    (schema : Option Unit) (schemaError : String) : Shown Unit :=
  { server := "files", tool := Cache.requiring names, defHash, schema, schemaError, hashed }

/-- A definition that does not compile, as it names an argument twice. -/
def repeatedShown : Shown Unit :=
  shownRequiring ["path", "path"] "sha256:1f" (by simp) none "items at 0 and 1 are equal"

/-- The corrected definition has the hash of the one it corrects: it is not pinned,
and the tool stays blocked. -/
theorem first_corrected_pinned_repeated :
    let env : Env := ⟨fun _ => .ok "", fun _ => ""⟩
    let shown := shownRequiring ["path"] "sha256:1f" (by simp) (some ()) ""
    let session := (new "session" : Session Unit).afterOps env [.observe repeatedShown]
    let observed := session.observeDefinition env shown.server shown.tool shown.defHash shown.schema
      shown.schemaError
    normalizeTool repeatedShown.tool = normalizeTool shown.tool ∧
      observed.2.2.action = .invalid ∧
      (observed.1.prepareCall shown.server (toolName shown.tool)).allow = false :=
  ⟨Cache.requiring_normalized, by decide, by decide⟩

/-- A corrected definition of another hash is pinned. -/
theorem first_corrected_pinned_renamed :
    let env : Env := ⟨fun _ => .ok "", fun _ => ""⟩
    let shown := shownRequiring ["file"] "sha256:2e" (by simp) (some ()) ""
    let session := (new "session" : Session Unit).afterOps env [.observe repeatedShown]
    let observed := session.observeDefinition env shown.server shown.tool shown.defHash shown.schema
      shown.schemaError
    observed.2.2.action = .pinned ∧
      (observed.1.prepareCall shown.server (toolName shown.tool)).allow = true :=
  have pinned := (first_corrected_pinned ⟨fun _ => .ok "", fun _ => ""⟩ "session"
    [.observe repeatedShown] (shownRequiring ["file"] "sha256:2e" (by simp) (some ()) "")
    (by
      intro shown seen _
      obtain rfl := PinOp.observe.inj (List.mem_singleton.mp seen)
      simp [repeatedShown, shownRequiring]) rfl).mpr (by decide)
  ⟨pinned.1, pinned.2.1⟩

/-! ## After a definition has compiled -/

/-- A pin whose block can be undone: if a compilable pin is suspended, it says what
for. -/
def Recoverable (pin : PinnedTool Schema) : Prop :=
  pin.schemaError = "" → pin.suspended = true →
    pin.pending.isSome ∨ pin.invalidDefinition ≠ ""

section Recovery

variable {key : String}

theorem recoverable_step {session : Session Schema} {op : PinOp Schema}
    (steady : op.Steady session key)
    (recoverable : ∀ pin, session.pinned key = some pin → Recoverable pin) :
    ∀ pin, (op.apply env session).pinned key = some pin → Recoverable pin := by
  have calm : ∀ shown pin, op = .observe shown → shown.key = key →
      session.pinned key = some pin → pin.schemaError = "" → pin.defHash = shown.defHash →
      shown.schemaError = "" := by
    rintro shown pin rfl about
    exact steady about pin
  revert recoverable calm
  apply apply_cases env (P := fun found next => (∀ pin, found = some pin → Recoverable pin) →
    (∀ shown pin, op = .observe shown → shown.key = key → found = some pin → pin.schemaError = "" →
      pin.defHash = shown.defHash → shown.schemaError = "") →
    ∀ pin, next = some pin → Recoverable pin)
  case kept =>
    intro _ found recoverable _
    exact recoverable
  case first =>
    rintro shown _ _ _ _ _ ⟨⟩ valid suspended
    exact absurd valid (of_decide_eq_true suspended)
  case restored =>
    rintro shown pin _ _ _ _ _ _ _ ⟨⟩ _ suspended
    exact absurd suspended (by simp)
  case left =>
    rintro shown pin made about same stays recoverable calm _ ⟨⟩ valid suspended
    -- The pinned definition compiles, so the arm left nothing to clear.
    obtain ⟨unmarked, settled⟩ := stays (calm shown pin made about rfl valid same)
    obtain outstanding | marked := recoverable pin rfl valid suspended
    · rw [settled] at outstanding
      exact absurd outstanding (by simp)
    · exact absurd unmarked marked
  case corrected =>
    rintro shown pin _ _ _ _ _ _ _ ⟨⟩ _ suspended
    exact absurd suspended (by simp)
  case again =>
    rintro shown pin change flag _ _ _ _ _ _ ⟨⟩ _ _
    exact Or.inl rfl
  case mismatch =>
    rintro shown pin _ _ _ _ _ _ ⟨⟩ _ _
    exact Or.inl rfl
  case reject =>
    rintro server name reason given _ _ _ _ _ _ ⟨⟩ _ _
    exact Or.inr given
  case settled =>
    rintro pin change unreachable _ _ _ _ _ ⟨⟩ _ _
    exact Or.inl rfl
  case promoted =>
    rintro pin change _ _ _ _ _ _ _ ⟨⟩ _ suspended
    exact absurd suspended (by simp [PendingChange.promoted])

theorem recoverable_after {session : Session Schema} (ops : List (PinOp Schema))
    (steady : ∀ before op after, ops = before ++ op :: after →
      op.Steady (session.afterOps env before) key)
    (recoverable : ∀ pin, session.pinned key = some pin → Recoverable pin) :
    ∀ pin, (session.afterOps env ops).pinned key = some pin → Recoverable pin := by
  induction ops using List.reverseRecOn with
  | nil => exact recoverable
  | append_singleton ops op ih =>
      rw [afterOps_concat]
      apply recoverable_step env (steady ops op [] rfl)
      apply ih
      intro before op' after split
      exact steady before op' (after ++ [op]) (by rw [split, List.append_assoc, List.cons_append])

/-- A pin that holds a compilable definition of a hash. -/
def Holds (hash : String) (found : Option (PinnedTool Schema)) : Prop :=
  ∃ pin, found = some pin ∧ pin.schemaError = "" ∧ pin.defHash = hash

/-- Only a verdict replaces a compilable pin. -/
theorem holds_step {session : Session Schema} {op : PinOp Schema} {hash : String}
    (kept : ¬ op.Repins session key) :
    Holds hash (session.pinned key) → Holds hash ((op.apply env session).pinned key) := by
  apply apply_cases env (P := fun found next => Holds hash found → Holds hash next)
  case kept =>
    intro _ found holds
    exact holds
  case first =>
    rintro shown _ _ ⟨_, absent, _⟩
    exact absurd absent (by simp)
  case restored =>
    rintro shown pin _ _ _ _ ⟨_, ⟨⟩, valid, same⟩
    exact ⟨_, rfl, valid, same⟩
  case left =>
    rintro shown pin _ _ _ _ ⟨_, ⟨⟩, valid, same⟩
    exact ⟨_, rfl, valid, same⟩
  case corrected =>
    rintro shown pin _ _ invalid _ ⟨_, ⟨⟩, valid, _⟩
    exact absurd valid invalid
  case again =>
    rintro shown pin change flag _ _ _ ⟨_, ⟨⟩, valid, same⟩
    exact ⟨_, rfl, valid, same⟩
  case mismatch =>
    rintro shown pin _ _ _ ⟨_, ⟨⟩, valid, same⟩
    exact ⟨_, rfl, valid, same⟩
  case reject =>
    rintro server name reason _ _ _ _ ⟨pin, rfl, valid, same⟩
    exact ⟨_, rfl, valid, same⟩
  case settled =>
    rintro pin change unreachable _ _ ⟨_, ⟨⟩, valid, same⟩
    exact ⟨_, rfl, valid, same⟩
  case promoted =>
    rintro pin change _ repins
    exact absurd repins kept

theorem holds_after {session : Session Schema} {hash : String} (more : List (PinOp Schema))
    (kept : ∀ before op after, more = before ++ op :: after →
      ¬ op.Repins (session.afterOps env before) key)
    (holds : Holds hash (session.pinned key)) :
    Holds hash ((session.afterOps env more).pinned key) := by
  induction more using List.reverseRecOn with
  | nil => exact holds
  | append_singleton more op ih =>
      rw [afterOps_concat]
      apply holds_step env (kept more op [] rfl)
      apply ih
      intro before op' after split
      exact kept before op' (after ++ [op]) (by rw [split, List.append_assoc, List.cons_append])

/-- Operations that observe other definitions of a key than its compilable pin are
steady. -/
theorem steady_of_others {session : Session Schema} {hash : String} {more : List (PinOp Schema)}
    (kept : ∀ before op after, more = before ++ op :: after →
      ¬ op.Repins (session.afterOps env before) key)
    (others : ∀ shown, .observe shown ∈ more → shown.key = key → shown.defHash ≠ hash)
    (holds : Holds hash (session.pinned key)) :
    ∀ before op after, more = before ++ op :: after →
      op.Steady (session.afterOps env before) key := by
  intro before op after split
  cases op with
  | observe shown =>
      intro about pin found _ same
      have held : Holds hash ((session.afterOps env before).pinned key) := by
        apply holds_after env before ?_ holds
        intro earlier op' between split'
        apply kept earlier op' (between ++ .observe shown :: after)
        rw [split, split', List.append_assoc, List.cons_append]
      obtain ⟨current, found', -, hashed⟩ := held
      obtain rfl := Option.some.inj (found.symm.trans found')
      exact absurd (same.symm.trans hashed) (others shown (by simp [split]) about)
  | reject => trivial
  | report => trivial

/-- The outstanding change of a key is newer than a revision. -/
def Newer (revision : Nat) (key : String) (session : Session Schema) : Prop :=
  revision ≤ session.nextChange ∧ ∀ pin change, session.pinned key = some pin →
    pin.pending = some change → revision < change.revision

theorem newer_step {session : Session Schema} {revision : Nat} (op : PinOp Schema)
    (newer : Newer revision key session) : Newer revision key (op.apply env session) := by
  obtain ⟨counted, pending⟩ := newer
  refine ⟨counted.trans (le_apply_nextChange env op), ?_⟩
  revert pending
  apply apply_cases env (P := fun found next =>
    (∀ pin change, found = some pin → pin.pending = some change → revision < change.revision) →
      ∀ pin change, next = some pin → pin.pending = some change → revision < change.revision)
  case kept =>
    intro _ found pending
    exact pending
  case first =>
    rintro shown _ _ _ _ change ⟨⟩ outstanding
    exact absurd outstanding (by simp [observeFirst])
  case restored =>
    rintro shown pin _ _ _ _ _ _ change ⟨⟩ outstanding
    exact absurd outstanding (by simp)
  case left =>
    rintro shown pin _ _ _ _ pending _ change ⟨⟩ outstanding
    exact pending pin change rfl outstanding
  case corrected =>
    rintro shown pin _ _ _ _ _ _ change ⟨⟩ outstanding
    exact absurd outstanding (by simp)
  case again =>
    rintro shown pin change flag _ _ outstanding pending _ marked ⟨⟩ same
    obtain rfl := Option.some.inj same
    exact pending pin change rfl outstanding
  case mismatch =>
    rintro shown pin _ _ _ _ _ change ⟨⟩ same
    obtain rfl := Option.some.inj same
    exact Nat.lt_succ_of_le counted
  case reject =>
    rintro server name reason _ _ _ _ _ _ change ⟨⟩ outstanding
    exact absurd outstanding (by simp [rejected])
  case settled =>
    rintro pin change unreachable _ outstanding pending _ marked ⟨⟩ same
    obtain rfl := Option.some.inj same
    cases unreachable <;> exact pending pin change rfl outstanding
  case promoted =>
    rintro pin change _ _ _ _ _ _ change' ⟨⟩ outstanding
    exact absurd outstanding (by simp [PendingChange.promoted])

theorem newer_after {session : Session Schema} {revision : Nat} (later : List (PinOp Schema))
    (newer : Newer revision key session) : Newer revision key (session.afterOps env later) := by
  induction later using List.reverseRecOn with
  | nil => exact newer
  | append_singleton later op ih =>
      rw [afterOps_concat]
      exact newer_step env op ih

theorem Newer.stale {session : Session Schema} {revision old : Nat}
    (newer : Newer revision key session) (given : old ≤ revision) : session.Stale key old := by
  intro pin change found outstanding same
  have later := newer.2 pin change found outstanding
  omega

/-- The pinned definition comes back and compiles: nothing is left of a block. -/
theorem observe_restores {session : Session Schema} {pin : PinnedTool Schema} {shown : Shown Schema}
    (found : session.pinned shown.key = some pin) (valid : pin.schemaError = "")
    (blocked : pin.suspended = true → pin.pending.isSome ∨ pin.invalidDefinition ≠ "")
    (same : shown.defHash = pin.defHash) (compiles : shown.schemaError = "") :
    ∃ after, ((PinOp.observe shown).apply env session).pinned shown.key = some after ∧
      after.defHash = pin.defHash ∧ after.schema = pin.schema ∧ after.schemaError = "" ∧
      after.invalidDefinition = "" ∧ after.suspended = false ∧
      (after.pending = none ∨ after.pending = pin.pending ∧ pin.pending = none) := by
  have here : Proxy.key shown.server (toolName shown.tool) = shown.key := rfl
  rw [PinOp.apply, observeDefinition_pinned, here, Function.update_self, observation, here, found,
    observe_unchanged same.symm]
  refine ⟨_, rfl, ?_⟩
  unfold observeUnchanged
  by_cases clears : pin.invalidDefinition ≠ "" ∨ pin.pending.isSome
  · simp [compiles, clears, valid]
  · rw [not_or, not_not, Bool.not_eq_true, Option.isSome_eq_false_iff, Option.isNone_iff_eq_none]
      at clears
    have active : pin.suspended = false := by
      cases suspended : pin.suspended with
      | false => rfl
      | true =>
          have cause := blocked suspended
          rw [clears.2] at cause
          exact absurd cause (by simp [clears.1])
    simp [clears.1, clears.2, active, valid]

end Recovery

/-- **A trusted pin recovers.** However a compilable pin has been blocked, as long
as no verdict replaces it, one more look at its definition makes the tool callable
under it; no report changes that, and those of the revisions given out so far
never will. -/
theorem trusted_pin_recovers (id : String) (ops more : List (PinOp Schema)) (shown : Shown Schema)
    (pin : PinnedTool Schema)
    (steady : ∀ before op after, ops = before ++ op :: after →
      op.Steady ((new id : Session Schema).afterOps env before) shown.key)
    (pinned : ((new id : Session Schema).afterOps env ops).pinned shown.key = some pin)
    (compiled : pin.schemaError = "")
    (others : ∀ other, .observe other ∈ more → other.key = shown.key → other.defHash ≠ pin.defHash)
    (kept : ∀ before op after, more = before ++ op :: after →
      ¬ op.Repins (((new id : Session Schema).afterOps env ops).afterOps env before) shown.key)
    (same : shown.defHash = pin.defHash) (compiles : shown.schemaError = "") :
    let after := (PinOp.observe shown).apply env
      (((new id : Session Schema).afterOps env ops).afterOps env more)
    let decision := after.prepareCall shown.server (toolName shown.tool)
    decision.allow = true ∧ decision.defHash = pin.defHash ∧
      (∀ server toolName revision unreachable verdict, Proxy.key server toolName = shown.key →
        after.applyVerdict env server toolName revision unreachable verdict = (after, [])) ∧
      ∀ later server toolName revision unreachable verdict,
        Proxy.key server toolName = shown.key → revision ≤ after.nextChange →
          (after.afterOps env later).applyVerdict env server toolName revision unreachable verdict =
            (after.afterOps env later, []) := by
  have trusted : Holds pin.defHash (((new id : Session Schema).afterOps env ops).pinned shown.key) :=
    ⟨pin, pinned, compiled, rfl⟩
  have before := recoverable_after env ops steady fun pin absent => absurd absent (by simp [new])
  obtain ⟨current, found, valid, held⟩ := holds_after env more kept trusted
  have recoverable := recoverable_after env more (steady_of_others env kept others trusted) before
    current found
  obtain ⟨after, restored, hash, -, valid', unmarked, active, settled⟩ :=
    observe_restores env found valid (recoverable valid) (same.trans held.symm) compiles
  have settled : after.pending = none := by
    obtain none | ⟨unchanged, none⟩ := settled
    · exact none
    · exact unchanged.trans none
  have newer (revision : Nat)
      (given : revision ≤ ((PinOp.observe shown).apply env
        (((new id : Session Schema).afterOps env ops).afterOps env more)).nextChange) :
      Newer revision shown.key ((PinOp.observe shown).apply env
        (((new id : Session Schema).afterOps env ops).afterOps env more)) := by
    refine ⟨given, ?_⟩
    intro pin change present outstanding
    rw [restored] at present
    obtain rfl := Option.some.inj present
    exact absurd (settled.symm.trans outstanding) (by simp)
  dsimp only
  refine ⟨?_, ?_, ?_, ?_⟩
  · rw [prepareCall, show Proxy.key shown.server (toolName shown.tool) = shown.key from rfl, restored]
    simp [PinnedTool.decide, unmarked, valid', settled, active]
  · rw [prepareCall, show Proxy.key shown.server (toolName shown.tool) = shown.key from rfl, restored]
    simp [PinnedTool.decide, unmarked, valid', settled, active, hash, held]
  · intro server toolName revision unreachable verdict about
    apply applyVerdict_stale
    intro pin change present outstanding
    rw [about, restored] at present
    obtain rfl := Option.some.inj present
    exact absurd (settled.symm.trans outstanding) (by simp)
  · intro later server toolName revision unreachable verdict about given
    apply applyVerdict_stale
    rw [about]
    exact (newer_after env later (newer revision given)).stale (le_refl _)

/-- The corrected definition of `shownRequiring`, which compiles. -/
def correctedShown : Shown Unit := shownRequiring ["path"] "sha256:1f" (by simp) (some ()) ""

/-- A pinned definition that is rejected and then shown with a schema error stays
blocked when it comes back. -/
theorem trusted_pin_recovers_shown_broken :
    let env : Env := ⟨fun _ => .ok "", fun _ => ""⟩
    let session := (new "session" : Session Unit).afterOps env
      [.observe correctedShown, .reject "files" "read" "definition cannot be hashed" (by simp),
        .observe repeatedShown]
    (∃ pin, session.pinned correctedShown.key = some pin ∧ pin.schemaError = "" ∧
        pin.defHash = correctedShown.defHash) ∧
      (((PinOp.observe correctedShown).apply env session).prepareCall "files" "read").allow = false :=
  ⟨⟨_, rfl, rfl, rfl⟩, by decide⟩

/-- A rejected definition and one that does not compile are forgotten when the pin
comes back. -/
theorem trusted_pin_recovers_rejected :
    let env : Env := ⟨fun _ => .ok "", fun _ => ""⟩
    let session := ((new "session" : Session Unit).afterOps env [.observe correctedShown]).afterOps env
      [.reject "files" "read" "definition cannot be hashed" (by simp),
        .observe (shownRequiring ["file", "file"] "sha256:2e" (by simp) none "items are equal")]
    (session.prepareCall "files" "read").allow = false ∧
      (((PinOp.observe correctedShown).apply env session).prepareCall "files" "read").allow = true :=
  have singles {ops : List (PinOp Unit)} {op : PinOp Unit} {before after : List (PinOp Unit)}
      (split : ops = before ++ op :: after) : op ∈ ops := by simp [split]
  ⟨by decide, (trusted_pin_recovers ⟨fun _ => .ok "", fun _ => ""⟩ "session"
    [.observe correctedShown]
    [.reject "files" "read" "definition cannot be hashed" (by simp),
      .observe (shownRequiring ["file", "file"] "sha256:2e" (by simp) none "items are equal")]
    correctedShown _
    (by
      intro before op after split
      obtain rfl := List.mem_singleton.mp (singles split)
      exact fun _ _ _ _ _ => rfl)
    rfl rfl
    (by
      intro other seen _
      simp only [List.mem_cons, reduceCtorEq, List.not_mem_nil, or_false, false_or] at seen
      obtain rfl := PinOp.observe.inj seen
      decide)
    (by
      intro before op after split
      have seen := singles split
      simp only [List.mem_cons, List.not_mem_nil, or_false] at seen
      obtain rfl | rfl := seen <;> exact not_false)
    rfl rfl).1⟩

end Session

end Proxy
