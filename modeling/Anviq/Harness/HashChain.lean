import Anviq.Harness.CanonicalForm
import Anviq.Harness.Recording
import Anviq.Machine.HashChain

/-! # What the head hash commits to

A recording `verify` has nothing against is a hash chain: each event stores the hash
of everything else in it, and names the hash of the event before. Its last hash
determines the recording.
-/

namespace Harness

/-! ## Equality with texts -/

theorem pyEq_str {value : PyJson} {text : String} :
    pyEq value (.str text) = true ↔ value = .str text := by
  cases value <;> simp [pyEq, number?]

theorem pyEq_null {value : PyJson} : pyEq value .null = true ↔ value = .null := by
  cases value <;> simp [pyEq, number?]

/-! ## A verified recording is a chain -/

/-- An event without the hash it stores. -/
def unhashed (event : PyDict) : PyDict := event.filter fun member => member.1 ≠ "event_hash"

/-- The texts whose digests the chain is made of. -/
def hashedTexts (events : List PyDict) : List String :=
  events.filterMap fun event => (canonicalJson (.obj (unhashed event))).toOption.map String.ofList

/-- The hash an event stores. -/
def storedHash (event : PyDict) : PyJson := getOrNone event "event_hash"

/-- The hash an event names as that of the event before. -/
def previousHash (event : PyDict) : PyJson := getOrNone event "prev_hash"

variable {sha : String → String}

/-- The event stores its own hash. -/
def HashStored (sha : String → String) (event : PyDict) : Prop :=
  ∃ text, canonicalJson (.obj (unhashed event)) = .ok text ∧
    storedHash event = .str ("sha256:" ++ sha (String.ofList text))

/-- A hash an event may name: that of an event, or that of none. -/
def IsLink (hash : PyJson) : Prop := hash = .null ∨ ∃ text, hash = .str text

theorem problemIf_eq_nil {condition : Bool} {problem : Problem} :
    problemIf condition problem = [] ↔ condition = false := by
  cases condition <;> simp [problemIf]

theorem hashProblems_eq_nil {index : Nat} {event : PyDict}
    (sound : hashProblems sha index event = []) : HashStored sha event := by
  unfold hashProblems at sound
  split at sound
  · exact absurd sound (List.cons_ne_nil _ _)
  · next hash hashed =>
      rw [problemIf_eq_nil, Bool.not_eq_false', pyEq_str] at sound
      obtain ⟨text, written, named⟩ := bind_eq_ok.mp hashed
      exact ⟨text, written, sound.trans (congrArg _ (Except.ok.inj named).symm)⟩

theorem semanticProblems_prevHash (index : Nat) (event : PyDict) (progress : Progress) :
    (semanticProblems sha index event progress).2.prevHash = progress.prevHash := by
  unfold semanticProblems
  dsimp only
  split <;> rfl

/-- What `verify` carries on is the hash the event stores. -/
theorem verifyEvent_prevHash (sessionId : PyJson) (index : Nat) (event : PyDict)
    (progress : Progress) :
    (verifyEvent sha sessionId index event progress).2.prevHash = storedHash event := by
  unfold verifyEvent
  dsimp only
  split
  · rw [semanticProblems_prevHash]
    rfl
  · rfl

/-- An event without a problem names the hash carried, and stores its own. -/
theorem verifyEvent_sound {sessionId : PyJson} {index : Nat} {event : PyDict}
    {progress : Progress} (sound : (verifyEvent sha sessionId index event progress).1 = []) :
    pyEq (previousHash event) progress.prevHash = true ∧ HashStored sha event := by
  have checks : problemIf (!pyEq (previousHash event) progress.prevHash)
      (.prevHash index (previousHash event) progress.prevHash) = [] ∧
        hashProblems sha index event = [] := by
    unfold verifyEvent at sound
    dsimp only at sound
    split at sound
    · simp only [List.append_eq_nil_iff] at sound
      exact ⟨sound.1.1.2, sound.1.2⟩
    · simp only [List.append_eq_nil_iff] at sound
      exact ⟨sound.1.2, sound.2⟩
  obtain ⟨named, stored⟩ := checks
  rw [problemIf_eq_nil, Bool.not_eq_false'] at named
  exact ⟨named, hashProblems_eq_nil stored⟩

/-- An event of a chain. -/
def IsEntry (sha : String → String) (event : PyDict) : Prop :=
  IsLink (previousHash event) ∧ HashStored sha event

/-- Events without a problem form a chain from the hash carried. -/
theorem verifyEvents_sound {sessionId : PyJson} {events : List PyDict} {index : Nat}
    {progress : Progress} (carried : IsLink progress.prevHash)
    (sound : verifyEvents sha sessionId index events progress = []) :
    HashChain.Linked previousHash storedHash progress.prevHash events ∧
      ∀ event ∈ events, IsEntry sha event := by
  induction events generalizing index progress with
  | nil => exact ⟨trivial, fun event present => absurd present List.not_mem_nil⟩
  | cons event events ih =>
      rw [verifyEvents, List.append_eq_nil_iff] at sound
      obtain ⟨named, stored⟩ := verifyEvent_sound sound.1
      have next := @verifyEvent_prevHash sha sessionId index event progress
      have storedLink : IsLink (storedHash event) := by
        obtain ⟨text, -, storedText⟩ := stored
        exact Or.inr ⟨_, storedText⟩
      obtain ⟨linked, rest⟩ := ih (next ▸ storedLink) sound.2
      rw [next] at linked
      have previous : previousHash event = progress.prevHash := by
        rcases carried with none | ⟨text, some⟩
        · rw [none] at named ⊢
          exact pyEq_null.mp named
        · rw [some] at named ⊢
          exact pyEq_str.mp named
      exact ⟨⟨previous, linked⟩, List.forall_mem_cons.mpr ⟨⟨previous ▸ carried, stored⟩, rest⟩⟩

/-- A recording without a problem is a hash chain. -/
theorem verify_sound {sessionId : PyJson} {events : List PyDict} (nonempty : events ≠ [])
    (sound : verify sha sessionId events = []) :
    HashChain.Linked previousHash storedHash .null events ∧
      ∀ event ∈ events, IsEntry sha event := by
  cases events with
  | nil => exact absurd rfl nonempty
  | cons first events =>
      rw [verify, List.append_eq_nil_iff] at sound
      exact verifyEvents_sound (Or.inl rfl) sound.2

/-! ## What an event's hash determines -/

/-- The same event. -/
def SameEvent (left right : PyDict) : Prop := SameJson (.obj left) (.obj right)

theorem unhashed_distinct {event : PyDict} (distinct : (Json.obj event).Distinct) :
    (Json.obj (unhashed event)).Distinct := by
  rw [Json.Distinct, Json.namesPairwise_obj] at distinct ⊢
  constructor
  · exact distinct.1.sublist (List.filter_sublist.map Prod.fst)
  · intro member present
    exact distinct.2 member (List.mem_of_mem_filter present)

/-- Events that store one hash and are otherwise the same are the same. -/
theorem sameEvent_of_unhashed {left right : PyDict} {hash : String}
    (same : SameEvent (unhashed left) (unhashed right)) (leftHash : storedHash left = .str hash)
    (rightHash : storedHash right = .str hash) : SameEvent left right := by
  have stored {event : PyDict} (found : storedHash event = .str hash) :
      event.get? "event_hash" = some (.str hash) := by
    cases value : event.get? "event_hash" with
    | none => exact absurd found (by simp [storedHash, getOrNone, value])
    | some other =>
        rw [storedHash, getOrNone, value, Option.getD_some] at found
        rw [found]
  cases same with
  | obj names values =>
      simp only [unhashed, Json.Members.get?_filter_ne] at names values
      refine .obj ?_ ?_
      · intro name
        by_cases own : name = "event_hash"
        · rw [own, stored leftHash, stored rightHash]
        · have others := names name
          rwa [if_neg own, if_neg own] at others
      · intro name leftValue rightValue leftFound rightFound
        by_cases own : name = "event_hash"
        · rw [own, stored leftHash] at leftFound
          rw [own, stored rightHash] at rightFound
          rw [← Option.some.inj leftFound, ← Option.some.inj rightFound]
          exact .str hash
        · have others := values name leftValue rightValue
          rw [if_neg own, if_neg own] at others
          exact others leftFound rightFound

/-- Same events name the same hash. -/
theorem previousHash_eq {left right : PyDict} (same : SameEvent (unhashed left) (unhashed right))
    (link : IsLink (previousHash left)) : previousHash left = previousHash right := by
  cases same with
  | obj names values =>
      have name := names "prev_hash"
      have value := values "prev_hash"
      simp only [unhashed, Json.Members.get?_filter_ne, String.reduceEq, ↓reduceIte] at name value
      unfold previousHash getOrNone at link ⊢
      cases leftFound : left.get? "prev_hash" with
      | none =>
          rw [leftFound] at name
          have absent : right.get? "prev_hash" = none := by simpa using name.symm
          rw [absent]
      | some leftValue =>
          obtain ⟨rightValue, rightFound⟩ := Option.isSome_iff_exists.mp
            (name.symm.trans (leftFound ▸ rfl))
          have related := value leftValue rightValue leftFound rightFound
          rw [leftFound, Option.getD_some] at link
          rw [rightFound, Option.getD_some, Option.getD_some]
          rcases link with rfl | ⟨text, rfl⟩
          · cases related
            rfl
          · cases related
            rfl

theorem mem_hashedTexts {events : List PyDict} {event : PyDict} (present : event ∈ events)
    {text : List Char} (written : canonicalJson (.obj (unhashed event)) = .ok text) :
    String.ofList text ∈ hashedTexts events := by
  apply List.mem_filterMap.mpr
  exact ⟨event, present, by rw [written]; rfl⟩

/-- Events are the same when they store one hash, unless two texts have it. -/
theorem sameEvent_of_hash {left right : PyDict} (leftDistinct : (Json.obj left).Distinct)
    (rightDistinct : (Json.obj right).Distinct) (leftEntry : IsEntry sha left)
    (rightEntry : IsEntry sha right)
    (injective : ∀ first second, canonicalJson (.obj (unhashed left)) = .ok first →
      canonicalJson (.obj (unhashed right)) = .ok second →
      sha (String.ofList first) = sha (String.ofList second) → first = second)
    (hashes : storedHash left = storedHash right) :
    SameEvent left right ∧ previousHash left = previousHash right := by
  obtain ⟨link, leftText, leftWritten, leftStored⟩ := leftEntry
  obtain ⟨-, rightText, rightWritten, rightStored⟩ := rightEntry
  rw [leftStored, rightStored, Json.str.injEq, String.append_right_inj] at hashes
  have same : SameEvent (unhashed left) (unhashed right) :=
    (canonicalJson_eq_iff (unhashed_distinct leftDistinct) (unhashed_distinct rightDistinct)
      leftWritten rightWritten).mp (injective _ _ leftWritten rightWritten hashes)
  rw [← hashes] at rightStored
  exact ⟨sameEvent_of_unhashed same leftStored rightStored, previousHash_eq same link⟩

/-- **The head hash commits to the history.** Verified recordings whose last events
store one hash are the same, event by event. -/
theorem head_commits {leftSession rightSession : PyJson} {left right : List PyDict}
    (injective : ∀ first ∈ hashedTexts left, ∀ second ∈ hashedTexts right,
      sha first = sha second → first = second)
    (leftDistinct : ∀ event ∈ left, (Json.obj event).Distinct)
    (rightDistinct : ∀ event ∈ right, (Json.obj event).Distinct)
    (leftNonempty : left ≠ []) (rightNonempty : right ≠ [])
    (leftSound : verify sha leftSession left = [])
    (rightSound : verify sha rightSession right = [])
    (heads : getOrNone (left.getLast leftNonempty) "event_hash" =
      getOrNone (right.getLast rightNonempty) "event_hash") :
    left.length = right.length ∧ List.Forall₂ SameEvent left right := by
  obtain ⟨leftLinked, leftEntries⟩ := verify_sound leftNonempty leftSound
  obtain ⟨rightLinked, rightEntries⟩ := verify_sound rightNonempty rightSound
  have fresh {event : PyDict} (entry : IsEntry sha event) : storedHash event ≠ .null := by
    obtain ⟨-, text, -, stored⟩ := entry
    rw [stored]
    exact nofun
  have alike : List.Forall₂ SameEvent left right := by
    apply HashChain.committed _ _ _ leftLinked rightLinked
    · rw [HashChain.head_eq_getLast leftNonempty, HashChain.head_eq_getLast rightNonempty]
      exact heads
    · intro event present
      exact fresh (leftEntries event present)
    · intro event present
      exact fresh (rightEntries event present)
    · intro first firstPresent second secondPresent hashes
      apply sameEvent_of_hash (leftDistinct first firstPresent)
        (rightDistinct second secondPresent) (leftEntries first firstPresent)
        (rightEntries second secondPresent) _ hashes
      intro firstText secondText firstWritten secondWritten digests
      have texts := injective _ (mem_hashedTexts firstPresent firstWritten) _
        (mem_hashedTexts secondPresent secondWritten) digests
      rw [← String.toList_ofList (l := firstText), texts, String.toList_ofList]
  exact ⟨alike.length_eq, alike⟩

/-- A digest of the right shape. -/
def plainDigest : String := String.ofList (List.replicate 64 'a')

/-- A recording of a session that has begun. -/
def begun : List PyDict :=
  [[("v", .num (.int 1)), ("seq", .num (.int 0)), ("ts", .str "2024-01-01T00:00:00Z"),
    ("session_id", .str "s"), ("type", .str "session_start"), ("agent", .str "a"),
    ("prev_hash", .null), ("event_hash", .str ("sha256:" ++ plainDigest))]]

/-- A digest that tells texts apart by their fourth byte. -/
def fourthByte (text : String) : String :=
  String.ofList (List.replicate 64
    (((text.toByteArray.data.toList.drop 3).head?.map fun byte =>
      Nat.digitChar (byte.toNat % 16)).getD '0'))

/-- An event that names one hash and stores another; each is 64 times a digit. -/
def linkedEvent (previous : Option Char) (own : Char) (members : PyDict) : PyDict :=
  let hash := fun digit => Json.str ("sha256:" ++ String.ofList (List.replicate 64 digit))
  members ++ [("prev_hash", previous.elim .null hash), ("event_hash", hash own)]

/-- A session in which a policy blocks a call, and which ends for it. -/
def blocked : List PyDict := [
  linkedEvent none '7' [("v", .num (.int 1)), ("seq", .num (.int 0)),
    ("ts", .str "2024-01-01T00:00:00Z"), ("session_id", .str "s"), ("type", .str "session_start"),
    ("agent", .str "a")],
  linkedEvent (some '7') '3' [("v", .num (.int 1)), ("seq", .num (.int 1)),
    ("ts", .str "2024-01-01T00:00:01Z"), ("session_id", .str "s"),
    ("type", .str "policy_decision"), ("server", .str "fs"), ("tool_name", .str "read_file"),
    ("action", .str "block"), ("reason", .str "quarantined")],
  linkedEvent (some '3') '2' [("v", .num (.int 1)), ("seq", .num (.int 2)),
    ("ts", .str "2024-01-01T00:00:02Z"), ("session_id", .str "s"), ("type", .str "session_end"),
    ("reason", .str "policy")]]

/-- The same session, its members in another order and numbers written as floats. -/
def blockedRespelt : List PyDict := [
  linkedEvent none '7' [("agent", .str "a"), ("type", .str "session_start"),
    ("session_id", .str "s"), ("ts", .str "2024-01-01T00:00:00Z"), ("seq", .num (.int 0)),
    ("v", .num (.ofText ['1', '.', '0']))],
  linkedEvent (some '7') '3' [("server", .str "fs"), ("tool_name", .str "read_file"),
    ("action", .str "block"), ("reason", .str "quarantined"), ("v", .num (.int 1)),
    ("seq", .num (.ofText ['1', '.', '0'])), ("ts", .str "2024-01-01T00:00:01Z"),
    ("session_id", .str "s"), ("type", .str "policy_decision")],
  linkedEvent (some '3') '2' [("reason", .str "policy"), ("v", .num (.int 1)),
    ("seq", .num (.int 2)), ("ts", .str "2024-01-01T00:00:02Z"), ("session_id", .str "s"),
    ("type", .str "session_end")]]

/-- Two spellings of a recording with one head are the same events. -/
theorem head_commits_blocked : List.Forall₂ SameEvent blocked blockedRespelt := by
  let written := fun event : PyDict => (canonicalJson (.obj (unhashed event))).toOption
  have texts : ∀ events, hashedTexts events =
      (events.map written).filterMap fun text => text.map String.ofList := by
    intro events
    rw [List.filterMap_map]
    rfl
  have respelt : blockedRespelt.map written = blocked.map written := by decide +kernel
  have digests : ((hashedTexts blocked).map fourthByte).Nodup := by decide +kernel
  have injective : ∀ first ∈ hashedTexts blocked, ∀ second ∈ hashedTexts blockedRespelt,
      fourthByte first = fourthByte second → first = second := by
    intro first among second among' same
    rw [texts, respelt, ← texts] at among'
    exact List.inj_on_of_nodup_map digests among among' same
  have distinct : ∀ event ∈ blocked, (Json.obj event).Distinct := by decide +kernel
  have respeltDistinct : ∀ event ∈ blockedRespelt, (Json.obj event).Distinct := by decide +kernel
  have sound : verify fourthByte (.str "s") blocked = [] := by decide +kernel
  have respeltSound : verify fourthByte (.str "s") blockedRespelt = [] := by decide +kernel
  have heads : storedHash (blocked.getLast (List.cons_ne_nil _ _)) =
      storedHash (blockedRespelt.getLast (List.cons_ne_nil _ _)) := rfl
  exact (head_commits injective distinct respeltDistinct (List.cons_ne_nil _ _)
    (List.cons_ne_nil _ _) sound respeltSound heads).2

end Harness
