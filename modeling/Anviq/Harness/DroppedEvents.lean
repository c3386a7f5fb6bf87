import Anviq.Harness.Unbroken

/-! # Dropped events

A session's file is a subsequence of the events the session built. When one of
them is dropped and a later one is written, the session is marked incomplete, and
`Recording.verify` finds a gap in the numbers of the file, unless a U+0085 has
broken the line of a written event.
-/

namespace Harness

open Proxy (EventFields Event Env SessionCall Audit AuditLabel Chained)

variable {Schema : Type}

/-! ## Gaps in a recording -/

/-- A problem of the continuity of `seq` or of the hash chain. -/
def Problem.breaksChain : Problem → Bool
  | .seq .. => true
  | .prevHash .. => true
  | _ => false

variable {sha : String → String}

theorem semanticProblems_expectedSeq (index : Nat) (event : PyDict) (progress : Progress) :
    (semanticProblems sha index event progress).2.expectedSeq = progress.expectedSeq := by
  unfold semanticProblems
  dsimp only
  split <;> rfl

/-- A number equals an int with its value. -/
theorem pyEq_ofNumber (number : Number) (value : Int) :
    pyEq (.num (.ofNumber number)) (.num (.int value)) = decide (number.value = value) := by
  have read := PyNumber.value?_ofNumber number
  have eq : pyEq (.num (.ofNumber number)) (.num (.int value)) =
      (PyNumber.ofNumber number).eq (.int value) := rfl
  rw [eq]
  unfold PyNumber.eq
  split
  · next absurdity => exact absurd absurdity (by simp)
  · rw [read]
    rfl

/-- An event whose number is not the expected one is a problem. -/
theorem verifyEvent_seq (sessionId : PyJson) (index : Nat) (event : PyDict) (progress : Progress)
    (unexpected : pyEq (getOrNone event "seq") (.num (.int progress.expectedSeq)) = false) :
    Problem.seq index progress.expectedSeq (getOrNone event "seq") ∈
      (verifyEvent sha sessionId index event progress).1 := by
  unfold verifyEvent
  dsimp only
  split <;> simp [problemIf, unexpected]

/-- After an event the number after its own is expected. -/
theorem verifyEvent_expectedSeq (sessionId : PyJson) (index : Nat) (event : PyDict)
    (progress : Progress) :
    (verifyEvent sha sessionId index event progress).2.expectedSeq =
      nextSeq (getOrNone event "seq") progress.expectedSeq + 1 := by
  unfold verifyEvent
  dsimp only
  split
  · exact semanticProblems_expectedSeq ..
  · rfl

/-- A number with the expected value is followed by the next one. -/
theorem nextSeq_expected {number : Number} {expected : Int} (value : number.value = expected) :
    nextSeq (.num (.ofNumber number)) expected = expected := by
  have read := PyNumber.value?_ofNumber number
  cases form : PyNumber.ofNumber number with
  | int whole =>
      rw [form] at read
      have same : (whole : ℚ) = expected := (Option.some.inj read).trans value
      exact_mod_cast same
  | float value => rfl
  | infinity negative => rfl
  | nan => rfl

/-- If no number is out of order, the events are numbered from the expected one. -/
theorem verifyEvents_seq (sha : String → String) (sessionId : PyJson) (events : List Event) (index : Nat)
    (progress : Progress) (first : Nat) (expected : progress.expectedSeq = first)
    (continuous : ∀ problem ∈ verifyEvents sha sessionId index (events.map eventDict) progress,
      problem.breaksChain = false) :
    ∀ (position : Nat) (event : Event), events[position]? = some event → event.seq = first + position := by
  induction events generalizing index progress first with
  | nil => exact fun position event absent => absurd absent (by simp)
  | cons event events ih =>
      rw [List.map_cons, verifyEvents] at continuous
      dsimp only at continuous
      rw [List.forall_mem_append] at continuous
      have seq : event.seq = first := by
        by_contra gap
        have unexpected : pyEq (getOrNone (eventDict event) "seq")
            (.num (.int progress.expectedSeq)) = false := by
          rw [getOrNone_seq, pyEq_ofNumber, Number.value_ofInt, expected]
          exact decide_eq_false fun same => gap (by exact_mod_cast same)
        exact absurd (continuous.1 _ (verifyEvent_seq sessionId index _ progress unexpected))
          (by simp [Problem.breaksChain])
      have next : (verifyEvent sha sessionId index (eventDict event) progress).2.expectedSeq =
          (first + 1 : Nat) := by
        rw [verifyEvent_expectedSeq, getOrNone_seq, expected, nextSeq_expected]
        · push_cast
          rfl
        · rw [Number.value_ofInt, seq]
      intro position found present
      cases position with
      | zero =>
          obtain rfl := Option.some.inj present
          exact seq
      | succ position =>
          rw [ih (index + 1) _ (first + 1) next continuous.2 position found present]
          omega

/-! ## Starting -/

/-- The calls of a session as `ServeHTTP` makes them: `EnsureStarted` comes first,
and `EmitEvent` is never asked for a `session_start`. -/
def Opened (calls : List (SessionCall Schema)) : Prop :=
  ∃ agent later, calls = .ensureStarted agent :: later ∧
    ∀ other, .emitEvent (.sessionStart other) ∉ later

/-- The events start with a `session_start`, and have no other. -/
def StartsOnce (events : List Event) : Prop :=
  ∃ start rest, events = start :: rest ∧ start.fields.type = "session_start" ∧
    ∀ event ∈ rest, event.fields.type ≠ "session_start"

theorem type_sessionStart {fields : EventFields} (type : fields.type = "session_start") :
    ∃ agent, fields = .sessionStart agent := by
  cases fields with
  | sessionStart agent => exact ⟨agent, rfl⟩
  | _ => exact absurd type (by simp [EventFields.type])

section Runs

variable {env : Env} {capacity : Nat} {labels : List (AuditLabel Schema)} {audit : Audit Schema}

/-- An opened session records its start first, and once. -/
theorem opened_startsOnce (hashes : ∀ value, ∃ hash, env.sha256Hex value = .ok hash)
    (run : (Proxy.auditMachine env capacity).Run labels audit) (id : String)
    (opened : Opened (Proxy.callsOf id labels)) : StartsOnce (audit.built id) := by
  have invariant := Proxy.auditRun_session (P := fun calls session events =>
    (calls = [] → session.started = false ∧ events = []) ∧
      (Opened calls → session.started = true ∧ StartsOnce events)) id ?_ ?_ ?_ run
  · exact (invariant.2 opened).2
  · refine ⟨fun _ => ⟨rfl, rfl⟩, ?_⟩
    rintro ⟨agent, later, absurdity, -⟩
    exact absurd absurdity (by simp)
  · intro calls session events call ⟨fresh, started⟩ continues
    refine ⟨fun absurdity => absurd absurdity (by simp), ?_⟩
    rintro ⟨agent, later, split, plain⟩
    obtain ⟨-, -, begun, -, kinds⟩ := call.apply_extends continues
    cases calls with
    | nil =>
        obtain ⟨rfl, rfl⟩ := List.cons.inj split
        obtain ⟨unstarted, rfl⟩ := fresh rfl
        have same := SessionCall.settled_sameChain session (.ensureStarted agent)
        have built := Proxy.Session.buildEvents_hashes hashes (same.continues continues)
          (SessionCall.kinds session (.ensureStarted agent))
        rw [← SessionCall.apply_eq, SessionCall.kinds, unstarted, if_neg Bool.false_ne_true] at built
        obtain ⟨start, only, kind⟩ := List.map_eq_singleton_iff.mp built
        refine ⟨begun, start, [], only, ?_, fun _ absent => absurd absent List.not_mem_nil⟩
        rw [kind]
        rfl
    | cons first calls =>
        obtain ⟨rfl, rfl⟩ := List.cons.inj split
        have openedBefore : Opened (.ensureStarted agent :: calls) :=
          ⟨agent, calls, rfl, fun other present => plain other (List.mem_append_left _ present)⟩
        obtain ⟨startedBefore, start, rest, split, kind, once⟩ := started openedBefore
        refine ⟨by rw [begun, startedBefore, Bool.or_true], start,
          rest ++ (call.apply env session).2, ?_, kind, ?_⟩
        · rw [split, List.cons_append]
        · refine List.forall_mem_append.mpr ⟨once, fun event present type => ?_⟩
          obtain ⟨other, fields⟩ := type_sessionStart type
          refine SessionCall.kinds_started startedBefore (fun agent => ?_) event.fields
            (kinds.subset (List.mem_map_of_mem present)) other fields
          rintro rfl
          exact plain agent (List.mem_append_right _ List.mem_cons_self)
  · exact fun calls session events holds => holds

/-- A session whose calls have no U+0085 builds events that stay on one line. -/
theorem oneLine_of_calls (unbroken : UnbrokenEnv env)
    (run : (Proxy.auditMachine env capacity).Run labels audit) {id : String}
    (calls : ∀ call ∈ Proxy.callsOf id labels, UnbrokenCall call) (valid : Unbroken id) :
    ∀ event ∈ audit.built id, OneLine event := by
  have invariant := Proxy.auditRun_session (P := fun calls session events =>
    (∀ call ∈ calls, UnbrokenCall call) →
      UnbrokenPins session ∧ ∀ event ∈ events, UnbrokenFields event.fields) id ?_ ?_ ?_ run
  · have accounted := Audit.Accounted.reachable ⟨labels, run⟩ id
    have chained := accounted.continues.chained
    intro event present
    have sealed := accounted.continues.built event present
    rw [accounted.named] at sealed
    refine oneLine_of_sealed unbroken valid sealed ((invariant calls).2 event present) ?_
    intro hash previous
    have link := (chained _ event (chained.getElem?_seq present)).2
    rw [previous] at link
    cases position : event.seq with
    | zero =>
        rw [position] at link
        exact absurd link (by simp)
    | succ before =>
        rw [position] at link
        obtain ⟨last, found, rfl⟩ := Option.map_eq_some_iff.mp link.symm
        exact unbroken.hash _ _ (accounted.continues.built last (List.mem_of_getElem? found)).hashed
  · exact fun _ => ⟨fun _ _ absent => absurd absent (by simp), fun _ absent =>
      absurd absent List.not_mem_nil⟩
  · intro calls session events call ih continues unbrokenCalls
    rw [List.forall_mem_append, List.forall_mem_singleton] at unbrokenCalls
    obtain ⟨pins, built⟩ := ih unbrokenCalls.1
    obtain ⟨settled, kinds⟩ := unbroken_call pins unbrokenCalls.2
    obtain ⟨-, -, -, -, fields⟩ := call.apply_extends continues
    refine ⟨?_, List.forall_mem_append.mpr ⟨built, fun event present => ?_⟩⟩
    · rw [SessionCall.apply_eq]
      intro key pin found
      rw [Proxy.Session.buildEvents_pinned] at found
      exact settled key pin found
    · exact kinds _ (fields.subset (List.mem_map_of_mem present))
  · exact fun calls session events holds => holds

/-- The id of a session with a file has no U+0085. -/
theorem unbroken_id {id : String} (valid : Proxy.validSessionId id = true) : Unbroken id := by
  simp only [Proxy.validSessionId, Bool.and_eq_true, List.all_eq_true] at valid
  rintro char present rfl
  exact absurd (valid.1.2 _ present) (by decide)

/-- Of an event that was dropped and a later one that was written, the numbers of
the file are out of order. -/
theorem gap_of_dropped (sha : String → String)
    (run : (Proxy.auditMachine env capacity).Run labels audit) {id : String} {lost later : Event}
    (dropped : lost ∈ audit.dropped id) (written : later ∈ audit.writer.files id)
    (after : lost.seq < later.seq) :
    ∃ problem ∈ verify sha (recordedSession ((audit.writer.files id).map eventDict))
      ((audit.writer.files id).map eventDict), problem.breaksChain = true := by
  have accounted := Audit.Accounted.reachable ⟨labels, run⟩ id
  have chained := accounted.continues.chained
  by_contra quiet
  push Not at quiet
  have file : (audit.writer.files id).Sublist (audit.built id) :=
    (List.sublist_append_left _ _).trans accounted.delivered
  have numbered := verifyEvents_seq sha
    (recordedSession ((audit.writer.files id).map eventDict)) (audit.writer.files id) 0 {} 0 rfl
    fun problem present => by
      refine Bool.eq_false_iff.mpr (quiet problem ?_)
      cases events : audit.writer.files id with
      | nil =>
          rw [events] at written
          exact absurd written List.not_mem_nil
      | cons first rest =>
          rw [events] at present
          exact List.mem_append_right _ present
  obtain ⟨position, inside, rfl⟩ := List.mem_iff_getElem.mp written
  have last := numbered position _ (List.getElem?_eq_getElem inside)
  have lostInside : lost.seq < (audit.writer.files id).length := by omega
  have found := List.getElem?_eq_getElem lostInside
  have among : (audit.writer.files id)[lost.seq] ∈ audit.writer.files id := List.getElem_mem _
  have seq := numbered lost.seq _ found
  have same : (audit.writer.files id)[lost.seq] = lost := by
    have left := chained.getElem?_seq (file.subset among)
    have right := chained.getElem?_seq (accounted.complete.subset (List.mem_append_right _ dropped))
    rw [seq, Nat.zero_add, right] at left
    exact (Option.some.inj left).symm
  have distinct := (accounted.complete.nodup_iff).mpr chained.nodup
  refine (List.nodup_append.mp distinct).2.2 lost ?_ lost dropped rfl
  exact List.mem_append_left _ (same ▸ among)

variable (sha : String → String)

/-- The events of a session's file are, in order, some of those the session built,
which are numbered from zero and chained. If none was dropped the file holds them
all, from a single `session_start` on. If one was dropped and a later one written,
the session is incomplete, and if no string the session was given has a U+0085,
`Recording.verify` of the file finds a break of the numbers or of the chain. -/
theorem dropped_events_visible (unbroken : UnbrokenEnv env)
    (hashes : ∀ value, ∃ hash, env.sha256Hex value = .ok hash)
    (run : (Proxy.auditMachine env capacity).Run labels audit) (id : String) :
    (audit.writer.files id).Sublist (audit.built id) ∧
      Chained (audit.built id) ∧
      (audit.dropped id = [] →
        audit.delivered id = audit.built id ∧
          (Opened (Proxy.callsOf id labels) → StartsOnce (audit.built id))) ∧
      ∀ lost ∈ audit.dropped id, ∀ later ∈ audit.writer.files id, lost.seq < later.seq →
        (audit.sessions id).auditIncomplete = true ∧
          ((∀ call ∈ Proxy.callsOf id labels, UnbrokenCall call) →
            ∃ problem ∈
              (load sha (String.ofList (logText (audit.writer.files id)))).verify sha,
              problem.breaksChain = true) := by
  have accounted := Audit.Accounted.reachable ⟨labels, run⟩ id
  have file : (audit.writer.files id).Sublist (audit.built id) :=
    (List.sublist_append_left _ _).trans accounted.delivered
  refine ⟨file, accounted.continues.chained, fun none => ⟨?_, opened_startsOnce hashes run id⟩, ?_⟩
  · have complete := accounted.complete
    rw [none, List.append_nil] at complete
    exact accounted.delivered.eq_of_length complete.length_eq
  · intro lost dropped later written after
    refine ⟨accounted.marked (List.ne_nil_of_mem dropped), fun calls => ?_⟩
    have valid := unbroken_id (accounted.valid later (List.mem_append_left _ written))
    have whole : ∀ event ∈ audit.writer.files id, OneLine event := fun event present =>
      oneLine_of_calls unbroken run calls valid event (file.subset present)
    rw [load_logText sha whole]
    exact gap_of_dropped sha run dropped written after

end Runs

/-! ## A broken line -/

/-- A digest that is the same for every text. -/
def drillDigest (_ : String) : String := "0"

/-- Hashing with `drillDigest`, at a fixed time. -/
def drillEnv : Env where
  sha256Hex := fun _ => .ok ("sha256:" ++ drillDigest "")
  clock := fun _ => "2026-01-01T00:00:00Z"

/-- The second event of a session finds the channel full; the third one, a call
with the argument `text`, is written. -/
def droppedSecond (text : String) : List (AuditLabel Unit) :=
  [.call "s" (.ensureStarted "agent"), .emit "s",
    .call "s" (.emitEvent (.policyDecision "files" "read" "warn" "unreachable")), .emit "s",
    .write,
    .call "s" (.emitEvent (.toolCall "s-1" "files" "read" "sha256:0" (.obj [("text", .str text)]))),
    .emit "s", .write]

/-- The event of `droppedSecond` that is written first. -/
def drillStart : Event where
  seq := 0
  ts := "2026-01-01T00:00:00Z"
  sessionId := "s"
  fields := .sessionStart "agent"
  prevHash := none
  eventHash := "sha256:0"

/-- The event of `droppedSecond` that is dropped. -/
def drillWarning : Event where
  seq := 1
  ts := "2026-01-01T00:00:00Z"
  sessionId := "s"
  fields := .policyDecision "files" "read" "warn" "unreachable"
  prevHash := some "sha256:0"
  eventHash := "sha256:0"

/-- The event of `droppedSecond` that is written last. -/
def drillCall (text : String) : Event where
  seq := 2
  ts := "2026-01-01T00:00:00Z"
  sessionId := "s"
  fields := .toolCall "s-1" "files" "read" "sha256:0" (.obj [("text", .str text)])
  prevHash := some "sha256:0"
  eventHash := "sha256:0"

theorem droppedSecond_run (text : String) :
    ∃ audit, (Proxy.auditMachine drillEnv 1).Run (droppedSecond text) audit ∧
      audit.writer.files "s" = [drillStart, drillCall text] ∧
      audit.dropped "s" = [drillWarning] := by
  obtain ⟨audit, played, files, dropped⟩ :
      ∃ audit, (Audit.initial 1).play drillEnv (droppedSecond text) = some audit ∧
        audit.writer.files "s" = [drillStart, drillCall text] ∧
        audit.dropped "s" = [drillWarning] := ⟨_, rfl, rfl, rfl⟩
  exact ⟨audit, Audit.play_run (.start rfl) played, files, dropped⟩

/-- The line of the call whose argument is U+0085. -/
def brokenLine : List Char :=
  Json.print Proxy.goEscape Number.layout (drillCall "\u0085").toJson.sortKeys

/-- The line up to the U+0085. -/
def brokenFront : List Char := brokenLine.takeWhile (· ≠ '\u0085')

/-- The line after the U+0085. -/
def brokenBack : List Char := (brokenLine.dropWhile (· ≠ '\u0085')).drop 1

/-- Neither part of the broken line is JSON. -/
theorem load_brokenLine (sha : String → String) :
    (load sha (String.ofList (logText [drillStart, drillCall "\u0085"]))).events =
      [eventDict drillStart] := by
  have start : OneLine drillStart := Json.allStrings_obj.mpr (by
    simp only [Event.members, Event.body, Proxy.eventBody, drillStart, EventFields.members,
      List.cons_append, List.nil_append, List.forall_mem_cons, List.not_mem_nil, false_implies,
      implies_true, and_true, Json.AllStrings, Proxy.goInt]
    decide)
  have split : brokenLine = brokenFront ++ '\u0085' :: brokenBack := by decide +kernel
  have parts : (brokenFront ++ brokenBack).all (fun char => !isLineBoundary char) = true := by
    decide +kernel
  have whole (char : Char) (present : char ∈ brokenFront ++ brokenBack) :
      isLineBoundary char = false := by
    simpa using List.all_eq_true.mp parts char present
  have front : ∀ char ∈ brokenFront, isLineBoundary char = false := by
    intro char present
    exact whole char (List.mem_append_left _ present)
  have back : ∀ char ∈ brokenBack, isLineBoundary char = false := by
    intro char present
    exact whole char (List.mem_append_right _ present)
  have lines : splitlines (logText [drillStart, drillCall "\u0085"]) =
      [(Proxy.marshal drillStart.toJson).toList, brokenFront, brokenBack] := by
    have second : (Proxy.marshal (drillCall "\u0085").toJson).toList = brokenLine := by
      rw [brokenLine, Proxy.marshal, String.toList_ofList]
    simp only [logText, List.flatMap_cons, List.flatMap_nil, List.append_nil, List.append_assoc,
      second, split, List.cons_append, List.nil_append, splitlines]
    rw [splitAfter_line (marshal_whole start) rfl (by decide), splitAfter_line front rfl (by decide),
      splitAfter_line back rfl (by decide)]
    simp only [List.reverse_nil, List.nil_append, splitAfter, List.isEmpty_nil, ↓reduceIte]
  have unread (part : List Char) (nothing : Json.parse (String.ofList part) = none) :
      loads (String.ofList part) = none := by
    rw [loads, nothing]
    rfl
  have noFront : loads (String.ofList brokenFront) = none := unread _ (by
    rw [Json.parse, String.toList_ofList]
    decide +kernel)
  have noBack : loads (String.ofList brokenBack) = none := unread _ (by
    rw [Json.parse, String.toList_ofList]
    decide +kernel)
  have visible : brokenFront.all isSpace = false ∧ brokenBack.all isSpace = false := by
    decide +kernel
  rw [load_events, String.toList_ofList, lines, readLines_event, readLines_unread visible.1 noFront,
    readLines_unread visible.2 noBack]
  rfl

/-- A U+0085 in the later event hides the gap. -/
theorem droppedSecond_unseen :
    ∃ (labels : List (AuditLabel Unit)) (audit : Audit Unit),
      (Proxy.auditMachine drillEnv 1).Run labels audit ∧
      ∃ lost ∈ audit.dropped "s", ∃ later ∈ audit.writer.files "s", lost.seq < later.seq ∧
        ∀ problem ∈
          (load drillDigest (String.ofList (logText (audit.writer.files "s")))).verify drillDigest,
          problem.breaksChain = false := by
  obtain ⟨audit, run, files, dropped⟩ := droppedSecond_run "\u0085"
  refine ⟨_, audit, run, drillWarning, dropped ▸ List.mem_cons_self, drillCall "\u0085",
    files ▸ List.mem_cons_of_mem _ List.mem_cons_self, by decide, ?_⟩
  rw [files, Recording.verify, load_brokenLine]
  decide +kernel

theorem drillEnv_unbroken : UnbrokenEnv drillEnv where
  clock := fun _ => (by decide : Unbroken "2026-01-01T00:00:00Z")
  hash := fun _ _ hashed => Except.ok.inj hashed ▸ (by decide : Unbroken "sha256:0")

/-- Without a U+0085 the gap is found. -/
theorem dropped_events_visible_plainCall :
    ∃ (labels : List (AuditLabel Unit)) (audit : Audit Unit),
      (Proxy.auditMachine drillEnv 1).Run labels audit ∧
        audit.dropped "s" = [drillWarning] ∧ (audit.sessions "s").auditIncomplete = true ∧
        ∃ problem ∈
          (load drillDigest (String.ofList (logText (audit.writer.files "s")))).verify drillDigest,
          problem.breaksChain = true := by
  obtain ⟨audit, run, files, dropped⟩ := droppedSecond_run "ready"
  have visible := (dropped_events_visible drillDigest drillEnv_unbroken (fun _ => ⟨_, rfl⟩) run "s").2.2.2
    drillWarning (dropped ▸ List.mem_cons_self) (drillCall "ready")
    (files ▸ List.mem_cons_of_mem _ List.mem_cons_self) (by decide)
  refine ⟨_, audit, run, dropped, visible.1, visible.2 ?_⟩
  have calls : Proxy.callsOf "s" (droppedSecond "ready") =
      [.ensureStarted "agent", .emitEvent (.policyDecision "files" "read" "warn" "unreachable"),
        .emitEvent (.toolCall "s-1" "files" "read" "sha256:0"
          (.obj [("text", .str "ready")]))] := rfl
  simp only [calls, List.forall_mem_cons, List.not_mem_nil, false_implies, implies_true, and_true,
    UnbrokenCall, UnbrokenFields, EventFields.members, Json.AllStrings, Json.AllStringMembers]
  decide

end Harness
