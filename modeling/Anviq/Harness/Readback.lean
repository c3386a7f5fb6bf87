import Anviq.Harness.HashParity
import Anviq.Harness.Lines
import Anviq.Json.NumberValue

/-! # Reading the proxy's log

The writer appends each event on a line of its own. A line is read back as the
members of its event, unless one of its strings has a U+0085, which Go writes as
it is and `str.splitlines` takes for a line boundary.
-/

namespace Harness

open Proxy (GoJson Event EventFields goEscape)

/-! ## Values -/

/-- Python reads a number with its value. -/
theorem PyNumber.value?_ofNumber (number : Number) :
    (PyNumber.ofNumber number).value? = some number.value := by
  cases number with
  | zero negative => rfl
  | finite decimal =>
      rw [PyNumber.ofNumber]
      split
      · next plain =>
          have whole : ((signedInt decimal.negative decimal.wholeValue : Int) : ℚ) =
              Number.sign decimal.negative * decimal.wholeValue := by
            cases decimal.negative <;> simp [signedInt, Number.sign]
          rw [PyNumber.value?, whole, ← Decimal.value_plain plain]
          rfl
      · rfl

@[simp] theorem reread_null : reread .null = .null := rfl

@[simp] theorem reread_bool (value : Bool) : reread (.bool value) = .bool value := rfl

@[simp] theorem reread_str (value : String) : reread (.str value) = .str value := rfl

@[simp] theorem reread_num (value : Number) : reread (.num value) = .num (.ofNumber value) := rfl

/-- The members read from an encoded object are those it was written from. -/
theorem get?_reread {members : Json.Members Number} (distinct : (members.map Prod.fst).Nodup)
    (name : String) :
    (reread (.obj members)).members.get? name = (members.get? name).map reread := by
  have sorted : ((Json.sortMembers members).map Prod.fst).Nodup := by
    simpa [Json.sortMembers_eq, Function.comp_def] using distinct
  have read : (reread (.obj members)).members =
      Json.Members.keepLast ((Json.sortMembers members).sort.map
        fun member => (member.1, (received member.2).collapse)) := by
    rw [reread, Json.sortKeys, received_obj, Json.collapse, Json.collapseMembers_eq, List.map_map]
    rfl
  have names : ((Json.sortMembers members).sort.map Prod.fst).Nodup :=
    (((Json.sortMembers members).sort_perm.map Prod.fst).nodup_iff).mpr sorted
  rw [read, Json.Members.keepLast_of_nodup (by simpa [Function.comp_def] using names),
    Json.Members.get?_mapValues (fun value => (received value).collapse),
    Json.Members.get?_perm (Json.sortMembers members).sort_perm names, Json.sortMembers_eq,
    Json.Members.get?_mapValues, Option.map_map]
  rfl

/-! ## Lines -/

/-- A text that Go writes on a line of its own: `str.splitlines` does not break it. -/
def Unbroken (text : String) : Prop := ∀ char ∈ text.toList, char ≠ '\u0085'

/-- Every line boundary but U+0085 is escaped. -/
theorem goEscape_whole {char : Char} (whole : char ≠ '\u0085') :
    ∀ written ∈ goEscape char, isLineBoundary written = false := by
  unfold goEscape
  split_ifs with quoteMark backslash backspace formFeed newline carriageReturn tab special
  case neg =>
    rw [not_or] at special
    have visible (control : Char) (below : control.toNat < 0x20) : ¬ char = control := by
      rintro rfl
      exact special.1 below
    have separators : char ≠ '\u2028' ∧ char ≠ '\u2029' := by
      refine ⟨?_, ?_⟩ <;> rintro rfl <;> exact special.2 (by decide)
    simp [isLineBoundary, whole, separators, visible '\n' (by decide), visible '\r' (by decide),
      visible '\x0b' (by decide), visible '\x0c' (by decide), visible '\x1c' (by decide),
      visible '\x1d' (by decide), visible '\x1e' (by decide)]
  on_goal 8 => exact unicodeEscape_whole _
  all_goals exact List.forall_mem_cons.mpr ⟨rfl, List.forall_mem_singleton.mpr rfl⟩

/-- The text of an unbroken value is one line. -/
theorem marshal_whole {value : GoJson} (unbroken : value.AllStrings Unbroken) :
    ∀ char ∈ (Proxy.marshal value).toList, isLineBoundary char = false := by
  rw [Proxy.marshal, String.toList_ofList]
  refine Json.print_forall (P := Unbroken) punctuation_whole ?_ ?_ (Json.allStrings_sortKeys unbroken)
  · exact fun number char present => isNumberChar_whole (number.layout_chars char present)
  · exact fun text whole char present => goEscape_whole (whole char present)

/-! ## Events -/

/-- The `dict` of an event's line. -/
def eventDict (event : Event) : PyDict := (reread event.toJson).members

theorem loads_event (event : Event) :
    loads (Proxy.marshal event.toJson) = some (.obj (eventDict event)) := by
  rw [loads_marshal_eq]
  rfl

/-- A member of an event as it is read back. -/
theorem get?_eventDict (event : Event) (name : String) :
    (eventDict event).get? name = (event.members.get? name).map reread := by
  rw [eventDict, Event.toJson, get?_reread event.names_nodup]

section Common

variable (event : Event)

theorem getOrNone_seq :
    getOrNone (eventDict event) "seq" = .num (.ofNumber (.ofInt event.seq)) := by
  rw [getOrNone, get?_eventDict, event.get?_common (by decide)]
  rfl

end Common

/-! ## Files -/

/-- The text of a file that holds `events`. -/
def logText (events : List Event) : List Char :=
  events.flatMap fun event => (Proxy.marshal event.toJson).toList ++ ['\n']

/-- An event that stays on one line. -/
def OneLine (event : Event) : Prop := event.toJson.AllStrings Unbroken

theorem splitlines_logText {events : List Event} (whole : ∀ event ∈ events, OneLine event) :
    splitlines (logText events) = events.map fun event => (Proxy.marshal event.toJson).toList := by
  induction events with
  | nil => rfl
  | cons event events ih =>
      rw [List.forall_mem_cons] at whole
      rw [splitlines, logText, List.flatMap_cons, List.append_assoc, List.singleton_append,
        splitAfter_line (marshal_whole whole.1) rfl (by decide), List.map_cons, ← ih whole.2, List.reverse_nil,
        List.nil_append]
      rfl

/-- A line with an event is not blank. -/
theorem event_visible (event : Event) :
    (Proxy.marshal event.toJson).toList.all isSpace = false := by
  rw [Proxy.marshal, String.toList_ofList, Event.toJson, Json.sortKeys, Json.print,
    List.cons_append, List.all_cons, show isSpace '\x7b' = false by decide, Bool.false_and]

theorem readLines_event (line : Nat) (event : Event) (lines : List (List Char)) :
    readLines line ((Proxy.marshal event.toJson).toList :: lines) =
      ((readLines (line + 1) lines).1, eventDict event :: (readLines (line + 1) lines).2) := by
  simp only [readLines, event_visible, Bool.false_eq_true, ↓reduceIte, String.ofList_toList,
    loads_event]

/-- A line that is not JSON is a problem. -/
theorem readLines_unread {raw : List Char} (visible : raw.all isSpace = false)
    (unread : loads (String.ofList raw) = none) (line : Nat) (lines : List (List Char)) :
    readLines line (raw :: lines) =
      (.invalidJson line :: (readLines (line + 1) lines).1, (readLines (line + 1) lines).2) := by
  simp only [readLines, visible, Bool.false_eq_true, ↓reduceIte, unread]

theorem readLines_events (line : Nat) (events : List Event) :
    readLines line (events.map fun event => (Proxy.marshal event.toJson).toList) =
      ([], events.map eventDict) := by
  induction events generalizing line with
  | nil => rfl
  | cons event events ih => rw [List.map_cons, readLines_event, ih, List.map_cons]

theorem load_events (sha : String → String) (text : String) :
    (load sha text).events = (readLines 1 (splitlines text.toList)).2 := rfl

/-- A file whose events stay on their lines is read back event by event. -/
theorem load_logText (sha : String → String) {events : List Event}
    (whole : ∀ event ∈ events, OneLine event) :
    load sha (String.ofList (logText events)) =
      { events := events.map eventDict
        integrityProblems :=
          indexProblems [] (events.map eventDict) ++
            verify sha (recordedSession (events.map eventDict)) (events.map eventDict) } := by
  rw [load, String.toList_ofList, splitlines_logText whole, readLines_events]
  rfl

end Harness
