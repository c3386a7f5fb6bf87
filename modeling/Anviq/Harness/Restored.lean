import Anviq.Harness.CanonicalForm
import Anviq.Harness.Lines
import Anviq.Harness.PyValue
import Anviq.Json.SortedNames

/-! # Reading canonical texts back

What `json.loads` makes of a text of `canonical_json`: the same value, with whole floats as
ints. A file of such texts, one a line, is loaded event by event, unless one of the strings has
a character that `canonical_json` writes as it is and `str.splitlines` takes for a boundary.
-/

namespace Harness

open Json (ecmaEscape ecmaNumber)

/-! ## Values -/

/-- What `json.loads` reads from the canonical text of a value. -/
def restored (json : PyJson) : PyJson := (json.map PyNumber.encoded).normal.map .ofNumber

/-- A number whose text is read as one that can be written again. -/
def PyNumber.Readable (number : PyNumber) : Prop :=
  (PyNumber.ofNumber number.encoded.unsigned).Encodable

theorem unsigned_unsigned (number : Number) : number.unsigned.unsigned = number.unsigned := by
  cases number <;> rfl

/-- A number read back is written as it was. -/
theorem ecmaNumber_ofNumber (number : Number) :
    ecmaNumber (PyNumber.ofNumber number).encoded = ecmaNumber number := by
  have same : (PyNumber.ofNumber number).encoded.value = number.value := by
    cases number with
    | zero negative => rfl
    | finite decimal =>
        rw [PyNumber.ofNumber]
        split
        · next plain =>
            have whole : ((signedInt decimal.negative decimal.wholeValue : Int) : ℚ) =
                Number.sign decimal.negative * decimal.wholeValue := by
              cases decimal.negative <;> simp [signedInt, Number.sign]
            rw [PyNumber.encoded, Number.value_ofInt, whole, ← Decimal.value_plain plain]
            rfl
        · rfl
  rw [Json.ecmaNumber_eq, Json.ecmaNumber_eq, Number.unsigned_eq_iff.mpr same]

/-- A small int is readable. -/
theorem readable_int {value : Int} (small : value.natAbs ≤ 2 ^ 53) :
    PyNumber.Readable (.int value) := by
  have unsigned : PyNumber.ofNumber (Number.ofInt value).unsigned =
      PyNumber.ofNumber (Number.ofInt value) := by
    cases Number.ofInt value <;> rfl
  rw [PyNumber.Readable, PyNumber.encoded, unsigned, PyNumber.ofNumber_ofInt small]
  exact small

theorem restored_distinct {json : PyJson} (distinct : json.Distinct) : (restored json).Distinct := by
  rw [restored, Json.Distinct, Json.namesPairwise_map]
  exact Json.sortNames_namesPairwise (Json.namesPairwise_map.mpr (Json.namesPairwise_map.mpr distinct))

/-- A canonical text is read as the value it was written from. -/
theorem loads_canonical {json : PyJson} {text : List Char} (distinct : json.Distinct)
    (written : canonicalJson json = .ok text) :
    loads (String.ofList text) = some (restored json) := by
  obtain ⟨-, rfl⟩ := canonicalJson_eq_ok.mp written
  have numbers : (fun token : String => PyNumber.ofText token.toList) ∘
      (fun number : Number => String.ofList number.layout) = PyNumber.ofNumber := by
    funext number
    simp [PyNumber.ofText_layout]
  rw [loads, Json.canonical_eq_normal,
    Json.parse_print Json.ecmaEscape_unescapes Number.layout_recognised, Option.map_some,
    Json.map_map, numbers]
  exact congrArg some (Json.collapse_of_distinct (restored_distinct distinct))

theorem restored_encodable_iff {json : PyJson} :
    (restored json).AllNumbers PyNumber.Encodable ↔ json.AllNumbers PyNumber.Readable := by
  rw [restored, Json.allNumbers_map, Json.normal, Json.allNumbers_sortNames, Json.allNumbers_map,
    Json.allNumbers_map]
  rfl

/-- A value whose numbers are readable is written as before once it has been read. -/
theorem canonicalJson_restored {json : PyJson} {text : List Char}
    (readable : json.AllNumbers PyNumber.Readable) (written : canonicalJson json = .ok text) :
    canonicalJson (restored json) = .ok text := by
  obtain ⟨-, rfl⟩ := canonicalJson_eq_ok.mp written
  refine canonicalJson_eq_ok.mpr ⟨restored_encodable_iff.mpr readable, ?_⟩
  have unsigned : ecmaNumber ∘ Number.unsigned = ecmaNumber := by
    funext number
    simp only [Function.comp_apply, Json.ecmaNumber_eq, unsigned_unsigned]
  have again : ecmaNumber ∘ (PyNumber.encoded ∘ PyNumber.ofNumber) = ecmaNumber :=
    funext ecmaNumber_ofNumber
  rw [Json.canonical_eq_print, Json.canonical_eq_print, restored, Json.map_map, Json.normal,
    Json.sortNames_map _ (Json.sortNames _), Json.sortNames_sortNames, Json.print_map, again,
    Json.sortNames_map Number.unsigned, Json.print_map, unsigned]

/-- What is read from a text is the value it was written from. -/
theorem same_restored {json : PyJson} {text : List Char} (distinct : json.Distinct)
    (readable : json.AllNumbers PyNumber.Readable) (written : canonicalJson json = .ok text) :
    SameJson json (restored json) :=
  (canonicalJson_eq_iff distinct (restored_distinct distinct) written
    (canonicalJson_restored readable written)).mp rfl

/-! ## Lines -/

/-- A text `canonical_json` writes on one line: `str.splitlines` does not break it. -/
def Whole (text : String) : Prop :=
  ∀ char ∈ text.toList, char ≠ '\u0085' ∧ char ≠ '\u2028' ∧ char ≠ '\u2029'

/-- Every line boundary but three is escaped. -/
theorem ecmaEscape_whole {char : Char}
    (whole : char ≠ '\u0085' ∧ char ≠ '\u2028' ∧ char ≠ '\u2029') :
    ∀ written ∈ ecmaEscape char, isLineBoundary written = false := by
  unfold ecmaEscape
  split_ifs with quoteMark backslash backspace formFeed newline carriageReturn tab control
  case neg =>
    have visible (other : Char) (below : other.toNat < 0x20) : ¬ char = other := by
      intro same
      rw [same] at control
      exact control below
    simp [isLineBoundary, whole, visible '\n' (by simp), visible '\r' (by simp),
      visible '\x0b' (by simp), visible '\x0c' (by simp), visible '\x1c' (by simp),
      visible '\x1d' (by simp), visible '\x1e' (by simp)]
  on_goal 8 => exact unicodeEscape_whole _
  all_goals exact List.forall_mem_cons.mpr ⟨rfl, List.forall_mem_singleton.mpr rfl⟩

/-- The canonical text of a value with such strings is one line. -/
theorem canonical_whole {json : PyJson} {text : List Char} (whole : json.AllStrings Whole)
    (written : canonicalJson json = .ok text) : ∀ char ∈ text, isLineBoundary char = false := by
  obtain ⟨-, rfl⟩ := canonicalJson_eq_ok.mp written
  rw [Json.canonical_eq_normal]
  have strings : (json.map PyNumber.encoded).normal.AllStrings Whole := by
    rw [Json.normal, Json.allStrings_sortNames, Json.allStrings_map, Json.allStrings_map]
    exact whole
  refine Json.print_forall punctuation_whole ?_ ?_ strings
  · exact fun number char present => isNumberChar_whole (number.layout_chars char present)
  · exact fun text whole char present => ecmaEscape_whole (whole char present)

/-! ## Files -/

/-- What is read from the line of an event. -/
def restoredEvent (event : PyDict) : PyDict := (restored (.obj event)).members

theorem restored_obj (event : PyDict) : restored (.obj event) = .obj (restoredEvent event) := rfl

/-- The line of an event that can be read back. -/
structure Legible (event : PyDict) (line : List Char) : Prop where
  distinct : (Json.obj event).Distinct
  readable : (Json.obj event).AllNumbers PyNumber.Readable
  whole : (Json.obj event).AllStrings Whole
  written : canonicalJson (.obj event) = .ok line

namespace Legible

variable {event : PyDict} {line : List Char}

theorem loads (legible : Legible event line) :
    Harness.loads (String.ofList line) = some (.obj (restoredEvent event)) := by
  rw [loads_canonical legible.distinct legible.written, restored_obj]

theorem same (legible : Legible event line) : SameJson (.obj event) (.obj (restoredEvent event)) :=
  same_restored legible.distinct legible.readable legible.written

/-- A line with an event is not blank. -/
theorem visible (legible : Legible event line) : line.all isSpace = false := by
  obtain ⟨items, -, brace⟩ := bind_eq_ok.mp legible.written
  cases brace
  rfl

end Legible

theorem readLines_legible {events : List PyDict} {lines : List (List Char)}
    (legible : List.Forall₂ Legible events lines) (number : Nat) :
    readLines number lines = ([], events.map restoredEvent) := by
  induction legible generalizing number with
  | nil => rfl
  | cons first _ ih =>
      simp only [readLines, first.visible, Bool.false_eq_true, ↓reduceIte, first.loads, ih,
        List.map_cons]

/-- A file of lines that can be read back is loaded event by event. -/
theorem load_legible (sha : String → String) {events : List PyDict} {lines : List (List Char)}
    (legible : List.Forall₂ Legible events lines) :
    load sha (String.ofList (lines.flatMap fun line => line ++ ['\n'])) =
      { events := events.map restoredEvent
        integrityProblems :=
          indexProblems [] (events.map restoredEvent) ++
            verify sha (recordedSession (events.map restoredEvent))
              (events.map restoredEvent) } := by
  have whole : ∀ line ∈ lines, ∀ char ∈ line, isLineBoundary char = false := by
    intro line present
    obtain ⟨event, -, here⟩ := forall₂_exists_left legible present
    exact canonical_whole here.whole here.written
  rw [load, String.toList_ofList, splitlines_lines whole, readLines_legible legible]
  rfl

end Harness
