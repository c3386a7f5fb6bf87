import Anviq.Diff.Description

/-! # What the cosmetic shortcut hides

`diff_description` has no findings about texts that normalise alike, and looks for changed
numbers only once punctuation is gone. When new patterns and new numbers are found in spite
of that.
-/

namespace Harness.Diff

section Shortcut

variable (lib : Stdlib)

/-! ## Decimal literals -/

/-- The value of the digits of a literal before and after its point. -/
def literalValue (whole fraction : List Char) : ℚ :=
  let digits := (whole ++ fraction).filterMap lib.decimal
  (digits.foldl (fun value digit => 10 * value + digit) 0 : Nat) / 10 ^ fraction.length

/-- The values of the decimal literals of a text, which end in `length` steps at most. -/
def findLiterals : Nat → List Char → List ℚ
  | 0, _ => []
  | _, [] => []
  | length + 1, char :: rest =>
      if (lib.decimal char).isSome then
        let (whole, afterWhole) := spanChars (fun char => (lib.decimal char).isSome) (char :: rest)
        let (fraction, after) := fractionPart lib afterWhole
        literalValue lib whole (fraction.drop 1) :: findLiterals length after
      else findLiterals length rest

/-- The values of the decimal literals of a text, as it stands. -/
def literalValues (text : String) : List ℚ := findLiterals lib text.toList.length text.toList

/-- The texts have decimal literals of the same values. -/
def SameValues (before after : String) : Prop :=
  sameSet (literalValues lib before) (literalValues lib after) = true

/-! ## What is found -/

/-- The differ takes the meaning for changed. -/
def MeaningMoved (before after : String) : Prop :=
  negationFlipped lib before after = true ∨ numbersChanged lib before after = true ∨
    jaccardSimilarity lib before after < semanticThreshold

/-- What is found holds a `SECURITY` finding for what is new, and a `DESC_SEMANTIC_CHANGE` for
numbers of other values. -/
def HidesNothing (before after : String) (otherToolNames : List String) (findings : List Finding) :
    Prop :=
  (newMatches lib before after otherToolNames ≠ [] →
    ∃ finding ∈ findings, finding.severity = .security) ∧
  (¬ SameValues lib before after →
    ∃ finding ∈ findings, finding.severity = .warn ∧ finding.ruleId = "DESC_SEMANTIC_CHANGE")

variable {lib} {tool before after : String} {otherToolNames : List String}

theorem diffTexts_alike (alike : normalize lib before = normalize lib after) :
    diffTexts lib tool before after otherToolNames = [] := by
  rw [diffTexts, if_pos alike]

/-- What is found about texts that normalise differently: a `SECURITY` finding for each new
match, and then what the texts' meanings give. -/
theorem diffTexts_apart (tool : String) (otherToolNames : List String)
    (apart : normalize lib before ≠ normalize lib after) :
    ∃ flagged meaning, diffTexts lib tool before after otherToolNames = flagged ++ meaning ∧
      (flagged = [] ↔ newMatches lib before after otherToolNames = []) ∧
      (∀ finding ∈ flagged, finding.severity = .security) ∧
      (MeaningMoved lib before after → ∃ finding ∈ meaning,
        finding.severity = .warn ∧ finding.ruleId = "DESC_SEMANTIC_CHANGE") ∧
      (¬ MeaningMoved lib before after → ∀ finding ∈ meaning, finding.severity = .info) ∧
      ∀ finding ∈ meaning, finding.severity ≠ .security := by
  have moved : (negationFlipped lib before after || numbersChanged lib before after ||
      decide (jaccardSimilarity lib before after < semanticThreshold)) = true ↔
        MeaningMoved lib before after := by
    rw [Bool.or_eq_true, Bool.or_eq_true, decide_eq_true_iff, or_assoc]
    rfl
  rw [diffTexts, if_neg apart]
  dsimp only
  refine ⟨_, _, rfl, List.map_eq_nil_iff, ?_, ?_, ?_, ?_⟩
  · exact List.forall_mem_map.mpr fun _ _ => rfl
  · intro meaningMoved
    rw [if_pos (moved.mpr meaningMoved)]
    exact ⟨_, List.mem_singleton_self _, rfl, rfl⟩
  · intro meaningKept
    rw [if_neg (fun all => meaningKept (moved.mp all))]
    split
    · exact List.forall_mem_singleton.mpr rfl
    · exact fun _ absent => absurd absent List.not_mem_nil
  · split
    · exact List.forall_mem_singleton.mpr (by simp [descriptionFinding])
    · split
      · exact List.forall_mem_singleton.mpr (by simp [descriptionFinding])
      · exact fun _ absent => absurd absent List.not_mem_nil

/-- A `SECURITY` finding stands for a new match. -/
theorem exists_security_iff (apart : normalize lib before ≠ normalize lib after) :
    (∃ finding ∈ diffTexts lib tool before after otherToolNames, finding.severity = .security) ↔
      newMatches lib before after otherToolNames ≠ [] := by
  obtain ⟨flagged, meaning, parts, empty, severe, -, -, mild⟩ :=
    diffTexts_apart tool otherToolNames apart
  rw [parts, Ne, ← empty]
  constructor
  · intro found none
    obtain ⟨finding, among, security⟩ := found
    rw [none, List.nil_append] at among
    exact mild finding among security
  · intro some
    obtain ⟨finding, among⟩ := List.exists_mem_of_ne_nil _ some
    exact ⟨finding, List.mem_append_left _ among, severe finding among⟩

/-- A `DESC_SEMANTIC_CHANGE` stands for a changed meaning. -/
theorem exists_warn_iff (apart : normalize lib before ≠ normalize lib after) :
    (∃ finding ∈ diffTexts lib tool before after otherToolNames,
      finding.severity = .warn ∧ finding.ruleId = "DESC_SEMANTIC_CHANGE") ↔
        MeaningMoved lib before after := by
  obtain ⟨flagged, meaning, parts, -, severe, moved, kept, -⟩ :=
    diffTexts_apart tool otherToolNames apart
  rw [parts]
  constructor
  · intro found
    obtain ⟨finding, among, warns, -⟩ := found
    by_contra meaningKept
    obtain early | late := List.mem_append.mp among
    · rw [severe finding early] at warns
      cases warns
    · rw [kept meaningKept finding late] at warns
      cases warns
  · intro meaningMoved
    obtain ⟨finding, among, warns⟩ := moved meaningMoved
    exact ⟨finding, List.mem_append_right _ among, warns⟩

theorem descriptionOf_str (text : String) : descriptionOf (.str text) = .ok text := by
  by_cases empty : text = ""
  · rw [empty]
    rfl
  · simp [descriptionOf, orElse, truthy, empty]

theorem diffDescription_texts (lib : Stdlib) (tool before after : String)
    (otherToolNames : List String) :
    diffDescription lib tool (.str before) (.str after) otherToolNames =
      .ok (diffTexts lib tool before after otherToolNames) := by
  simp only [diffDescription, descriptionOf_str, bind, Except.bind]

/-- **The shortcut hides nothing** exactly when texts that normalise alike have no new match and
the same numbers, and texts with other numbers are also apart once punctuation is gone. -/
theorem hidesNothing_iff (lib : Stdlib) (tool before after : String)
    (otherToolNames : List String) : ∃ findings,
      diffDescription lib tool (.str before) (.str after) otherToolNames = .ok findings ∧
      (HidesNothing lib before after otherToolNames findings ↔
        (normalize lib before = normalize lib after →
          newMatches lib before after otherToolNames = [] ∧ SameValues lib before after) ∧
        (¬ SameValues lib before after → MeaningMoved lib before after)) := by
  refine ⟨_, diffDescription_texts lib tool before after otherToolNames, ?_⟩
  unfold HidesNothing
  by_cases alike : normalize lib before = normalize lib after
  · rw [diffTexts_alike alike]
    constructor
    · intro hides
      have sameValues : SameValues lib before after := by
        by_contra other
        obtain ⟨finding, among, -⟩ := hides.2 other
        exact List.not_mem_nil among
      refine ⟨fun _ => ⟨?_, sameValues⟩, fun other => absurd sameValues other⟩
      by_contra some
      obtain ⟨finding, among, -⟩ := hides.1 some
      exact List.not_mem_nil among
    · intro condition
      obtain ⟨none, sameValues⟩ := condition.1 alike
      exact ⟨fun some => absurd none some, fun other => absurd sameValues other⟩
  · rw [exists_security_iff alike, exists_warn_iff alike]
    constructor
    · intro hides
      exact ⟨fun same => absurd same alike, hides.2⟩
    · intro condition
      exact ⟨id, condition.2⟩

/-- A standard library that finds `.env` where the pattern does. -/
def envLib : Stdlib :=
  { plainLib with
    search := fun pattern _ text =>
      if pattern = "\\.env\\b" ∧ text = "read .env" then some ".env" else none }

/-- A sensitive path and another number go unnoticed, as punctuation is all that is new. -/
theorem hidesNothing_punctuation :
    diffDescription envLib "read" (.str "read env") (.str "read .env") [] = .ok [] ∧
      ¬ HidesNothing envLib "read env" "read .env" [] [] ∧
      diffDescription plainLib "wait" (.str "wait 1.5 s") (.str "wait 15 s") [] = .ok [] ∧
      ¬ HidesNothing plainLib "wait 1.5 s" "wait 15 s" [] [] := by
  have unseen : diffTexts envLib "read" "read env" "read .env" [] = [] := by decide +kernel
  have unseen' : diffTexts plainLib "wait" "wait 1.5 s" "wait 15 s" [] = [] := by decide +kernel
  have new : newMatches envLib "read env" "read .env" [] ≠ [] := by decide +kernel
  have other : ¬ SameValues plainLib "wait 1.5 s" "wait 15 s" := by
    unfold SameValues
    decide +kernel
  rw [diffDescription_texts, diffDescription_texts, unseen, unseen']
  refine ⟨rfl, ?_, rfl, ?_⟩
  · intro hides
    obtain ⟨finding, among, -⟩ := hides.1 new
    exact List.not_mem_nil among
  · intro hides
    obtain ⟨finding, among, -⟩ := hides.2 other
    exact List.not_mem_nil among

end Shortcut

end Harness.Diff
