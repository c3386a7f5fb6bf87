import Anviq.Diff.Differ
import Anviq.Diff.Locations

/-! # The findings of a report

Every finding of a report is about a place of a tool, and its path is that of the place. Places
whose property names hold no `/` have different paths.
-/

namespace Harness.Diff

/-! ## Paths -/

/-- A text without a `/`. -/
def Unslashed (text : String) : Prop := '/' ∉ text.toList

/-- The text has ended, or a `/` follows. -/
def AtSlash (text : List Char) : Prop := text = [] ∨ text.head? = some '/'

/-- What stands before the first `/`, and what follows, is known from the text. -/
theorem segment_unique {left right rest others : List Char} (first : '/' ∉ left)
    (second : '/' ∉ right) (ends : AtSlash rest) (stops : AtSlash others)
    (same : left ++ rest = right ++ others) : left = right ∧ rest = others := by
  induction left generalizing right with
  | nil =>
      cases right with
      | nil => exact ⟨rfl, same⟩
      | cons char right =>
          rw [List.nil_append] at same
          obtain none | slash := ends
          · rw [none] at same
            cases same
          · rw [same, List.cons_append, List.head?_cons, Option.some.injEq] at slash
            exact absurd (slash ▸ List.mem_cons_self) second
  | cons char left ih =>
      cases right with
      | nil =>
          rw [List.nil_append] at same
          obtain none | slash := stops
          · rw [none] at same
            cases same
          · rw [← same, List.cons_append, List.head?_cons, Option.some.injEq] at slash
            exact absurd (slash ▸ List.mem_cons_self) first
      | cons other right =>
          rw [List.cons_append, List.cons_append, List.cons.injEq] at same
          obtain ⟨rfl, same⟩ := same
          obtain ⟨rfl, rfl⟩ := ih (fun among => first (List.mem_cons_of_mem _ among))
            (fun among => second (List.mem_cons_of_mem _ among)) same
          exact ⟨rfl, rfl⟩

theorem pathText_cons (segment : String) (segments : List String) :
    (pathText (segment :: segments)).toList =
      '/' :: (segment.toList ++ (pathText segments).toList) := by
  simp [pathText]

theorem pathText_atSlash (segments : List String) : AtSlash (pathText segments).toList := by
  cases segments with
  | nil => exact Or.inl rfl
  | cons segment segments =>
      rw [pathText_cons]
      exact Or.inr rfl

/-- Names without a `/` are known from their path. -/
theorem pathText_injective {left right : List String} (first : ∀ name ∈ left, Unslashed name)
    (second : ∀ name ∈ right, Unslashed name)
    (same : (pathText left).toList = (pathText right).toList) : left = right := by
  induction left generalizing right with
  | nil =>
      cases right with
      | nil => rfl
      | cons segment right =>
          rw [pathText_cons] at same
          cases same
  | cons segment left ih =>
      cases right with
      | nil =>
          rw [pathText_cons] at same
          cases same
      | cons other right =>
          rw [List.forall_mem_cons] at first second
          rw [pathText_cons, pathText_cons, List.cons.injEq] at same
          obtain ⟨names, rest⟩ := segment_unique first.1 second.1 (pathText_atSlash left)
            (pathText_atSlash right) same.2
          rw [String.toList_injective names, ih first.2 second.2 rest]

/-! ## Locations -/

theorem Place.segments_ne_nil (place : Place) : place.segments ≠ [] := by
  cases place <;> exact List.cons_ne_nil _ _

/-- The steps to a place and the place are known from their names. -/
theorem segments_injective {steps others : List Step} {place other : Place}
    (same : steps.flatMap Step.segments ++ place.segments =
      others.flatMap Step.segments ++ other.segments) : steps = others ∧ place = other := by
  induction steps generalizing others with
  | nil =>
      cases others with
      | nil =>
          cases place <;> cases other <;> simp_all [Place.segments]
      | cons step others =>
          have follows := other.segments_ne_nil
          cases step <;> cases place <;> simp_all [Place.segments, Step.segments]
  | cons step steps ih =>
      cases others with
      | nil =>
          have follows := place.segments_ne_nil
          cases step <;> cases other <;> simp_all [Place.segments, Step.segments]
      | cons next others =>
          rw [List.flatMap_cons, List.flatMap_cons, List.append_assoc, List.append_assoc] at same
          cases step <;> cases next <;> simp only [Step.segments, List.cons_append,
            List.nil_append, List.cons.injEq] at same
          · obtain ⟨-, rfl, rest⟩ := same
            obtain ⟨rfl, rfl⟩ := ih rest
            exact ⟨rfl, rfl⟩
          · simp at same
          · simp at same
          · obtain ⟨rfl, rfl⟩ := ih same.2
            exact ⟨rfl, rfl⟩

/-- A member of a definition that holds a schema. -/
inductive SchemaName where
  | inputSchema
  | outputSchema

/-- The name of the member. -/
def SchemaName.text : SchemaName → String
  | .inputSchema => "inputSchema"
  | .outputSchema => "outputSchema"

/-- What of a tool a finding is about. -/
inductive Location where
  | tool
  | schema (name : SchemaName) (steps : List Step) (place : Place)
  | annotationKey (name : String)
  | description
  | result (pointer : {text : String // AtSlash text.toList})
  | errorRate
  | responses

namespace Location

/-- The first name of the path. -/
def head : Location → String
  | .tool => ""
  | .schema name _ _ => name.text
  | .annotationKey _ => "annotations"
  | .description => "description"
  | .result _ => "result"
  | .errorRate => "responses"
  | .responses => "responses"

/-- The path after the first name. -/
def tail : Location → String
  | .schema _ steps place => pathText (steps.flatMap Step.segments ++ place.segments)
  | .annotationKey name => "/" ++ name
  | .result pointer => pointer
  | .errorRate => "/error_rate"
  | _ => ""

/-- The path of the findings about the place. -/
def path (location : Location) : String := "/" ++ location.head ++ location.tail

/-- The names the path of a place in a schema is made of. -/
def names : Location → List String
  | .schema _ steps place => steps.flatMap Step.segments ++ place.segments
  | _ => []

/-- The place is within no property with a `/` in its name. -/
def Plain (location : Location) : Prop := ∀ name ∈ location.names, Unslashed name

theorem head_unslashed (location : Location) : Unslashed location.head := by
  cases location with
  | schema name => cases name <;> simp [head, SchemaName.text, Unslashed]
  | _ => simp [head, Unslashed]

theorem tail_atSlash (location : Location) : AtSlash location.tail.toList := by
  cases location with
  | schema name steps place => exact pathText_atSlash _
  | result pointer => exact pointer.2
  | annotationKey name => exact Or.inr (by simp [tail])
  | errorRate => exact Or.inr (by simp [tail])
  | _ => exact Or.inl rfl

/-- Places with plain names are known from their path. -/
theorem path_injective {left right : Location} (first : left.Plain) (second : right.Plain)
    (same : left.path = right.path) : left = right := by
  have chars : left.head.toList ++ left.tail.toList = right.head.toList ++ right.tail.toList := by
    have chars := congrArg String.toList same
    simpa [path] using chars
  obtain ⟨heads, tails⟩ := segment_unique left.head_unslashed right.head_unslashed
    left.tail_atSlash right.tail_atSlash chars
  have heads := String.toList_injective heads
  have tails := String.toList_injective tails
  cases left with
  | schema name steps place =>
      cases right with
      | schema other others elsewhere =>
          have named : name = other := by cases name <;> cases other <;> simp_all [head, SchemaName.text]
          have segments := pathText_injective first second (congrArg String.toList tails)
          obtain ⟨rfl, rfl⟩ := segments_injective segments
          rw [named]
      | _ => cases name <;> simp [head, SchemaName.text] at heads
  | _ =>
      cases right with
      | schema other others elsewhere => cases other <;> simp [head, SchemaName.text] at heads
      | _ => simp_all [head, tail, Subtype.ext_iff]

end Location

/-! ## Shapes -/

/-- The paths of a shape are empty or begin with a `/`. -/
def Shape.Pointers (shape : Shape) : Prop := ∀ pointer ∈ Dict.keys shape, AtSlash pointer.toList

theorem atSlash_append {pointer : String} (begins : AtSlash pointer.toList) (rest : String) :
    AtSlash (pointer ++ "/" ++ rest).toList := by
  rw [String.toList_append, String.toList_append]
  obtain none | slash := begins
  · rw [none]
    exact Or.inr rfl
  · cases chars : pointer.toList with
    | nil => exact Or.inr rfl
    | cons char others =>
        rw [chars] at slash
        exact Or.inr slash

theorem Shape.Pointers.add {shape : Shape} (pointers : shape.Pointers) {pointer : String}
    (begins : AtSlash pointer.toList) (type : String) : (shape.add pointer type).Pointers := by
  intro other present
  obtain rfl | old := (Dict.mem_keys_assign).mp present
  · exact begins
  · exact pointers other old

theorem walk_pointers (value : PyJson) :
    ∀ {pointer : String} {shape : Shape}, AtSlash pointer.toList → shape.Pointers →
      (walk pointer shape value).Pointers := by
  induction value using Json.induction with
  | arr elements ih =>
      intro pointer shape begins pointers
      rw [walk]
      have start := pointers.add begins "array"
      generalize shape.add pointer "array" = shape at start
      induction elements generalizing shape with
      | nil => exact start
      | cons element elements step =>
          rw [walkElements]
          have deeper : AtSlash (pointer ++ "/[]").toList := by
            rw [show ("/[]" : String) = "/" ++ "[]" from rfl, ← String.append_assoc]
            exact atSlash_append begins "[]"
          apply step fun other present => ih other (List.mem_cons_of_mem _ present)
          exact ih element List.mem_cons_self deeper start
  | obj members ih =>
      intro pointer shape begins pointers
      rw [walk]
      have start := pointers.add begins "object"
      generalize shape.add pointer "object" = shape at start
      induction members generalizing shape with
      | nil => exact start
      | cons member members step =>
          obtain ⟨name, value⟩ := member
          rw [walkMembers]
          apply step fun other present => ih other (List.mem_cons_of_mem _ present)
          exact ih (name, value) List.mem_cons_self (atSlash_append begins name) start
  | _ =>
      intro pointer shape begins pointers
      exact pointers.add begins _

theorem inferShape_pointers (calls : List CallRecord) : (inferShape calls).Pointers := by
  have step (calls : List CallRecord) : ∀ {shape : Shape}, shape.Pointers →
      (calls.foldl (fun shape call =>
        if truthy call.ok then walk "" shape call.result else shape) shape).Pointers := by
    induction calls with
    | nil => exact id
    | cons call calls ih =>
        intro shape pointers
        rw [List.foldl_cons]
        apply ih
        split
        · exact walk_pointers _ (Or.inl rfl) pointers
        · exact pointers
  exact step calls fun pointer absent => absurd absent List.not_mem_nil

/-! ## Findings -/

section Findings

variable {lib : Stdlib} {floats : Floats} {options : BehaviorOptions} {tool : String}
  {finding : Finding}

/-- A finding about a tool. -/
structure About (tool : String) (location : Location) (finding : Finding) : Prop where
  tool : finding.tool = some tool
  path : finding.path = location.path

theorem diffTexts_about {before after : String} {others : List String}
    (among : finding ∈ diffTexts lib tool before after others) :
    About tool .description finding ∧ finding.after.Distinct := by
  have made {severity : Severity} {ruleId message : String} :
      About tool .description (descriptionFinding tool severity ruleId message before after) ∧
        (descriptionFinding tool severity ruleId message before after).after.Distinct :=
    ⟨⟨rfl, rfl⟩, trivial⟩
  unfold diffTexts at among
  dsimp only at among
  split at among
  · exact absurd among List.not_mem_nil
  · obtain flagged | scored := List.mem_append.mp among
    · obtain ⟨found, -, rfl⟩ := List.mem_map.mp flagged
      exact made
    · split at scored
      · rw [List.mem_singleton.mp scored]
        exact made
      · rw [mem_ite_singleton scored]
        exact made

theorem diffDescription_about {before after : PyJson} {others : List String}
    {findings : List Finding} (found : diffDescription lib tool before after others = .ok findings)
    (among : finding ∈ findings) : About tool .description finding ∧ finding.after.Distinct := by
  obtain ⟨beforeText, -, found⟩ := bind_eq_ok.mp found
  obtain ⟨afterText, -, same⟩ := bind_eq_ok.mp found
  cases same
  exact diffTexts_about among

theorem annotationOf_distinct {annotations key value : PyJson} (distinct : annotations.Distinct)
    (found : annotationOf annotations key = .ok value) : value.Distinct := by
  unfold annotationOf at found
  split at found
  · cases found
    exact getOrNone_distinct distinct _
  · cases found
    trivial
  · cases found

theorem annotationFinding_about (key b a : PyJson) :
    About tool (.annotationKey (str lib key)) (annotationFinding lib tool key b a) ∧
      (annotationFinding lib tool key b a).after = a := by
  have joined : "/annotations/" ++ str lib key =
      (Location.annotationKey (str lib key)).path := by
    rw [Location.path, Location.head, Location.tail, ← String.append_assoc]
    rfl
  unfold annotationFinding
  dsimp only
  split
  · exact ⟨⟨rfl, joined⟩, rfl⟩
  · split <;> exact ⟨⟨rfl, joined⟩, rfl⟩

theorem diffAnnotations_about {before after : PyJson} {findings : List Finding}
    (found : diffAnnotations lib tool before after = .ok findings) (among : finding ∈ findings) :
    ∃ name, About tool (.annotationKey name) finding ∧
      (after.Distinct → finding.after.Distinct) := by
  obtain ⟨beforeKeys, -, found⟩ := bind_eq_ok.mp found
  obtain ⟨afterKeys, -, found⟩ := bind_eq_ok.mp found
  obtain ⟨keys, -, found⟩ := bind_eq_ok.mp found
  obtain ⟨lists, each, same⟩ := bind_eq_ok.mp found
  cases same
  obtain ⟨list, listed, among⟩ := List.mem_flatten.mp among
  obtain ⟨key, -, made⟩ := forall₂_exists_left (mapM_eq_ok.mp each) listed
  obtain ⟨b, -, made⟩ := bind_eq_ok.mp made
  obtain ⟨a, read, same⟩ := bind_eq_ok.mp made
  cases same
  rw [mem_ite_nil among]
  obtain ⟨about, shown⟩ := @annotationFinding_about lib tool key b a
  refine ⟨_, about, fun distinct => ?_⟩
  rw [shown]
  exact annotationOf_distinct (orElse_distinct distinct empty_distinct) read

theorem compareShapes_about {before after : List CallRecord}
    (among : finding ∈ compareShapes lib tool (inferShape before) (inferShape after)) :
    ∃ pointer, About tool (.result pointer) finding ∧ finding.after.Distinct := by
  obtain ⟨pointer, present, made⟩ := List.mem_filterMap.mp among
  dsimp only at made
  split at made
  · cases made
  · cases made
    have begins : AtSlash pointer.toList := by
      obtain old | new := List.mem_append.mp (mem_sortedStrings.mp present)
      · exact inferShape_pointers before pointer old
      · exact inferShape_pointers after pointer new
    exact ⟨⟨pointer, begins⟩, ⟨rfl, rfl⟩, names_distinct _⟩

theorem diffErrorRate_about {before after : List CallRecord}
    (among : finding ∈ diffErrorRate floats options tool before after) :
    About tool .errorRate finding ∧ finding.after.Distinct := by
  unfold diffErrorRate at among
  split at among
  · exact absurd among List.not_mem_nil
  · split at among
    · rw [mem_ite_nil among]
      exact ⟨⟨rfl, rfl⟩, trivial⟩
    · exact absurd among List.not_mem_nil

theorem diffResponseInjection_about {before after : List CallRecord} {others : List String}
    (among : finding ∈ diffResponseInjection lib tool before after others) :
    About tool .responses finding ∧ finding.after.Distinct := by
  obtain ⟨found, -, rfl⟩ := List.mem_map.mp among
  exact ⟨⟨rfl, rfl⟩, trivial⟩

end Findings

/-! ## Reports -/

section Report

variable (lib : Stdlib) (floats : Floats) (options : BehaviorOptions) (baseline current : Index)
  (keys : List (String × String)) (key : String × String)

/-- The finding is one of those about the tool of the server. -/
def FoundFor (finding : Finding) : Prop :=
  ∃ findings, diffKey lib floats options baseline current keys key = .ok findings ∧
    finding ∈ findings

/-- The definitions that are compared: the latest one of the baseline, and one of the current
recording. -/
structure Compares (before version : ToolVersion) : Prop where
  latest : baseline.latestTool (.str key.1) (.str key.2) = some before
  seen : version ∈ (current.tools.get? (.str key.1, .str key.2)).getD []

/-- The finding is about this place of the tool. -/
inductive Arises : Location → Finding → Prop
  | added {after : ToolVersion}
      (offered : current.latestTool (.str key.1) (.str key.2) = some after) :
      Arises .tool (addedTool lib key.1 key.2 after)
  | removed {before : ToolVersion}
      (offered : baseline.latestTool (.str key.1) (.str key.2) = some before) :
      Arises .tool (removedTool lib key.1 key.2 before)
  | schema {before version : ToolVersion} {name : SchemaName} {steps : List Step} {place : Place}
      {old new last next : PyJson} {own : List Finding} {finding : Finding}
      (compares : Compares baseline current key before version)
      (oldSchema : resolvedSchema lib before.tool name.text = .ok old)
      (newSchema : resolvedSchema lib version.tool name.text = .ok new)
      (reached : Reaches steps old new last next)
      (found : ownFindings lib key.2 ("/" ++ name.text ++ pathText (steps.flatMap Step.segments))
        last.members next.members = .ok own)
      (among : finding ∈ own)
      (placed : finding.path = (Location.schema name steps place).path) :
      Arises (.schema name steps place) finding
  | annotation {before version : ToolVersion} {name : String} {findings : List Finding}
      {finding : Finding} (compares : Compares baseline current key before version)
      (found : diffAnnotations lib key.2 (getOrNone before.tool "annotations")
        (getOrNone version.tool "annotations") = .ok findings)
      (among : finding ∈ findings) (placed : finding.path = (Location.annotationKey name).path) :
      Arises (.annotationKey name) finding
  | description {before version : ToolVersion} {findings : List Finding} {finding : Finding}
      (compares : Compares baseline current key before version)
      (found : diffDescription lib key.2 (getOr before.tool "description" (.str ""))
        (getOr version.tool "description" (.str "")) (otherNames lib keys key.2) = .ok findings)
      (among : finding ∈ findings) : Arises .description finding
  | result {pointer : {text : String // AtSlash text.toList}} {finding : Finding}
      (among : finding ∈ compareShapes lib key.2
        (inferShape (baseline.callsFor (.str key.1) (.str key.2)))
        (inferShape (current.callsFor (.str key.1) (.str key.2))))
      (placed : finding.path = (Location.result pointer).path) : Arises (.result pointer) finding
  | errorRate {finding : Finding}
      (among : finding ∈ diffErrorRate floats options key.2
        (baseline.callsFor (.str key.1) (.str key.2))
        (current.callsFor (.str key.1) (.str key.2))) : Arises .errorRate finding
  | responses {finding : Finding}
      (among : finding ∈ diffResponseInjection lib key.2
        (baseline.callsFor (.str key.1) (.str key.2))
        (current.callsFor (.str key.1) (.str key.2)) (otherNames lib keys key.2)) :
      Arises .responses finding

variable {lib floats options baseline current keys key} {finding : Finding} {location : Location}

/-- A finding about a place is about the tool and has the path of the place. -/
theorem Arises.about (arises : Arises lib floats options baseline current keys key location finding) :
    About key.2 location finding := by
  cases arises with
  | added | removed => exact ⟨rfl, rfl⟩
  | schema _ _ _ _ found among placed =>
      obtain ⟨place, atPlace⟩ := ownFindings_atPlace found among
      exact ⟨atPlace.tool, placed⟩
  | annotation _ found among placed =>
      obtain ⟨name, about, -⟩ := diffAnnotations_about found among
      exact ⟨about.tool, placed⟩
  | description _ found among => exact (diffDescription_about found among).1
  | result among placed =>
      obtain ⟨pointer, about, -⟩ := compareShapes_about among
      exact ⟨about.tool, placed⟩
  | errorRate among => exact (diffErrorRate_about among).1
  | responses among => exact (diffResponseInjection_about among).1

/-- No definition repeats a name. -/
def DistinctTools (index : Index) : Prop :=
  ∀ key, ∀ version ∈ (index.tools.get? key).getD [], (Json.obj version.tool).Distinct

/-- What a finding says is new repeats no name. -/
theorem Arises.distinct
    (arises : Arises lib floats options baseline current keys key location finding)
    (distinct : DistinctTools current) : finding.after.Distinct := by
  cases arises with
  | added offered => exact distinct _ _ (List.mem_of_getLast? offered)
  | removed => exact trivial
  | schema compares _ newSchema reached found among =>
      obtain ⟨place, atPlace⟩ := ownFindings_atPlace found among
      apply atPlace.distinct
      apply members_distinct
      exact reached.distinct (resolvedSchema_distinct (distinct _ _ compares.seen) newSchema)
  | annotation compares found among =>
      obtain ⟨name, -, kept⟩ := diffAnnotations_about found among
      exact kept (getOrNone_distinct (distinct _ _ compares.seen) _)
  | description _ found among => exact (diffDescription_about found among).2
  | result among =>
      obtain ⟨pointer, -, kept⟩ := compareShapes_about among
      exact kept
  | errorRate among => exact (diffErrorRate_about among).2
  | responses among => exact (diffResponseInjection_about among).2

end Report

/-! ## Every finding is about a place -/

section Kept

theorem keepUnseen_subset (seen : List (String × String × String)) (findings : List Finding) :
    (keepUnseen seen findings).1 ⊆ findings := by
  induction findings generalizing seen with
  | nil => exact List.Subset.refl _
  | cons finding findings ih =>
      rw [keepUnseen]
      split
      · exact List.Subset.trans (ih seen) (List.subset_cons_self _ _)
      · exact List.cons_subset_cons _ (ih _)

/-- What `diff_tool` finds is found about a schema or about the annotations. -/
theorem mem_diffTool {lib : Stdlib} {tool : String} {before after : PyDict} {findings : List Finding}
    {finding : Finding} (found : diffTool lib tool before after = .ok findings)
    (among : finding ∈ findings) :
    (∃ name own, diffSchemas lib tool (SchemaName.text name) before after = .ok own ∧
        finding ∈ own) ∨
      ∃ own, diffAnnotations lib tool (getOrNone before "annotations")
        (getOrNone after "annotations") = .ok own ∧ finding ∈ own := by
  obtain ⟨input, inputOk, found⟩ := bind_eq_ok.mp found
  dsimp only at found
  split at found
  · obtain ⟨output, outputOk, found⟩ := bind_eq_ok.mp found
    obtain ⟨hints, hintsOk, same⟩ := bind_eq_ok.mp found
    cases same
    rw [List.mem_append, List.mem_append] at among
    obtain (first | second) | third := among
    · exact Or.inl ⟨.inputSchema, input, inputOk, first⟩
    · exact Or.inl ⟨.outputSchema, output, outputOk, second⟩
    · exact Or.inr ⟨hints, hintsOk, third⟩
  · obtain ⟨output, outputOk, found⟩ := bind_eq_ok.mp found
    obtain ⟨hints, hintsOk, same⟩ := bind_eq_ok.mp found
    cases outputOk
    cases same
    rw [List.append_nil, List.mem_append] at among
    obtain first | third := among
    · exact Or.inl ⟨.inputSchema, input, inputOk, first⟩
    · exact Or.inr ⟨hints, hintsOk, third⟩

variable {lib : Stdlib} {name : String} {others : List String} {before : ToolVersion}

/-- A finding about the versions is one about a version. -/
theorem mem_diffVersions {versions : List ToolVersion} {hashes : List PyJson}
    {seen : List (String × String × String)} {findings : List Finding} {finding : Finding}
    (found : diffVersions lib name others before hashes seen versions = .ok findings)
    (among : finding ∈ findings) :
    ∃ version ∈ versions, ∃ own, diffVersion lib name others before version = .ok own ∧
      finding ∈ own := by
  induction versions generalizing hashes seen findings with
  | nil =>
      cases found
      exact absurd among List.not_mem_nil
  | cons version versions ih =>
      rw [diffVersions] at found
      split at found
      · obtain ⟨other, present, held⟩ := ih found among
        exact ⟨other, List.mem_cons_of_mem _ present, held⟩
      · obtain ⟨own, ownOk, found⟩ := bind_eq_ok.mp found
        obtain ⟨rest, restOk, same⟩ := bind_eq_ok.mp found
        cases same
        obtain here | later := List.mem_append.mp among
        · exact ⟨version, List.mem_cons_self, own, ownOk, keepUnseen_subset _ _ here⟩
        · obtain ⟨other, present, held⟩ := ih restOk later
          exact ⟨other, List.mem_cons_of_mem _ present, held⟩

end Kept

section Arising

variable {lib : Stdlib} {floats : Floats} {options : BehaviorOptions} {baseline current : Index}
  {keys : List (String × String)} {key : String × String} {before version : ToolVersion}
  {findings : List Finding} {finding : Finding}

/-- A finding about a schema of two definitions is about a place in it. -/
theorem arises_diffSchemas (compares : Compares baseline current key before version)
    (name : SchemaName)
    (found : diffSchemas lib key.2 name.text before.tool version.tool = .ok findings)
    (among : finding ∈ findings) :
    ∃ location, Arises lib floats options baseline current keys key location finding := by
  obtain ⟨old, oldSchema, found⟩ := bind_eq_ok.mp found
  obtain ⟨new, newSchema, found⟩ := bind_eq_ok.mp found
  obtain ⟨steps, last, next, own, reached, ownOk, here⟩ := diffNode_own _ found among
  obtain ⟨place, atPlace⟩ := ownFindings_atPlace ownOk here
  refine ⟨.schema name steps place, .schema compares oldSchema newSchema reached ownOk here ?_⟩
  rw [atPlace.path, Location.path, Location.head, Location.tail, pathText_append,
    ← String.append_assoc]

theorem arises_diffTool (compares : Compares baseline current key before version)
    (found : diffTool lib key.2 before.tool version.tool = .ok findings)
    (among : finding ∈ findings) :
    ∃ location, Arises lib floats options baseline current keys key location finding := by
  obtain ⟨name, own, ownOk, here⟩ | ⟨own, ownOk, here⟩ := mem_diffTool found among
  · exact arises_diffSchemas compares name ownOk here
  · obtain ⟨name, about, -⟩ := diffAnnotations_about ownOk here
    exact ⟨_, Arises.annotation compares ownOk here about.path⟩

/-- A finding about the definitions of a tool is about a place of it. -/
theorem arises_diffPresence
    (found : diffPresence lib baseline current keys key = .ok findings)
    (among : finding ∈ findings) :
    ∃ location, Arises lib floats options baseline current keys key location finding := by
  unfold diffPresence at found
  dsimp only at found
  split at found
  · next after _ offered =>
      cases found
      rw [List.mem_singleton.mp among]
      exact ⟨.tool, .added offered⟩
  · next before offered _ =>
      cases found
      rw [List.mem_singleton.mp among]
      exact ⟨.tool, .removed offered⟩
  · next before after latest _ =>
      obtain ⟨version, seen, own, ownOk, here⟩ := mem_diffVersions found among
      have compares : Compares baseline current key before version := ⟨latest, seen⟩
      obtain ⟨tool, toolOk, ownOk⟩ := bind_eq_ok.mp ownOk
      obtain ⟨described, describedOk, same⟩ := bind_eq_ok.mp ownOk
      cases same
      obtain inTool | inText := List.mem_append.mp here
      · exact arises_diffTool compares toolOk inTool
      · exact ⟨.description, .description compares describedOk inText⟩
  · cases found
    exact absurd among List.not_mem_nil

/-- A finding about a tool of a server is about a place of it. -/
theorem FoundFor.arises
    (foundFor : FoundFor lib floats options baseline current keys key finding) :
    ∃ location, Arises lib floats options baseline current keys key location finding := by
  obtain ⟨findings, found, among⟩ := foundFor
  obtain ⟨definitions, definitionsOk, same⟩ := bind_eq_ok.mp found
  cases same
  obtain defined | behaved := List.mem_append.mp among
  · exact arises_diffPresence definitionsOk defined
  · obtain behaved | injected := List.mem_append.mp behaved
    · obtain shaped | rated := List.mem_append.mp behaved
      · obtain ⟨pointer, about, -⟩ := compareShapes_about shaped
        exact ⟨.result pointer, .result shaped about.path⟩
      · exact ⟨.errorRate, .errorRate rated⟩
    · exact ⟨.responses, .responses injected⟩

/-- A finding of a report is about a tool of one of the recordings. -/
theorem mem_diffRecordings {baseline current : Recording}
    (found : diffRecordings lib floats options baseline current = .ok findings)
    (among : finding ∈ findings) :
    ∃ keys key, allKeys baseline.index current.index = .ok keys ∧ key ∈ keys ∧
      FoundFor lib floats options baseline.index current.index keys key finding := by
  obtain ⟨keys, keysOk, found⟩ := bind_eq_ok.mp found
  obtain ⟨lists, each, same⟩ := bind_eq_ok.mp found
  cases same
  obtain ⟨list, listed, among⟩ := List.mem_flatten.mp among
  obtain ⟨key, present, here⟩ := forall₂_exists_left (mapM_eq_ok.mp each) listed
  exact ⟨keys, key, keysOk, present, list, here, among⟩

end Arising

end Harness.Diff
