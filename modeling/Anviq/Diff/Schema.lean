import Anviq.Diff.Python

/-! # Comparing schemas

`types.py` and `schema_diff.py`: the findings about two versions of a tool's
`inputSchema`, `outputSchema` and `annotations`. Local references are expanded
first; then the two trees are walked together. A shape the code does not expect
ends in the exception Python raises.
-/

namespace Harness.Diff

/-! ## Findings -/

/-- `Severity`. -/
inductive Severity where
  | breaking
  | security
  | warn
  | info
deriving DecidableEq

/-- `SEVERITY_ORDER`, the worst first. -/
def severityOrder : List Severity := [.security, .breaking, .warn, .info]

/-- `Finding`. -/
structure Finding where
  severity : Severity
  ruleId : String
  path : String
  message : String
  tool : Option String := none
  before : PyJson := .null
  after : PyJson := .null
deriving DecidableEq

section Differ

variable (lib : Stdlib)

/-! ## References -/

/-- Replace `~` and the character after it by another one. -/
def replaceEscape (escape replacement : Char) : List Char → List Char
  | '~' :: char :: rest =>
      if char = escape then replacement :: replaceEscape escape replacement rest
      else '~' :: replaceEscape escape replacement (char :: rest)
  | char :: rest => char :: replaceEscape escape replacement rest
  | [] => []

/-- A part of a JSON pointer, decoded. -/
def pointerPart (raw : List Char) : String :=
  String.ofList
    (replaceEscape '0' '~' (replaceEscape '1' '/' (lib.unquote (String.ofList raw)).toList))

/-- The digits after the signs a text begins with, if it is all digits from there. -/
def signedDigits? (part : String) : Option (List Char) :=
  let digits := part.toList.dropWhile (· = '-')
  if !digits.isEmpty && digits.all lib.isDigit then some digits else none

/-- What `int` raises for a text that is not an integer. -/
def notAnInt (part : String) : PyError :=
  .valueError ("invalid literal for int() with base 10: " ++ reprString lib part)

/-- `int(part)` of a text that is digits after some signs. -/
def intOf (part : String) (digits : List Char) : Except PyError Int :=
  match digits.mapM lib.decimal with
  | some values =>
      if digits.length + 1 < part.length then .error (notAnInt lib part)
      else if 4300 < digits.length then
        .error (.valueError "Exceeds the limit (4300 digits) for integer string conversion")
      else .ok (signedInt (digits.length < part.length)
        (values.foldl (fun value digit => 10 * value + digit) 0))
  | none => .error (notAnInt lib part)

/-- `elements[index]`. -/
def itemAt (elements : List PyJson) (index : Int) : Except PyError PyJson :=
  match elements[(if index < 0 then index + elements.length else index).toNat]? with
  | some element =>
      if index + elements.length < 0 then .error (.indexError "list index out of range")
      else .ok element
  | none => .error (.indexError "list index out of range")

/-- A step of `_json_pointer_get`. -/
def pointerStep (part : String) : PyJson → Except PyError (Option PyJson)
  | .obj members => .ok (Json.Members.get? members part)
  | .arr elements =>
      match signedDigits? lib part with
      | none => .ok none
      | some digits => do
          let index ← intOf lib part digits
          if index < elements.length then
            let element ← itemAt elements index
            .ok (some element)
          else .ok none
  | _ => .ok none

/-- The loop of `_json_pointer_get`. -/
def pointerWalk : List (List Char) → PyJson → Except PyError PyJson
  | [], node => .ok node
  | raw :: parts, node => do
      match ← pointerStep lib (pointerPart lib raw) node with
      | some next => pointerWalk parts next
      | none => .ok .null

/-- `_json_pointer_get`. -/
def jsonPointerGet (root : PyJson) (pointer : String) : Except PyError PyJson :=
  match pointer.toList with
  | ['#'] => .ok root
  | ['#', '/'] => .ok root
  | '#' :: '/' :: path => pointerWalk lib (path.splitOn '/') root
  | _ => .ok .null

/-- The local reference a node is. -/
def localRef? (members : PyDict) : Option String :=
  match members.get? "$ref" with
  | some (.str ref) => if ref.toList.head? = some '#' then some ref else none
  | _ => none

section Resolve

variable (root : PyJson) (follow : List String → PyJson → Except PyError PyJson)
  (seen : List String)

mutual

/-- The body of `resolve_local_refs`, where `follow` is the recursive call on the
target of a reference. -/
def resolveNode : PyJson → Except PyError PyJson
  | .obj members =>
      match localRef? members with
      | some ref =>
          if ref ∈ seen then .ok (.obj [])
          else do
            match ← jsonPointerGet lib root ref with
            | .null => .ok (.obj members)
            | target =>
                let resolved ← follow (ref :: seen) target
                .ok (.obj (merged resolved.members
                  (members.filter fun member => member.1 ≠ "$ref")))
      | none => do
          let resolved ← resolveMembers members
          .ok (.obj resolved)
  | .arr elements => do
      let resolved ← resolveElements elements
      .ok (.arr resolved)
  | node => .ok node

def resolveElements : List PyJson → Except PyError (List PyJson)
  | [] => .ok []
  | element :: elements => do
      let resolved ← resolveNode element
      let rest ← resolveElements elements
      .ok (resolved :: rest)

def resolveMembers : PyDict → Except PyError PyDict
  | [] => .ok []
  | (name, value) :: members => do
      let resolved ← resolveNode value
      let rest ← resolveMembers members
      .ok ((name, resolved) :: rest)

end

end Resolve

mutual

/-- The local references of a value, at any depth. -/
def refsOf : PyJson → List String
  | .obj members => (localRef? members).toList ++ refsOfMembers members
  | .arr elements => refsOfElements elements
  | _ => []

def refsOfElements : List PyJson → List String
  | [] => []
  | element :: elements => refsOf element ++ refsOfElements elements

def refsOfMembers : PyDict → List String
  | [] => []
  | (_, value) :: members => refsOf value ++ refsOfMembers members

end

/-- `resolve_local_refs` where `fuel` references can still be expanded: with none
left, every reference there is has been seen. -/
def resolveRefs (root : PyJson) : Nat → List String → PyJson → Except PyError PyJson
  | 0 => resolveNode lib root fun _ _ => .ok (.obj [])
  | fuel + 1 => resolveNode lib root (resolveRefs root fuel)

/-- `resolve_local_refs(schema, schema)`. -/
def resolveLocalRefs (schema : PyJson) : Except PyError PyJson :=
  resolveRefs lib schema (refsOf schema).length [] schema

/-! ## Types -/

/-- `_type_set`, in ascending order. -/
def typeSet (schema : PyDict) : List String :=
  match schema.get? "type" with
  | some (.str name) => [name]
  | some (.arr names) => sortedStrings (names.filterMap string?)
  | _ =>
      if (schema.get? "properties").isSome then ["object"]
      else if (schema.get? "items").isSome then ["array"]
      else []

/-- `_classify_type_change`. -/
def classifyTypeChange (before after : List String) : Option (Severity × String) :=
  if before = after then none
  else if before = ["integer"] ∧ after = ["number"] then
    some (.warn, "widened (integer accepts a subset of number)")
  else if before ⊆ after then some (.warn, "widened (type union gained options)")
  else some (.breaking, "narrowed or replaced")

/-- `_hashable`. -/
def hashable : PyJson → PyJson
  | .arr elements => .str (repr lib (.arr elements))
  | .obj members => .str (repr lib (.obj members))
  | value => value

/-! ## Renames -/

/-- `RENAME_CONFIDENCE_THRESHOLD`. -/
def renameConfidenceThreshold : ℚ := lib.double (1 / 2)

/-- `RENAME_NAME_SIM_FLOOR`. -/
def renameNameSimFloor : ℚ := lib.double (3 / 10)

/-- `RENAME_DESC_SIM_FLOOR`. -/
def renameDescSimFloor : ℚ := lib.double (1 / 2)

/-- The description of a property, as a text. -/
def descriptionText (schema : PyDict) : String :=
  str lib (orElse (getOrNone schema "description") (.str ""))

/-- `_rename_confidence`. -/
def renameConfidence (oldName newName : String) (oldSchema newSchema : PyDict) : Option ℚ :=
  let oldTypes := typeSet oldSchema
  let newTypes := typeSet newSchema
  if oldTypes ≠ [] ∧ newTypes ≠ [] ∧ oldTypes ≠ newTypes then none
  else
    let nameSim := lib.ratio (lib.lower oldName) (lib.lower newName)
    let oldDesc := descriptionText lib oldSchema
    let newDesc := descriptionText lib newSchema
    if oldDesc ≠ "" ∨ newDesc ≠ "" then
      let descSim := lib.ratio (lib.lower oldDesc) (lib.lower newDesc)
      if nameSim < renameNameSimFloor lib ∧ descSim < renameDescSimFloor lib then none
      else some (lib.double (lib.double (lib.double (6 / 10) * nameSim) +
        lib.double (lib.double (4 / 10) * descSim)))
    else if nameSim < renameNameSimFloor lib then none
    else some nameSim

/-- A parameter that looks renamed: its confidence, its old name, its new one. -/
abbrev Rename := ℚ × String × String

/-- The loop of `_match_renames` over the candidates. -/
def pickRenames : List Rename → List Rename → List Rename
  | pairs, [] => pairs
  | pairs, candidate :: candidates =>
      if pairs.any fun pair => pair.2.1 == candidate.2.1 || pair.2.2 == candidate.2.2 then
        pickRenames pairs candidates
      else pickRenames (pairs ++ [candidate]) candidates

/-- `_match_renames`, where `confidence` is that of an old and a new name. -/
def matchRenames (confidence : String → String → Option ℚ) (removed added : List String) :
    List Rename × List String × List String :=
  if removed.isEmpty || added.isEmpty then ([], removed, added)
  else
    let candidates := removed.flatMap fun old => added.filterMap fun new =>
      match confidence old new with
      | some conf => if renameConfidenceThreshold lib ≤ conf then some (conf, old, new) else none
      | none => none
    let sorted := candidates.insertionSort fun left right => decide (right.1 ≤ left.1)
    let pairs := pickRenames [] sorted
    (pairs, removed.filter fun name => !pairs.any fun pair => pair.2.1 == name,
      added.filter fun name => !pairs.any fun pair => pair.2.2 == name)

/-! ## Nodes -/

section Node

variable (tool pointer : String) (before after : PyDict)

/-- `_diff_type`. -/
def diffType : List Finding :=
  match classifyTypeChange (typeSet before) (typeSet after) with
  | none => []
  | some (severity, kind) =>
      let shown (types : List String) := if types = [] then "any" else reprNames lib types
      [{ severity
         ruleId := "TYPE_CHANGED"
         tool
         path := pointer ++ "/type"
         message := s!"type {kind}: {shown (typeSet before)} -> {shown (typeSet after)}"
         before := .arr ((typeSet before).map .str)
         after := .arr ((typeSet after).map .str) }]

/-- The set of the values of an `enum`. -/
def enumSet (enum : PyJson) : Except PyError (List PyJson) := do
  let values ← iterated (orElse enum (.arr []))
  .ok (distinctItems (values.map (hashable lib)))

/-- `_diff_enum`. -/
def diffEnum : Except PyError (List Finding) :=
  let beforeEnum := getOrNone before "enum"
  let afterEnum := getOrNone after "enum"
  if beforeEnum = .null ∧ afterEnum = .null then .ok []
  else do
    let beforeSet ← enumSet lib beforeEnum
    let afterSet ← enumSet lib afterEnum
    let removed := difference beforeSet afterSet
    let added := difference afterSet beforeSet
    let finding (severity : Severity) (ruleId message : String) : Finding :=
      { severity, ruleId, tool, path := pointer ++ "/enum", message, before := beforeEnum,
        after := afterEnum }
    .ok ((if removed.isEmpty then [] else
        [finding .breaking "ENUM_VALUE_REMOVED"
          ("enum values removed, callers using them will now be rejected: " ++
            repr lib (.arr (sortedByText lib removed)))]) ++
      if added.isEmpty then [] else
        [finding .info "ENUM_VALUE_ADDED"
          ("enum values added: " ++ repr lib (.arr (sortedByText lib added)))])

/-- A finding of `_diff_constraints` about the keyword `key`. -/
def constraintFinding (key message : String) : Finding :=
  { severity := .warn, ruleId := "CONSTRAINT_TIGHTENED", tool, path := s!"{pointer}/{key}", message,
    before := getOrNone before key, after := getOrNone after key }

/-- A bound of `_diff_constraints`; `tighter` compares the new bound to the old one. -/
def diffBound (tighter : PyJson → PyJson → Except PyError Bool) (key : String) :
    Except PyError (List Finding) :=
  let b := getOrNone before key
  let a := getOrNone after key
  if (number? a).isNone then .ok []
  else do
    let tightened ← if b = .null then .ok true else tighter a b
    .ok (if tightened then
      [constraintFinding tool pointer before after key
        s!"{key} tightened from {str lib b} to {str lib a}"]
    else [])

/-- A `pattern` or `format` of `_diff_constraints`. -/
def diffText (key : String) : List Finding :=
  let b := getOrNone before key
  let a := getOrNone after key
  if a ≠ .null ∧ !equals a b then
    let verb := if b = .null then "added" else "changed"
    [constraintFinding tool pointer before after key
      (s!"{key} {verb}: {repr lib b} -> {repr lib a} " ++
        "(treated as tightening; loosening isn't distinguished)")]
  else []

/-- `_diff_constraints`. -/
def diffConstraints : Except PyError (List Finding) := do
  let upper ← ["maximum", "maxLength", "exclusiveMaximum"].mapM
    (diffBound lib tool pointer before after lessThan)
  let lower ← ["minimum", "minLength", "exclusiveMinimum"].mapM
    (diffBound lib tool pointer before after greaterThan)
  .ok (upper.flatten ++ lower.flatten ++
    ["pattern", "format"].flatMap (diffText lib tool pointer before after))

/-- `_diff_default`. -/
def diffDefault : List Finding :=
  let b := before.get? "default"
  let a := after.get? "default"
  let same :=
    match a, b with
    | none, none => true
    | some a, some b => equals a b
    | _, _ => false
  if same then []
  else
    [{ severity := .warn
       ruleId := "DEFAULT_CHANGED"
       tool
       path := pointer ++ "/default"
       message :=
         s!"default changed from {repr lib (b.getD .null)} to {repr lib (a.getD .null)}"
       before := b.getD .null
       after := a.getD .null }]

/-- `_diff_additional_properties`. -/
def diffAdditionalProperties : List Finding :=
  let b := (before.get? "additionalProperties").getD (.bool true)
  let a := (after.get? "additionalProperties").getD (.bool true)
  if (b = .bool true ∨ (dict? b).isSome) ∧ a = .bool false then
    [{ severity := .breaking
       ruleId := "ADDITIONAL_PROPERTIES_RESTRICTED"
       tool
       path := pointer ++ "/additionalProperties"
       message :=
         "additionalProperties changed from allowed to false; extra fields will now be rejected"
       before := b
       after := a }]
  else []

/-- The properties of a schema that are objects. -/
def propertySchemas (schema : PyDict) : Except PyError (List (String × PyDict)) :=
  match orElse (getOrNone schema "properties") (.obj []) with
  | .obj members =>
      .ok (members.filterMap fun member => (dict? member.2).map (member.1, ·))
  | other => .error (.attributeError s!"'{typeName other}' object has no attribute 'items'")

/-- `set(schema.get("required") or [])`. -/
def requiredNames (schema : PyDict) : Except PyError (List PyJson) := do
  let names ← iterated (orElse (getOrNone schema "required") (.arr []))
  let hashedNames ← names.mapM hashed
  .ok (distinctItems hashedNames)

/-- A property among those of a schema. -/
def schemaOf (properties : List (String × PyDict)) (name : String) : PyDict :=
  ((properties.find? fun property => property.1 == name).map Prod.snd).getD []

/-- A name among those of a schema's properties. -/
def hasProperty (properties : List (String × PyDict)) (name : String) : Bool :=
  properties.any fun property => property.1 == name

/-- A finding of `_diff_properties` about the property `name`. -/
def propertyFinding (severity : Severity) (ruleId name message : String) (before after : PyJson) :
    Finding :=
  { severity, ruleId, tool, path := s!"{pointer}/properties/{name}", message, before, after }

section Properties

variable (bProps aProps : List (String × PyDict)) (bRequired aRequired : List PyJson)

/-- The finding about a renamed property. -/
def renamedFinding (rename : Rename) : Finding :=
  let (confidence, oldName, newName) := rename
  propertyFinding tool pointer .breaking "PARAM_RENAMED" newName
    (s!"parameter {reprString lib oldName} looks renamed to {reprString lib newName} " ++
      s!"(confidence={fixed2 confidence}); callers still sending {reprString lib oldName} will break")
    (.obj (merged [("name", .str oldName)] (schemaOf bProps oldName)))
    (.obj (merged [("name", .str newName)] (schemaOf aProps newName)))

/-- The finding about a removed property. -/
def removedFinding (name : String) : Finding :=
  propertyFinding tool pointer .breaking "PARAM_REMOVED" name
    s!"parameter {reprString lib name} was removed" (.obj (schemaOf bProps name)) .null

/-- The finding about an added property. -/
def addedFinding (name : String) : Finding :=
  if contains aRequired (.str name) then
    propertyFinding tool pointer .breaking "PARAM_ADDED_REQUIRED" name
      s!"required parameter {reprString lib name} was added" .null (.obj (schemaOf aProps name))
  else
    propertyFinding tool pointer .info "PARAM_ADDED_OPTIONAL" name
      s!"optional parameter {reprString lib name} was added" .null (.obj (schemaOf aProps name))

/-- The findings about whether a common property is required. -/
def requiredFindings (name : String) : List Finding :=
  let wasRequired := contains bRequired (.str name)
  let isRequired := contains aRequired (.str name)
  if isRequired && !wasRequired then
    [propertyFinding tool pointer .breaking "REQUIRED_ADDED" name
      s!"parameter {reprString lib name} became required" (.bool false) (.bool true)]
  else if wasRequired && !isRequired then
    [propertyFinding tool pointer .info "REQUIRED_REMOVED" name
      s!"parameter {reprString lib name} is no longer required" (.bool true) (.bool false)]
  else []

end Properties

/-- `_diff_properties`, where `recurse` is `_diff_node`. -/
def diffProperties (recurse : String → PyJson → PyJson → Except PyError (List Finding)) :
    Except PyError (List Finding) := do
  let bProps ← propertySchemas before
  let aProps ← propertySchemas after
  let bRequired ← requiredNames before
  let aRequired ← requiredNames after
  let bNames := bProps.map Prod.fst
  let aNames := aProps.map Prod.fst
  let (renamed, leftoverRemoved, leftoverAdded) := matchRenames lib
    (fun old new => renameConfidence lib old new (schemaOf bProps old) (schemaOf aProps new))
    (bNames.filter fun name => !hasProperty aProps name)
    (aNames.filter fun name => !hasProperty bProps name)
  let common ← (bNames.filter fun name => hasProperty aProps name).mapM fun name => do
    let inner ← recurse s!"{pointer}/properties/{name}" (.obj (schemaOf bProps name))
      (.obj (schemaOf aProps name))
    .ok (requiredFindings lib tool pointer bRequired aRequired name ++ inner)
  .ok (renamed.map (renamedFinding lib tool pointer bProps aProps) ++
    leftoverRemoved.map (removedFinding lib tool pointer bProps) ++
    leftoverAdded.map (addedFinding lib tool pointer aProps aRequired) ++ common.flatten)

/-- One of two schemas is of a type, or has the keyword that goes with it. -/
def concerns (type keyword : String) : Bool :=
  (typeSet before).contains type || (typeSet after).contains type ||
    (before.get? keyword).isSome || (after.get? keyword).isSome

/-- `_diff_node` on objects, where `recurse` is `_diff_node` on what they hold. -/
def diffObjects (recurse : String → PyJson → PyJson → Except PyError (List Finding)) :
    Except PyError (List Finding) := do
  let enum ← diffEnum lib tool pointer before after
  let constraints ← diffConstraints lib tool pointer before after
  let properties ←
    if concerns before after "object" "properties" then do
      let properties ← diffProperties lib tool pointer before after recurse
      .ok (properties ++ diffAdditionalProperties tool pointer before after)
    else .ok []
  let bItems := getOrNone before "items"
  let aItems := getOrNone after "items"
  let items ←
    if concerns before after "array" "items" && ((dict? bItems).isSome || (dict? aItems).isSome)
    then recurse (pointer ++ "/items") bItems aItems
    else .ok []
  .ok (diffType lib tool pointer before after ++ enum ++ constraints ++
    diffDefault lib tool pointer before after ++ properties ++ items)

end Node

/-- `_diff_node` on values at most `fuel` levels deep. What is no object counts as
an empty one, and two empty objects do not differ. -/
def diffNode (tool : String) : Nat → String → PyJson → PyJson → Except PyError (List Finding)
  | 0, _, _, _ => .ok []
  | fuel + 1, pointer, before, after =>
      diffObjects lib tool pointer before.members after.members (diffNode tool fuel)

/-- `diff_json_schema`. -/
def diffJsonSchema (tool pointer : String) (before after : PyJson) :
    Except PyError (List Finding) :=
  diffNode lib tool (max before.depth after.depth) pointer before after

/-! ## Annotations -/

/-- `sorted(keys)` of a set: strings, or numbers, in ascending order. Which two of
other keys are compared first is up to the sort. -/
def sortedKeys (keys : List PyJson) : Except PyError (List PyJson) :=
  if keys.length ≤ 1 then .ok keys
  else if keys.all fun key => (string? key).isSome then
    .ok ((sortedStrings (keys.filterMap string?)).map .str)
  else if keys.all fun key => (number? key).isSome then
    .ok (keys.insertionSort fun left right => lessThan right left ≠ .ok true)
  else .error (.typeError "'<' not supported between instances of two of the keys")

/-- `annotations.get(key)`. -/
def annotationOf (annotations key : PyJson) : Except PyError PyJson :=
  match annotations, key with
  | .obj members, .str name => .ok (getOrNone members name)
  | .obj _, _ => .ok .null
  | other, _ => .error (.attributeError s!"'{typeName other}' object has no attribute 'get'")

/-- The finding about an annotation that changed. -/
def annotationFinding (tool : String) (key b a : PyJson) : Finding :=
  let finding (severity : Severity) (message : String) : Finding :=
    { severity, ruleId := "ANNOTATION_CHANGED", tool, path := "/annotations/" ++ str lib key, message,
      before := b, after := a }
  if key = .str "readOnlyHint" ∧ b = .bool true ∧ a = .bool false then
    finding .security
      "readOnlyHint flipped true -> false: a tool advertised as read-only can now mutate state"
  else if key = .str "destructiveHint" ∧ b = .bool false ∧ a = .bool true then
    finding .security
      "destructiveHint flipped false -> true: a non-destructive tool can now do damage"
  else
    finding .info s!"annotation {repr lib key} changed from {repr lib b} to {repr lib a}"

/-- The set of the keys of annotations. -/
def annotationKeys (annotations : PyJson) : Except PyError (List PyJson) := do
  let keys ← iterated annotations
  let hashedKeys ← keys.mapM hashed
  .ok (distinctItems hashedKeys)

/-- `_diff_annotations`. -/
def diffAnnotations (tool : String) (before after : PyJson) : Except PyError (List Finding) := do
  let beforeAnn := orElse before (.obj [])
  let afterAnn := orElse after (.obj [])
  let beforeKeys ← annotationKeys beforeAnn
  let afterKeys ← annotationKeys afterAnn
  let keys ← sortedKeys (beforeKeys ++ difference afterKeys beforeKeys)
  let findings ← keys.mapM fun key => do
    let b ← annotationOf beforeAnn key
    let a ← annotationOf afterAnn key
    .ok (if equals b a then [] else [annotationFinding lib tool key b a])
  .ok findings.flatten

/-! ## Tools -/

/-- The schema in a member of a definition, its references expanded. -/
def resolvedSchema (tool : PyDict) (name : String) : Except PyError PyJson :=
  resolveLocalRefs lib (orElse (getOrNone tool name) (.obj []))

/-- The findings about the schemas in a member of two definitions. -/
def diffSchemas (toolName name : String) (before after : PyDict) : Except PyError (List Finding) := do
  let beforeSchema ← resolvedSchema lib before name
  let afterSchema ← resolvedSchema lib after name
  diffJsonSchema lib toolName ("/" ++ name) beforeSchema afterSchema

/-- `diff_tool`. -/
def diffTool (toolName : String) (before after : PyDict) : Except PyError (List Finding) := do
  let input ← diffSchemas lib toolName "inputSchema" before after
  let output ←
    if (before.get? "outputSchema").isSome || (after.get? "outputSchema").isSome then
      diffSchemas lib toolName "outputSchema" before after
    else .ok []
  let annotations ← diffAnnotations lib toolName (getOrNone before "annotations")
    (getOrNone after "annotations")
  .ok (input ++ output ++ annotations)

end Differ

end Harness.Diff
