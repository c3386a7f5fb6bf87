import Anviq.Diff.Description
import Anviq.Harness.Indexing

/-! # Comparing behaviour

`behavior_diff.py`: the findings about what the recorded calls of a tool returned. The shapes of
the results are compared, then how often a call failed, then whether the results hold content
that looks injected.
-/

namespace Harness.Diff

/-- What the differ does with floats: the quotient of two ints, the size of a difference, and the
text of a rate as a percentage. -/
structure Floats where
  quotient : Nat → Nat → Number
  gap : Number → Number → Number
  percent : Number → String

/-- `DEFAULT_ERROR_RATE_DELTA`. -/
def defaultErrorRateDelta : Number :=
  .finite
    { negative := false, digits := [2], exponent := -1
      nonempty := by simp, leading := by simp, trailing := by simp }

/-- The options of `diff_behavior`. -/
structure BehaviorOptions where
  minCallsForErrorRate : Nat := 3
  errorRateDelta : Number := defaultErrorRateDelta

/-! ## Shapes -/

/-- `_json_type`. -/
def jsonType : PyJson → String
  | .null => "null"
  | .bool _ => "boolean"
  | .num (.int _) => "integer"
  | .num _ => "number"
  | .str _ => "string"
  | .arr _ => "array"
  | .obj _ => "object"

/-- The types seen at each path. -/
abbrev Shape := Dict String (List String)

/-- `shape.setdefault(pointer, set()).add(type)`. -/
def Shape.add (shape : Shape) (pointer type : String) : Shape :=
  Dict.assign shape pointer (((Dict.get? shape pointer).getD []).insert type)

mutual

/-- `_walk`. -/
def walk (pointer : String) (shape : Shape) : PyJson → Shape
  | .obj members => walkMembers pointer (shape.add pointer "object") members
  | .arr elements => walkElements pointer (shape.add pointer "array") elements
  | value => shape.add pointer (jsonType value)

def walkElements (pointer : String) (shape : Shape) : List PyJson → Shape
  | [] => shape
  | element :: elements =>
      walkElements pointer (walk (pointer ++ "/[]") shape element) elements

def walkMembers (pointer : String) (shape : Shape) : PyDict → Shape
  | [] => shape
  | (name, value) :: members =>
      walkMembers pointer (walk s!"{pointer}/{name}" shape value) members

end

/-- `infer_shape`. -/
def inferShape (calls : List CallRecord) : Shape :=
  calls.foldl (fun shape call => if truthy call.ok then walk "" shape call.result else shape) .empty

/-- The types at a path, in ascending order. -/
def typesAt (shape : Shape) (pointer : String) : List String :=
  sortedStrings ((Dict.get? shape pointer).getD [])

section Behavior

variable (lib : Stdlib) (floats : Floats) (options : BehaviorOptions) (tool : String)

/-- The finding about the types at a path. -/
def shapeFinding (pointer : String) (beforeTypes afterTypes : List String) : Finding where
  severity := .warn
  ruleId := "RESPONSE_SHAPE_CHANGED"
  tool
  path := "/result" ++ pointer
  message := "response shape at " ++ reprString lib ("/result" ++ pointer) ++
    s!" changed: {reprNames lib beforeTypes} -> {reprNames lib afterTypes}"
  before := .arr (beforeTypes.map .str)
  after := .arr (afterTypes.map .str)

/-- `compare_shapes`. -/
def compareShapes (beforeShape afterShape : Shape) : List Finding :=
  (sortedStrings (Dict.keys beforeShape ++ Dict.keys afterShape)).filterMap fun pointer =>
    let beforeTypes := typesAt beforeShape pointer
    let afterTypes := typesAt afterShape pointer
    if beforeTypes = afterTypes then none
    else some (shapeFinding lib tool pointer beforeTypes afterTypes)

/-! ## Error rates -/

/-- `_error_rate`. -/
def errorRate (calls : List CallRecord) : Option Number :=
  if calls.isEmpty then none
  else some (floats.quotient (calls.countP fun call => call.ok = .bool false) calls.length)

/-- `diff_error_rate`. -/
def diffErrorRate (beforeCalls afterCalls : List CallRecord) : List Finding :=
  if beforeCalls.length < options.minCallsForErrorRate ∨
      afterCalls.length < options.minCallsForErrorRate then []
  else
    match errorRate floats beforeCalls, errorRate floats afterCalls with
    | some beforeRate, some afterRate =>
        if PyNumber.lt (.float (floats.gap afterRate beforeRate))
            (.float options.errorRateDelta) then []
        else
          [{ severity := .warn
             ruleId := "ERROR_RATE_CHANGED"
             tool
             path := "/responses/error_rate"
             message :=
               s!"error rate changed from {floats.percent beforeRate} " ++
                 s!"({beforeCalls.length} calls) to {floats.percent afterRate} " ++
                 s!"({afterCalls.length} calls)"
             before := .num (.float beforeRate)
             after := .num (.float afterRate) }]
    | _, _ => []

/-! ## Responses -/

/-- A number as `json.dumps` writes it. -/
def dumpsNumber : PyNumber → List Char
  | .infinity false => "Infinity".toList
  | .infinity true => "-Infinity".toList
  | .nan => "NaN".toList
  | number => (numberRepr number).toList

mutual

/-- `json.dumps(value, ensure_ascii=False)`. -/
def dumps : PyJson → List Char
  | .null => "null".toList
  | .bool true => "true".toList
  | .bool false => "false".toList
  | .num number => dumpsNumber number
  | .str text => encodeString text
  | .arr elements => '[' :: dumpsElements elements ++ [']']
  | .obj members => '{' :: dumpsMembers members ++ ['}']

def dumpsElements : List PyJson → List Char
  | [] => []
  | [element] => dumps element
  | element :: elements => dumps element ++ ',' :: ' ' :: dumpsElements elements

def dumpsMembers : PyDict → List Char
  | [] => []
  | [(name, value)] => encodeString name ++ ':' :: ' ' :: dumps value
  | (name, value) :: members =>
      encodeString name ++ ':' :: ' ' :: (dumps value ++ ',' :: ' ' :: dumpsMembers members)

end

/-- `_stringify`. -/
def stringify : PyJson → String
  | .str text => text
  | value => String.ofList (dumps value)

/-- The results of the calls that succeeded, one after the other. -/
def responseText (calls : List CallRecord) : String :=
  "\n".intercalate ((calls.filter fun call => truthy call.ok).map fun call => stringify call.result)

/-- `diff_response_injection`. -/
def diffResponseInjection (beforeCalls afterCalls : List CallRecord)
    (otherToolNames : List String) : List Finding :=
  (newMatches lib (responseText beforeCalls) (responseText afterCalls) otherToolNames).map
    fun found =>
      { severity := .security
        ruleId := "RESPONSE_INJECTION_PATTERN"
        tool
        path := "/responses"
        message :=
          s!"tool responses now contain {reprString lib found.category}-like content not present " ++
            s!"in the baseline's responses: {reprString lib found.snippet}"
        before := .null
        after := .str found.snippet }

/-- `diff_behavior`. -/
def diffBehavior (beforeCalls afterCalls : List CallRecord) (otherToolNames : List String) :
    List Finding :=
  compareShapes lib tool (inferShape beforeCalls) (inferShape afterCalls) ++
    diffErrorRate floats options tool beforeCalls afterCalls ++
    diffResponseInjection lib tool beforeCalls afterCalls otherToolNames

end Behavior

end Harness.Diff
