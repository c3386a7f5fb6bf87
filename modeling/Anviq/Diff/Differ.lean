import Anviq.Diff.Behavior

/-! # Comparing recordings

`differ.py`: the findings about every tool that one of two recordings has. A tool both have is
compared with each distinct definition the current recording saw, not just the last one, and its
calls are compared in any case.
-/

namespace Harness

/-- `calls_for`. -/
def Index.callsFor (index : Index) (server name : PyJson) : List CallRecord :=
  index.calls.filter fun call => call.server = server ∧ call.toolName = name

/-- `latest_tool`. -/
def Index.latestTool (index : Index) (server name : PyJson) : Option ToolVersion :=
  ((index.tools.get? (server, name)).getD []).getLast?

/-- What `load` indexed. -/
def Recording.index (recording : Recording) : Index := indexEvents recording.events

namespace Diff

section Differ

variable (lib : Stdlib) (floats : Floats) (options : BehaviorOptions)

/-! ## Keys -/

/-- A server and a name that can be sorted. -/
def textKey : PyJson × PyJson → Except PyError (String × String)
  | (.str server, .str name) => .ok (server, name)
  | _ => .error (.typeError "'<' not supported between instances of two of the keys")

/-- `left <= right`, of pairs of strings. -/
def keyLe (left right : String × String) : Bool :=
  decide (left.1 < right.1) || (decide (left.1 = right.1) && !decide (right.2 < left.2))

/-- `sorted(baseline.tool_keys() | current.tool_keys())`. -/
def allKeys (baseline current : Index) : Except PyError (List (String × String)) := do
  let keys ← (baseline.tools.keys ++ current.tools.keys).mapM textKey
  .ok (keys.dedup.insertionSort fun left right => keyLe left right)

/-- `all_names - {name}`, in the order of the set. -/
def otherNames (keys : List (String × String)) (name : String) : List String :=
  (lib.iterate ((((keys.map Prod.snd).dedup).filter fun other => other ≠ name).map .str)).filterMap
    string?

/-! ## Versions -/

section Key

variable (server name : String) (others : List String)

/-- The finding about a tool that only the current recording has. -/
def addedTool (after : ToolVersion) : Finding where
  severity := .info
  ruleId := "TOOL_ADDED"
  tool := name
  path := "/"
  message := s!"tool {reprString lib name} (server {reprString lib server}) is new in this recording"
  before := .null
  after := .obj after.tool

/-- The finding about a tool that only the baseline has. -/
def removedTool (before : ToolVersion) : Finding where
  severity := .breaking
  ruleId := "TOOL_REMOVED"
  tool := name
  path := "/"
  message := s!"tool {reprString lib name} (server {reprString lib server}) is no longer offered"
  before := .obj before.tool
  after := .null

/-- The findings about a version: `diff_tool`, then `diff_description`. -/
def diffVersion (before version : ToolVersion) : Except PyError (List Finding) := do
  let tool ← diffTool lib name before.tool version.tool
  let description ← diffDescription lib name (getOr before.tool "description" (.str ""))
    (getOr version.tool "description" (.str "")) others
  .ok (tool ++ description)

/-- `json.dumps([finding.rule_id, finding.path, finding.message])`, with its strings as they are. -/
def findingKey (finding : Finding) : String × String × String :=
  (finding.ruleId, finding.path, finding.message)

/-- The loop over the findings about a version: those with a new key, and the keys seen. -/
def keepUnseen (seen : List (String × String × String)) :
    List Finding → List Finding × List (String × String × String)
  | [] => ([], seen)
  | finding :: findings =>
      if findingKey finding ∈ seen then keepUnseen seen findings
      else
        let (kept, after) := keepUnseen (findingKey finding :: seen) findings
        (finding :: kept, after)

/-- The loop over the versions of a tool, with the hashes and the keys seen. -/
def diffVersions (before : ToolVersion) :
    List PyJson → List (String × String × String) → List ToolVersion → Except PyError (List Finding)
  | _, _, [] => .ok []
  | hashes, seen, version :: versions =>
      if version.defHash = before.defHash ∨ version.defHash ∈ hashes then
        diffVersions before hashes seen versions
      else do
        let findings ← diffVersion lib name others before version
        let (kept, seen) := keepUnseen seen findings
        let rest ← diffVersions before (version.defHash :: hashes) seen versions
        .ok (kept ++ rest)

end Key

/-! ## Recordings -/

/-- The findings about the definitions of a tool. -/
def diffPresence (baseline current : Index) (keys : List (String × String))
    (key : String × String) : Except PyError (List Finding) :=
  let (server, name) := key
  match baseline.latestTool (.str server) (.str name), current.latestTool (.str server) (.str name) with
  | none, some after => .ok [addedTool lib server name after]
  | some before, none => .ok [removedTool lib server name before]
  | some before, some _ =>
      diffVersions lib name (otherNames lib keys name) before [] []
        ((current.tools.get? (.str server, .str name)).getD [])
  | none, none => .ok []

/-- The body of the loop of `diff_recordings`: the findings about a tool of a server. -/
def diffKey (baseline current : Index) (keys : List (String × String)) (key : String × String) :
    Except PyError (List Finding) := do
  let definitions ← diffPresence lib baseline current keys key
  .ok (definitions ++ diffBehavior lib floats options key.2
    (baseline.callsFor (.str key.1) (.str key.2)) (current.callsFor (.str key.1) (.str key.2))
    (otherNames lib keys key.2))

/-- `diff_recordings`: the findings of the report. -/
def diffRecordings (baseline current : Recording) : Except PyError (List Finding) := do
  let keys ← allKeys baseline.index current.index
  let findings ← keys.mapM (diffKey lib floats options baseline.index current.index keys)
  .ok findings.flatten

end Differ

end Diff

end Harness
