import Anviq.Control.Policy
import Anviq.Machine.Dict
import Anviq.Machine.Run

/-! # The control service

`service.py`: any number of `evaluate_change` calls at once, and approvals between their
steps. One lock guards the state, so that a locked section is one step; a call has three of
them, and the differ runs, or the call waits for the one that runs it, between the last two.
-/

namespace Control

open Harness (PyDict PyError PyJson getOrNone toolHash)
open Harness.Diff (Finding Stdlib reprString)

/-! ## Requests -/

/-- `ChangeRequest`. -/
structure ChangeRequest where
  server : String
  tool : String
  sessionId : String
  oldHash : String
  newHash : String
  oldDef : PyDict
  newDef : PyDict

/-- `BadRequest`, which is a `ValueError`. -/
def badRequest {α : Type} (message : String) : Except PyError α := .error (.valueError message)

/-- `_require_str`. -/
def requireStr (payload : PyDict) (key : String) (allowEmpty : Bool) :
    Except PyError String :=
  match getOrNone payload key with
  | .str text =>
      if text = "" && !allowEmpty then badRequest s!"'{key}' must be a non-empty string"
      else .ok text
  | _ => badRequest s!"'{key}' must be a non-empty string"

/-- `parse_change_request`. -/
def parseChangeRequest : PyJson → Except PyError ChangeRequest
  | .obj payload =>
      match getOrNone payload "old_def", getOrNone payload "new_def" with
      | .obj oldDef, .obj newDef => do
          let server ← requireStr payload "server" false
          let tool ← requireStr payload "tool" false
          let sessionId ←
            if (Json.Members.get? payload "session_id").isSome then requireStr payload "session_id" true
            else .ok ""
          let oldHash ← requireStr payload "old_hash" false
          let newHash ← requireStr payload "new_hash" false
          .ok { server, tool, sessionId, oldHash, newHash, oldDef, newDef }
      | _, _ =>
          badRequest
            "'old_def' and 'new_def' must be JSON objects (the raw MCP tool definitions)"
  | _ => badRequest "body must be a JSON object"

/-- A member of `hash_mismatch`. -/
structure Mismatch where
  field : String
  proxy : String
  control : String
deriving DecidableEq

/-- The recomputed `old_hash` and `new_hash`, the key of the verdict cache. -/
abbrev HashPair := String × String

/-- `_check_hashes`. -/
def checkHashes (request : ChangeRequest) (hashes : HashPair) : List Mismatch :=
  [{ field := "old_hash", proxy := request.oldHash, control := hashes.1 : Mismatch },
    { field := "new_hash", proxy := request.newHash, control := hashes.2 }].filter
      fun mismatch => mismatch.proxy ≠ mismatch.control

/-- `repr` of an exception. -/
def reprError (lib : Stdlib) : PyError → String
  | .keyError key => s!"KeyError({reprString lib key})"
  | .typeError message => s!"TypeError({reprString lib message})"
  | .valueError message => s!"ValueError({reprString lib message})"
  | .attributeError message => s!"AttributeError({reprString lib message})"
  | .indexError message => s!"IndexError({reprString lib message})"

/-- What `evaluate_change` raises for what `compute_hash` raised. -/
def unhashable (lib : Stdlib) (error : PyError) : PyError :=
  match error with
  | .attributeError _ => error
  | .indexError _ => error
  | _ => .valueError ("cannot hash a definition (is 'name' present, are numbers portable?): " ++
      reprError lib error)

/-- The hashes of the definitions of a request. -/
def computeHashes (lib : Stdlib) (sha : String → String) (request : ChangeRequest) :
    Except PyError HashPair :=
  (do
    let oldHash ← toolHash sha request.oldDef
    let newHash ← toolHash sha request.newDef
    .ok (oldHash, newHash)).mapError (unhashable lib)

/-- `_body`: what a request is answered with. An approved hash has no severity. -/
structure Body where
  verdict : Verdict
  reason : String
  findings : List Finding
  severity : Option Level
  riskClass : Option RiskClass
  cacheHit : Bool
  hashMismatch : List Mismatch
deriving DecidableEq

/-- `_body`. -/
def body (verdict : Verdict) (reason : String) (findings : List Finding) (severity : Option Level)
    (riskClass : Option RiskClass) (cacheHit : Bool) (mismatches : List Mismatch) : Body where
  verdict := verdict
  reason :=
    if mismatches = [] then reason
    else
      let fields := ", ".intercalate (mismatches.map Mismatch.field)
      s!"HASH_MISMATCH ({fields}): proxy and control disagree on def_hash; {reason}"
  findings := findings
  severity := severity
  riskClass := riskClass
  cacheHit := cacheHit
  hashMismatch := mismatches

/-- The answer to a request whose new definition an operator approved. -/
def approvedBody (mismatches : List Mismatch) : Body :=
  body .resume "matches approved baseline" [] none none false mismatches

/-! ## State -/

/-- A `Future`: what was set, if anything yet. -/
abbrev Future := Option (Except PyError Analysis)

/-- Where a call of `evaluate_change` is. A future is known by its number. -/
inductive Stage where
  | entered
  | unapproved (hashes : HashPair)
  | analysing (hashes : HashPair) (future : Nat)
  | failing (hashes : HashPair) (future : Nat) (error : PyError)
  | waiting (hashes : HashPair) (future : Nat)
  | analysed (hashes : HashPair) (analysis : Analysis) (cacheHit : Bool)
  | returned (body : Body)
  | raised (error : PyError)
deriving DecidableEq

/-- A server and one of its tools. -/
abbrev ToolKey := String × String

/-- A value of `_approved`. -/
structure Baseline where
  approvedHash : String
  approvedBy : String
  reason : String
  approvedAt : String

/-- `_stats`. -/
structure Stats where
  changes : Nat := 0
  cacheHits : Nat := 0
  cacheMisses : Nat := 0
  hashMismatches : Nat := 0
  approvedHits : Nat := 0

/-- `ControlService` and the calls on it. The futures made so far are `created`. -/
structure ControlService (Call : Type) where
  cache : Dict HashPair Nat := .empty
  futures : Nat → Future := fun _ => none
  created : Nat := 0
  quarantine : List ToolKey := []
  approved : Dict ToolKey Baseline := .empty
  stats : Stats := {}
  stage : Call → Stage := fun _ => .entered

/-- What a service is made with: the policy, the differ, and the size of the cache. -/
structure Settings where
  lib : Stdlib
  sha : String → String
  policy : PolicyTable
  diffFn : DiffFn
  cacheSize : Int

namespace ControlService

variable {Call : Type}

/-- `_is_approved`. -/
def isApproved (service : ControlService Call) (key : ToolKey) (newHash : String) : Bool :=
  match service.approved.get? key with
  | some baseline => baseline.approvedHash = newHash
  | none => false

/-- `quarantine_list`. -/
def quarantineList (service : ControlService Call) : List ToolKey :=
  service.quarantine.insertionSort fun left right =>
    left.1 < right.1 ∨ left.1 = right.1 ∧ left.2 ≤ right.2

variable [DecidableEq Call]

/-- The call goes on. -/
def goto (service : ControlService Call) (call : Call) (stage : Stage) : ControlService Call :=
  { service with stage := Function.update service.stage call stage }

/-- A future is given its result. -/
def setFuture (service : ControlService Call) (future : Nat) (result : Except PyError Analysis) :
    ControlService Call :=
  { service with futures := Function.update service.futures future (some result) }

end ControlService

/-- `while len(self._cache) > self._cache_size: self._cache.popitem(last=False)`. -/
def evictItems (cacheSize : Int) :
    List (HashPair × Nat) → List (HashPair × Nat)
  | [] => []
  | item :: rest =>
      if cacheSize < (item :: rest).length then evictItems cacheSize rest else item :: rest

theorem evictItems_suffix (cacheSize : Int) (items : List (HashPair × Nat)) :
    evictItems cacheSize items <:+ items := by
  induction items with
  | nil => exact List.suffix_rfl
  | cons item rest ih =>
      rw [evictItems]
      split
      · exact ih.trans (List.suffix_cons item rest)
      · exact List.suffix_rfl

/-- The cache with no more entries than it may have. -/
def evict (cacheSize : Int) (cache : Dict HashPair Nat) : Dict HashPair Nat where
  items := evictItems cacheSize cache.items
  nodup := cache.nodup.sublist ((evictItems_suffix cacheSize cache.items).sublist.map _)

/-! ## Steps -/

/-- What happens next: a call takes its next step, the differ of a call fails with an
exception, or an operator approves a hash, the clock showing a time. -/
inductive Event (Call : Type) where
  | turn (call : Call)
  | failure (call : Call) (error : PyError)
  | approve (payload : PyJson) (now : String)

section Steps

variable {Call : Type} [DecidableEq Call] (settings : Settings) (requests : Call → ChangeRequest)

/-- The tool a request is about. -/
def ChangeRequest.key (request : ChangeRequest) : ToolKey := (request.server, request.tool)

/-- The first locked section of `evaluate_change`. -/
def ControlService.firstSection (service : ControlService Call) (call : Call) (hashes : HashPair) :
    ControlService Call :=
  let request := requests call
  let mismatches := checkHashes request hashes
  let stats := { service.stats with
    changes := service.stats.changes + 1
    hashMismatches := service.stats.hashMismatches + if mismatches = [] then 0 else 1 }
  if service.isApproved request.key hashes.2 then
    { service with stats := { stats with approvedHits := stats.approvedHits + 1 } }.goto call
      (.returned (approvedBody mismatches))
  else { service with stats }.goto call (.unapproved hashes)

/-- The locked section of `_cached_analysis`. -/
def ControlService.cachedAnalysis (service : ControlService Call) (call : Call)
    (hashes : HashPair) : ControlService Call :=
  match service.cache.get? hashes with
  | none =>
      let cache := evict settings.cacheSize (service.cache.assign hashes service.created)
      let stats := { service.stats with cacheMisses := service.stats.cacheMisses + 1 }
      let owned := { service with cache, stats, created := service.created + 1 }
      -- A negative size leaves nothing to pop.
      if settings.cacheSize < 0 then owned.goto call (.raised (.keyError "dictionary is empty"))
      else owned.goto call (.analysing hashes service.created)
  | some future =>
      { service with
        cache := service.cache.moveToEnd hashes
        stats := { service.stats with cacheHits := service.stats.cacheHits + 1 } }.goto call
          (.waiting hashes future)

/-- The differ of a call has failed: the locked section that forgets the entry. -/
def ControlService.failed (service : ControlService Call) (call : Call) (hashes : HashPair)
    (future : Nat) (error : PyError) : ControlService Call :=
  { service with cache := service.cache.erase hashes }.goto call (.failing hashes future error)

/-- The differ of a call ends. -/
def ControlService.analysed (service : ControlService Call) (call : Call) (hashes : HashPair)
    (future : Nat) : ControlService Call :=
  let request := requests call
  match analyse settings.diffFn request.tool request.oldDef request.newDef with
  | .ok analysis =>
      (service.setFuture future (.ok analysis)).goto call (.analysed hashes analysis false)
  | .error error => service.failed call hashes future error

/-- The verdict on a request. -/
def verdictOn (request : ChangeRequest) (analysis : Analysis) : Verdict :=
  settings.policy.decide analysis.severity
    (settings.policy.riskClass request.server request.tool request.newDef)

/-- The second locked section of `evaluate_change`, and the answer. -/
def ControlService.secondSection (service : ControlService Call) (call : Call)
    (hashes : HashPair) (analysis : Analysis) (cacheHit : Bool) : ControlService Call :=
  let request := requests call
  let mismatches := checkHashes request hashes
  let riskClass := settings.policy.riskClass request.server request.tool request.newDef
  let verdict := verdictOn settings request analysis
  if service.isApproved request.key hashes.2 then
    { service with
      stats := { service.stats with approvedHits := service.stats.approvedHits + 1 } }.goto call
        (.returned (approvedBody mismatches))
  else
    let quarantine :=
      if verdict = .quarantine then service.quarantine.insert request.key
      else service.quarantine
    { service with quarantine }.goto call (.returned (body verdict (reason analysis riskClass)
      analysis.findings (some analysis.severity) (some riskClass) cacheHit mismatches))

/-- The next step of a call, unless it waits or is through. -/
def ControlService.turn (service : ControlService Call) (call : Call) :
    Option (ControlService Call) :=
  match service.stage call with
  | .entered =>
      match computeHashes settings.lib settings.sha (requests call) with
      | .error error => some (service.goto call (.raised error))
      | .ok hashes => some (service.firstSection requests call hashes)
  | .unapproved hashes => some (service.cachedAnalysis settings call hashes)
  | .analysing hashes future => some (service.analysed settings requests call hashes future)
  | .failing _ future error =>
      some ((service.setFuture future (.error error)).goto call (.raised error))
  | .waiting hashes future =>
      match service.futures future with
      | none => none
      | some (.ok analysis) => some (service.goto call (.analysed hashes analysis true))
      | some (.error error) => some (service.goto call (.raised error))
  | .analysed hashes analysis cacheHit =>
      some (service.secondSection settings requests call hashes analysis cacheHit)
  | .returned _ => none
  | .raised _ => none

/-! ## Approvals -/

/-- `_HASH_RE.match`: a final newline is let through. -/
def looksLikeHash (text : String) : Bool :=
  "sha256:".toList.isPrefixOf text.toList &&
    let rest := text.toList.drop 7
    let hex := fun char : Char => char.isDigit || ('a' ≤ char && char ≤ 'f')
    (rest.take 64).length = 64 && (rest.take 64).all hex &&
      (rest.drop 64 = [] || rest.drop 64 = ['\n'])

/-- What `approve` reads in a payload. -/
structure ApproveRequest where
  server : String
  tool : String
  defHash : String
  approvedBy : String
  reason : String

/-- The checks `approve` makes first. -/
def parseApproval : PyJson → Except PyError ApproveRequest
  | .obj payload => do
      let server ← requireStr payload "server" false
      let tool ← requireStr payload "tool" false
      let defHash ← requireStr payload "def_hash" false
      if !looksLikeHash defHash then
        badRequest
          "'def_hash' must look like 'sha256:' followed by 64 lowercase hex characters"
      else
        match (Json.Members.get? payload "approved_by").getD (.str ""),
          (Json.Members.get? payload "reason").getD (.str "") with
        | .str approvedBy, .str reason => .ok { server, tool, defHash, approvedBy, reason }
        | _, _ => badRequest "'approved_by' and 'reason' must be strings when present"
  | _ => badRequest "body must be a JSON object"

/-- The tool an approval is about. -/
def ApproveRequest.key (approval : ApproveRequest) : ToolKey := (approval.server, approval.tool)

/-- The answer of `approve`. -/
structure ApproveReply where
  server : String
  tool : String
  approvedHash : String
  clearedQuarantine : Bool

/-- The locked section of `approve`. -/
def ControlService.setBaseline (service : ControlService Call) (approval : ApproveRequest)
    (now : String) : ControlService Call :=
  { service with
    approved := service.approved.assign approval.key
      { approvedHash := approval.defHash, approvedBy := approval.approvedBy
        reason := approval.reason, approvedAt := now }
    quarantine := service.quarantine.filter fun other => other ≠ approval.key }

/-- `approve`. -/
def ControlService.approve (service : ControlService Call) (payload : PyJson) (now : String) :
    Except PyError ApproveReply × ControlService Call :=
  match parseApproval payload with
  | .error error => (.error error, service)
  | .ok approval =>
      (.ok { server := approval.server, tool := approval.tool, approvedHash := approval.defHash
             clearedQuarantine := service.quarantine.contains approval.key },
        service.setBaseline approval now)

/-- What happens to the service. -/
def ControlService.handle (service : ControlService Call) :
    Event Call → Option (ControlService Call)
  | .turn call => service.turn settings requests call
  | .failure call error =>
      match service.stage call with
      | .analysing hashes future => some (service.failed call hashes future error)
      | _ => none
  | .approve payload now => some (service.approve payload now).2

/-- The service, from when it starts. -/
def controlMachine : Machine (ControlService Call) (Event Call) where
  start service := service = {}
  step service event next := service.handle settings requests event = some next

end Steps

end Control
