import Anviq.Diff.Description
import Anviq.Harness.Canonical

/-! # The response policy

`policy.py` and `differ.py`: what the differ finds between two definitions of a tool, the
risk class of the new one, and the verdict a table gives for the two.
-/

namespace Control

open Harness (PyDict PyError PyJson toolHash)
open Harness.Diff (Finding Severity Stdlib diffDescription diffTool severityOrder)

/-! ## The table -/

/-- `SEVERITIES`, the rows of the table: `none` is what the differ finds nothing in. -/
inductive Level where
  | none
  | info
  | warn
  | breaking
  | security
deriving DecidableEq

/-- `RISK_CLASSES`. -/
inductive RiskClass where
  | readOnly
  | sideEffecting
  | destructive
deriving DecidableEq

/-- `VERDICTS`. -/
inductive Verdict where
  | resume
  | warn
  | suspend
  | quarantine
deriving DecidableEq

/-- The text of a severity. -/
def Level.text : Level → String
  | .none => "NONE"
  | .info => "INFO"
  | .warn => "WARN"
  | .breaking => "BREAKING"
  | .security => "SECURITY"

/-- The text of a risk class. -/
def RiskClass.text : RiskClass → String
  | .readOnly => "read_only"
  | .sideEffecting => "side_effecting"
  | .destructive => "destructive"

/-- A hint of the annotations `is True`. -/
def hinted (annotations : PyDict) (hint : String) : Bool :=
  annotations.get? hint = some (.bool true)

/-- `derive_risk_class`. -/
def deriveRiskClass (toolDef : PyDict) : RiskClass :=
  match toolDef.get? "annotations" with
  | some (.obj annotations) =>
      if hinted annotations "readOnlyHint" then .readOnly
      else if hinted annotations "destructiveHint" then .destructive
      else .sideEffecting
  | _ => .sideEffecting

/-- `PolicyTable`: every cell of the table is there once a file has been read. -/
structure PolicyTable where
  matrix : Level → RiskClass → Verdict
  riskOverrides : String × String → Option RiskClass

namespace PolicyTable

/-- `risk_class`: what an operator chose beats what the annotations say. -/
def riskClass (policy : PolicyTable) (server tool : String) (toolDef : PyDict) : RiskClass :=
  (policy.riskOverrides (server, tool)).getD (deriveRiskClass toolDef)

/-- `decide`. -/
def decide (policy : PolicyTable) (severity : Level) (riskClass : RiskClass) : Verdict :=
  policy.matrix severity riskClass

/-- `default`, the table of `default_policy.json`. -/
def default : PolicyTable where
  matrix := fun severity riskClass =>
    match severity, riskClass with
    | .none, _ => .resume
    | .info, _ => .resume
    | .warn, .destructive => .suspend
    | .warn, _ => .warn
    | .breaking, _ => .suspend
    | .security, _ => .quarantine
  riskOverrides := fun _ => Option.none

end PolicyTable

/-! ## The differ on one tool -/

/-- `diff_definitions`. -/
def diffDefinitions (lib : Stdlib) (tool : String) (oldDef newDef : PyDict) :
    Except PyError (List Finding) := do
  let findings ← diffTool lib tool oldDef newDef
  let described ← diffDescription lib tool ((oldDef.get? "description").getD (.str ""))
    ((newDef.get? "description").getD (.str "")) []
  .ok (findings ++ described)

/-- The severity of a finding, as the table names it. -/
def Level.ofSeverity : Severity → Level
  | .security => .security
  | .breaking => .breaking
  | .warn => .warn
  | .info => .info

/-- The place of a finding in a list, the worst first. -/
def precedes (left right : Finding) : Prop :=
  let rank := fun finding : Finding => severityOrder.idxOf finding.severity
  rank left < rank right ∨ rank left = rank right ∧
    (left.path < right.path ∨ left.path = right.path ∧ left.ruleId ≤ right.ruleId)

instance : DecidableRel precedes := fun left right => by unfold precedes; infer_instance

/-- `sort_findings`. -/
def sortFindings (findings : List Finding) : List Finding := findings.insertionSort precedes

/-- `highest_severity`. -/
def highestSeverity (findings : List Finding) : Level :=
  match severityOrder.find? fun severity => findings.any fun finding =>
    finding.severity = severity with
  | some severity => .ofSeverity severity
  | Option.none => .none

/-- `_Analysis`. -/
structure Analysis where
  findings : List Finding
  severity : Level
deriving DecidableEq

/-- The differ of a service. -/
abbrev DiffFn := String → PyDict → PyDict → Except PyError (List Finding)

/-- `_analyse`. -/
def analyse (diffFn : DiffFn) (tool : String) (oldDef newDef : PyDict) : Except PyError Analysis := do
  let found ← diffFn tool oldDef newDef
  let findings := sortFindings found
  .ok { findings, severity := highestSeverity findings }

/-- The text of a severity of a finding. -/
def severityText (severity : Severity) : String := (Level.ofSeverity severity).text

/-- `_reason`. -/
def reason (analysis : Analysis) (riskClass : RiskClass) : String :=
  match analysis.findings with
  | [] => s!"no differences found; risk_class={riskClass.text}"
  | top :: rest =>
      let plural := if rest.length = 1 then "" else "s"
      let suffix := if rest = [] then "" else s!" (+{rest.length} more finding{plural})"
      s!"{severityText top.severity} {top.ruleId} at {top.path}{suffix}; risk_class={riskClass.text}"

end Control
