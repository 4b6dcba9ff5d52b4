import FineractReports.Knowledge.Model

/-!
# Execution plans

A capability with the values its query runs with, and what the policy says about it.
-/

namespace FineractReports.Execution

open Dataset

structure ExecutionPlan where
  domain : String
  capability : String
  queryId : String
  datasetSelection : Option DatasetSelection
  outputMode : String
  params : Json
deriving DecidableEq

inductive PolicyDecisionStatus where
  | allowed | blocked | notApplicable
deriving DecidableEq, Repr

structure PolicyDecision where
  status : PolicyDecisionStatus
  reason : Option String
  officeIds : List ℤ
  canViewPii : Bool
deriving DecidableEq, Repr

/-- What a tool call returned; `truncated` holds the rows shown when the cap trimmed
the result. -/
structure ToolResult where
  toolName : String
  ok : Bool
  rows : List Json
  summary : Option String
  evidenceRefs : List String
  truncated : Option ℕ
deriving DecidableEq

end FineractReports.Execution
