import FineractReports.Assistant.Intent
import FineractReports.Json

/-!
# Clarification payloads

The question a paused job asks: its identity, the options and fields offered and,
when a workflow node raised it, the node to continue from.
-/

namespace FineractReports

/-- Identifiers drawn by `Uuid::new_v4`, or the nil one. -/
abbrev Uuid := ℕ

inductive ClarificationKind where
  | selectOption | selectEntity | collectFields | freeText
deriving DecidableEq, Repr

inductive ClarificationFieldType where
  | dateRange | integer | text
deriving DecidableEq, Repr

structure ClarificationValidation where
  minInteger : Option ℤ
  maxInteger : Option ℤ
  maxLength : Option ℕ
  maxRangeDays : Option ℕ
deriving DecidableEq, Repr

structure ClarificationField where
  key : String
  label : String
  fieldType : ClarificationFieldType
  required : Bool
  value : Option Json
  defaultValue : Option Json
  helpText : Option String
  validation : ClarificationValidation
  errors : List String
deriving DecidableEq

structure ClarificationOption where
  id : String
  label : String
  description : Option String
  fields : List ClarificationField
deriving DecidableEq

structure ClarificationPayload where
  version : ℕ
  id : Uuid
  revision : ℕ
  kind : ClarificationKind
  question : String
  options : List ClarificationOption
  fields : List ClarificationField
  attempt : ℕ
  sourceIntent : Option SourceIntentSnapshot
  allowFreeText : Bool
  isMissingExecutionParameters : Bool
  workflowId : Option Uuid
  nodeId : Option String
  resumeNodeId : Option String
  entityKind : Option String
deriving DecidableEq

def OTHER_CLARIFICATION_OPTION_ID : String := "others"

def CLARIFICATION_VERSION_1 : ℕ := 1

end FineractReports
