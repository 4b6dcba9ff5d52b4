import FineractReports.Assistant.Clarification

/-!
# Responses

The contract between the assistant and its clients.
-/

namespace FineractReports

structure ClarificationChoice where
  id : String
  label : String
  description : Option String
  fields : List ClarificationField
deriving DecidableEq

/-- The part of a clarification a client may see. -/
structure ClarificationView where
  version : ℕ
  id : Uuid
  revision : ℕ
  kind : ClarificationKind
  question : String
  options : List ClarificationChoice
  fields : List ClarificationField
  allowFreeText : Bool
  workflowId : Option Uuid
  nodeId : Option String
  resumeNodeId : Option String
  entityKind : Option String
deriving DecidableEq

namespace Presentation

inductive AssistantResponseType where
  | summary | table | metricCards | clarification | help | unsupported | outOfDomain
  | policyBlocked | error
deriving DecidableEq, Repr

structure ResponseSection where
  title : String
  body : String
deriving DecidableEq, Repr

inductive TableColumnKind where
  | text | number | decimal | date | money
deriving DecidableEq, Repr

structure TableColumn where
  key : String
  label : String
  kind : TableColumnKind
  hidden : Bool
deriving DecidableEq, Repr

structure ResponseTable where
  columns : List TableColumn
  rows : List Json
deriving DecidableEq

structure ResponseCard where
  label : String
  value : String
  unit : Option String
deriving DecidableEq, Repr

structure ResponseOption where
  id : String
  label : String
  description : Option String
deriving DecidableEq, Repr

structure ResponseWarning where
  code : String
  message : String
deriving DecidableEq, Repr

inductive ResponseActionType where
  | startNewSession | refine | export | askFollowUp
deriving DecidableEq, Repr

structure ResponseAction where
  actionType : ResponseActionType
  label : String
deriving DecidableEq, Repr

structure EvidenceReference where
  id : String
  sourceType : String
  label : Option String
deriving DecidableEq, Repr

structure WorkflowResponseMeta where
  id : Uuid
  nodeId : String
  stepsExecuted : ℕ
  isPartial : Bool
deriving DecidableEq, Repr

structure AssistantResponse where
  responseType : AssistantResponseType
  title : Option String
  message : String
  sections : List ResponseSection
  table : Option ResponseTable
  cards : List ResponseCard
  options : List ResponseOption
  clarification : Option ClarificationView
  warnings : List ResponseWarning
  actions : List ResponseAction
  evidenceRefs : List EvidenceReference
  renderedMarkdown : Option String
  workflow : Option WorkflowResponseMeta
deriving DecidableEq

end Presentation

end FineractReports
