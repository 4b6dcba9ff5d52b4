import Mathlib.Tactic

/-!
# The intent of a turn

What the router extracts from a message: the request shape, the entities and the
constraints. Confidence scores are not modelled, no decision below reads them.
-/

namespace FineractReports

inductive RequestOperation where
  | total | summary | list | rank | trend | lookup | randomSample | unknown
deriving DecidableEq, Repr

inductive RequestSubject where
  | savingsTransaction | savingsAccount | savingsAccountCharge | client | office
  | organizationHierarchy | product | unknown
deriving DecidableEq, Repr

inductive RequestGrouping where
  | none | month | office | product | unknown
deriving DecidableEq, Repr

inductive RequestOutput where
  | scalar | summary | list | ranking | timeSeries | lookup | unknown
deriving DecidableEq, Repr

inductive RequestPii where
  | none | clientIdentity | conditionalClientIdentity | unknown
deriving DecidableEq, Repr

structure RequestShape where
  operation : RequestOperation
  subject : RequestSubject
  grouping : RequestGrouping
  output : RequestOutput
  pii : RequestPii
deriving DecidableEq, Repr

inductive AssistantIntentKind where
  | greeting | help | dataLookup | clarificationReply | followUp | unsafeRequest
  | outOfDomain | reportRequest
deriving DecidableEq, Repr

inductive AssistantDomain where
  | savings | client | organization | groupCenter | loan | accounting | tax | audit | unknown
deriving DecidableEq, Repr

inductive AssistantEntityType where
  | personName | clientId | office | datePeriod | currency | product | metric
  | capabilityHint | accountNumber | chargeType | unknown
deriving DecidableEq, Repr

structure AssistantEntity where
  entityType : AssistantEntityType
  value : String
  canonical : Option String
deriving DecidableEq, Repr

inductive Quantity where
  | all
  | default
  | limit (value : ℤ)
  | topN (value : ℤ)
deriving DecidableEq, Repr

structure AssistantConstraints where
  fromDate : Option String
  toDate : Option String
  quantity : Option Quantity
  currencyCode : Option String
  productIds : Option (List ℤ)
  officeIds : Option (List ℤ)
  metric : Option String
  transactionAmount : Option String
deriving DecidableEq, Repr

/-- No constraint stated. -/
def AssistantConstraints.empty : AssistantConstraints :=
  ⟨none, none, none, none, none, none, none, none⟩

structure SourceIntentSnapshot where
  prompt : String
  normalizedPrompt : Option String
  intent : AssistantIntentKind
  domain : AssistantDomain
  requestShape : RequestShape
  entities : List AssistantEntity
  constraints : AssistantConstraints
deriving DecidableEq, Repr

structure AssistantIntent where
  intent : AssistantIntentKind
  domain : AssistantDomain
  requestShape : RequestShape
  canonicalQueryEn : String
  entities : List AssistantEntity
  constraints : AssistantConstraints
  source : Option SourceIntentSnapshot
deriving DecidableEq, Repr

end FineractReports
