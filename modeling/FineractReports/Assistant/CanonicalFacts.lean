import FineractReports.Assistant.Intent
import FineractReports.Library.Assoc
import FineractReports.Library.Text

/-!
# Canonical facts

The typed facts of a turn: what the deterministic extractor reads from the user's
words, what an entity stands for and the patch a clarification answer becomes.
-/

namespace FineractReports

/-- Canonical facts a parameter can be filled from. -/
inductive ConstraintField where
  | limitMode | limitValue | fromDate | toDate | currencyCode | metric
  | transactionAmount | domain | personName | clientId | office | product
  | productIds | officeIds | chargeType | accountNumber
deriving DecidableEq, Repr

/-- The fields in declaration order, the key order of a `BTreeMap`. -/
def ConstraintField.ordered : List ConstraintField :=
  [limitMode, limitValue, fromDate, toDate, currencyCode, metric, transactionAmount, domain,
    personName, clientId, office, product, productIds, officeIds, chargeType, accountNumber]

inductive LimitMode where
  | all | default | limit | topN
deriving DecidableEq, Repr

inductive ListPatch (α : Type) where
  | replace (values : List α)
  | add (values : List α)
  | remove (values : List α)
deriving DecidableEq, Repr

inductive TypedFactValue where
  | clear
  | limitMode (mode : LimitMode)
  | integer (value : ℤ)
  | date (text : String)
  | currencyCode (text : String)
  | metric (text : String)
  | decimal (text : String)
  | domain (domain : AssistantDomain)
  | personName (text : String)
  | clientId (value : ℤ)
  | office (text : String)
  | product (text : String)
  | chargeType (text : String)
  | accountNumber (text : String)
  | idList (patch : ListPatch ℤ)
deriving DecidableEq, Repr

abbrev ConstraintPatch := List (ConstraintField × TypedFactValue)

/-- The entries of a patch in key order. -/
def ConstraintPatch.entries (patch : ConstraintPatch) : List (ConstraintField × TypedFactValue) :=
  ConstraintField.ordered.filterMap fun field =>
    (Assoc.get? patch field).map fun value => (field, value)

structure TemporalError where
  code : String
  message : String
deriving DecidableEq, Repr

/-- What the extractor read; the raw candidates and the provenance are left out. -/
structure DeterministicExtraction where
  constraints : AssistantConstraints
  entities : List AssistantEntity
  temporalError : Option TemporalError
deriving DecidableEq, Repr

def DeterministicExtraction.empty : DeterministicExtraction :=
  ⟨AssistantConstraints.empty, [], none⟩

/-- The fact an entity stands for; blank entities stand for none. -/
def entityFact (entity : AssistantEntity) : Option (ConstraintField × TypedFactValue) :=
  let text := Text.trim entity.value
  if text = "" then none
  else match entity.entityType with
    | .personName => some (.personName, .personName text)
    | .office => some (.office, .office text)
    | .product => some (.product, .product text)
    | .chargeType => some (.chargeType, .chargeType text)
    | .accountNumber => some (.accountNumber, .accountNumber text)
    | .clientId => (Text.parseI64 text).map fun id => (.clientId, .clientId id)
    | .metric => some (.metric, .metric text)
    | .currency => some (.currencyCode, .currencyCode text)
    | .datePeriod | .capabilityHint | .unknown => none

theorem ConstraintField.mem_ordered (field : ConstraintField) : field ∈ ordered := by
  cases field <;> decide

end FineractReports
