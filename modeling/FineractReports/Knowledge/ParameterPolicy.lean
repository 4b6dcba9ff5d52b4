import FineractReports.Library.Calendar

/-!
# Parameter policies of a capability

For each parameter: its type, whether it is required, the default expression
that may fill it, the cap on its value and the order in which its value is
acquired.
-/

namespace FineractReports

inductive ParameterType where
  | date | integer | integerArray | string | currency
deriving DecidableEq, Repr

inductive DefaultExpr where
  | businessToday
  | wallToday
  | businessTodayMinusDays (days : ℕ)
  | businessTodayMinusMonths (months : ℕ)
  | businessTodayMinusYears (years : ℕ)
  | startOfMonthBusinessToday
  | endOfMonthBusinessToday
  | unbounded
  | authorizedScope
  | literalInt (value : ℤ)
  | literalDate (value : NaiveDate)
deriving DecidableEq

inductive ResolutionStrategy where
  | authorizedScope | catalogDefault | deterministicExtraction | verifiedUserText
  | safePriorSelection | priorStep | authorizedDataProbe | clarify
deriving DecidableEq, Repr

structure ProbeRef where
  datasetId : String
  shapeId : String
  outputSlot : String
deriving DecidableEq, Repr

structure ParameterPolicy where
  name : String
  kind : ParameterType
  required : Bool
  default : Option DefaultExpr
  fillWhenMissing : Bool
  userMayOverride : Bool
  hardCap : Option ℤ
  userRequired : Bool
  resolution : List ResolutionStrategy
  probe : Option ProbeRef
deriving DecidableEq

/-- What default expressions are evaluated against. -/
structure EvaluationContext where
  businessToday : NaiveDate
  wallToday : NaiveDate
  authorizedOfficeIds : List ℤ
deriving DecidableEq

inductive ResolvedValue where
  | date (date : NaiveDate)
  | integer (value : ℤ)
  | integerArray (values : List ℤ)
  | unbounded
deriving DecidableEq

def endOfMonth (date : NaiveDate) : NaiveDate := (date.startOfMonth.addMonths 1).pred

def DefaultExpr.evaluate (ctx : EvaluationContext) : DefaultExpr → ResolvedValue
  | businessToday => .date ctx.businessToday
  | wallToday => .date ctx.wallToday
  | businessTodayMinusDays days => .date (ctx.businessToday.subDays days)
  | businessTodayMinusMonths months => .date (ctx.businessToday.addMonths (-months))
  | businessTodayMinusYears years => .date (ctx.businessToday.addMonths (-(12 * years)))
  | startOfMonthBusinessToday => .date ctx.businessToday.startOfMonth
  | endOfMonthBusinessToday => .date (endOfMonth ctx.businessToday)
  | unbounded => .unbounded
  | authorizedScope => .integerArray ctx.authorizedOfficeIds
  | literalInt value => .integer value
  | literalDate date => .date date

end FineractReports
