import FineractReports.Assistant.Clarification

/-!
# Authorization of a principal

The checks made immediately before a node runs: the capability is held, personal
data may be shown and some office is in scope.
-/

namespace FineractReports

structure PrincipalContext where
  userId : Uuid
  role : String
  capabilityIds : List String
  officeIds : List ℤ
  canViewPii : Bool
deriving DecidableEq, Repr

inductive AuthorizationError where
  | capabilityNotAllowed (capability : String)
  | missingOfficeScope
  | officeNotAllowed (officeId : ℤ)
  | piiNotAllowed
deriving DecidableEq, Repr

namespace AuthorizationError

def message : AuthorizationError → String
  | capabilityNotAllowed capability =>
    "principal is not allowed to run capability `" ++ capability ++ "`"
  | missingOfficeScope => "principal has no office scope"
  | officeNotAllowed officeId =>
    "requested office `" ++ toString officeId ++ "` is outside principal scope"
  | piiNotAllowed => "PII output is not allowed for this principal"

end AuthorizationError

def ensureCapabilityAllowed (principal : PrincipalContext) (capability : String) :
    Except AuthorizationError Unit :=
  if capability ∈ principal.capabilityIds then .ok ()
  else .error (.capabilityNotAllowed capability)

def effectiveOfficeScope (principal : PrincipalContext) (requestedOfficeIds : Option (List ℤ)) :
    Except AuthorizationError (List ℤ) :=
  if principal.officeIds = [] then .error .missingOfficeScope
  else match requestedOfficeIds with
    | some requested =>
      match requested.find? fun officeId => officeId ∉ principal.officeIds with
      | some officeId => .error (.officeNotAllowed officeId)
      | none => .ok requested
    | none => .ok principal.officeIds

def ensurePiiAllowed (principal : PrincipalContext) (outputRequiresPii : Bool) :
    Except AuthorizationError Unit :=
  if outputRequiresPii ∧ ¬ principal.canViewPii then .error .piiNotAllowed else .ok ()

theorem ensureCapabilityAllowed_eq_ok {principal : PrincipalContext} {capability : String} :
    ensureCapabilityAllowed principal capability = .ok () ↔
      capability ∈ principal.capabilityIds := by
  unfold ensureCapabilityAllowed
  split_ifs with h <;> simp [h]

theorem ensurePiiAllowed_eq_ok {principal : PrincipalContext} {required : Bool} :
    ensurePiiAllowed principal required = .ok () ↔
      (required = true → principal.canViewPii = true) := by
  unfold ensurePiiAllowed
  split_ifs with h
  · simpa using h
  · simpa using h

/-- Without a request the scope is the principal's own, when it has one. -/
theorem effectiveOfficeScope_none {principal : PrincipalContext} {offices : List ℤ} :
    effectiveOfficeScope principal none = .ok offices ↔
      principal.officeIds ≠ [] ∧ offices = principal.officeIds := by
  unfold effectiveOfficeScope
  split_ifs with h
  · simp [h]
  · simp [h, eq_comm]

end FineractReports
