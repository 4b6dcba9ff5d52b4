import FineractReports.Knowledge.Model
import FineractReports.Library.Transition
import FineractReports.Policy.Authorization

/-!
# The office scope of a projected principal

Every request projects its principal onto the tenant: the approved capabilities of the catalog
and the offices of the tenant within the scope of the key. A scope without offices is
unrestricted before the projection and forbidden after it.
-/

namespace FineractReports

/-- The tenant's offices within a scope; a scope without offices does not restrict them. -/
def intersectOfficeScope (principalOfficeIds tenantOfficeIds : List ℤ) : List ℤ :=
  if principalOfficeIds = [] then tenantOfficeIds
  else tenantOfficeIds.filter fun officeId => officeId ∈ principalOfficeIds

/-- The result with the principal it leaves behind. -/
def finalizeAdminProjection (principal : PrincipalContext) (capabilityIds : List String)
    (officeIds : List ℤ) : Except AuthorizationError Unit × PrincipalContext :=
  if officeIds = [] then (.error .missingOfficeScope, principal)
  else
    (.ok (), { principal with
      capabilityIds := capabilityIds
      officeIds := officeIds
      canViewPii := true })

inductive ProjectionError where
  | database (message : String)
  | authorization (error : AuthorizationError)
deriving DecidableEq, Repr

def approvedCapabilityIds (catalog : KnowledgeCatalog) : List String :=
  (catalog.capabilities.filter fun capability => capability.status = "approved_mvp").map (·.id)

/-- `rows` is what the query for the offices of the tenant returns. -/
def projectAdminPrincipal (catalog : KnowledgeCatalog) (principal : PrincipalContext)
    (rows : Except String (List ℤ)) : Except ProjectionError Unit × PrincipalContext :=
  match rows with
  | .error message => (.error (.database message), principal)
  | .ok tenantOfficeIds =>
    let (result, projected) := finalizeAdminProjection principal (approvedCapabilityIds catalog)
      (intersectOfficeScope principal.officeIds tenantOfficeIds)
    (result.mapError .authorization, projected)

/-- A principal under one projection after another. -/
def projectionMachine (catalog : KnowledgeCatalog) :
    Machine PrincipalContext (Except String (List ℤ)) where
  init _ := True
  step principal rows := some (projectAdminPrincipal catalog principal rows).2

/-- What the scope of a principal lets a projection keep. -/
def PrincipalContext.Permits (principal : PrincipalContext) (officeId : ℤ) : Prop :=
  principal.officeIds = [] ∨ officeId ∈ principal.officeIds

section Projection

variable {catalog : KnowledgeCatalog} {principal projected : PrincipalContext}
  {tenantOfficeIds : List ℤ} {rows : Except String (List ℤ)} {officeId : ℤ}

theorem mem_intersectOfficeScope : officeId ∈ intersectOfficeScope principal.officeIds
    tenantOfficeIds ↔ officeId ∈ tenantOfficeIds ∧ principal.Permits officeId := by
  unfold intersectOfficeScope PrincipalContext.Permits
  split_ifs with hempty
  · simp [hempty]
  · simp [hempty]

/-- A projection fails and keeps the principal, or it gives it the offices of the tenant that its
scope permits. -/
theorem projectAdminPrincipal_cases (catalog : KnowledgeCatalog) (principal : PrincipalContext)
    (rows : Except String (List ℤ)) :
    (∃ error, projectAdminPrincipal catalog principal rows = (.error error, principal)) ∨
      ∃ tenantOfficeIds projected, rows = .ok tenantOfficeIds ∧
        projectAdminPrincipal catalog principal rows = (.ok (), projected) ∧
        projected.officeIds = intersectOfficeScope principal.officeIds tenantOfficeIds ∧
        projected.officeIds ≠ [] := by
  cases rows with
  | error message => exact Or.inl ⟨.database message, rfl⟩
  | ok tenantOfficeIds =>
    by_cases hempty : intersectOfficeScope principal.officeIds tenantOfficeIds = []
    · refine Or.inl ⟨.authorization .missingOfficeScope, ?_⟩
      simp only [projectAdminPrincipal, finalizeAdminProjection, if_pos hempty]
      rfl
    · refine Or.inr ⟨tenantOfficeIds, { principal with
        capabilityIds := approvedCapabilityIds catalog
        officeIds := intersectOfficeScope principal.officeIds tenantOfficeIds
        canViewPii := true }, rfl, ?_, rfl, hempty⟩
      simp only [projectAdminPrincipal, finalizeAdminProjection, if_neg hempty]
      rfl

/-- A scope with offices is never widened and never emptied. -/
theorem projection_keeps_within {scope : List ℤ}
    (h : principal.officeIds ≠ [] ∧ principal.officeIds ⊆ scope)
    (hstep : (projectionMachine catalog).step principal rows = some projected) :
    projected.officeIds ≠ [] ∧ projected.officeIds ⊆ scope := by
  obtain rfl := Option.some.inj hstep
  rcases projectAdminPrincipal_cases catalog principal rows with
    ⟨error, hfailed⟩ | ⟨tenantOfficeIds, kept, -, hprojected, hoffices, hnonempty⟩
  · rw [hfailed]
    exact h
  · rw [hprojected]
    refine ⟨hnonempty, fun officeId hmem => ?_⟩
    rw [hoffices] at hmem
    rcases (mem_intersectOfficeScope.mp hmem).2 with hempty | hin
    · exact absurd hempty h.1
    · exact h.2 hin

/-- What a projected principal asks for or gets by default is within its scope. -/
theorem effectiveOfficeScope_subset {requested : Option (List ℤ)} {offices : List ℤ}
    (h : effectiveOfficeScope principal requested = .ok offices) :
    offices ⊆ principal.officeIds := by
  unfold effectiveOfficeScope at h
  split_ifs at h
  split at h
  · split at h
    · cases h
    · rename_i hnone
      obtain rfl := Except.ok.inj h
      intro officeId hmem
      simpa using List.find?_eq_none.mp hnone officeId hmem
  · obtain rfl := Except.ok.inj h
    exact List.Subset.refl _

end Projection

/-- A projection fails and leaves the principal as it was, or it yields offices of the tenant,
within the principal's scope when it has one; and however often the result is projected again,
every scope that takes effect stays within it. -/
theorem projection_only_narrows (catalog : KnowledgeCatalog) (principal : PrincipalContext)
    (tenantOfficeIds : List ℤ) :
    (∃ error, projectAdminPrincipal catalog principal (.ok tenantOfficeIds) =
        (.error error, principal)) ∨
      ∃ projected, projectAdminPrincipal catalog principal (.ok tenantOfficeIds) =
          (.ok (), projected) ∧
        projected.officeIds ≠ [] ∧ projected.officeIds ⊆ tenantOfficeIds ∧
        (principal.officeIds ≠ [] → projected.officeIds ⊆ principal.officeIds) ∧
        ∀ projections later, (projectionMachine catalog).run projected projections = some later →
          later.officeIds ≠ [] ∧ later.officeIds ⊆ projected.officeIds ∧
            ∀ requested offices, effectiveOfficeScope later requested = .ok offices →
              offices ⊆ projected.officeIds := by
  rcases projectAdminPrincipal_cases catalog principal (.ok tenantOfficeIds) with
    hfailed | ⟨offices, projected, hrows, hprojected, hoffices, hnonempty⟩
  · exact Or.inl hfailed
  · obtain rfl := Except.ok.inj hrows
    have hmem : ∀ officeId ∈ projected.officeIds,
        officeId ∈ tenantOfficeIds ∧ principal.Permits officeId := by
      intro officeId hin
      rw [hoffices] at hin
      exact mem_intersectOfficeScope.mp hin
    refine Or.inr ⟨projected, hprojected, hnonempty, fun officeId hin => (hmem officeId hin).1,
      fun hscope officeId hin => (hmem officeId hin).2.resolve_left hscope, ?_⟩
    intro projections later hrun
    have hwithin : later.officeIds ≠ [] ∧ later.officeIds ⊆ projected.officeIds := by
      apply @Machine.run_keeps _ _ (projectionMachine catalog)
        (fun current => current.officeIds ≠ [] ∧ current.officeIds ⊆ projected.officeIds) _
        projected later projections ⟨hnonempty, List.Subset.refl _⟩ hrun
      exact fun current rows next hkept hstep => projection_keeps_within hkept hstep
    exact ⟨hwithin.1, hwithin.2, fun requested offices heffective =>
      List.Subset.trans (effectiveOfficeScope_subset heffective) hwithin.2⟩

end FineractReports
