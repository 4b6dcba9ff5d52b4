import FineractReports.Execution.Parameters
import FineractReports.Knowledge.Validator

/-!
# Bound parameters

The planned parameters name declared parameters only and leave out none that is required.
A value may come from a fact, from the default of a policy or from the default limit; the hard
caps are applied afterwards, so they hold whatever the value came from.
-/

namespace FineractReports.Execution

/-- An integer value stays below the hard cap of a policy. -/
def Within (policy : ParameterPolicy) (value : Json) : Prop :=
  ∀ cap, policy.hardCap = some cap → ∀ requested, value.asI64? = some requested → requested ≤ cap

section Caps

variable {policy : ParameterPolicy} {policies : List ParameterPolicy} {name : String}
  {value : Json}

/-- A hard cap lowers an integer or leaves the value as it is. -/
theorem cappedBy_lowers {lowered : ℤ} (h : (cappedBy policy value).asI64? = some lowered) :
    ∃ requested, value.asI64? = some requested ∧ lowered ≤ requested := by
  unfold cappedBy at h
  split at h
  · rename_i cap requested hcap hrequested
    refine ⟨requested, hrequested, ?_⟩
    split_ifs at h with hover
    · unfold Json.asI64? at h
      dsimp only at h
      split_ifs at h with hfits
      obtain rfl := Option.some.inj h
      exact hover.le
    · rw [hrequested] at h
      exact (Option.some.inj h).ge
  · exact ⟨lowered, h, le_rfl⟩

theorem within_cappedBy : Within policy (cappedBy policy value) := by
  intro cap hcap lowered h
  unfold cappedBy at h
  rw [hcap] at h
  cases hrequested : value.asI64? with
  | none =>
    rw [hrequested] at h
    dsimp only at h
    rw [hrequested] at h
    cases h
  | some requested =>
    rw [hrequested] at h
    dsimp only at h
    split_ifs at h with hover
    · unfold Json.asI64? at h
      dsimp only at h
      split_ifs at h with hfits
      exact (Option.some.inj h).ge
    · rw [hrequested] at h
      obtain rfl := Option.some.inj h
      exact not_lt.mp hover

/-- A later cap does not lift a value above an earlier one. -/
theorem Within.cappedBy (h : Within policy value) (other : ParameterPolicy) :
    Within policy (cappedBy other value) := by
  intro cap hcap lowered hlowered
  obtain ⟨requested, hrequested, hle⟩ := cappedBy_lowers hlowered
  exact hle.trans (h cap hcap requested hrequested)

theorem Within.capped (h : Within policy value) : Within policy (capped policies name value) := by
  induction policies generalizing value with
  | nil => exact h
  | cons first rest ih =>
    have hfirst : Within policy
        (if first.name = name then Execution.cappedBy first value else value) := by
      split_ifs with hname
      · exact h.cappedBy first
      · exact h
    exact ih hfirst

/-- Every policy of the name holds at the end, so the smallest cap does. -/
theorem within_capped (hmem : policy ∈ policies) (hname : policy.name = name) :
    Within policy (capped policies name value) := by
  induction policies generalizing value with
  | nil => cases hmem
  | cons first rest ih =>
    cases List.mem_cons.mp hmem with
    | inl hfirst =>
      subst hfirst
      have hcapped : Within policy
          (if policy.name = name then Execution.cappedBy policy value else value) := by
        rw [if_pos hname]
        exact within_cappedBy
      exact hcapped.capped
    | inr hrest => exact ih hrest

end Caps

section Filled

variable {value : QueryParameter → Option Json} {parameters : List QueryParameter}
  {name : String}

/-- A name has a value when one of its planned parameters has. -/
theorem lastValue_isSome : (lastValue value parameters name).isSome = true ↔
    ∃ parameter ∈ parameters, filledAtExecution parameter = false ∧ parameter.name = name ∧
      (value parameter).isSome = true := by
  induction parameters with
  | nil => simp [lastValue]
  | cons parameter rest ih =>
    rw [lastValue_cons, Option.isSome_or, Bool.or_eq_true, ih, List.exists_mem_cons_iff, or_comm]
    apply or_congr_left
    by_cases hname : filledAtExecution parameter = false ∧ parameter.name = name
    · simp [hname]
    · rw [if_neg hname]
      constructor
      · intro h
        cases h
      · rintro ⟨hplanned, hthis, -⟩
        exact absurd ⟨hplanned, hthis⟩ hname

end Filled

/-- The parameters a plan runs with, against those its query declares and the policies of its
capability. -/
structure CompleteAndCapped (parameters : List QueryParameter) (policies : List ParameterPolicy)
    (params : Params) : Prop where
  complete : ∀ parameter ∈ parameters, parameter.required = true →
    filledAtExecution parameter = false → (Assoc.get? params parameter.name).isSome = true
  declared : ∀ name ∈ Assoc.keys params, ∃ parameter ∈ parameters, parameter.name = name ∧
    filledAtExecution parameter = false
  capped : ∀ policy ∈ policies, ∀ value, Assoc.get? params policy.name = some value →
    Within policy value

/-- What is planned is complete, declared and below every hard cap. -/
theorem paramsFromVerified_completeAndCapped (toLowercase : String → String)
    (catalog : KnowledgeCatalog) (query : QueryKnowledge) (intent : AssistantIntent)
    (extraction : Option DeterministicExtraction) (policies : List ParameterPolicy)
    (ctx : Option EvaluationContext) (message : Option String) (params : Params)
    (h : paramsFromVerified toLowercase catalog query intent extraction policies ctx message =
      .ok params) : CompleteAndCapped query.parameters policies params := by
  unfold paramsFromVerified at h
  simp only [bind_eq_ok_iff, pure_eq_ok] at h
  obtain ⟨filled, hfilled, rfl⟩ := h
  have hget : ∀ name, Assoc.get? (clampHardCaps filled policies) name =
      (lastValue (parameterValue catalog
        (requestFacts toLowercase message (some intent) extraction) policies ctx)
        query.parameters name).map (Execution.capped policies name) := by
    intro name
    rw [clampHardCaps_get?, fillParameters_get? hfilled, Assoc.get?_nil, Option.or_none]
  constructor
  · intro parameter hparameter hrequired hplanned
    rw [hget, Option.isSome_map, lastValue_isSome]
    exact ⟨parameter, hparameter, hplanned, rfl,
      fillParameters_isOk.mp ⟨filled, hfilled⟩ parameter hparameter hplanned hrequired⟩
  · intro name hname
    rw [← Assoc.get?_isSome_iff, hget, Option.isSome_map, lastValue_isSome] at hname
    obtain ⟨parameter, hparameter, hplanned, hthis, -⟩ := hname
    exact ⟨parameter, hparameter, hthis, hplanned⟩
  · intro policy hpolicy value hvalue
    rw [hget] at hvalue
    obtain ⟨given, -, rfl⟩ := Option.map_eq_some_iff.mp hvalue
    exact within_capped hpolicy rfl

/-- The lookup with a row limit. -/
def limitedLookup : QueryKnowledge :=
  { FineractReports.NameLookup.query with
    parameters :=
      FineractReports.NameLookup.query.parameters ++ [⟨"limit", "integer", false, none⟩] }

/-- Two policies cap the row limit. -/
def limitPolicies : List ParameterPolicy :=
  [⟨"limit", .integer, false, some .unbounded, false, true, some 200, false, [], none⟩,
    ⟨"limit", .integer, false, none, false, true, some 50, false, [], none⟩]

/-- The unbounded default is planned as the smaller cap. -/
theorem unbounded_default_capped : CompleteAndCapped limitedLookup.parameters limitPolicies
    [("search", .str "Tony"), ("limit", .int 50)] :=
  paramsFromVerified_completeAndCapped Text.asciiLower FineractReports.NameLookup.catalog
    limitedLookup
    { intent := .dataLookup
      domain := .client
      requestShape := ⟨.lookup, .client, .none, .lookup, .clientIdentity⟩
      canonicalQueryEn := ""
      entities := []
      constraints := AssistantConstraints.empty
      source := none }
    (some { DeterministicExtraction.empty with entities := [⟨.personName, "Tony", none⟩] })
    limitPolicies (some ⟨⟨2024, 5, 17, by decide⟩, ⟨2024, 5, 17, by decide⟩, [1]⟩)
    (some "Find client named Tony.")
    [("search", .str "Tony"), ("limit", .int 50)] (by decide +kernel)

end FineractReports.Execution
