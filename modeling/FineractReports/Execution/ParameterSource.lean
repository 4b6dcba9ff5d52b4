import FineractReports.Execution.Parameters

/-!
# Where the value of a parameter comes from

The planner's rule as a relation: the first fact of the binding list that converts,
else the default of the policy, else the row limit. Among parameters of one name the
last one with a value stands, after the hard caps.
-/

namespace FineractReports.Execution

section Source

variable (catalog : KnowledgeCatalog) (facts : Facts) (policies : List ParameterPolicy)
  (ctx : Option EvaluationContext)

/-- A fact of the field converts to the value in the type of the parameter. -/
def Converts (parameter : QueryParameter) (field : ConstraintField) (value : Json) : Prop :=
  ∃ fact, Assoc.get? facts field = some fact ∧ bindValue parameter.kind fact = some value

/-- No field of the binding list has a fact that converts. -/
def NoFact (parameter : QueryParameter) : Prop :=
  ∀ field ∈ catalog.bindingFields parameter.name, ∀ value,
    ¬ Converts facts parameter field value

/-- The policy of the name is optional and has a default, evaluated in this turn. -/
def PolicyDefault (name : String) (value : Json) : Prop :=
  ∃ turnCtx policy default, ctx = some turnCtx ∧
    policies.find? (fun policy => policy.name = name) = some policy ∧
    policy.required = false ∧ policy.default = some default ∧
    value = resolvedToValue (default.evaluate turnCtx)

/-- A required row limit. -/
def IsRowLimit (parameter : QueryParameter) : Prop :=
  parameter.required = true ∧ (parameter.name = "limit" ∨ parameter.name = "top_n")

/-- What gives a parameter its value. -/
inductive GivenBy (parameter : QueryParameter) : Json → Prop
  | fact {before : List ConstraintField} {field : ConstraintField}
      {after : List ConstraintField} {value : Json}
      (hfields : catalog.bindingFields parameter.name = before ++ field :: after)
      (hconverts : Converts facts parameter field value)
      (hfirst : ∀ earlier ∈ before, ∀ other, ¬ Converts facts parameter earlier other) :
      GivenBy parameter value
  | policyDefault {value : Json} (hnone : NoFact catalog facts parameter)
      (hdefault : PolicyDefault policies ctx parameter.name value) : GivenBy parameter value
  | rowLimit (hnone : NoFact catalog facts parameter)
      (hdefault : ∀ value, ¬ PolicyDefault policies ctx parameter.name value)
      (hlimit : IsRowLimit parameter) : GivenBy parameter (.int DEFAULT_REPORT_LIMIT)

/-- Something gives the parameter a value. -/
def HasSource (parameter : QueryParameter) : Prop :=
  ∃ value, GivenBy catalog facts policies ctx parameter value

/-- What the planned parameters of a name hold: the value of the last one that has a
source, after the hard caps. -/
def Supplies (parameters : List QueryParameter) (name : String) (value : Json) : Prop :=
  ∃ left winner right given, parameters = left ++ winner :: right ∧
    filledAtExecution winner = false ∧ winner.name = name ∧
    GivenBy catalog facts policies ctx winner given ∧
    (∀ later ∈ right, filledAtExecution later = false → later.name = name →
      ¬ HasSource catalog facts policies ctx later) ∧
    capped policies name given = value

end Source

section Lemmas

variable {catalog : KnowledgeCatalog} {facts : Facts} {policies : List ParameterPolicy}
  {ctx : Option EvaluationContext} {parameter : QueryParameter} {value : Json}

theorem converts_iff {field : ConstraintField} :
    (Assoc.get? facts field).bind (bindValue parameter.kind) = some value ↔
      Converts facts parameter field value := by
  unfold Converts
  rw [Option.bind_eq_some_iff]

theorem bindParameter_eq_none :
    bindParameter catalog facts parameter = none ↔ NoFact catalog facts parameter := by
  unfold bindParameter NoFact
  rw [List.findSome?_eq_none_iff]
  apply forall₂_congr
  intro field hfield
  constructor
  · intro hnone value hconverts
    rw [converts_iff.mpr hconverts] at hnone
    cases hnone
  · intro hnone
    apply Option.eq_none_iff_forall_ne_some.mpr
    intro value hvalue
    exact hnone value (converts_iff.mp hvalue)

theorem bindParameter_eq_some :
    bindParameter catalog facts parameter = some value ↔
      ∃ before field after, catalog.bindingFields parameter.name = before ++ field :: after ∧
        Converts facts parameter field value ∧
        ∀ earlier ∈ before, ∀ other, ¬ Converts facts parameter earlier other := by
  unfold bindParameter
  rw [List.findSome?_eq_some_iff]
  constructor
  · rintro ⟨before, field, after, hfields, hvalue, hbefore⟩
    refine ⟨before, field, after, hfields, converts_iff.mp hvalue, ?_⟩
    intro earlier hearlier other hconverts
    have hnone := hbefore earlier hearlier
    rw [converts_iff.mpr hconverts] at hnone
    cases hnone
  · rintro ⟨before, field, after, hfields, hconverts, hbefore⟩
    refine ⟨before, field, after, hfields, converts_iff.mpr hconverts, ?_⟩
    intro earlier hearlier
    apply Option.eq_none_iff_forall_ne_some.mpr
    intro other hother
    exact hbefore earlier hearlier other (converts_iff.mp hother)

theorem resolvePolicyDefault_eq_some {name : String} :
    resolvePolicyDefault policies ctx name = some value ↔
      PolicyDefault policies ctx name value := by
  unfold resolvePolicyDefault PolicyDefault
  cases ctx with
  | none => simp
  | some turnCtx =>
    cases hpolicy : policies.find? (fun policy => policy.name = name) with
    | none => simp
    | some policy =>
      cases hrequired : policy.required with
      | true => simp [hrequired]
      | false =>
        cases hdefault : policy.default with
        | none => simp [hrequired, hdefault]
        | some default =>
          constructor
          · intro hvalue
            refine ⟨turnCtx, policy, default, rfl, rfl, hrequired, hdefault, ?_⟩
            simpa [hpolicy, hrequired, hdefault] using hvalue.symm
          · rintro ⟨_, _, _, ⟨rfl⟩, ⟨rfl⟩, -, hother, rfl⟩
            rw [hdefault] at hother
            obtain rfl := Option.some.inj hother
            simp [hrequired, hdefault]

theorem defaultRequiredParameter_eq_some :
    defaultRequiredParameter parameter = some value ↔
      IsRowLimit parameter ∧ value = .int DEFAULT_REPORT_LIMIT := by
  unfold defaultRequiredParameter IsRowLimit
  split_ifs with hlimit
  · constructor
    · rintro ⟨rfl⟩
      exact ⟨hlimit, rfl⟩
    · rintro ⟨-, rfl⟩
      rfl
  · simp [hlimit]

/-- The planner's value of a parameter is the one its source gives. -/
theorem parameterValue_eq_some :
    parameterValue catalog facts policies ctx parameter = some value ↔
      GivenBy catalog facts policies ctx parameter value := by
  unfold parameterValue
  rw [Option.or_eq_some_iff, Option.or_eq_some_iff, bindParameter_eq_some, bindParameter_eq_none,
    resolvePolicyDefault_eq_some, defaultRequiredParameter_eq_some]
  constructor
  · rintro (⟨before, field, after, hfields, hconverts, hfirst⟩ | ⟨hnone, hdefault | hlimit⟩)
    · exact .fact hfields hconverts hfirst
    · exact .policyDefault hnone hdefault
    · obtain ⟨hdefault, hlimit, rfl⟩ := hlimit
      refine .rowLimit hnone ?_ hlimit
      intro other hother
      rw [resolvePolicyDefault_eq_some.mpr hother] at hdefault
      cases hdefault
  · rintro (⟨hfields, hconverts, hfirst⟩ | ⟨hnone, hdefault⟩ | ⟨hnone, hdefault, hlimit⟩)
    · exact Or.inl ⟨_, _, _, hfields, hconverts, hfirst⟩
    · exact Or.inr ⟨hnone, Or.inl hdefault⟩
    · refine Or.inr ⟨hnone, Or.inr ⟨?_, hlimit, rfl⟩⟩
      apply Option.eq_none_iff_forall_ne_some.mpr
      intro other hother
      exact hdefault other (resolvePolicyDefault_eq_some.mp hother)

theorem parameterValue_isSome :
    (parameterValue catalog facts policies ctx parameter).isSome = true ↔
      HasSource catalog facts policies ctx parameter := by
  unfold HasSource
  rw [Option.isSome_iff_exists]
  exact exists_congr fun _ => parameterValue_eq_some

theorem parameterValue_eq_none :
    parameterValue catalog facts policies ctx parameter = none ↔
      ¬ HasSource catalog facts policies ctx parameter := by
  rw [← parameterValue_isSome, Option.not_isSome_iff_eq_none]

/-- The last value of a name is the one of the last planned parameter with a value. -/
theorem lastValue_eq_some {valueOf : QueryParameter → Option Json}
    {parameters : List QueryParameter} {name : String} :
    lastValue valueOf parameters name = some value ↔
      ∃ left winner right, parameters = left ++ winner :: right ∧
        filledAtExecution winner = false ∧ winner.name = name ∧ valueOf winner = some value ∧
        ∀ later ∈ right, filledAtExecution later = false → later.name = name →
          valueOf later = none := by
  induction parameters with
  | nil => simp [lastValue]
  | cons head rest ih =>
    rw [lastValue_cons, Option.or_eq_some_iff, ih]
    constructor
    · rintro (⟨left, winner, right, rfl, hplanned, hname, hvalue, hlater⟩ | ⟨hrest, hhead⟩)
      · exact ⟨head :: left, winner, right, rfl, hplanned, hname, hvalue, hlater⟩
      · split_ifs at hhead with hmatch
        refine ⟨[], head, rest, rfl, hmatch.1, hmatch.2, hhead, ?_⟩
        intro later hlater hplanned hname
        by_contra hsome
        obtain ⟨other, hother⟩ := Option.ne_none_iff_exists'.mp hsome
        have hmem : other ∈ (rest.filter fun parameter =>
            filledAtExecution parameter = false ∧ parameter.name = name).filterMap valueOf :=
          List.mem_filterMap.mpr ⟨later, List.mem_filter.mpr ⟨hlater, by simp [hplanned, hname]⟩,
            hother⟩
        have hempty := List.getLast?_eq_none_iff.mp hrest
        rw [hempty] at hmem
        cases hmem
    · rintro ⟨left, winner, right, hsplit, hplanned, hname, hvalue, hlater⟩
      cases left with
      | nil =>
        obtain ⟨rfl, rfl⟩ := List.cons.inj hsplit
        refine Or.inr ⟨?_, by rw [if_pos ⟨hplanned, hname⟩]; exact hvalue⟩
        unfold lastValue
        rw [List.getLast?_eq_none_iff, List.filterMap_eq_nil_iff]
        intro later hmem
        obtain ⟨hin, hmatch⟩ := List.mem_filter.mp hmem
        obtain ⟨hlaterPlanned, hlaterName⟩ := of_decide_eq_true hmatch
        exact hlater later hin hlaterPlanned hlaterName
      | cons first left =>
        obtain ⟨rfl, rfl⟩ := List.cons.inj hsplit
        exact Or.inl ⟨left, winner, right, rfl, hplanned, hname, hvalue, hlater⟩

variable {toLowercase : String → String} {query : QueryKnowledge} {intent : AssistantIntent}
  {extraction : Option DeterministicExtraction} {message : Option String}

/-- Planning succeeds exactly when every required planned parameter has a source. -/
theorem paramsFromVerified_isOk :
    (∃ out, paramsFromVerified toLowercase catalog query intent extraction policies ctx message =
        .ok out) ↔
      ∀ parameter ∈ query.parameters, filledAtExecution parameter = false →
        parameter.required = true →
        HasSource catalog (requestFacts toLowercase message (some intent) extraction) policies ctx
          parameter := by
  have hfill := @fillParameters_isOk
    (parameterValue catalog (requestFacts toLowercase message (some intent) extraction)
    policies ctx)
    [] query.parameters
  simp only [parameterValue_isSome] at hfill
  rw [← hfill]
  unfold paramsFromVerified
  constructor
  · rintro ⟨out, h⟩
    obtain ⟨filled, hfilled, -⟩ := bind_eq_ok_iff.mp h
    exact ⟨filled, hfilled⟩
  · rintro ⟨filled, hfilled⟩
    exact ⟨clampHardCaps filled policies, bind_eq_ok_iff.mpr ⟨filled, hfilled, rfl⟩⟩

/-- The planned value of a name is the one supplied for it. -/
theorem paramsFromVerified_get? {out : Params}
    (h : paramsFromVerified toLowercase catalog query intent extraction policies ctx message =
      .ok out) {name : String} :
    Assoc.get? out name = some value ↔
      Supplies catalog (requestFacts toLowercase message (some intent) extraction) policies ctx
        query.parameters name value := by
  unfold paramsFromVerified at h
  simp only [bind_eq_ok_iff, pure_eq_ok] at h
  obtain ⟨filled, hfill, rfl⟩ := h
  rw [clampHardCaps_get?, fillParameters_get? hfill]
  simp only [Assoc.get?_nil, Option.or_none, Option.map_eq_some_iff, lastValue_eq_some,
    parameterValue_eq_some, parameterValue_eq_none, Supplies]
  constructor
  · rintro ⟨given, ⟨left, winner, right, hsplit, hplanned, hname, hgiven, hlater⟩, hcapped⟩
    exact ⟨left, winner, right, given, hsplit, hplanned, hname, hgiven, hlater, hcapped⟩
  · rintro ⟨left, winner, right, given, hsplit, hplanned, hname, hgiven, hlater, hcapped⟩
    exact ⟨given, ⟨left, winner, right, hsplit, hplanned, hname, hgiven, hlater⟩, hcapped⟩

end Lemmas

end FineractReports.Execution
