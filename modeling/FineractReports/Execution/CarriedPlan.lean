import FineractReports.Execution.SelectedPlan
import FineractReports.Workflow.CompiledNodes

/-!
# From the plan to the request

The planner resolves the parameters of a capability, the compiler makes inputs for the
policies it acquires, and the executor fills what the runner left open. What the plan holds
reaches the statement when the three agree on the names.
-/

namespace FineractReports.Workflow

section Bindings

variable {runs : List WorkflowNodeRun} {principal : PrincipalContext}

/-- The scope is bound to the principal's offices. -/
theorem scope_value {rest : List NodeInput} {bindings result : Bindings}
    (h : bindInputs runs principal (scopeInput :: rest) bindings = .ok result) :
    inputValue runs principal .authorizedScope = .ok (officeIdsJson principal.officeIds) := by
  unfold bindInputs at h
  rw [if_neg (by decide)] at h
  obtain ⟨value, hvalue, -⟩ := bind_eq_ok_iff.mp h
  have hscope : inputValue runs principal .authorizedScope = .ok value := hvalue
  simp only [inputValue, map_eq_ok_iff, mapError_eq_ok, effectiveOfficeScope_none] at hscope ⊢
  obtain ⟨offices, ⟨hsome, rfl⟩, -⟩ := hscope
  exact ⟨_, ⟨hsome, rfl⟩, rfl⟩

/-- When all inputs of a name that travel have one value, the name is bound to it. -/
theorem bindInputs_get? (value : Json) {inputs : List NodeInput} {bindings result : Bindings}
    {name : String}
    (h : bindInputs runs principal inputs bindings = .ok result)
    (hvalue : ∀ input ∈ inputs, input.parameter = name → input.source ≠ .exactSensitiveInput →
      inputValue runs principal input.source = .ok value) :
    Assoc.get? result name =
      if ∃ input ∈ inputs, input.parameter = name ∧ input.source ≠ .exactSensitiveInput then
        some value
      else Assoc.get? bindings name := by
  induction inputs generalizing bindings with
  | nil =>
    cases h
    simp
  | cons input rest ih =>
    obtain ⟨hhead, hrest⟩ := List.forall_mem_cons.mp hvalue
    unfold bindInputs at h
    by_cases hexact : input.source = .exactSensitiveInput
    · rw [if_pos hexact] at h
      rw [ih h hrest]
      simp [hexact]
    · rw [if_neg hexact] at h
      obtain ⟨bound, hbound, h⟩ := bind_eq_ok_iff.mp h
      rw [ih h hrest, Assoc.get?_insert]
      by_cases hname : input.parameter = name
      · obtain rfl := Except.ok.inj (hbound.symm.trans (hhead hname hexact))
        simp [hname, hexact]
      · simp [hname]

end Bindings

end FineractReports.Workflow

namespace FineractReports.Dataset

section Monotone

variable {isDecimal : String → Bool} {dataset : DatasetKnowledge} {shape : ShapeOption}
  {params others : Json} {selection : DatasetSelection} {recipe : DatasetRecipe}

/-- The others have what the params have, and perhaps more. -/
def Extends (params others : Json) : Prop :=
  ∀ name value, params.get? name = some value → others.get? name = some value

theorem resolveFilters_extends (hparams : Extends params others)
    {mappings : List DatasetRecipeFilter} {filters : List DatasetFilterSelection}
    (h : resolveFilters isDecimal dataset shape params mappings = .ok filters) :
    resolveFilters isDecimal dataset shape others mappings = .ok filters := by
  induction mappings generalizing filters with
  | nil => exact h
  | cons mapping rest ih =>
    simp only [resolveFilters, bind_eq_ok_iff] at h ⊢
    obtain ⟨slot, hslot, h⟩ := h
    refine ⟨slot, hslot, ?_⟩
    split_ifs at h ⊢ with hexact
    · exact ih h
    · simp only [bind_eq_ok_iff, exists_unit_iff, pure_eq_ok] at h ⊢
      obtain ⟨value, hvalue, hvalid, found, hfound, rfl⟩ := h
      refine ⟨value, ?_, hvalid, found, ih hfound, rfl⟩
      unfold mappedValue at hvalue ⊢
      split at hvalue
      · exact okOr_eq_ok.mpr (hparams _ _ (okOr_eq_ok.mp hvalue))
      · exact hvalue
      · cases hvalue

/-- A recipe that resolves goes on to resolve to the same selection with more parameters. -/
theorem resolveRecipe_extends (hparams : Extends params others) (hobject : isObject others = true)
    (h : resolveRecipe isDecimal dataset params recipe = .ok selection) :
    resolveRecipe isDecimal dataset others recipe = .ok selection := by
  simp only [resolveRecipe, bind_eq_ok_iff, exists_unit_iff, failIf_eq_ok, not_not, okOr_eq_ok,
    forSome_eq_ok, forEach_eq_ok, pure_eq_ok] at h ⊢
  obtain ⟨hid, shape, hshape, horder, -, filters, hfilters, hprojection, rfl⟩ := h
  exact ⟨hid, shape, hshape, horder, by simp [hobject], filters,
    resolveFilters_extends hparams hfilters, hprojection, rfl⟩

end Monotone

end FineractReports.Dataset

namespace FineractReports.Execution

open Workflow Dataset

theorem fillOpenBindings_get? (parameters resolved : Bindings) (name : String) :
    Assoc.get? (fillOpenBindings parameters resolved) name =
      (Assoc.get? parameters name).map fun value =>
        if value.isNull = true then (Assoc.get? resolved name).getD value else value := by
  induction parameters with
  | nil => rfl
  | cons entry rest ih =>
    obtain ⟨key, value⟩ := entry
    have hhead : fillOpenBindings ((key, value) :: rest) resolved =
        (key, if value.isNull = true then (Assoc.get? resolved key).getD value else value) ::
          fillOpenBindings rest resolved := by
      by_cases hnull : value.isNull = true
      · simp only [fillOpenBindings, List.map_cons, if_pos hnull]
      · simp only [fillOpenBindings, List.map_cons, if_neg hnull]
    rw [hhead, Assoc.get?_cons, Assoc.get?_cons, ih]
    by_cases hname : key = name <;> simp [hname]

/-- A planned capability, the workflow compiled from the plan and the bindings its query node
is given when it reads no other node. -/
structure CarriedPlan where
  toLowercase : String → String
  isDecimal : String → Bool
  catalog : KnowledgeCatalog
  files : List String × String → Option String
  valid : KnowledgeValidator.validate catalog files toLowercase = .ok ()
  capability : CapabilityKnowledge
  approved : approvedCapability? catalog capability.id = some capability
  query : QueryKnowledge
  declared : catalogQuery? catalog capability.queryId = some query
  intent : AssistantIntent
  extraction : Option DeterministicExtraction
  ctx : Option EvaluationContext
  message : Option String
  plan : ExecutionPlan
  planned : planSelectedCapabilityVerified toLowercase isDecimal catalog capability.id intent
    extraction ctx message = .ok plan
  workflowId : Uuid
  catalogVersion : Uuid
  budgets : WorkflowBudgets
  workflow : ExecutionWorkflow
  compiled : compileWithFacts (capabilityProposal capability.id) catalog workflowId catalogVersion
    budgets (planFacts catalog plan) = .ok workflow
  node : WorkflowNode
  node_mem : node ∈ workflow.nodes
  node_id : node.id = executeId
  reads_no_node : ∀ input ∈ node.inputs, ∀ producer slot,
    input.source ≠ .priorStep producer slot ∧ input.source ≠ .authorizedDataProbe producer slot
  principal : PrincipalContext
  runs : List WorkflowNodeRun
  bindings : Bindings
  bound : bindingsFor node runs principal = .ok bindings

namespace CarriedPlan

variable (run : CarriedPlan)

/-- The filters of a selection that no mapping of the recipe takes from the offices. -/
def withoutOffices (selection : DatasetSelection) : DatasetSelection :=
  { selection with
    filters := selection.filters.filter fun filter =>
      ¬ run.capability.datasetRecipe.any fun recipe => recipe.filters.any fun mapping =>
        mapping.filterId = filter.filterId ∧ mapping.parameter = some "office_ids" }

/-- The built plan has what the plan has, and only the authorized offices beside it. -/
structure CarriedBy (built : ExecutionPlan) : Prop where
  kept : ∀ name value, run.plan.params.get? name = some value → value.isNull = false →
    built.params.get? name = some value
  nothingElse : ∀ name value, built.params.get? name = some value → value.isNull = false →
    run.plan.params.get? name = some value ∨
      (name = "office_ids" ∧ value = officeIdsJson run.principal.officeIds)
  selection : built.datasetSelection.map run.withoutOffices =
    run.plan.datasetSelection.map run.withoutOffices

/-- What the data executor builds for the node carries the plan. -/
def Carries : Prop :=
  ∃ built, buildQueryRequest run.isDecimal (ownRequest run.node run.capability.id run.bindings)
    run.catalog (resolvedParams run.plan) = .ok built ∧ run.CarriedBy built

/-- The canonical facts of the turn. -/
def facts : Facts := requestFacts run.toLowercase run.message (some run.intent) run.extraction

/-- A policy the compiler makes an input for is named so, and the value may travel. -/
def IsInput (name : String) : Prop :=
  (∃ policy ∈ acquiredPolicies run.capability run.catalog, policy.name = name) ∧
    isExactIdentifierParam run.capability name run.catalog = false

instance (name : String) : Decidable (run.IsInput name) := by
  unfold IsInput
  infer_instance

/-- Everything the planner has a value for is an input, or the offices as authorized. -/
def Kept : Prop :=
  ∀ name value, Supplies run.catalog run.facts run.capability.parameterPolicies run.ctx
    run.query.parameters name value →
      run.IsInput name ∨ (name = "office_ids" ∧ value = officeIdsJson run.principal.officeIds)

section Planned

variable {run}

theorem exists_params (run : CarriedPlan) : ∃ params, run.plan.params = .obj params ∧
    paramsFromVerified run.toLowercase run.catalog run.query run.intent run.extraction
      run.capability.parameterPolicies run.ctx run.message = .ok params ∧
    plannedSelection run.isDecimal run.catalog run.capability (.obj params) =
      .ok run.plan.datasetSelection := by
  have hplanned := run.planned
  have hquery : (run.catalog.queries.find? fun item => item.id = run.capability.queryId) =
      some run.query := run.declared
  have hcapability : executableCapability run.catalog run.capability.id = .ok run.capability :=
    okOr_eq_ok.mpr run.approved
  simp only [planSelectedCapabilityVerified, hcapability, hquery, bind_eq_ok_iff, exists_unit_iff,
    okOr_eq_ok, pure_eq_ok, Except.ok.injEq, Option.some.injEq, exists_eq_left'] at hplanned
  obtain ⟨-, -, params, hparams, selection, hselection, hplan⟩ := hplanned
  exact ⟨params, by rw [← hplan], hparams, by rw [← hplan]; exact hselection⟩

/-- The query node reads the offices and an input for each acquired policy, whose value is
left open unless it never travels. -/
theorem exists_inputs (run : CarriedPlan) : ∃ parts : List (ParameterPolicy × Acquired),
    parts.map Prod.fst = acquiredPolicies run.capability run.catalog ∧
    run.node.inputs =
      scopeInput :: parts.map (fun part => ⟨part.1.name, part.1.kind, part.2.source⟩) ∧
    ∀ part ∈ parts,
      (part.2.source = .exactSensitiveInput ↔
        isExactIdentifierParam run.capability part.1.name run.catalog = true) ∧
      inputValue run.runs run.principal part.2.source = .ok .null := by
  obtain ⟨capability, acquisition, hcapability, hacquired, hworkflow⟩ :=
    compileWithFacts_capability run.compiled
  obtain rfl := Option.some.inj (run.approved.symm.trans hcapability)
  obtain ⟨parts, hpolicies, hparts, rfl⟩ := acquireAll_parts hacquired
  have hnodes : run.workflow.nodes = (parts.flatMap fun part => part.2.nodes) ++
      [executeNode run.capability run.catalog run.budgets (scopeInput ::
        parts.map fun part => ⟨part.1.name, part.1.kind, part.2.source⟩), successNode] := by
    rw [hworkflow]
    rfl
  have hinputs : run.node.inputs =
      scopeInput :: parts.map (fun part => ⟨part.1.name, part.1.kind, part.2.source⟩) := by
    have hmem := run.node_mem
    rw [hnodes, List.mem_append, List.mem_flatMap] at hmem
    obtain ⟨part, hpart, hin⟩ | hin := hmem
    · have hbefore := (isFront_of_acquired (hparts part hpart)).stage_lt run.node hin
      rw [run.node_id] at hbefore
      exact absurd hbefore (Nat.lt_irrefl _)
    · obtain heq | heq := List.mem_pair.mp hin
      · rw [heq]
        rfl
      · have hid := run.node_id
        rw [heq] at hid
        exact absurd hid (by decide)
  refine ⟨parts, hpolicies, hinputs, fun part hpart => ?_⟩
  have hin : (⟨part.1.name, part.1.kind, part.2.source⟩ : NodeInput) ∈ run.node.inputs := by
    rw [hinputs]
    exact List.mem_cons_of_mem _ (List.mem_map.mpr ⟨part, hpart, rfl⟩)
  have hreads := run.reads_no_node _ hin
  have hpolicy : part.1 ∈ acquiredPolicies run.capability run.catalog :=
    hpolicies ▸ List.mem_map_of_mem hpart
  have hspec := acquisitionSource_spec (hparts part hpart)
  generalize part.2 = acquired at hspec hreads ⊢
  obtain ⟨hexact, rfl⟩ | ⟨hexact, strategy, -, hby⟩ := hspec
  · exact ⟨by simp [Workflow.bound, hexact], rfl⟩
  · rw [hexact]
    cases hby with
    | scope hname =>
      have hother := (List.mem_filter.mp hpolicy).2
      simp [hname] at hother
    | prior hprior => cases hprior
    | step hstep => cases hstep
    | probe hprobe hsource =>
      obtain ⟨_, _, _, _, _, _, _, _, -, -, -, -, -, -, -, -, -, rfl⟩ := probeSource_graph hsource
      exact absurd rfl (hreads _ _).2
    | clarify hsource =>
      obtain ⟨_, -, rfl⟩ := clarifySource_graph hsource
      exact ⟨by simp [clarifyGraph], rfl⟩
    | _ => exact ⟨by simp [Workflow.bound], rfl⟩

/-- An input of the name travels exactly when the name is one of the acquired ones. -/
theorem travels_iff {parts : List (ParameterPolicy × Acquired)}
    (hpolicies : parts.map Prod.fst = acquiredPolicies run.capability run.catalog)
    (hparts : ∀ part ∈ parts, part.2.source = .exactSensitiveInput ↔
      isExactIdentifierParam run.capability part.1.name run.catalog = true) {name : String}
    (hname : name ≠ "office_ids") :
    (∃ input ∈ scopeInput ::
        parts.map (fun part => (⟨part.1.name, part.1.kind, part.2.source⟩ : NodeInput)),
      input.parameter = name ∧ input.source ≠ .exactSensitiveInput) ↔ run.IsInput name := by
  unfold IsInput
  rw [← hpolicies]
  constructor
  · rintro ⟨input, hinput, rfl, htravels⟩
    obtain rfl | hin := List.mem_cons.mp hinput
    · exact absurd rfl hname
    · obtain ⟨part, hpart, rfl⟩ := List.mem_map.mp hin
      exact ⟨⟨part.1, List.mem_map_of_mem hpart, rfl⟩,
        eq_false_of_ne_true fun hexact => htravels ((hparts part hpart).mpr hexact)⟩
  · rintro ⟨⟨policy, hmem, rfl⟩, hexact⟩
    obtain ⟨part, hpart, rfl⟩ := List.mem_map.mp hmem
    refine ⟨_, List.mem_cons_of_mem _ (List.mem_map.mpr ⟨part, hpart, rfl⟩), rfl, ?_⟩
    intro hsource
    rw [(hparts part hpart).mp hsource] at hexact
    cases hexact

theorem not_isInput_offices (run : CarriedPlan) : ¬ run.IsInput "office_ids" := by
  rintro ⟨⟨policy, hpolicy, hname⟩, -⟩
  have hacquired := (List.mem_filter.mp hpolicy).2
  simp [hname] at hacquired

/-- The runner binds the offices and leaves the other inputs open. -/
theorem bindings_get? (run : CarriedPlan) (name : String) : Assoc.get? run.bindings name =
    if name = "office_ids" then some (officeIdsJson run.principal.officeIds)
    else if run.IsInput name then some .null
    else none := by
  obtain ⟨parts, hpolicies, hinputs, hparts⟩ := run.exists_inputs
  have hbound := run.bound
  unfold bindingsFor at hbound
  rw [hinputs] at hbound
  by_cases hname : name = "office_ids"
  · rw [bindInputs_get? (officeIdsJson run.principal.officeIds) hbound, if_pos, if_pos hname]
    · exact ⟨scopeInput, List.mem_cons_self, hname.symm, by decide⟩
    · intro input hinput hinputName htravels
      obtain rfl | hin := List.mem_cons.mp hinput
      · exact scope_value hbound
      · obtain ⟨part, hpart, rfl⟩ := List.mem_map.mp hin
        refine absurd ⟨⟨part.1, hpolicies ▸ List.mem_map_of_mem hpart, hinputName.trans hname⟩, ?_⟩
          run.not_isInput_offices
        rw [← hname, ← hinputName]
        exact eq_false_of_ne_true fun hexact => htravels ((hparts part hpart).1.mpr hexact)
  · have htravels := travels_iff hpolicies (fun part hpart => (hparts part hpart).1) hname
    rw [bindInputs_get? .null hbound, if_neg hname]
    · exact if_congr htravels rfl rfl
    · intro input hinput hinputName _
      obtain rfl | hin := List.mem_cons.mp hinput
      · exact absurd hinputName.symm hname
      · obtain ⟨part, hpart, rfl⟩ := List.mem_map.mp hin
        exact (hparts part hpart).2

/-- What the executor builds holds the offices and, for each input, the planned value or null. -/
theorem built_get? (run : CarriedPlan) {params : Params} (hparams : run.plan.params = .obj params)
    (hvalues : ∀ member ∈ params, member.2.isNull = false) (name : String) :
    Assoc.get? (fillOpenBindings run.bindings (resolvedParams run.plan)) name =
      if name = "office_ids" then some (officeIdsJson run.principal.officeIds)
      else if run.IsInput name then some ((Assoc.get? params name).getD .null)
      else none := by
  have hresolved : resolvedParams run.plan = params := by
    rw [resolvedParams, hparams]
    exact List.filter_eq_self.mpr fun member hmember => by simp [hvalues member hmember]
  rw [fillOpenBindings_get?, hresolved, run.bindings_get?]
  split_ifs
  · rfl
  · rfl
  · rfl

end Planned

/-- The executor's plan is built from what is filled in, and its recipe resolves when the
planned parameters are among these. -/
theorem build_eq_ok (run : CarriedPlan) {built : ExecutionPlan} :
    buildQueryRequest run.isDecimal (ownRequest run.node run.capability.id run.bindings) run.catalog
        (resolvedParams run.plan) = .ok built ↔
      ∃ selection, recipeSelection run.isDecimal run.catalog run.capability
          (.obj (fillOpenBindings run.bindings (resolvedParams run.plan))) = .ok selection ∧
        built = ⟨run.capability.domain, run.capability.id, run.capability.queryId, selection,
          run.capability.outputMode,
          .obj (fillOpenBindings run.bindings (resolvedParams run.plan))⟩ := by
  have hlisted := List.mem_of_find?_eq_some run.approved
  have hfound : (run.catalog.capabilities.find? fun other =>
      other.id = (ownRequest run.node run.capability.id run.bindings).capabilityId) =
        some run.capability :=
    find?_eq_some_of_nodup (KnowledgeValidator.validate_capability_ids run.valid) hlisted
  simp only [buildQueryRequest, hfound, bind_eq_ok_iff, okOr_eq_ok, pure_eq_ok,
    Option.some.injEq, exists_eq_left']
  exact exists_congr fun selection => and_congr_right fun _ => eq_comm

theorem recipeSelection_extends {isDecimal : String → Bool} {catalog : KnowledgeCatalog}
    {capability : CapabilityKnowledge} {params others : Json}
    {selection : Option DatasetSelection} (hparams : Extends params others)
    (hobject : isObject others = true)
    (h : plannedSelection isDecimal catalog capability params = .ok selection) :
    recipeSelection isDecimal catalog capability others = .ok selection := by
  unfold plannedSelection at h
  unfold recipeSelection
  cases hrecipe : capability.datasetRecipe with
  | none =>
    rw [hrecipe] at h
    exact h
  | some recipe =>
    rw [hrecipe] at h
    simp only [bind_eq_ok_iff, okOr_eq_ok, pure_eq_ok] at h ⊢
    obtain ⟨dataset, hdataset, resolved, hresolved, rfl⟩ := h
    exact ⟨dataset, hdataset, resolved, resolveRecipe_extends hparams hobject hresolved, rfl⟩

/-- The workflow carries the plan exactly when every planned value is the offices as authorized
or belongs to a policy the compiler makes an input for. -/
theorem carries_iff_kept (run : CarriedPlan) : run.Carries ↔ run.Kept := by
  obtain ⟨params, hparams, hplanned, hselection⟩ := run.exists_params
  have hvalues := paramsFromVerified_isNull hplanned
  have hsupplies : ∀ name value, run.plan.params.get? name = some value ↔
      Supplies run.catalog run.facts run.capability.parameterPolicies run.ctx run.query.parameters
        name value := by
    intro name value
    rw [hparams, Json.get?_obj]
    exact paramsFromVerified_get? hplanned
  have hbuilt := run.built_get? hparams hvalues
  constructor
  · rintro ⟨built, hbuild, hcarried⟩ name value hsupplied
    obtain ⟨selection, -, rfl⟩ := run.build_eq_ok.mp hbuild
    have hheld := (hsupplies name value).mpr hsupplied
    have hmember : (name, value) ∈ params := by
      rw [hparams, Json.get?_obj] at hheld
      exact Assoc.mem_of_get?_eq_some hheld
    have hkept := hcarried.kept name value hheld (hvalues _ hmember)
    rw [Json.get?_obj, hbuilt] at hkept
    split_ifs at hkept with hname hinput
    · exact Or.inr ⟨hname, (Option.some.inj hkept).symm⟩
    · exact Or.inl hinput
  · intro hkept
    have hextends : Extends run.plan.params
        (.obj (fillOpenBindings run.bindings (resolvedParams run.plan))) := by
      intro name value hheld
      rw [Json.get?_obj, hbuilt]
      obtain hinput | ⟨hname, hvalue⟩ := hkept name value ((hsupplies name value).mp hheld)
      · have hname : name ≠ "office_ids" := by
          rintro rfl
          exact run.not_isInput_offices hinput
        rw [hparams, Json.get?_obj] at hheld
        rw [if_neg hname, if_pos hinput, hheld]
        rfl
      · rw [if_pos hname, hvalue]
    rw [← hparams] at hselection
    refine ⟨_, run.build_eq_ok.mpr ⟨_, recipeSelection_extends hextends rfl hselection, rfl⟩,
      ?_, ?_, rfl⟩
    · intro name value hheld _
      exact hextends name value hheld
    · intro name value hheld hnull
      rw [Json.get?_obj, hbuilt] at hheld
      split_ifs at hheld with hname hinput
      · exact Or.inr ⟨hname, (Option.some.inj hheld).symm⟩
      · left
        rw [hparams, Json.get?_obj]
        obtain rfl := Option.some.inj hheld
        cases hfound : Assoc.get? params name with
        | none =>
          rw [hfound] at hnull
          cases hnull
        | some found => rfl

end CarriedPlan

/-! The newest clients, which may be narrowed to one named office. -/

namespace NamedOffice

def capability : CapabilityKnowledge :=
  { NameLookup.capability with
    id := "client_list_recent"
    queryId := "client.client_list_recent"
    requestShape := ⟨.list, .client, .none, .list, .clientIdentity⟩
    displayName := some "Client List by Office, Newest First"
    description := some "List active clients, optionally narrowed to one named office."
    metrics := ["client.client_lifecycle_count"]
    examples := ["Show me all clients from Head Office."]
    defaultLimit := some 50
    guards := ⟨some 200, none⟩
    parameterPolicies :=
      [⟨"office_ids", .integerArray, false, some .authorizedScope, false, false, none, false, [],
          none⟩,
        ⟨"limit", .integer, false, some .unbounded, false, true, some 200, false, [], none⟩,
        ⟨"office_name", .string, false, none, false, true, none, false, [], none⟩] }

def query : QueryKnowledge where
  id := "client.client_list_recent"
  database := "fineract"
  sqlFile := "queries/client/client_list_recent.sql"
  dataAreas := ["client_foundation"]
  parameters :=
    [⟨"office_ids", "array_bigint", true, some "authorized_scope"⟩,
      ⟨"limit", "integer", true, none⟩, ⟨"office_name", "string", false, none⟩]
  outputFields := [⟨"client_id", "bigint", .publicBusiness⟩,
    ⟨"client_display_name", "string", .pii⟩, ⟨"office_name", "string", .publicBusiness⟩]
  timeoutMs := some 3000

def limitInput : ParameterInputKnowledge where
  id := "limit"
  parameters := ["limit"]
  fieldType := .integer
  label := "Number of records"
  helpText := none
  required := true
  validation := ⟨some 1, none, none, none⟩

def officeInput : ParameterInputKnowledge where
  id := "office_name"
  parameters := ["office_name"]
  fieldType := .text
  label := "Office name"
  helpText := none
  required := true
  validation := ⟨none, none, some 200, none⟩

def catalog : KnowledgeCatalog :=
  { NameLookup.catalog with
    metrics := [⟨"client.client_lifecycle_count", none, some "client", ["client_foundation"],
      [.str "query"], []⟩]
    capabilities := [capability]
    queries := [query]
    parameterInputs := [limitInput, officeInput]
    parameterBindings := [("limit", [.limitValue]), ("office_name", [.office])] }

def sql : String :=
  "SELECT c.id AS client_id, c.display_name AS client_display_name, o.name AS office_name " ++
    "FROM m_client c JOIN m_office o ON o.id = c.office_id " ++
    "WHERE c.office_id = ANY($1::bigint[]) " ++
    "AND ($3::text IS NULL OR lower(o.name) = lower($3::text)) ORDER BY c.id DESC LIMIT $2"

def files (path : List String × String) : Option String :=
  if path = (["", "repo"], query.sqlFile) then some sql else none

/-- "Show me all clients from Head Office." -/
def extraction : DeterministicExtraction :=
  ⟨AssistantConstraints.empty, [⟨.office, "Head Office", none⟩], none⟩

def intent : AssistantIntent where
  intent := .dataLookup
  domain := .client
  requestShape := ⟨.list, .client, .none, .list, .clientIdentity⟩
  canonicalQueryEn := "Show me all clients from Head Office."
  entities := []
  constraints := AssistantConstraints.empty
  source := none

def plan : ExecutionPlan where
  domain := "client"
  capability := "client_list_recent"
  queryId := "client.client_list_recent"
  datasetSelection := none
  outputMode := "list"
  params := .obj [("limit", .int 10), ("office_name", .str "Head Office")]

def budgets : WorkflowBudgets := ⟨30000, 1000, 5, 2, 2, 0⟩

/-- The office is no input of the query. -/
def node : WorkflowNode :=
  executeNode capability catalog budgets [scopeInput, ⟨"limit", .integer, .catalogDefault⟩]

def workflow : ExecutionWorkflow :=
  capabilityWorkflow capability catalog 1 2 budgets
    ⟨[scopeInput, ⟨"limit", .integer, .catalogDefault⟩], [], []⟩

def principal : PrincipalContext := ⟨7, "USER", ["client_list_recent"], [1], true⟩

def run : CarriedPlan where
  toLowercase := Text.asciiLower
  isDecimal := fun _ => false
  catalog := catalog
  files := files
  valid := by decide +kernel
  capability := capability
  approved := by decide +kernel
  query := query
  declared := by decide +kernel
  intent := intent
  extraction := some extraction
  ctx := none
  message := none
  plan := plan
  planned := by decide +kernel
  workflowId := 1
  catalogVersion := 2
  budgets := budgets
  workflow := workflow
  compiled := by decide +kernel
  node := node
  node_mem := by simp [workflow, capabilityWorkflow, node]
  node_id := rfl
  reads_no_node := by simp [node, executeNode, scopeInput]
  principal := principal
  runs := []
  bindings := [("office_ids", .arr [.int 1]), ("limit", .null)]
  bound := rfl

end NamedOffice

/-- The report the user narrowed to an office is built without it. -/
theorem named_office_lost : ¬ NamedOffice.run.Carries := by
  rintro ⟨built, hbuild, hcarried⟩
  have hbuilt : buildQueryRequest NamedOffice.run.isDecimal
      (ownRequest NamedOffice.node "client_list_recent" NamedOffice.run.bindings)
      NamedOffice.catalog (resolvedParams NamedOffice.plan) =
    .ok { NamedOffice.plan with
      params := .obj [("office_ids", .arr [.int 1]), ("limit", .int 10)] } := by
    decide +kernel
  obtain rfl := Except.ok.inj (hbuilt.symm.trans hbuild)
  have hlost := hcarried.kept "office_name" (.str "Head Office") (by decide) (by decide)
  cases hlost

end FineractReports.Execution
