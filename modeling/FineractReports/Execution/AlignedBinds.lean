import FineractReports.Execution.BindPositions
import FineractReports.Execution.StatementSafety

/-!
# Bound values and placeholders

An issued statement has a value for every placeholder, in its place, exactly when no
declared parameter is a sensitive one, the authored texts name the placeholders that are
bound and no other, and no filter is selected twice with different values.
-/

namespace FineractReports.Execution

open Dataset SqlSafety

/-- A plan of a validated catalog that got as far as issuing its statement. -/
structure IssuedPlan (Number : Type) where
  parseDate : String → Except String NaiveDate
  parseDecimal : String → Except String Number
  toLowercase : String → String
  disk : Disk
  catalog : KnowledgeCatalog
  valid : KnowledgeValidator.validate catalog (filesOf disk) toLowercase = .ok ()
  plan : ExecutionPlan
  planned : ∀ selection, plan.datasetSelection = some selection → ∃ recipe dataset,
    (catalog.datasets.find? fun dataset => dataset.id = recipe.datasetId) = some dataset ∧
      resolveRecipe (fun text => (parseDecimal text).isOk) dataset plan.params recipe =
        .ok selection
  policy : PolicyDecision
  limits : ExecutionLimits
  sensitiveIdentifier : Option String
  statement : Statement
  binds : List (BindValue Number)
  issued : issueStatement parseDate parseDecimal disk catalog plan policy limits
    sensitiveIdentifier = .ok (statement, binds)

namespace IssuedPlan

variable {Number : Type} (run : IssuedPlan Number)

/-- The value of a declared parameter of the statement. -/
def declaredValue (parameter : QueryParameter) : Except String (BindValue Number) :=
  parameterBind run.parseDate run.parseDecimal run.plan run.policy
    (limitParam run.statement.parameters)
    (fetchLimit run.plan run.catalog run.limits run.statement.parameters) parameter

/-- The value a filter has at one of the placeholders of its operator. -/
def filterValue (slot : FilterSlot) (operator : FilterOperator) (value : Option Json) (index : ℕ) :
    Except String (BindValue Number) :=
  bindDatasetValue run.parseDate run.parseDecimal
    ⟨slot.kind, operator, valuePart operator value index⟩

/-- The value is bound from the reserved placeholder on, both bounds of a range. -/
def BoundAt (bind : FilterBind) (slot : FilterSlot) (value : Option Json) : Prop :=
  ∀ index < bind.operator.placeholders, ∃ bound,
    run.filterValue slot bind.operator value index = .ok bound ∧
      run.binds[bind.placeholder - 1 + index]? = some bound

/-- What has to be bound at a reserved placeholder: the sensitive identifier, the value
selected for the slot and the operator, or NULL when none is selected. -/
structure FilterBound (selection : DatasetSelection) (bind : FilterBind) (slot : FilterSlot) :
    Prop where
  identifier : slot.inputPolicy = .exactIdentifier → ∃ identifier,
    run.sensitiveIdentifier = some identifier ∧
      run.binds[bind.placeholder - 1]? = some (.string (some identifier))
  selected : slot.inputPolicy = .ordinary → ∀ filter ∈ selection.filters,
    filter.filterId = slot.id → filter.operator = bind.operator →
      run.BoundAt bind slot (some filter.value)
  inactive : slot.inputPolicy = .ordinary → (∀ filter ∈ selection.filters,
    filter.filterId = slot.id → filter.operator ≠ bind.operator) → run.BoundAt bind slot none

/-- The statement a selection composes, with the placeholders it reserves. -/
def Composes (selection : DatasetSelection) (dataset : DatasetKnowledge) (shape : ShapeOption)
    (source : String) (fragment : Option String) (composed : ComposedSql) : Prop :=
  datasetOf run.catalog selection = .ok dataset ∧ dataset.shape selection.shapeId = some shape ∧
    readApprovedSql run.disk run.catalog dataset.sourceSql = .ok source ∧
    readFragment run.disk run.catalog shape = .ok fragment ∧
    compose dataset selection.shapeId selection.orderById source fragment = .ok composed

/-- Every value stands at its placeholder and every placeholder has its value. -/
structure BindsMatch : Prop where
  count : run.binds.length = highestPlaceholder run.statement.sql
  declared : ∀ (index : ℕ) (parameter : QueryParameter),
    run.statement.parameters[index]? = some parameter →
      ∃ value, run.declaredValue parameter = .ok value ∧ run.binds[index]? = some value
  filters : ∀ selection, run.plan.datasetSelection = some selection →
    ∀ dataset shape source fragment composed,
      run.Composes selection dataset shape source fragment composed →
        (∀ filter ∈ selection.filters, ∃ bind ∈ composed.filterBinds,
          bind.filterId = filter.filterId ∧ bind.operator = filter.operator) ∧
        ∀ bind ∈ composed.filterBinds, ∀ slot ∈ dataset.filters, slot.id = bind.filterId →
          run.FilterBound selection bind slot

/-- The authored texts name the last declared placeholder, unless filters follow it, and
none after the reserved ones. -/
def NamesPlaceholders (numbers : List ℕ) (declared reserved : ℕ) : Prop :=
  (∀ number ∈ numbers, number ≤ declared + reserved) ∧
    (reserved = 0 → declared = 0 ∨ declared ∈ numbers)

/-- Filters selected for one slot and one operator have one value. -/
def SameValues (selection : DatasetSelection) (dataset : DatasetKnowledge) : Prop :=
  ∀ slot ∈ dataset.filters, ∀ filter ∈ selection.filters, ∀ other ∈ selection.filters,
    filter.filterId = slot.id → other.filterId = slot.id → filter.operator = other.operator →
      ∀ index < filter.operator.placeholders,
        run.filterValue slot filter.operator (some filter.value) index =
          run.filterValue slot other.operator (some other.value) index

/-- No declared parameter is filled from the sensitive input. -/
def NoTransient (parameters : List QueryParameter) : Prop :=
  ∀ parameter ∈ parameters, isTransient parameter = false

/-- A scanned file names no number the scan did not read; any other names its parameters. -/
def AlignedQuery (query : QueryKnowledge) : Prop :=
  NoTransient query.parameters ∧
    ∀ sql, readApprovedSql run.disk run.catalog query.sqlFile = .ok sql →
      if SamePath run.catalog query then ∀ number ∈ Text.numbersAfter '$' sql.toList,
        number < 2 ^ 64
      else NamesPlaceholders (Text.numbersAfter '$' sql.toList) query.parameters.length 0

def AlignedDataset (selection : DatasetSelection) : Prop :=
  ∀ dataset shape source fragment composed,
    run.Composes selection dataset shape source fragment composed →
      NoTransient (shape.parametersOf dataset) ∧
      NamesPlaceholders
        (Text.numbersAfter '$' source.toList ++ Text.numbersAfter '$' (fragment.getD "").toList)
        (shape.parametersOf dataset).length (reservedCount dataset.filters) ∧
      run.SameValues selection dataset

def Aligned : Prop :=
  match run.plan.datasetSelection with
  | none => ∀ query, (run.catalog.queries.find? fun query => query.id = run.plan.queryId) =
      some query → run.AlignedQuery query
  | some selection => run.AlignedDataset selection

/-! ### The parts of an issued statement -/

section Parts

variable {run}

theorem issued_spec (run : IssuedPlan Number) : ∃ query values filters,
    (run.catalog.queries.find? fun query => query.id = run.plan.queryId) = some query ∧
    resolveStatement run.disk run.catalog run.plan query run.limits.defaultTimeoutMs =
      .ok run.statement ∧
    bindParameters run.parseDate run.parseDecimal run.plan run.policy
      (limitParam run.statement.parameters)
      (fetchLimit run.plan run.catalog run.limits run.statement.parameters)
      run.statement.parameters = .ok values ∧
    bindFilters run.parseDate run.parseDecimal run.catalog run.plan run.sensitiveIdentifier =
      .ok filters ∧ run.binds = values ++ filters := by
  have hissued := run.issued
  simp only [issueStatement, bind_eq_ok_iff, exists_unit_iff, okOr_eq_ok, pure_eq_ok,
    Prod.mk.injEq] at hissued
  obtain ⟨-, query, hquery, statement, hstatement, values, hvalues, filters, hfilters,
    rfl, hbinds⟩ :=
    hissued
  exact ⟨query, values, filters, hquery, hstatement, hvalues, hfilters, hbinds.symm⟩

/-- With a sensitive parameter there are too few values. -/
theorem noTransient_of_match {values filters : List (BindValue Number)} {reserved : ℕ}
    (hvalues : bindParameters run.parseDate run.parseDecimal run.plan run.policy
      (limitParam run.statement.parameters)
      (fetchLimit run.plan run.catalog run.limits run.statement.parameters)
      run.statement.parameters = .ok values) (hbinds : run.binds = values ++ filters)
    (hreserved : filters.length = reserved)
    (hhighest : 0 < reserved →
      run.statement.parameters.length + reserved ≤ highestPlaceholder run.statement.sql)
    (hmatch : run.BindsMatch) : NoTransient run.statement.parameters := by
  intro parameter hparameter
  rw [Bool.eq_false_iff]
  intro htransient
  have hshort := bindParameters_short hvalues hparameter htransient
  have hlength : run.binds.length = values.length + reserved := by
    rw [hbinds, List.length_append, hreserved]
  have hcount := hmatch.count
  by_cases hzero : reserved = 0
  · have hlast : run.statement.parameters.length - 1 < run.statement.parameters.length := by omega
    obtain ⟨value, -, hvalue⟩ := hmatch.declared _ _ (List.getElem?_eq_getElem hlast)
    have hbound := (List.getElem?_eq_some_iff.mp hvalue).1
    omega
  · have hle := hhighest (by omega)
    omega

/-- The highest number is the last bound one exactly when the authored texts name it so. -/
theorem highest_iff {numbers all : List ℕ} {declared reserved : ℕ}
    (hall : ∀ number, number ∈ all ↔
      number ∈ numbers ∨ (declared < number ∧ number ≤ declared + reserved)) :
    ((∀ number ∈ all, number ≤ declared + reserved) ∧
      (declared + reserved = 0 ∨ declared + reserved ∈ all)) ↔
      NamesPlaceholders numbers declared reserved := by
  unfold NamesPlaceholders
  simp only [hall]
  constructor
  · rintro ⟨hbound, hlast⟩
    refine ⟨fun number hnumber => hbound number (Or.inl hnumber), ?_⟩
    rintro rfl
    rcases hlast with hzero | hin | hbetween
    · exact Or.inl hzero
    · exact Or.inr hin
    · omega
  · rintro ⟨hbound, hlast⟩
    constructor
    · rintro number (hnumber | hbetween)
      · exact hbound number hnumber
      · exact hbetween.2
    · by_cases hzero : reserved = 0
      · subst hzero
        rcases hlast rfl with hnone | hin
        · exact Or.inl hnone
        · exact Or.inr (Or.inl hin)
      · exact Or.inr (Or.inr ⟨by omega, le_rfl⟩)

/-- Without sensitive parameters the declared values stand in their places. -/
theorem declared_bound {values filters : List (BindValue Number)}
    (hvalues : bindParameters run.parseDate run.parseDecimal run.plan run.policy
      (limitParam run.statement.parameters)
      (fetchLimit run.plan run.catalog run.limits run.statement.parameters)
      run.statement.parameters = .ok values) (hbinds : run.binds = values ++ filters)
    (hplain : NoTransient run.statement.parameters) (index : ℕ) (parameter : QueryParameter)
    (hparameter : run.statement.parameters[index]? = some parameter) :
    ∃ value, run.declaredValue parameter = .ok value ∧ run.binds[index]? = some value := by
  obtain ⟨-, heach⟩ := bindParameters_positions hvalues hplain
  obtain ⟨value, hvalue, hstands⟩ := heach index parameter hparameter
  refine ⟨value, hvalue, ?_⟩
  rw [hbinds, List.getElem?_append_left (List.getElem?_eq_some_iff.mp hstands).1]
  exact hstands

end Parts

section Query

variable {run}

theorem query_aligned {query : QueryKnowledge}
    (hselection : run.plan.datasetSelection = none)
    (hquery : (run.catalog.queries.find? fun query => query.id = run.plan.queryId) = some query) :
    run.BindsMatch ↔ run.AlignedQuery query := by
  obtain ⟨found, values, filters, hfound, hresolved, hvalues, hfilters, hbinds⟩ := run.issued_spec
  obtain rfl := Option.some.inj (hquery.symm.trans hfound)
  rw [resolveStatement, hselection] at hresolved
  simp only [queryStatement, bind_eq_ok_iff, pure_eq_ok] at hresolved
  obtain ⟨sql, hsql, hstatement⟩ := hresolved
  have hparameters : run.statement.parameters = query.parameters := by rw [← hstatement]
  have htext : run.statement.sql = sql := by rw [← hstatement]
  rw [bindFilters, hselection] at hfilters
  obtain rfl : [] = filters := Except.ok.inj hfilters
  have hhighest : highestPlaceholder sql = query.parameters.length ↔
      if SamePath run.catalog query then
        ∀ number ∈ Text.numbersAfter '$' sql.toList, number < 2 ^ 64
      else NamesPlaceholders (Text.numbersAfter '$' sql.toList) query.parameters.length 0 := by
    split_ifs with hsame
    · have hvalid := KnowledgeValidator.validate_query run.valid (List.mem_of_find?_eq_some hquery)
      exact highestPlaceholder_scanned
        (KnowledgeValidator.validateQuery_sql hvalid (readApprovedSql_scanned hsame hsql))
    · have hall : ∀ number, number ∈ Text.numbersAfter '$' sql.toList ↔
          number ∈ Text.numbersAfter '$' sql.toList ∨
            (query.parameters.length < number ∧ number ≤ query.parameters.length + 0) := by
        intro number
        rw [or_iff_left (by omega)]
      rw [highestPlaceholder_eq, ← highest_iff hall, Nat.add_zero]
  constructor
  · intro hmatch
    have hplain := noTransient_of_match hvalues hbinds List.length_nil (by omega) hmatch
    rw [hparameters] at hplain
    refine ⟨hplain, fun other hother => ?_⟩
    obtain rfl := Except.ok.inj (hsql.symm.trans hother)
    rw [← hhighest, ← htext, ← hmatch.count, hbinds, List.append_nil, ← hparameters]
    exact (bindParameters_positions hvalues (hparameters ▸ hplain)).1
  · rintro ⟨hplain, hnames⟩
    rw [← hparameters] at hplain
    refine ⟨?_, declared_bound hvalues hbinds hplain, ?_⟩
    · rw [htext, hhighest.mpr (hnames sql hsql), hbinds, List.append_nil, ← hparameters]
      exact (bindParameters_positions hvalues hplain).1
    · intro selection hsome
      rw [hselection] at hsome
      cases hsome

end Query

section Dataset

variable {run} {selection : DatasetSelection} {dataset : DatasetKnowledge} {shape : ShapeOption}
  {source : String} {fragment : Option String} {composed : ComposedSql}

/-- What a statement with a selection is composed of. -/
theorem composes_of_resolved {query : QueryKnowledge} {statement : Statement}
    {defaultTimeoutMs : UInt64} (hselection : run.plan.datasetSelection = some selection)
    (h : resolveStatement run.disk run.catalog run.plan query defaultTimeoutMs = .ok statement) :
    ∃ dataset shape source fragment composed,
      run.Composes selection dataset shape source fragment composed ∧
        statement.sql = composed.sql ∧ statement.parameters = shape.parametersOf dataset := by
  rw [resolveStatement, hselection] at h
  simp only [datasetStatement, bind_eq_ok_iff, okOr_eq_ok, pure_eq_ok] at h
  obtain ⟨dataset, hdataset, shape, hshape, source, hsource, fragment, hfragment, composed,
    hcompose, rfl⟩ := h
  exact ⟨dataset, shape, source, fragment, composed,
    ⟨hdataset, hshape, hsource, hfragment, hcompose⟩, rfl, rfl⟩

theorem Composes.unique {otherDataset : DatasetKnowledge} {otherShape : ShapeOption}
    {otherSource : String} {otherFragment : Option String} {otherComposed : ComposedSql}
    (h : run.Composes selection dataset shape source fragment composed)
    (h' : run.Composes selection otherDataset otherShape otherSource otherFragment otherComposed) :
    otherDataset = dataset ∧ otherShape = shape ∧ otherSource = source ∧
      otherFragment = fragment ∧ otherComposed = composed := by
  obtain ⟨hdataset, hshape, hsource, hfragment, hcompose⟩ := h
  obtain ⟨hdataset', hshape', hsource', hfragment', hcompose'⟩ := h'
  obtain rfl := Except.ok.inj (hdataset.symm.trans hdataset')
  obtain rfl := Option.some.inj (hshape.symm.trans hshape')
  obtain rfl := Except.ok.inj (hsource.symm.trans hsource')
  obtain rfl := Except.ok.inj (hfragment.symm.trans hfragment')
  obtain rfl := Except.ok.inj (hcompose.symm.trans hcompose')
  exact ⟨rfl, rfl, rfl, rfl, rfl⟩

/-- The selection is one a recipe resolved on this dataset. -/
theorem selected_slots (hselection : run.plan.datasetSelection = some selection)
    (h : run.Composes selection dataset shape source fragment composed) :
    ∀ filter ∈ selection.filters, ∃ slot ∈ dataset.filters, slot.id = filter.filterId ∧
      filter.operator ∈ slot.operators ∧ slot.inputPolicy = .ordinary := by
  obtain ⟨recipe, planned, hfound, hrecipe⟩ := run.planned selection hselection
  obtain ⟨hid, hrecipeId, hslots⟩ := resolveRecipe_filters hrecipe
  have hdataset := h.1
  rw [datasetOf, okOr_eq_ok, hid, hrecipeId, hfound] at hdataset
  obtain rfl := Option.some.inj hdataset
  exact hslots

theorem dataset_valid (h : run.Composes selection dataset shape source fragment composed) :
    (dataset.filters.map (·.id)).Nodup ∧
      ∀ slot ∈ dataset.filters, slot.inputPolicy = .exactIdentifier →
        slot.kind = "string" ∧ slot.operators = [.eq] := by
  have hdataset := h.1
  rw [datasetOf, okOr_eq_ok] at hdataset
  exact KnowledgeValidator.validateDataset_filters
    (KnowledgeValidator.validate_dataset run.valid (List.mem_of_find?_eq_some hdataset))

/-- The numbers of the statement: the authored ones and the reserved ones. -/
theorem composed_numbers (h : run.Composes selection dataset shape source fragment composed)
    (number : ℕ) : number ∈ Text.numbersAfter '$' composed.sql.toList ↔
      number ∈ Text.numbersAfter '$' source.toList ++
          Text.numbersAfter '$' (fragment.getD "").toList ∨
        ((shape.parametersOf dataset).length < number ∧
          number ≤ (shape.parametersOf dataset).length + reservedCount dataset.filters) := by
  obtain ⟨-, hshape, -, hfragment, hcompose⟩ := h
  obtain ⟨hdegenerate, rfl⟩ | ⟨-, fragmentSql, last, predicates, binds, orderBy, rfl, hfilters,
    horder, rfl⟩ := compose_spec hcompose hshape
  · have hnone : fragment = none := by
      rw [readFragment, hdegenerate.1] at hfragment
      exact (Except.ok.inj hfragment).symm
    have hzero : reservedCount dataset.filters = 0 := by
      rw [hdegenerate.2.1]
      rfl
    have hempty : Text.numbersAfter '$' (fragment.getD "").toList = [] := by
      rw [hnone]
      rfl
    rw [hempty, List.append_nil, or_iff_left (by omega)]
  · obtain ⟨-, htext, hexprs⟩ := composeFilters_text hfilters
    have hlast := composeFilters_last hfilters
    rw [numbers_composed htext (predicateExprs_valid hexprs) (orderByClause_text horder),
      List.mem_append, hlast, Option.getD_some]
    tauto

/-- At every reserved placeholder the values of its slot and operator are bound. -/
structure Bound (run : IssuedPlan Number) (selection : DatasetSelection) (slot : FilterSlot)
    (bind : FilterBind) (own : List DatasetBindValue) : Prop where
  composed : operatorBinds selection run.sensitiveIdentifier slot bind.operator = .ok own
  inPlace : ∀ (index : ℕ) (value : DatasetBindValue), own[index]? = some value → ∃ bound,
    bindDatasetValue run.parseDate run.parseDecimal value = .ok bound ∧
      run.binds[bind.placeholder - 1 + index]? = some bound

/-- There is a value for every reserved placeholder. -/
theorem filters_length (h : run.Composes selection dataset shape source fragment composed)
    {filters : List (BindValue Number)} (hselection : run.plan.datasetSelection = some selection)
    (hfilters : bindFilters run.parseDate run.parseDecimal run.catalog run.plan
      run.sensitiveIdentifier = .ok filters) :
    filters.length = reservedCount dataset.filters := by
  obtain ⟨hdataset, hshape, -, -, hcompose⟩ := h
  rw [bindFilters, hselection] at hfilters
  simp only [hdataset, bind_eq_ok_iff, Except.ok.injEq, exists_eq_left'] at hfilters
  obtain ⟨composedValues, hcomposed, hconverted⟩ := hfilters
  have hlength := (collectAll_single hconverted).1
  obtain ⟨hdegenerate, rfl⟩ | ⟨-, fragmentSql, last, predicates, reserved, orderBy, -, hreserve, -,
    rfl⟩ := compose_spec hcompose hshape
  · rw [composeDatasetBinds, hdegenerate.2.1] at hcomposed
    obtain rfl : [] = composedValues := Except.ok.inj hcomposed
    rw [hlength, hdegenerate.2.1]
    rfl
  · have hlast := (composeFilters_places hreserve hcomposed).1
    have hcount := composeFilters_last hreserve
    omega

/-- The values of the filters follow those of the declared parameters. -/
theorem filters_bound (h : run.Composes selection dataset shape source fragment composed)
    {values filters : List (BindValue Number)}
    (hselection : run.plan.datasetSelection = some selection)
    (hfilters : bindFilters run.parseDate run.parseDecimal run.catalog run.plan
      run.sensitiveIdentifier = .ok filters)
    (hbinds : run.binds = values ++ filters)
    (hvalues : values.length = (shape.parametersOf dataset).length) :
    (∀ bind ∈ composed.filterBinds, ∃ slot ∈ dataset.filters, bind.filterId = slot.id ∧
        bind.operator ∈ slot.operators ∧ ∃ own, Bound run selection slot bind own) ∧
      ∀ slot ∈ dataset.filters, ∀ operator ∈ slot.operators, ∃ bind ∈ composed.filterBinds,
        bind.filterId = slot.id ∧ bind.operator = operator := by
  obtain ⟨hdataset, hshape, -, -, hcompose⟩ := h
  rw [bindFilters, hselection] at hfilters
  simp only [hdataset, bind_eq_ok_iff, Except.ok.injEq, exists_eq_left'] at hfilters
  obtain ⟨composedValues, hcomposed, hconverted⟩ := hfilters
  have heach := (collectAll_single hconverted).2
  obtain ⟨hdegenerate, rfl⟩ | ⟨-, fragmentSql, last, predicates, reserved, orderBy, -, hreserve, -,
    rfl⟩ := compose_spec hcompose hshape
  · rw [hdegenerate.2.1]
    simp
  · obtain ⟨-, hplaces, hall⟩ := composeFilters_places hreserve hcomposed
    refine ⟨fun bind hbind => ?_, hall⟩
    obtain ⟨slot, hslot, hid, hoperator, offset, own, hplaceholder, hown, hstands⟩ :=
      hplaces bind hbind
    refine ⟨slot, hslot, hid, hoperator, own, hown, fun index value hvalue => ?_⟩
    obtain ⟨bound, hbound, hin⟩ := heach (offset + index) value (hstands index value hvalue)
    refine ⟨bound, hbound, ?_⟩
    rw [hbinds, hplaceholder, List.getElem?_append_right (by omega), ← hin]
    congr 1
    omega

end Dataset

section Slots

variable {run} {selection : DatasetSelection} {slot : FilterSlot} {bind : FilterBind}
  {own : List DatasetBindValue}

theorem operatorBinds_ordinary {sensitiveIdentifier : Option String} {operator : FilterOperator}
    (hslot : slot.inputPolicy = .ordinary)
    (h : operatorBinds selection sensitiveIdentifier slot operator = .ok own) {index : ℕ}
    (hindex : index < operator.placeholders) : own[index]? = some ⟨slot.kind, operator,
      valuePart operator ((selectedFilter selection slot operator).map (·.value)) index⟩ := by
  have hnone : sensitiveValue sensitiveIdentifier slot = none := by
    rw [sensitiveValue, if_neg (by simp [hslot])]
  simp only [operatorBinds, bind_eq_ok_iff, exists_unit_iff, hnone, Option.none_or] at h
  obtain ⟨-, h⟩ := h
  cases operator with
  | between =>
    obtain rfl := pure_eq_ok.mp h
    have htwo : index = 0 ∨ index = 1 := by
      simp only [FilterOperator.placeholders] at hindex
      omega
    rcases htwo with rfl | rfl <;> rfl
  | _ =>
    obtain rfl := pure_eq_ok.mp h
    obtain rfl : index = 0 := by
      simp only [FilterOperator.placeholders] at hindex
      omega
    rfl

theorem operatorBinds_exact {sensitiveIdentifier : Option String}
    (hslot : slot.inputPolicy = .exactIdentifier)
    (h : operatorBinds selection sensitiveIdentifier slot .eq = .ok own) :
    ∃ identifier, sensitiveIdentifier = some identifier ∧
      own = [⟨slot.kind, .eq, some (.str identifier)⟩] := by
  simp only [operatorBinds, bind_eq_ok_iff, exists_unit_iff, failIf_eq_ok, sensitiveValue, hslot,
    if_true, true_and] at h
  obtain ⟨hsome, h⟩ := h
  obtain rfl := pure_eq_ok.mp h
  cases sensitiveIdentifier with
  | none => exact absurd rfl hsome
  | some identifier => exact ⟨identifier, rfl, rfl⟩

/-- An ordinary slot's placeholders have the value of the selected filter, if any. -/
theorem Bound.ordinary (h : Bound run selection slot bind own)
    (hslot : slot.inputPolicy = .ordinary) :
    run.BoundAt bind slot ((selectedFilter selection slot bind.operator).map (·.value)) := by
  intro index hindex
  exact h.inPlace index _ (operatorBinds_ordinary hslot h.composed hindex)

theorem filterBound_of_bound (h : Bound run selection slot bind own)
    (hexact : slot.inputPolicy = .exactIdentifier → slot.kind = "string" ∧ bind.operator = .eq)
    (hsame : ∀ filter ∈ selection.filters, ∀ other ∈ selection.filters,
      filter.filterId = slot.id → other.filterId = slot.id → filter.operator = other.operator →
        ∀ index < filter.operator.placeholders,
          run.filterValue slot filter.operator (some filter.value) index =
            run.filterValue slot other.operator (some other.value) index) :
    run.FilterBound selection bind slot := by
  constructor
  · intro hslot
    obtain ⟨hkind, hoperator⟩ := hexact hslot
    have hown := h.composed
    rw [hoperator] at hown
    obtain ⟨identifier, hidentifier, rfl⟩ := operatorBinds_exact hslot hown
    obtain ⟨bound, hbound, hin⟩ := h.inPlace 0 _ rfl
    refine ⟨identifier, hidentifier, ?_⟩
    have hstring : bindDatasetValue run.parseDate run.parseDecimal
        ⟨slot.kind, .eq, some (.str identifier)⟩ = .ok (.string (some identifier)) := by
      rw [hkind]
      rfl
    rw [hstring] at hbound
    rw [Except.ok.inj hbound]
    exact hin
  · intro hslot filter hfilter hid hoperator
    have hordinary := h.ordinary hslot
    cases hfind : selectedFilter selection slot bind.operator with
    | none =>
      have hnone := List.find?_eq_none.mp hfind filter hfilter
      simp [hid, hoperator] at hnone
    | some other =>
      have hkey := List.find?_some hfind
      simp only [decide_eq_true_eq] at hkey
      rw [hfind] at hordinary
      intro index hindex
      obtain ⟨bound, hbound, hin⟩ := hordinary index hindex
      refine ⟨bound, ?_, hin⟩
      have hvalues := hsame filter hfilter other (List.mem_of_find?_eq_some hfind) hid hkey.1
        (hoperator.trans hkey.2.symm) index (hoperator ▸ hindex)
      rw [hoperator, hkey.2] at hvalues
      rw [hvalues]
      exact hbound
  · intro hslot hinactive
    have hordinary := h.ordinary hslot
    cases hfind : selectedFilter selection slot bind.operator with
    | none =>
      rw [hfind] at hordinary
      exact hordinary
    | some other =>
      have hkey := List.find?_some hfind
      simp only [decide_eq_true_eq] at hkey
      exact absurd hkey.2 (hinactive other (List.mem_of_find?_eq_some hfind) hkey.1)

end Slots

section Main

variable {run} {selection : DatasetSelection} {dataset : DatasetKnowledge} {shape : ShapeOption}
  {source : String} {fragment : Option String} {composed : ComposedSql}

/-- A selection of matching binds has one value for each slot and operator. -/
theorem sameValues_of_match (hselection : run.plan.datasetSelection = some selection)
    (h : run.Composes selection dataset shape source fragment composed) (hmatch : run.BindsMatch) :
    run.SameValues selection dataset := by
  intro slot hslot filter hfilter other hother hid hotherId hoperator index hindex
  obtain ⟨hreserved, hbound⟩ := hmatch.filters selection hselection _ _ _ _ _ h
  obtain ⟨bind, hbind, hbindId, hbindOperator⟩ := hreserved filter hfilter
  obtain ⟨found, hfound, hfoundId, -, hordinary⟩ := selected_slots hselection h filter hfilter
  obtain rfl : found = slot :=
    List.inj_on_of_nodup_map (dataset_valid h).1 hfound hslot (hfoundId.trans hid)
  have hplaces := hbound bind hbind found hslot (hfoundId.trans hbindId.symm)
  obtain ⟨bound, hvalue, hin⟩ := hplaces.selected hordinary filter hfilter hid hbindOperator.symm
    index (hbindOperator ▸ hindex)
  obtain ⟨otherBound, hotherValue, hotherIn⟩ := hplaces.selected hordinary other hother hotherId
    (hoperator.symm.trans hbindOperator.symm) index (hbindOperator ▸ hindex)
  obtain rfl := Option.some.inj (hin.symm.trans hotherIn)
  rw [← hoperator, ← hbindOperator, hvalue, hotherValue]

theorem dataset_aligned (hselection : run.plan.datasetSelection = some selection) :
    run.BindsMatch ↔ run.AlignedDataset selection := by
  obtain ⟨query, values, filters, -, hresolved, hvalues, hfilters, hbinds⟩ := run.issued_spec
  obtain ⟨dataset, shape, source, fragment, composed, hcomposes, hsql, hparameters⟩ :=
    composes_of_resolved hselection hresolved
  have hnumbers := highest_iff (composed_numbers hcomposes)
  rw [← highestPlaceholder_eq] at hnumbers
  have hcount := filters_length hcomposes hselection hfilters
  constructor
  · intro hmatch otherDataset otherShape otherSource otherFragment otherComposed hother
    obtain ⟨rfl, rfl, rfl, rfl, rfl⟩ := hcomposes.unique hother
    have hreserved : 0 < reservedCount otherDataset.filters →
        run.statement.parameters.length + reservedCount otherDataset.filters ≤
          highestPlaceholder run.statement.sql := by
      intro hpositive
      rw [hsql, hparameters]
      apply (highestPlaceholder_eq.mp rfl).1
      rw [composed_numbers hcomposes]
      exact Or.inr ⟨by omega, le_rfl⟩
    have hplain := noTransient_of_match hvalues hbinds hcount hreserved hmatch
    have hlength := (bindParameters_positions hvalues hplain).1
    refine ⟨hparameters ▸ hplain, ?_, sameValues_of_match hselection hcomposes hmatch⟩
    rw [← hnumbers, ← hsql, ← hmatch.count, hbinds, List.length_append, hlength,
      hcount, hparameters]
  · intro haligned
    obtain ⟨hplain, hnames, hsame⟩ := haligned _ _ _ _ _ hcomposes
    have hdeclared : NoTransient run.statement.parameters := hparameters ▸ hplain
    have hlength := (bindParameters_positions hvalues hdeclared).1
    rw [hparameters] at hlength
    obtain ⟨hplaces, hall⟩ := filters_bound hcomposes hselection hfilters hbinds hlength
    refine ⟨?_, declared_bound hvalues hbinds hdeclared, ?_⟩
    · rw [hsql, hnumbers.mpr hnames, hbinds, List.length_append, hlength, hcount]
    · intro other hother otherDataset otherShape otherSource otherFragment otherComposed hcomposes'
      rw [hselection] at hother
      obtain rfl := Option.some.inj hother
      obtain ⟨rfl, rfl, rfl, rfl, rfl⟩ := hcomposes.unique hcomposes'
      constructor
      · intro filter hfilter
        obtain ⟨slot, hslot, hid, hoperator, -⟩ := selected_slots hselection hcomposes
          filter hfilter
        obtain ⟨bind, hbind, hbindId, hbindOperator⟩ := hall slot hslot _ hoperator
        exact ⟨bind, hbind, hbindId.trans hid, hbindOperator⟩
      · intro bind hbind slot hslot hid
        obtain ⟨found, hfound, hfoundId, hoperator, own, hown⟩ := hplaces bind hbind
        obtain ⟨hnodup, hexact⟩ := dataset_valid hcomposes
        obtain rfl : slot = found :=
          List.inj_on_of_nodup_map hnodup hslot hfound (hid.trans hfoundId)
        refine filterBound_of_bound hown ?_ (hsame slot hslot)
        intro hpolicy
        obtain ⟨hkind, hoperators⟩ := hexact slot hslot hpolicy
        rw [hoperators, List.mem_singleton] at hoperator
        exact ⟨hkind, hoperator⟩

/-- An issued statement has every value in its place exactly when it is aligned. -/
theorem bindsMatch_iff_aligned (run : IssuedPlan Number) : run.BindsMatch ↔ run.Aligned := by
  unfold Aligned
  cases hselection : run.plan.datasetSelection with
  | none =>
    obtain ⟨query, -, -, hquery, -⟩ := run.issued_spec
    constructor
    · intro hmatch other hother
      exact (query_aligned hselection hother).mp hmatch
    · intro haligned
      exact (query_aligned hselection hquery).mpr (haligned query hquery)
  | some selection => exact dataset_aligned hselection

end Main

end IssuedPlan

/-! A query that declares the sensitive account number between two other parameters, run
without a dataset selection. -/

namespace SkippedParameter

def query : QueryKnowledge :=
  { FineractReports.NameLookup.query with
    parameters :=
      [⟨"office_ids", "array_bigint", true, some "authorized_scope"⟩,
        ⟨"account_number", "string", false, some "transient_sensitive_input"⟩,
        ⟨"search", "string", true, none⟩] }

def catalog : KnowledgeCatalog := { FineractReports.NameLookup.catalog with queries := [query] }

def sql : String :=
  "SELECT id AS client_id, display_name FROM m_client WHERE office_id = ANY($1::bigint[]) " ++
    "AND account_no = $2::text AND display_name = $3::text"

def disk (path : List String) : Option String :=
  if path = ["", "repo", "queries", "client", "name_lookup.sql"] then some sql else none

def plan : ExecutionPlan where
  domain := "client"
  capability := "client_name_lookup"
  queryId := "client.name_lookup"
  datasetSelection := none
  outputMode := "list"
  params := .obj [("office_ids", .arr [.int 1]), ("search", .str "Alex")]

def statement : Statement where
  sql := sql
  parameters := query.parameters
  outputFields := query.outputFields
  timeoutMs := 3000
  appliedFilters := []

/-- The name is bound where the statement expects the account number. -/
def run : IssuedPlan ℤ where
  parseDate _ := .error "input contains invalid characters"
  parseDecimal _ := .error "Invalid decimal: unknown character"
  toLowercase := Text.asciiLower
  disk := disk
  catalog := catalog
  valid := by decide +kernel
  plan := plan
  planned := by
    intro selection hselection
    cases hselection
  policy := ⟨.allowed, none, [1], true⟩
  limits := ⟨3000, 50000⟩
  sensitiveIdentifier := some "000123"
  statement := statement
  binds := [.bigints (some [1]), .string (some "Alex")]
  issued := by decide +kernel

theorem value_shifted :
    buildQueryRequest (fun _ => false) UnscannedSource.request run.catalog [] = .ok run.plan ∧
      executableCapability run.catalog run.plan.capability
        = .ok FineractReports.NameLookup.capability ∧
      ¬ run.BindsMatch := by
  refine ⟨by decide +kernel, by decide +kernel, fun hmatch => ?_⟩
  have hcount : run.binds.length ≠ highestPlaceholder run.statement.sql := by decide +kernel
  exact hcount hmatch.count

end SkippedParameter

end FineractReports.Execution
