import FineractReports.Execution.Binds
import FineractReports.Execution.StatementSafety
import FineractReports.Knowledge.DatasetPlan

/-!
# Executable datasets

A valid dataset composes and binds for its enumerated combinations, unless it declares
one of the corners the static rules let through: a case-insensitive filter that is no
string equality, `in` over a type without an array bind, an ordering on a shape without
a fragment. The text of a selected date is only parsed when it is bound.
-/

namespace FineractReports.Execution

open Dataset

/-- A case-insensitive filter is a string equality. -/
def EqualsCaseless (slot : FilterSlot) : Prop :=
  slot.caseInsensitive = true → slot.kind = "string" ∧ ∀ operator ∈ slot.operators, operator = .eq

/-- A filter offers `in` only over a type that has an array bind. -/
def BindsArrays (slot : FilterSlot) : Prop :=
  .in ∈ slot.operators → slot.kind = "integer" ∨ slot.kind = "string"

section Static

variable {dataset : DatasetKnowledge} {shape : ShapeOption}

theorem validateDataset_filter (h : validateDataset dataset = .ok ()) {slot : FilterSlot}
    (hslot : slot ∈ dataset.filters) :
    slot.kind ∈ FILTER_TYPES ∧ slot.operators ≠ [] ∧ validateSqlExpr slot.expr = .ok () := by
  simp only [validateDataset, bind_eq_ok_iff, exists_unit_iff] at h
  obtain ⟨-, hfilters, -⟩ := h
  obtain ⟨seen, hchecked⟩ := forEachAfter_mem hfilters hslot
  by_cases hexact : slot.inputPolicy = .exactIdentifier
  · simp only [validateFilter, bind_eq_ok_iff, exists_unit_iff, hexact, if_true, failIf_eq_ok,
      mapError_eq_ok, not_not] at hchecked
    obtain ⟨-, hkind, hoperators, -, -, -, hexpr⟩ := hchecked
    exact ⟨hkind, hoperators, hexpr⟩
  · simp only [validateFilter, bind_eq_ok_iff, exists_unit_iff, hexact, if_false, failIf_eq_ok,
      mapError_eq_ok, not_not] at hchecked
    obtain ⟨-, hkind, hoperators, hexpr⟩ := hchecked
    exact ⟨hkind, hoperators, hexpr⟩

theorem validateDataset_shape (h : validateDataset dataset = .ok ())
    (hshape : shape ∈ dataset.shapes) :
    (∀ orderById ∈ shape.orderBy, orderById ∈ dataset.orderBy.map (·.id)) ∧
      (shape.fragment = none → dataset.filters = []) := by
  simp only [validateDataset, bind_eq_ok_iff, exists_unit_iff] at h
  obtain ⟨-, -, -, -, hshapes, -⟩ := h
  obtain ⟨seen, hchecked⟩ := forEachAfter_mem hshapes hshape
  simp only [validateShape, bind_eq_ok_iff, exists_unit_iff, failIf_eq_ok, forEach_eq_ok,
    not_not, not_and] at hchecked
  obtain ⟨-, horders, hfragment, -⟩ := hchecked
  exact ⟨horders, hfragment⟩

theorem validateDataset_orderBy (h : validateDataset dataset = .ok ()) {option : OrderByOption}
    (hoption : option ∈ dataset.orderBy) : validateSqlExpr option.expr = .ok () := by
  simp only [validateDataset, bind_eq_ok_iff, exists_unit_iff] at h
  obtain ⟨-, -, horders, -⟩ := h
  obtain ⟨seen, hchecked⟩ := forEachAfter_mem horders hoption
  simp only [validateOrderBy, bind_eq_ok_iff, exists_unit_iff, mapError_eq_ok] at hchecked
  exact hchecked.2

theorem filterCast_isSome {kind : String} (h : kind ∈ FILTER_TYPES) :
    ∃ cast, filterCast kind = some cast := by
  simp only [FILTER_TYPES, List.mem_cons, List.not_mem_nil, or_false] at h
  rcases h with rfl | rfl | rfl | rfl | rfl <;> exact ⟨_, rfl⟩

/-- A predicate composes unless it is caseless on something else than string equality. -/
theorem predicate_composes {kind : String} (hkind : kind ∈ FILTER_TYPES) (expr : String)
    (operator : FilterOperator) (caseInsensitive : Bool) (index : ℕ) :
    (∃ text, predicate expr operator kind caseInsensitive index = .ok text) ↔
      (caseInsensitive = true → kind = "string" ∧ operator = .eq) := by
  obtain ⟨cast, hcast⟩ := filterCast_isSome hkind
  simp only [predicate, bind_eq_ok_iff, okOr_eq_ok, hcast, Option.some.injEq, exists_eq_left']
  cases caseInsensitive with
  | false =>
    refine iff_of_true ?_ (by simp)
    cases operator <;> exact ⟨_, rfl⟩
  | true =>
    by_cases hcaseless : kind ≠ "string" ∨ operator ≠ .eq
    · refine iff_of_false (by simp [hcaseless]) fun h => ?_
      obtain ⟨hstring, heq⟩ := h rfl
      exact hcaseless.elim (fun hne => hne hstring) fun hne => hne heq
    · rw [not_or, not_not, not_not] at hcaseless
      simp [hcaseless]

theorem composeOperators_composes {slot : FilterSlot} (hkind : slot.kind ∈ FILTER_TYPES)
    (operators : List FilterOperator) (taken : ℕ) :
    (∃ out, composeOperators shape slot taken operators = .ok out) ↔
      (slot.caseInsensitive = true → ∀ operator ∈ operators,
        slot.kind = "string" ∧ operator = .eq) := by
  induction operators generalizing taken with
  | nil => simp [composeOperators]
  | cons operator rest ih =>
    have hfirst := predicate_composes hkind slot.expr operator slot.caseInsensitive (taken + 1)
    simp only [composeOperators, bind_eq_ok_iff, pure_eq_ok]
    constructor
    · rintro ⟨out, text, htext, rest', hrest, -⟩ hcaseless other hother
      rcases List.mem_cons.mp hother with rfl | hother
      · exact hfirst.mp ⟨text, htext⟩ hcaseless
      · exact (ih _).mp ⟨rest', hrest⟩ hcaseless other hother
    · intro h
      obtain ⟨text, htext⟩ := hfirst.mpr fun hcaseless => h hcaseless operator List.mem_cons_self
      obtain ⟨others, hothers⟩ := (ih (taken + operator.placeholders)).mpr fun hcaseless other
        hother => h hcaseless other (List.mem_cons_of_mem _ hother)
      exact ⟨_, text, htext, others, hothers, rfl⟩

/-- The filters of a valid dataset compose unless one of them is caseless without being
a string equality. -/
theorem composeFilters_composes {filters : List FilterSlot} (taken : ℕ)
    (hvalid : ∀ slot ∈ filters, slot.kind ∈ FILTER_TYPES ∧ slot.operators ≠ [] ∧
      validateSqlExpr slot.expr = .ok ()) :
    (∃ out, composeFilters dataset shape taken filters = .ok out) ↔
      ∀ slot ∈ filters, EqualsCaseless slot := by
  induction filters generalizing taken with
  | nil => simp [composeFilters]
  | cons slot rest ih =>
    obtain ⟨hkind, hnonempty, hexpr⟩ := hvalid slot List.mem_cons_self
    have hslot : EqualsCaseless slot ↔ (slot.caseInsensitive = true →
        ∀ operator ∈ slot.operators, slot.kind = "string" ∧ operator = .eq) := by
      refine forall_congr' fun _ => ⟨fun h operator hmem => ⟨h.1, h.2 operator hmem⟩, fun h => ?_⟩
      obtain ⟨operator, hmem⟩ := List.exists_mem_of_ne_nil _ hnonempty
      exact ⟨(h operator hmem).1, fun other hother => (h other hother).2⟩
    have hrest := fun taken => ih taken fun other hother => hvalid other
      (List.mem_cons_of_mem _ hother)
    simp only [composeFilters, bind_eq_ok_iff, exists_unit_iff, mapError_eq_ok, hexpr, true_and,
      pure_eq_ok, List.forall_mem_cons, hslot]
    rw [← composeOperators_composes hkind slot.operators taken]
    constructor
    · rintro ⟨out, own, hown, others, hothers, -⟩
      exact ⟨⟨own, hown⟩, (hrest _).mp ⟨others, hothers⟩⟩
    · rintro ⟨⟨own, hown⟩, hall⟩
      obtain ⟨others, hothers⟩ := (hrest own.1).mpr hall
      exact ⟨_, own, hown, others, hothers, rfl⟩

theorem orderByClause_composes (h : validateDataset dataset = .ok ())
    (hshape : shape ∈ dataset.shapes)
    {orderById : Option String} (henumerated : Enumerated shape orderById) :
    ∃ text, orderByClause dataset orderById = .ok text := by
  cases orderById with
  | none => exact ⟨_, rfl⟩
  | some id =>
    have hdeclared := (validateDataset_shape h hshape).1 id henumerated
    obtain ⟨option, hoption, hid⟩ := List.mem_map.mp hdeclared
    cases hfound : dataset.orderBy.find? fun option => option.id = id with
    | none => exact absurd hid (by simpa using List.find?_eq_none.mp hfound option hoption)
    | some found =>
      have hexpr := validateDataset_orderBy h (List.mem_of_find?_eq_some hfound)
      refine ⟨"\nORDER BY " ++ found.expr, ?_⟩
      simp only [orderByClause, DatasetKnowledge.orderByExpr, hfound, Option.map_some,
        bind_eq_ok_iff, exists_unit_iff, okOr_eq_ok, mapError_eq_ok, pure_eq_ok]
      exact ⟨_, rfl, hexpr, rfl⟩

/-- An enumerated combination of a valid dataset composes exactly when its caseless
filters are string equalities and its ordering has a fragment to follow. -/
theorem compose_composes (h : validateDataset dataset = .ok ()) {shapeId sourceSql : String}
    {orderById fragmentSql : Option String} (hshape : dataset.shape shapeId = some shape)
    (henumerated : Enumerated shape orderById)
    (hsupplied : fragmentSql.isSome = shape.fragment.isSome) :
    (∃ composed, compose dataset shapeId orderById sourceSql fragmentSql = .ok composed) ↔
      (∀ slot ∈ dataset.filters, EqualsCaseless slot) ∧
        (orderById.isSome = true → shape.fragment.isSome = true) := by
  have hmem := (shape_mem hshape).1
  have hfragment := (validateDataset_shape h hmem).2
  have hfilters : (∃ out, composeFilters dataset shape (shape.parametersOf dataset).length
      dataset.filters = .ok out) ↔ ∀ slot ∈ dataset.filters, EqualsCaseless slot :=
    composeFilters_composes _ fun slot hslot => validateDataset_filter h hslot
  simp only [compose, bind_eq_ok_iff, okOr_eq_ok, hshape, Option.some.injEq, exists_eq_left']
  by_cases hdegenerate : IsDegenerate dataset shape orderById
  · rw [if_pos hdegenerate]
    obtain ⟨-, hnone, horder⟩ := hdegenerate
    exact iff_of_true ⟨_, rfl⟩ (by simp [hnone, horder])
  · rw [if_neg hdegenerate]
    obtain ⟨order, horder⟩ := orderByClause_composes h hmem henumerated
    simp only [bind_eq_ok_iff, okOr_eq_ok, horder, Except.ok.injEq, exists_eq_left', pure_eq_ok]
    constructor
    · rintro ⟨composed, text, rfl, own, hown, -⟩
      exact ⟨hfilters.mp ⟨own, hown⟩, fun _ => hsupplied.symm⟩
    · rintro ⟨hcaseless, hordered⟩
      have hdeclared : shape.fragment.isSome = true := by
        by_contra hnone
        rw [Bool.not_eq_true, Option.isSome_eq_false_iff, Option.isNone_iff_eq_none] at hnone
        refine hdegenerate ⟨hnone, hfragment hnone, ?_⟩
        cases orderById with
        | none => rfl
        | some id => simp [hnone] at hordered
      obtain ⟨text, htext⟩ := Option.isSome_iff_exists.mp (hsupplied.trans hdeclared)
      obtain ⟨own, hown⟩ := hfilters.mpr hcaseless
      exact ⟨_, text, htext, own, hown, rfl⟩

end Static

section Binding

variable {Number : Type} {parseDate : String → Except String NaiveDate}
  {parseDecimal : String → Except String Number}

/-- The texts bound for a filter's value: a range has two of them. -/
def boundTexts (operator : FilterOperator) (value : Option Json) : List String :=
  match operator with
  | .between => (List.range 2).filterMap fun index =>
      (valuePart operator value index).bind Json.asStr?
  | _ => (value.bind Json.asStr?).toList

theorem parseSome_accepts {α β : Type} {parse : String → Except String α} (wrap : Option α → β)
    {text : Option String} : (∃ out, (parseSome parse text).map wrap = .ok out) ↔
      ∀ value, text = some value → ∃ parsed, parse value = .ok parsed := by
  cases text with
  | none => simp [parseSome]
  | some value => simp [parseSome]

/-- A scalar bind is accepted once its text parses as its type says. -/
theorem scalarBind_accepts {bind : DatasetBindValue} (hkind : bind.kind ∈ FILTER_TYPES) :
    (∃ out, scalarBind parseDate parseDecimal bind = .ok out) ↔
      ∀ text, bind.value.bind Json.asStr? = some text →
        (bind.kind = "date" → ∃ date, parseDate text = .ok date) ∧
        (bind.kind = "decimal" → ∃ number, parseDecimal text = .ok number) := by
  obtain ⟨kind, operator, value⟩ := bind
  simp only [FILTER_TYPES, List.mem_cons, List.not_mem_nil, or_false] at hkind
  rcases hkind with rfl | rfl | rfl | rfl | rfl
  · simpa [scalarBind] using parseSome_accepts (BindValue.date : _ → BindValue Number)
  · simp [scalarBind]
  · simp [scalarBind]
  · simp [scalarBind]
  · simpa [scalarBind] using parseSome_accepts (BindValue.decimal : _ → BindValue Number)

theorem arrayBind_accepts (Number : Type) {bind : DatasetBindValue} :
    (∃ out : BindValue Number, arrayBind bind = .ok out) ↔
      bind.kind = "integer" ∨ bind.kind = "string" := by
  by_cases hinteger : bind.kind = "integer"
  · simp [arrayBind, hinteger]
  · by_cases hstring : bind.kind = "string"
    · simp [arrayBind, hstring]
    · simp [arrayBind, hinteger, hstring]

/-- The texts of a selected value parse as the type of its filter says. -/
def TextsParse (parseDate : String → Except String NaiveDate)
    (parseDecimal : String → Except String Number) (kind : String) (texts : List String) : Prop :=
  ∀ text ∈ texts, (kind = "date" → ∃ date, parseDate text = .ok date) ∧
    (kind = "decimal" → ∃ number, parseDecimal text = .ok number)

variable {sensitiveIdentifier : Option String} {slot : FilterSlot}

/-- The binds of a filter and one of its operators. -/
theorem operatorBinds_accepts (parseDate : String → Except String NaiveDate)
    (parseDecimal : String → Except String Number) (selection : DatasetSelection)
    {operator : FilterOperator} (hkind : slot.kind ∈ FILTER_TYPES)
    (hexact : slot.inputPolicy = .exactIdentifier →
      slot.kind = "string" ∧ operator = .eq ∧ sensitiveIdentifier.isSome = true) :
    (∃ binds, operatorBinds selection sensitiveIdentifier slot operator = .ok binds ∧
      ∀ bind ∈ binds, ∃ out, bindDatasetValue parseDate parseDecimal bind = .ok out) ↔
    (operator = .in → slot.kind = "integer" ∨ slot.kind = "string") ∧
      (operator ≠ .in → TextsParse parseDate parseDecimal slot.kind
        (boundTexts operator ((selectedFilter selection slot operator).map (·.value)))) := by
  by_cases hpolicy : slot.inputPolicy = .exactIdentifier
  · obtain ⟨hstring, rfl, hpresent⟩ := hexact hpolicy
    obtain ⟨identifier, rfl⟩ := Option.isSome_iff_exists.mp hpresent
    refine iff_of_true ⟨_, by simp [operatorBinds, sensitiveValue, hpolicy]; rfl, ?_⟩ ?_
    · intro bind hbind
      obtain rfl := List.mem_singleton.mp hbind
      simp [bindDatasetValue, scalarBind, hstring]
    · simp [TextsParse, hstring]
  · have hnone : sensitiveValue sensitiveIdentifier slot = none := if_neg hpolicy
    simp only [operatorBinds, hnone, bind_eq_ok_iff, exists_unit_iff, failIf_eq_ok, hpolicy,
      false_and, not_false_eq_true, true_and]
    cases operator with
    | «in» => simpa [bindDatasetValue] using arrayBind_accepts Number
    | between =>
      simp only [pure_eq_ok, exists_eq_left', List.forall_mem_map, reduceCtorEq, false_imp_iff,
        true_and, ne_eq, not_false_eq_true, true_imp_iff, bindDatasetValue, if_false, TextsParse,
        boundTexts, List.mem_filterMap]
      constructor
      · rintro hall text ⟨index, hindex, htext⟩
        exact (scalarBind_accepts hkind).mp (hall index hindex) text htext
      · intro hall index hindex
        exact (scalarBind_accepts hkind).mpr fun text htext => hall text ⟨index, hindex, htext⟩
    | _ =>
      simp only [pure_eq_ok, exists_eq_left', List.forall_mem_singleton, Option.none_or,
        reduceCtorEq, false_imp_iff, true_and, ne_eq, not_false_eq_true, true_imp_iff,
        bindDatasetValue, if_false, TextsParse, boundTexts, Option.mem_toList]
      exact scalarBind_accepts hkind

end Binding

section Selected

variable {isDecimal : String → Bool} {dataset : DatasetKnowledge} {shape : ShapeOption}
  {params : Json}

/-- Every resolved filter has a value its slot's type and operator admit. -/
theorem resolveFilters_valid {mappings : List DatasetRecipeFilter}
    {filters : List DatasetFilterSelection}
    (h : resolveFilters isDecimal dataset shape params mappings = .ok filters) :
    ∀ filter ∈ filters, ∃ slot ∈ dataset.filters, slot.id = filter.filterId ∧
      validFilterValue isDecimal slot.kind filter.operator filter.value shape.rowCap = true := by
  induction mappings generalizing filters with
  | nil =>
    cases h
    simp
  | cons mapping rest ih =>
    simp only [resolveFilters, bind_eq_ok_iff] at h
    obtain ⟨slot, hslot, h⟩ := h
    split_ifs at h with hexact
    · exact ih h
    · simp only [bind_eq_ok_iff, exists_unit_iff, failIf_eq_ok, Bool.not_eq_false, pure_eq_ok] at h
      obtain ⟨value, -, hvalid, others, hothers, rfl⟩ := h
      simp only [resolveSlot, bind_eq_ok_iff, exists_unit_iff, okOr_eq_ok, pure_eq_ok] at hslot
      obtain ⟨found, hfound, -, -, -, rfl⟩ := hslot
      intro filter hfilter
      obtain rfl | hin := List.mem_cons.mp hfilter
      · exact ⟨found, List.mem_of_find?_eq_some hfound, rfl, hvalid⟩
      · exact ih hothers filter hin

/-- The texts of an admitted decimal are decimals. -/
theorem boundTexts_decimal {operator : FilterOperator} {value : Json} {rowCap : Option UInt32}
    (h : validFilterValue isDecimal "decimal" operator value rowCap = true)
    (hoperator : operator ≠ .in) : ∀ text ∈ boundTexts operator (some value),
    isDecimal text = true := by
  have hscalar : ∀ item text, validScalar isDecimal "decimal" item = true →
      item.asStr? = some text → isDecimal text = true := by
    intro item text hitem htext
    simpa [validScalar, htext] using hitem
  intro text htext
  cases operator with
  | «in» => exact absurd rfl hoperator
  | between =>
    obtain ⟨values, hvalues, hall⟩ := (Option.any_eq_true _ _).mp h
    obtain ⟨-, hall⟩ := of_decide_eq_true hall
    simp only [boundTexts, valuePart, Option.bind_some, hvalues, List.mem_filterMap,
      Option.bind_eq_some_iff] at htext
    obtain ⟨index, -, item, hitem, htext⟩ := htext
    exact hscalar item text (List.all_eq_true.mp hall item (List.mem_of_getElem? hitem)) htext
  | _ =>
    simp only [boundTexts, Option.bind_some, Option.mem_toList] at htext
    exact hscalar value text h htext

end Selected

/-- A resolved recipe for an enumerated combination of a valid dataset, with the texts
and the identifier the execution is given. -/
structure ExecutableRequest (Number : Type) where
  parseDate : String → Except String NaiveDate
  parseDecimal : String → Except String Number
  dataset : DatasetKnowledge
  valid : validateDataset dataset = .ok ()
  recipe : DatasetRecipe
  params : Json
  selection : DatasetSelection
  resolved : resolveRecipe (fun text => (parseDecimal text).isOk) dataset params recipe =
    .ok selection
  enumerated : (selection.shapeId, selection.orderById) ∈ executableCombinations dataset
  shape : ShapeOption
  selected : dataset.shape selection.shapeId = some shape
  sourceSql : String
  fragmentSql : Option String
  supplied : fragmentSql.isSome = shape.fragment.isSome
  sensitiveIdentifier : Option String
  identified : (∃ slot ∈ dataset.filters, slot.inputPolicy = .exactIdentifier) →
    sensitiveIdentifier.isSome = true

namespace ExecutableRequest

variable {Number : Type} (request : ExecutableRequest Number)

/-- The statement composes, and every value of its filters is bound. -/
def Executes : Prop :=
  (∃ composed, compose request.dataset request.selection.shapeId request.selection.orderById
      request.sourceSql request.fragmentSql = .ok composed) ∧
    ∃ binds, composeDatasetBinds request.selection request.sensitiveIdentifier request.dataset =
        .ok binds ∧
      ∀ bind ∈ binds, ∃ value,
        bindDatasetValue request.parseDate request.parseDecimal bind = .ok value

/-- The texts of the selected dates are dates. -/
def DatesParse (slot : FilterSlot) : Prop :=
  slot.kind = "date" → ∀ operator ∈ slot.operators, ∀ filter,
    selectedFilter request.selection slot operator = some filter →
      ∀ text ∈ boundTexts operator (some filter.value), ∃ date, request.parseDate text = .ok date

/-- The request stays out of the corners the static rules let through. -/
structure Supported : Prop where
  caseless : ∀ slot ∈ request.dataset.filters, EqualsCaseless slot
  ordered : request.selection.orderById.isSome = true → request.shape.fragment.isSome = true
  arrays : ∀ slot ∈ request.dataset.filters, BindsArrays slot
  dates : ∀ slot ∈ request.dataset.filters, request.DatesParse slot

theorem ids_nodup : (request.dataset.filters.map (·.id)).Nodup :=
  (KnowledgeValidator.validateDataset_filters request.valid).1

/-- A selected decimal was parsed when the recipe was resolved. -/
theorem selected_decimal {slot : FilterSlot} (hslot : slot ∈ request.dataset.filters)
    (hkind : slot.kind = "decimal") {operator : FilterOperator} (hoperator : operator ≠ .in)
    {filter : DatasetFilterSelection}
    (hselected : selectedFilter request.selection slot operator = some filter) :
    ∀ text ∈ boundTexts operator (some filter.value),
      ∃ number, request.parseDecimal text = .ok number := by
  obtain ⟨shape, -, -, -, -, hfilters⟩ := resolveRecipe_shape request.resolved
  have hmem := List.mem_of_find?_eq_some hselected
  obtain ⟨hid, rfl⟩ : filter.filterId = slot.id ∧ filter.operator = operator := by
    simpa using List.find?_some hselected
  obtain ⟨other, hother, hotherId, hvalid⟩ := resolveFilters_valid hfilters filter hmem
  obtain rfl := List.inj_on_of_nodup_map request.ids_nodup hother hslot (hotherId.trans hid)
  rw [hkind] at hvalid
  intro text htext
  have hdecimal := boundTexts_decimal hvalid hoperator text htext
  cases hparse : request.parseDecimal text with
  | ok number => exact ⟨number, rfl⟩
  | error message => simp [hparse, Except.isOk, Except.toBool] at hdecimal

/-- The binds of one filter are accepted in its supported uses. -/
theorem filter_accepts {slot : FilterSlot} (hslot : slot ∈ request.dataset.filters) :
    (∀ operator ∈ slot.operators, ∃ binds,
      operatorBinds request.selection request.sensitiveIdentifier slot operator = .ok binds ∧
        ∀ bind ∈ binds, ∃ value,
          bindDatasetValue request.parseDate request.parseDecimal bind = .ok value) ↔
      BindsArrays slot ∧ request.DatesParse slot := by
  have haccepts := fun operator (hmem : operator ∈ slot.operators) =>
    operatorBinds_accepts request.parseDate request.parseDecimal request.selection
      (validateDataset_filter request.valid hslot).1 fun hexact => by
        obtain ⟨hstring, hoperators⟩ :=
          (KnowledgeValidator.validateDataset_filters request.valid).2 slot hslot hexact
        rw [hoperators, List.mem_singleton] at hmem
        exact ⟨hstring, hmem, request.identified ⟨slot, hslot, hexact⟩⟩
  constructor
  · intro hall
    have harrays : BindsArrays slot := fun hin => ((haccepts .in hin).mp (hall .in hin)).1 rfl
    refine ⟨harrays, fun hdate operator hmem filter hselected text htext => ?_⟩
    have hnotIn : operator ≠ .in := by
      rintro rfl
      rcases harrays hmem with hkind | hkind <;> simp [hdate] at hkind
    have htexts := ((haccepts operator hmem).mp (hall operator hmem)).2 hnotIn text
    rw [hselected] at htexts
    exact (htexts htext).1 hdate
  · rintro ⟨harrays, hdates⟩ operator hmem
    refine (haccepts operator hmem).mpr ⟨fun hin => harrays (hin ▸ hmem),
      fun hnotIn text htext => ?_⟩
    cases hselected : selectedFilter request.selection slot operator with
    | none =>
      rw [hselected] at htext
      cases operator <;> simp [boundTexts, valuePart] at htext
    | some filter =>
      rw [hselected] at htext
      exact ⟨fun hdate => hdates hdate operator hmem filter hselected text htext, fun hdecimal =>
        request.selected_decimal hslot hdecimal hnotIn hselected text htext⟩

/-- A request executes exactly when it is a supported one. -/
theorem executes_iff_supported (request : ExecutableRequest Number) :
    request.Executes ↔ request.Supported := by
  have henumerated := (mem_executableCombinations_of_shape
    (validateDataset_shapes_nodup request.valid) request.selected).mp request.enumerated
  have hbinds : (∃ binds, composeDatasetBinds request.selection request.sensitiveIdentifier
        request.dataset = .ok binds ∧ ∀ bind ∈ binds, ∃ value,
          bindDatasetValue request.parseDate request.parseDecimal bind = .ok value) ↔
      ∀ slot ∈ request.dataset.filters, BindsArrays slot ∧ request.DatesParse slot := by
    unfold composeDatasetBinds
    rw [collectAll_forall_iff]
    refine forall₂_congr fun slot hslot => ?_
    rw [collectAll_forall_iff]
    exact request.filter_accepts hslot
  unfold Executes
  rw [compose_composes request.valid request.selected henumerated request.supplied, hbinds]
  constructor
  · rintro ⟨⟨hcaseless, hordered⟩, hfilters⟩
    exact ⟨hcaseless, hordered, fun slot hslot => (hfilters slot hslot).1,
      fun slot hslot => (hfilters slot hslot).2⟩
  · rintro ⟨hcaseless, hordered, harrays, hdates⟩
    exact ⟨⟨hcaseless, hordered⟩, fun slot hslot => ⟨harrays slot hslot, hdates slot hslot⟩⟩

end ExecutableRequest

/-! Charges that can be narrowed to a set of due dates; the recipe does not narrow. -/

namespace DueDates

def dataset : DatasetKnowledge where
  id := "savings.charges"
  database := "fineract"
  sourceSql := "queries/datasets/savings/charges.source.sql"
  tables := ["m_savings_account_charge"]
  filters := [⟨"due_date", "due_date", "date", false, .ordinary, [.in]⟩]
  entity := none
  filtersExempt := []
  shapes := [⟨"list", ⟨.list, .savingsAccountCharge, .none, .list, .none⟩, .terminal,
    none, some 100,
    none, [], some "queries/datasets/savings/charges.fragment.sql", [], [], []⟩]
  orderBy := []
  outputFields := [⟨"due_date", "date", .publicBusiness, true⟩]
  parameters := []
  timeoutMs := none

def request : ExecutableRequest ℤ where
  parseDate _ := .error "input contains invalid characters"
  parseDecimal text := okOr (Text.parseI64 text) "invalid decimal"
  dataset := dataset
  valid := by decide +kernel
  recipe := ⟨"savings.charges", "list", none, [], []⟩
  params := .obj []
  selection := ⟨"savings.charges", "list", none, [], []⟩
  resolved := by decide +kernel
  enumerated := by decide +kernel
  shape := dataset.shapes.head (by decide)
  selected := by decide +kernel
  sourceSql := "SELECT due_date FROM m_savings_account_charge"
  fragmentSql := some "SELECT due_date FROM base"
  supplied := by decide
  sensitiveIdentifier := none
  identified := by simp [dataset]

end DueDates

/-- The inactive filter of a valid dataset cannot be bound. -/
theorem in_dates_not_executable :
    ¬ DueDates.request.Executes ∧
      composeDatasetBinds DueDates.request.selection none DueDates.dataset =
        .ok [⟨"date", .in, none⟩] ∧
      bindDatasetValue DueDates.request.parseDate DueDates.request.parseDecimal
          ⟨"date", .in, none⟩ = .error "unsupported dataset filter `in` bind type date" := by
  have hbinds : composeDatasetBinds DueDates.request.selection none DueDates.dataset =
      .ok [⟨"date", .in, none⟩] := by decide +kernel
  refine ⟨?_, hbinds, by decide +kernel⟩
  rintro ⟨-, binds, hother, hall⟩
  obtain rfl := Except.ok.inj (hbinds.symm.trans hother)
  obtain ⟨value, hvalue⟩ := hall _ (List.mem_singleton_self _)
  simp [bindDatasetValue, arrayBind] at hvalue

end FineractReports.Execution
