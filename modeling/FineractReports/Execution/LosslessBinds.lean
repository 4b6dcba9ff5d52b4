import FineractReports.Execution.ExecutableDatasets

/-!
# Lossless binds

A selection is checked when its recipe is resolved and converted when it is bound. The two
agree on integers, booleans, strings and decimals. They differ on dates, whose text is read
only by the second, on `in` over a type without an array bind, and on a slot that the recipe
fills twice, which binds its first value only.
-/

namespace FineractReports.Execution

open Dataset

section Typed

variable {Number : Type} (parseDate : String → Except String NaiveDate)
  (parseDecimal : String → Except String Number)

/-- The bound value is the scalar itself, in the declared type. -/
def TypedScalar (kind : String) (value : Json) : BindValue Number → Prop
  | .date bound => kind = "date" ∧
      ∃ text date, value = .str text ∧ parseDate text = .ok date ∧ bound = some date
  | .integer bound => kind = "integer" ∧ ∃ number, value.asI64? = some number ∧ bound = some number
  | .string bound => kind = "string" ∧ ∃ text, value = .str text ∧ bound = some text
  | .decimal bound => kind = "decimal" ∧
      ∃ text number, value = .str text ∧ parseDecimal text = .ok number ∧ bound = some number
  | .boolean bound => kind = "boolean" ∧ ∃ truth, value = .bool truth ∧ bound = some truth
  | _ => False

/-- The bound array has every item of the value, in the declared type. -/
def TypedItems (kind : String) (value : Json) : BindValue Number → Prop
  | .bigints bound => kind = "integer" ∧ ∃ items numbers, value = .arr items ∧
      items.map Json.asI64? = numbers.map some ∧ bound = some numbers
  | .strings bound => kind = "string" ∧ ∃ items texts, value = .arr items ∧
      items.map Json.asStr? = texts.map some ∧ bound = some texts
  | _ => False

/-- The value reaches one placeholder unchanged, and is issued there as `Typed` says. -/
def BoundAs (Typed : Json → BindValue Number → Prop) (value : Json) (bind : DatasetBindValue) :
    Prop :=
  bind.value = some value ∧
    ∃ bound, bindDatasetValue parseDate parseDecimal bind = .ok bound ∧ Typed value bound

/-- The placeholders of a filter and its operator hold the value: a range has two of them. -/
def HoldsValue (kind : String) (operator : FilterOperator) (value : Json)
    (binds : List DatasetBindValue) : Prop :=
  match operator with
  | .between => ∃ low high first last, value = .arr [low, high] ∧ binds = [first, last] ∧
      BoundAs parseDate parseDecimal (TypedScalar parseDate parseDecimal kind) low first ∧
      BoundAs parseDate parseDecimal (TypedScalar parseDate parseDecimal kind) high last
  | .in => ∃ bind, binds = [bind] ∧ BoundAs parseDate parseDecimal (TypedItems kind) value bind
  | _ => ∃ bind, binds = [bind] ∧
      BoundAs parseDate parseDecimal (TypedScalar parseDate parseDecimal kind) value bind

end Typed

/-- A recipe resolved on a valid dataset, with the identifier the execution is given. -/
structure ResolvedRecipe (Number : Type) where
  parseDate : String → Except String NaiveDate
  parseDecimal : String → Except String Number
  dataset : DatasetKnowledge
  valid : validateDataset dataset = .ok ()
  recipe : DatasetRecipe
  params : Json
  selection : DatasetSelection
  resolved : resolveRecipe (fun text => (parseDecimal text).isOk) dataset params recipe =
    .ok selection
  sensitiveIdentifier : Option String

/-! ### Values of one slot -/

section Slot

variable {Number : Type} {parseDate : String → Except String NaiveDate}
  {parseDecimal : String → Except String Number} {kind : String} {operator : FilterOperator}
  {value other : Json} {own : List DatasetBindValue}

theorem map_eq_filterMap {α β : Type} {read : α → Option β} {items : List α}
    (h : ∀ item ∈ items, (read item).isSome = true) :
    items.map read = (items.filterMap read).map some := by
  induction items with
  | nil => rfl
  | cons item rest ih =>
    obtain ⟨hitem, hrest⟩ := List.forall_mem_cons.mp h
    obtain ⟨found, hfound⟩ := Option.isSome_iff_exists.mp hitem
    rw [List.map_cons, List.filterMap_cons_some hfound, List.map_cons, hfound, ih hrest]

theorem asStr?_eq_some {text : String} : value.asStr? = some text ↔ value = .str text := by
  cases value <;> simp [Json.asStr?]

/-- An admitted scalar is issued in its type, when it is not a text that is no date. -/
theorem boundAs_scalar (operator : FilterOperator) (hoperator : operator ≠ .in)
    (hkind : kind ∈ FILTER_TYPES)
    (hvalid : validScalar (fun text => (parseDecimal text).isOk) kind value = true)
    (hdate : kind = "date" → ∀ text, value.asStr? = some text →
      ∃ date, parseDate text = .ok date) :
    BoundAs parseDate parseDecimal (TypedScalar parseDate parseDecimal kind) value
      ⟨kind, operator, some value⟩ := by
  refine ⟨rfl, ?_⟩
  simp only [bindDatasetValue, if_neg hoperator]
  simp only [FILTER_TYPES, List.mem_cons, List.not_mem_nil, or_false] at hkind
  rcases hkind with rfl | rfl | rfl | rfl | rfl
  · have htext : value.asStr?.isSome = true := by simpa [validScalar] using hvalid
    obtain ⟨text, htext⟩ := Option.isSome_iff_exists.mp htext
    obtain ⟨date, hparsed⟩ := hdate rfl text htext
    refine ⟨.date (some date), ?_, rfl, text, date, asStr?_eq_some.mp htext, hparsed, rfl⟩
    simp [scalarBind, parseSome, htext, hparsed, Except.map]
  · have hnumber : value.asI64?.isSome = true := by simpa [validScalar] using hvalid
    obtain ⟨number, hnumber⟩ := Option.isSome_iff_exists.mp hnumber
    refine ⟨.integer (some number), ?_, rfl, number, hnumber, rfl⟩
    simp [scalarBind, hnumber]
  · have htruth : isBoolean value = true := by simpa [validScalar] using hvalid
    cases value with
    | bool truth => exact ⟨.boolean (some truth), by simp [scalarBind, isBool?], rfl,
      truth, rfl, rfl⟩
    | _ => simp [isBoolean] at htruth
  · have htext : value.asStr?.isSome = true := by simpa [validScalar] using hvalid
    obtain ⟨text, htext⟩ := Option.isSome_iff_exists.mp htext
    refine ⟨.string (some text), ?_, rfl, text, asStr?_eq_some.mp htext, rfl⟩
    simp [scalarBind, htext]
  · have hdecimal : value.asStr?.any (fun text => (parseDecimal text).isOk) = true := by
      simpa [validScalar] using hvalid
    obtain ⟨text, htext, hparses⟩ := (Option.any_eq_true _ _).mp hdecimal
    cases hparsed : parseDecimal text with
    | error message => simp [hparsed, Except.isOk, Except.toBool] at hparses
    | ok number =>
      refine ⟨.decimal (some number), ?_, rfl, text, number, asStr?_eq_some.mp htext, hparsed, rfl⟩
      simp [scalarBind, parseSome, htext, hparsed, Except.map]

/-- An admitted array keeps all its items in the types that have an array bind. -/
theorem boundAs_items {rowCap : Option UInt32}
    (hkind : kind = "integer" ∨ kind = "string")
    (hvalid : validFilterValue (fun text => (parseDecimal text).isOk) kind .in value rowCap
      = true) :
    BoundAs parseDate parseDecimal (TypedItems kind) value ⟨kind, .in, some value⟩ := by
  refine ⟨rfl, ?_⟩
  simp only [bindDatasetValue, if_true]
  obtain ⟨cap, -, harray⟩ := (Option.any_eq_true _ _).mp hvalid
  obtain ⟨items, hitems, hall⟩ := (Option.any_eq_true _ _).mp harray
  have hscalars := List.all_eq_true.mp (of_decide_eq_true hall).2.2
  have hvalue : value = .arr items := by
    cases value with
    | arr found => simpa [Json.asArray?] using hitems
    | _ => simp [Json.asArray?] at hitems
  rcases hkind with rfl | rfl
  · have hread : ∀ item ∈ items, item.asI64?.isSome = true := fun item hitem => by
      simpa [validScalar] using hscalars item hitem
    refine ⟨.bigints (some (items.filterMap Json.asI64?)), ?_, rfl, items, _, hvalue,
      map_eq_filterMap hread, rfl⟩
    simp [arrayBind, hitems]
  · have hread : ∀ item ∈ items, item.asStr?.isSome = true := fun item hitem => by
      simpa [validScalar] using hscalars item hitem
    refine ⟨.strings (some (items.filterMap Json.asStr?)), ?_, rfl, items, _, hvalue,
      map_eq_filterMap hread, rfl⟩
    simp [arrayBind, hitems]

/-- One list of binds holds one value. -/
theorem HoldsValue.unique (h : HoldsValue parseDate parseDecimal kind operator value own)
    (h' : HoldsValue parseDate parseDecimal kind operator other own) : value = other := by
  cases operator with
  | between =>
    obtain ⟨low, high, first, last, rfl, rfl, hlow, hhigh⟩ := h
    obtain ⟨low', high', first', last', rfl, heq, hlow', hhigh'⟩ := h'
    obtain ⟨rfl, rfl⟩ : first = first' ∧ last = last' := by simpa using heq
    have hfirst : low = low' := Option.some.inj (hlow.1.symm.trans hlow'.1)
    have hlast : high = high' := Option.some.inj (hhigh.1.symm.trans hhigh'.1)
    rw [hfirst, hlast]
  | _ =>
    obtain ⟨bind, rfl, hbind⟩ := h
    obtain ⟨bind', heq, hbind'⟩ := h'
    obtain rfl : bind = bind' := by simpa using heq
    exact Option.some.inj (hbind.1.symm.trans hbind'.1)

/-- The text of a bound date is a date. -/
theorem BoundAs.date {bind : DatasetBindValue}
    (h : BoundAs parseDate parseDecimal (TypedScalar parseDate parseDecimal "date") value bind) :
    ∀ text, value.asStr? = some text → ∃ date, parseDate text = .ok date := by
  obtain ⟨-, bound, -, htyped⟩ := h
  intro text htext
  cases bound with
  | date bound =>
    obtain ⟨-, found, date, rfl, hparsed, -⟩ := htyped
    obtain rfl : found = text := by simpa [Json.asStr?] using htext
    exact ⟨date, hparsed⟩
  | bigints bound => exact htyped.elim
  | strings bound => exact htyped.elim
  | _ => exact absurd htyped.1 (by decide)

theorem HoldsValue.dates (h : HoldsValue parseDate parseDecimal "date" operator value own) :
    ∀ text ∈ boundTexts operator (some value), ∃ date, parseDate text = .ok date := by
  intro text htext
  cases operator with
  | between =>
    obtain ⟨low, high, first, last, rfl, -, hlow, hhigh⟩ := h
    simp only [boundTexts, List.mem_filterMap, valuePart, Option.bind_some, Json.asArray?] at htext
    obtain ⟨index, hindex, htext⟩ := htext
    have hcases : index = 0 ∨ index = 1 := by
      have hlt := List.mem_range.mp hindex
      omega
    rcases hcases with rfl | rfl
    · exact hlow.date text (by simpa using htext)
    · exact hhigh.date text (by simpa using htext)
  | «in» =>
    obtain ⟨bind, -, -, bound, -, htyped⟩ := h
    cases bound with
    | bigints bound => exact absurd htyped.1 (by decide)
    | strings bound => exact absurd htyped.1 (by decide)
    | _ => exact htyped.elim
  | _ =>
    obtain ⟨bind, -, hbind⟩ := h
    exact hbind.date text (by simpa [boundTexts] using htext)

/-- The binds of an ordinary slot hold the value selected for it. -/
theorem operatorBinds_holds {selection : DatasetSelection} {sensitiveIdentifier : Option String}
    {slot : FilterSlot} {rowCap : Option UInt32} (hpolicy : slot.inputPolicy = .ordinary)
    (hkind : slot.kind ∈ FILTER_TYPES)
    (hselected : (selectedFilter selection slot operator).map (·.value) = some value)
    (hvalid : validFilterValue (fun text => (parseDecimal text).isOk) slot.kind operator value
      rowCap = true)
    (harray : operator = .in → slot.kind = "integer" ∨ slot.kind = "string")
    (hdates : slot.kind = "date" → ∀ text ∈ boundTexts operator (some value),
      ∃ date, parseDate text = .ok date) :
    ∃ own, operatorBinds selection sensitiveIdentifier slot operator = .ok own ∧
      HoldsValue parseDate parseDecimal slot.kind operator value own := by
  have hnone : sensitiveValue sensitiveIdentifier slot = none :=
    if_neg (by rw [hpolicy]; decide)
  simp only [operatorBinds, hnone, hselected, bind_eq_ok_iff, exists_unit_iff, failIf_eq_ok,
    hpolicy, reduceCtorEq, false_and, not_false_eq_true, true_and, Option.none_or]
  cases operator with
  | «in» => exact ⟨_, rfl, _, rfl, boundAs_items (harray rfl) hvalid⟩
  | between =>
    obtain ⟨items, hitems, hall⟩ := (Option.any_eq_true _ _).mp hvalid
    obtain ⟨hlength, hscalars⟩ := of_decide_eq_true hall
    obtain ⟨low, high, rfl⟩ := List.length_eq_two.mp hlength
    have hvalue : value = .arr [low, high] := by
      cases value with
      | arr found => simpa [Json.asArray?] using hitems
      | _ => simp [Json.asArray?] at hitems
    subst hvalue
    have hscalars := List.all_eq_true.mp hscalars
    have hdate : ∀ item ∈ [low, high], slot.kind = "date" → ∀ text, item.asStr? = some text →
        ∃ date, parseDate text = .ok date := by
      intro item hitem hkind text htext
      apply hdates hkind
      simp only [boundTexts, List.mem_filterMap, valuePart, Option.bind_some, Json.asArray?]
      rcases List.mem_pair.mp hitem with rfl | rfl
      · exact ⟨0, by decide, by simpa using htext⟩
      · exact ⟨1, by decide, by simpa using htext⟩
    refine ⟨_, rfl, low, high, _, _, rfl, rfl, ?_, ?_⟩
    · exact boundAs_scalar .between (by decide) hkind (hscalars low (by simp))
        (hdate low (by simp))
    · exact boundAs_scalar .between (by decide) hkind (hscalars high (by simp))
        (hdate high (by simp))
  | _ =>
    refine ⟨_, rfl, _, rfl, boundAs_scalar _ (by decide) hkind hvalid fun hdate text htext => ?_⟩
    exact hdates hdate text (by simpa [boundTexts] using htext)

end Slot

namespace ResolvedRecipe

variable {Number : Type} (request : ResolvedRecipe Number)

/-- The slot a mapping fills with a value of the request or of the recipe. -/
def Fills (mapping : DatasetRecipeFilter) (slot : FilterSlot) : Prop :=
  slot ∈ request.dataset.filters ∧ slot.id = mapping.filterId ∧ slot.inputPolicy = .ordinary

/-- Every bind of the selection is accepted, and the value of every mapping is bound unchanged
in its own slot. -/
def Lossless : Prop :=
  ∃ binds, composeDatasetBinds request.selection request.sensitiveIdentifier request.dataset =
      .ok binds ∧
    (∀ bind ∈ binds, ∃ bound,
      bindDatasetValue request.parseDate request.parseDecimal bind = .ok bound) ∧
    ∀ mapping ∈ request.recipe.filters, ∀ slot, request.Fills mapping slot →
      ∃ value own, mappedValue request.params mapping = .ok value ∧
        operatorBinds request.selection request.sensitiveIdentifier slot mapping.operator =
          .ok own ∧ own <:+: binds ∧
        HoldsValue request.parseDate request.parseDecimal slot.kind mapping.operator value own

/-- What the resolved recipe leaves open: the identifier is there, arrays are of a type with an
array bind, the texts of dates are dates, and a slot filled twice is filled with one value. -/
structure Bindable : Prop where
  identified : (∃ slot ∈ request.dataset.filters, slot.inputPolicy = .exactIdentifier) →
    request.sensitiveIdentifier.isSome = true
  arrays : ∀ slot ∈ request.dataset.filters, BindsArrays slot
  dates : ∀ mapping ∈ request.recipe.filters, ∀ slot, request.Fills mapping slot →
    slot.kind = "date" → ∀ value, mappedValue request.params mapping = .ok value →
      ∀ text ∈ boundTexts mapping.operator (some value),
        ∃ date, request.parseDate text = .ok date
  unshared : ∀ first ∈ request.recipe.filters, ∀ second ∈ request.recipe.filters, ∀ slot,
    request.Fills first slot → request.Fills second slot → first.operator = second.operator →
      mappedValue request.params first = mappedValue request.params second

/-! ### The selected filters -/

section Selected

variable {isDecimal : String → Bool} {dataset : DatasetKnowledge} {shape : ShapeOption}
  {params : Json} {mappings : List DatasetRecipeFilter} {filters : List DatasetFilterSelection}

theorem resolveSlot_spec {mapping : DatasetRecipeFilter} {slot : FilterSlot}
    (h : resolveSlot dataset mapping = .ok slot) :
    slot ∈ dataset.filters ∧ slot.id = mapping.filterId ∧ mapping.operator ∈ slot.operators := by
  simp only [resolveSlot, bind_eq_ok_iff, exists_unit_iff, okOr_eq_ok, failIf_eq_ok, not_not,
    pure_eq_ok] at h
  obtain ⟨found, hfound, hoperator, -, -, rfl⟩ := h
  exact ⟨List.mem_of_find?_eq_some hfound, by simpa using List.find?_some hfound, hoperator⟩

/-- The filter a mapping selects on an ordinary slot. -/
def SelectedBy (isDecimal : String → Bool) (dataset : DatasetKnowledge) (shape : ShapeOption)
    (params : Json) (mapping : DatasetRecipeFilter) (filter : DatasetFilterSelection) : Prop :=
  ∃ slot, resolveSlot dataset mapping = .ok slot ∧ slot.inputPolicy = .ordinary ∧
    mappedValue params mapping = .ok filter.value ∧ filter.filterId = slot.id ∧
    filter.operator = mapping.operator ∧
    validFilterValue isDecimal slot.kind mapping.operator filter.value shape.rowCap = true

/-- The resolved filters are those of the mappings on ordinary slots. -/
theorem resolveFilters_selected
    (h : resolveFilters isDecimal dataset shape params mappings = .ok filters) :
    (∀ filter ∈ filters, ∃ mapping ∈ mappings,
      SelectedBy isDecimal dataset shape params mapping filter) ∧
    ∀ mapping ∈ mappings, ∃ slot, resolveSlot dataset mapping = .ok slot ∧
      (slot.inputPolicy = .ordinary → ∃ filter ∈ filters,
        SelectedBy isDecimal dataset shape params mapping filter) := by
  induction mappings generalizing filters with
  | nil =>
    cases h
    simp
  | cons mapping rest ih =>
    simp only [resolveFilters, bind_eq_ok_iff] at h
    obtain ⟨slot, hslot, h⟩ := h
    split_ifs at h with hexact
    · obtain ⟨hback, hforth⟩ := ih h
      constructor
      · intro filter hfilter
        obtain ⟨other, hother, hselected⟩ := hback filter hfilter
        exact ⟨other, List.mem_cons_of_mem _ hother, hselected⟩
      · intro other hother
        rcases List.mem_cons.mp hother with rfl | hin
        · exact ⟨slot, hslot, fun hordinary => absurd (hexact.symm.trans hordinary) (by decide)⟩
        · exact hforth other hin
    · simp only [bind_eq_ok_iff, exists_unit_iff, failIf_eq_ok, Bool.not_eq_false, pure_eq_ok] at h
      obtain ⟨value, hvalue, hvalid, others, hothers, rfl⟩ := h
      obtain ⟨hback, hforth⟩ := ih hothers
      have hordinary : slot.inputPolicy = .ordinary := by
        cases hpolicy : slot.inputPolicy with
        | ordinary => rfl
        | exactIdentifier => exact absurd hpolicy hexact
      have hown : SelectedBy isDecimal dataset shape params mapping
          ⟨slot.id, mapping.operator, value⟩ :=
        ⟨slot, hslot, hordinary, hvalue, rfl, rfl, hvalid⟩
      constructor
      · intro filter hfilter
        rcases List.mem_cons.mp hfilter with rfl | hin
        · exact ⟨mapping, List.mem_cons_self, hown⟩
        · obtain ⟨other, hother, hselected⟩ := hback filter hin
          exact ⟨other, List.mem_cons_of_mem _ hother, hselected⟩
      · intro other hother
        rcases List.mem_cons.mp hother with rfl | hin
        · exact ⟨slot, hslot, fun _ => ⟨_, List.mem_cons_self, hown⟩⟩
        · obtain ⟨found, hfound, hselected⟩ := hforth other hin
          exact ⟨found, hfound, fun hpolicy => by
            obtain ⟨filter, hfilter, hselected⟩ := hselected hpolicy
            exact ⟨filter, List.mem_cons_of_mem _ hfilter, hselected⟩⟩

end Selected

theorem slot_unique {slot other : FilterSlot} (hslot : slot ∈ request.dataset.filters)
    (hother : other ∈ request.dataset.filters) (hid : slot.id = other.id) : slot = other := by
  have hnodup := (KnowledgeValidator.validateDataset_filters request.valid).1
  exact List.inj_on_of_nodup_map hnodup hslot hother hid

/-- A filter found for an ordinary slot was put there by a mapping that fills the slot. -/
theorem selected_source {slot : FilterSlot} (hslot : slot ∈ request.dataset.filters)
    {operator : FilterOperator} {filter : DatasetFilterSelection}
    (hselected : selectedFilter request.selection slot operator = some filter) :
    ∃ mapping ∈ request.recipe.filters, request.Fills mapping slot ∧
      mapping.operator = operator ∧ mappedValue request.params mapping = .ok filter.value ∧
      ∃ rowCap, validFilterValue (fun text => (request.parseDecimal text).isOk) slot.kind operator
        filter.value rowCap = true := by
  obtain ⟨shape, -, -, -, -, hfilters⟩ := resolveRecipe_shape request.resolved
  have hmem := List.mem_of_find?_eq_some hselected
  obtain ⟨hid, rfl⟩ : filter.filterId = slot.id ∧ filter.operator = operator := by
    simpa using List.find?_some hselected
  obtain ⟨mapping, hmapping, found, hfound, hordinary, hvalue, hfoundId, hoperator, hvalid⟩ :=
    (resolveFilters_selected hfilters).1 filter hmem
  obtain ⟨hfoundMem, hmappingId, -⟩ := resolveSlot_spec hfound
  obtain rfl : found = slot := request.slot_unique hfoundMem hslot (hfoundId.symm.trans hid)
  rw [← hoperator] at hvalid
  exact ⟨mapping, hmapping, ⟨hslot, hmappingId, hordinary⟩, hoperator.symm, hvalue, _, hvalid⟩

/-- A mapping that fills a slot has a value, and the slot has a selected filter. -/
theorem mapping_selected {mapping : DatasetRecipeFilter} (hmapping : mapping ∈
    request.recipe.filters) {slot : FilterSlot} (hfills : request.Fills mapping slot) :
    mapping.operator ∈ slot.operators ∧ (∃ value, mappedValue request.params mapping = .ok value) ∧
      ∃ filter, selectedFilter request.selection slot mapping.operator = some filter := by
  obtain ⟨shape, -, -, -, -, hfilters⟩ := resolveRecipe_shape request.resolved
  obtain ⟨hslot, hid, hordinary⟩ := hfills
  obtain ⟨found, hfound, hselects⟩ := (resolveFilters_selected hfilters).2 mapping hmapping
  obtain ⟨hfoundMem, hfoundId, hoperator⟩ := resolveSlot_spec hfound
  obtain rfl : found = slot := request.slot_unique hfoundMem hslot (hfoundId.trans hid.symm)
  obtain ⟨filter, hfilter, other, hother, -, hvalue, hfilterId, hfilterOperator, -⟩ :=
    hselects hordinary
  obtain rfl : found = other := Except.ok.inj (hfound.symm.trans hother)
  refine ⟨hoperator, ⟨filter.value, hvalue⟩, ?_⟩
  apply Option.isSome_iff_exists.mp
  unfold selectedFilter
  rw [List.find?_isSome]
  exact ⟨filter, hfilter, by simp [hfilterId, hfilterOperator]⟩

/-! ### Lossless requests -/

/-- The binds composed for a slot and one of its operators stand among those composed. -/
theorem operatorBinds_infix {binds : List DatasetBindValue}
    (h : composeDatasetBinds request.selection request.sensitiveIdentifier request.dataset
      = .ok binds) {slot : FilterSlot} (hslot : slot ∈ request.dataset.filters)
    {operator : FilterOperator} (hoperator : operator ∈ slot.operators) :
    ∃ own, operatorBinds request.selection request.sensitiveIdentifier slot operator = .ok own ∧
      own <:+: binds := by
  obtain ⟨ofSlot, hofSlot, hwithin⟩ := collectAll_infix h hslot
  obtain ⟨own, hown, hwithin'⟩ := collectAll_infix hofSlot hoperator
  exact ⟨own, hown, hwithin'.trans hwithin⟩

theorem Lossless.bindable (h : request.Lossless) : request.Bindable := by
  obtain ⟨binds, hcompose, haccepted, hheld⟩ := h
  have hvalid := fun slot hslot => @validateDataset_filter _ request.valid slot hslot
  constructor
  · rintro ⟨slot, hslot, hexact⟩
    obtain ⟨operator, hoperator⟩ := List.exists_mem_of_ne_nil _ (hvalid slot hslot).2.1
    obtain ⟨own, hown, -⟩ := request.operatorBinds_infix hcompose hslot hoperator
    simp only [operatorBinds, bind_eq_ok_iff, exists_unit_iff, failIf_eq_ok, hexact, true_and,
      sensitiveValue, if_true] at hown
    simpa [Option.isSome_iff_ne_none] using hown.1
  · intro slot hslot hin
    obtain ⟨own, hown, hwithin⟩ := request.operatorBinds_infix hcompose hslot hin
    simp only [operatorBinds, bind_eq_ok_iff, exists_unit_iff, failIf_eq_ok, pure_eq_ok] at hown
    obtain ⟨-, rfl⟩ := hown
    have hbound := haccepted _ (hwithin.subset (List.mem_singleton_self _))
    simp only [bindDatasetValue, if_true] at hbound
    exact (arrayBind_accepts Number).mp hbound
  · intro mapping hmapping slot hfills hkind value hvalue
    obtain ⟨found, own, hfound, -, -, hholds⟩ := hheld mapping hmapping slot hfills
    obtain rfl : found = value := Except.ok.inj (hfound.symm.trans hvalue)
    rw [hkind] at hholds
    exact hholds.dates
  · intro first hfirst second hsecond slot hfills hfills' hoperator
    obtain ⟨value, own, hvalue, hown, -, hholds⟩ := hheld first hfirst slot hfills
    obtain ⟨other, own', hother, hown', -, hholds'⟩ := hheld second hsecond slot hfills'
    rw [← hoperator] at hown' hholds'
    obtain rfl : own = own' := Except.ok.inj (hown.symm.trans hown')
    rw [hvalue, hother, hholds.unique hholds']

/-- The binds of any slot of a bindable request are composed and accepted. -/
theorem Bindable.accepts (h : request.Bindable) {slot : FilterSlot}
    (hslot : slot ∈ request.dataset.filters) {operator : FilterOperator}
    (hoperator : operator ∈ slot.operators) :
    ∃ binds, operatorBinds request.selection request.sensitiveIdentifier slot operator =
        .ok binds ∧ ∀ bind ∈ binds, ∃ bound,
      bindDatasetValue request.parseDate request.parseDecimal bind = .ok bound := by
  have hkind := (validateDataset_filter request.valid hslot).1
  have hexact : slot.inputPolicy = .exactIdentifier → slot.kind = "string" ∧ operator = .eq ∧
      request.sensitiveIdentifier.isSome = true := by
    intro hexact
    obtain ⟨hstring, honly⟩ :=
      (KnowledgeValidator.validateDataset_filters request.valid).2 slot hslot hexact
    rw [honly, List.mem_singleton] at hoperator
    exact ⟨hstring, hoperator, h.identified ⟨slot, hslot, hexact⟩⟩
  apply (operatorBinds_accepts request.parseDate request.parseDecimal request.selection hkind
    hexact).mpr
  refine ⟨fun hin => h.arrays slot hslot (hin ▸ hoperator), fun hnotIn text htext => ?_⟩
  cases hselected : selectedFilter request.selection slot operator with
  | none =>
    rw [hselected] at htext
    cases operator <;> simp [boundTexts, valuePart] at htext
  | some filter =>
    rw [hselected] at htext
    obtain ⟨mapping, hmapping, hfills, rfl, hvalue, rowCap, hvalid⟩ :=
      request.selected_source hslot hselected
    refine ⟨fun hdate => h.dates mapping hmapping slot hfills hdate _ hvalue text htext,
      fun hdecimal => ?_⟩
    rw [hdecimal] at hvalid
    have hparses := boundTexts_decimal hvalid hnotIn text htext
    cases hparsed : request.parseDecimal text with
    | ok number => exact ⟨number, rfl⟩
    | error message => simp [hparsed, Except.isOk, Except.toBool] at hparses

theorem Bindable.lossless (h : request.Bindable) : request.Lossless := by
  have hcomposed : ∃ binds, composeDatasetBinds request.selection request.sensitiveIdentifier
      request.dataset = .ok binds ∧ ∀ bind ∈ binds, ∃ bound,
        bindDatasetValue request.parseDate request.parseDecimal bind = .ok bound := by
    unfold composeDatasetBinds
    rw [collectAll_forall_iff]
    intro slot hslot
    rw [collectAll_forall_iff]
    exact fun operator hoperator => h.accepts request hslot hoperator
  obtain ⟨binds, hcompose, haccepted⟩ := hcomposed
  refine ⟨binds, hcompose, haccepted, fun mapping hmapping slot hfills => ?_⟩
  obtain ⟨hoperator, ⟨value, hvalue⟩, filter, hselected⟩ :=
    request.mapping_selected hmapping hfills
  obtain ⟨first, hfirst, hfills', hsame, hvalue', rowCap, hvalid⟩ :=
    request.selected_source hfills.1 hselected
  -- The first mapping of the slot decides what is bound; this one has the same value.
  have hshared := h.unshared first hfirst mapping hmapping slot hfills' hfills hsame
  rw [hvalue', hvalue] at hshared
  obtain rfl : filter.value = value := Except.ok.inj hshared
  obtain ⟨own, hown, hwithin⟩ := request.operatorBinds_infix hcompose hfills.1 hoperator
  have hheld : ∃ own, operatorBinds request.selection request.sensitiveIdentifier slot
      mapping.operator = .ok own ∧ HoldsValue request.parseDate request.parseDecimal slot.kind
        mapping.operator filter.value own :=
    operatorBinds_holds hfills.2.2 (validateDataset_filter request.valid hfills.1).1
      (by rw [hselected]; rfl) hvalid (fun hin => h.arrays slot hfills.1 (hin ▸ hoperator))
      fun hdate => h.dates mapping hmapping slot hfills hdate _ hvalue
  obtain ⟨own', hown', hholds⟩ := hheld
  obtain rfl : own = own' := Except.ok.inj (hown.symm.trans hown')
  exact ⟨filter.value, own, hvalue, hown, hwithin, hholds⟩

end ResolvedRecipe

/-- The selection of a resolved recipe is bound without loss exactly when nothing is left open
by its resolution. -/
theorem lossless_iff_bindable {Number : Type} (request : ResolvedRecipe Number) :
    request.Lossless ↔ request.Bindable :=
  ⟨fun h => h.bindable, fun h => h.lossless⟩

/-! Clients activated on a day that is not in the calendar, and in two offices at once. -/

namespace Activations

def dataset : DatasetKnowledge where
  id := "clients.activations"
  database := "fineract"
  sourceSql := "queries/datasets/clients/activations.source.sql"
  tables := ["m_client"]
  filters := [⟨"activation_date", "activation_date", "date", false, .ordinary, [.eq]⟩,
    ⟨"office_id", "office_id", "integer", false, .ordinary, [.eq]⟩]
  entity := none
  filtersExempt := []
  shapes := [⟨"list", ⟨.list, .client, .none, .list, .none⟩, .terminal, none, some 100, none, [],
    some "queries/datasets/clients/activations.fragment.sql", [], [], []⟩]
  orderBy := []
  outputFields := [⟨"activation_date", "date", .publicBusiness, true⟩]
  parameters := []
  timeoutMs := none

/-- The date parser refuses the thirtieth of February. -/
def onDay : ResolvedRecipe ℤ where
  parseDate _ := .error "input is out of range"
  parseDecimal text := okOr (Text.parseI64 text) "invalid decimal"
  dataset := dataset
  valid := by decide +kernel
  recipe := ⟨"clients.activations", "list", none,
    [⟨"activation_date", .eq, some "activation_date", none⟩], []⟩
  params := .obj [("activation_date", .str "2026-02-30")]
  selection := ⟨"clients.activations", "list", none,
    [⟨"activation_date", .eq, .str "2026-02-30"⟩], []⟩
  resolved := by decide +kernel
  sensitiveIdentifier := none

def inOffices : ResolvedRecipe ℤ where
  parseDate _ := .error "input is out of range"
  parseDecimal text := okOr (Text.parseI64 text) "invalid decimal"
  dataset := dataset
  valid := by decide +kernel
  recipe := ⟨"clients.activations", "list", none,
    [⟨"office_id", .eq, some "office_id", none⟩, ⟨"office_id", .eq, none, some (.int 2)⟩], []⟩
  params := .obj [("office_id", .int 1)]
  selection := ⟨"clients.activations", "list", none,
    [⟨"office_id", .eq, .int 1⟩, ⟨"office_id", .eq, .int 2⟩], []⟩
  resolved := by decide +kernel
  sensitiveIdentifier := none

/-- The day is selected and not bound; of the two offices only the first is bound. -/
theorem selections_not_lossless : ¬ onDay.Lossless ∧ ¬ inOffices.Lossless ∧
    composeDatasetBinds inOffices.selection none dataset =
      .ok [⟨"date", .eq, none⟩, ⟨"integer", .eq, some (.int 1)⟩] := by
  refine ⟨fun h => ?_, fun h => ?_, by decide +kernel⟩
  · obtain ⟨date, hdate⟩ := (ResolvedRecipe.Lossless.bindable onDay h).dates _
      (List.mem_singleton_self _) ⟨"activation_date", "activation_date", "date", false,
        .ordinary, [.eq]⟩ ⟨by decide, rfl, rfl⟩ rfl _ rfl "2026-02-30" (by decide)
    cases hdate
  · have hsame := (ResolvedRecipe.Lossless.bindable inOffices h).unshared
      ⟨"office_id", .eq, some "office_id", none⟩ (by decide)
      ⟨"office_id", .eq, none, some (.int 2)⟩ (by decide)
      ⟨"office_id", "office_id", "integer", false, .ordinary, [.eq]⟩ ⟨by decide, rfl, rfl⟩
      ⟨by decide, rfl, rfl⟩ rfl
    exact absurd hsame (by decide)

end Activations

end FineractReports.Execution
