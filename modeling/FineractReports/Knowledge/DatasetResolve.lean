import FineractReports.Knowledge.DatasetRules

/-!
# Resolved recipes

The selection a capability's recipe makes from its dataset. The values of the filters
come from the parameters of the request or from the recipe itself; `isDecimal` stands for
the parser of the decimal library.
-/

namespace FineractReports.Dataset

def isBoolean : Json → Bool
  | .bool _ => true
  | _ => false

def isObject : Json → Bool
  | .obj _ => true
  | _ => false

section Values

variable (isDecimal : String → Bool)

def validScalar (kind : String) (value : Json) : Bool :=
  if kind = "date" ∨ kind = "string" then value.asStr?.isSome
  else if kind = "integer" then value.asI64?.isSome
  else if kind = "boolean" then isBoolean value
  else if kind = "decimal" then value.asStr?.any isDecimal
  else false

def validFilterValue (kind : String) (operator : FilterOperator) (value : Json)
    (rowCap : Option UInt32) : Bool :=
  match operator with
  | .between => value.asArray?.any fun values =>
      values.length = 2 ∧ values.all (validScalar isDecimal kind) = true
  | .in => rowCap.any fun cap => value.asArray?.any fun values =>
      values ≠ [] ∧ values.length ≤ cap.toNat ∧ values.all (validScalar isDecimal kind) = true
  | _ => validScalar isDecimal kind value

end Values

/-- The name of the operator's variant. -/
def FilterOperator.debugName : FilterOperator → String
  | .eq => "Eq"
  | .in => "In"
  | .lt => "Lt"
  | .lte => "Lte"
  | .gt => "Gt"
  | .gte => "Gte"
  | .between => "Between"

section Recipe

variable (isDecimal : String → Bool) (dataset : DatasetKnowledge) (shape : ShapeOption)
  (params : Json)

/-- The slot of a mapping that may be used the way the mapping uses it. -/
def resolveSlot (mapping : DatasetRecipeFilter) : Except String FilterSlot := do
  let slot ← okOr (dataset.filters.find? fun slot => slot.id = mapping.filterId)
    ("dataset " ++ dataset.id ++ " has no filter " ++ mapping.filterId)
  failIf (mapping.operator ∉ slot.operators)
    ("dataset " ++ dataset.id ++ " filter " ++ slot.id ++ " does not allow operator " ++
      mapping.operator.debugName)
  failIf (mapping.parameter.isSome = mapping.value.isSome)
    ("dataset filter " ++ slot.id ++ " must declare exactly one of parameter or value")
  failIf (slot.inputPolicy = .exactIdentifier ∧
      (mapping.parameter = none ∨ mapping.value.isSome = true))
    ("dataset filter " ++ slot.id ++ " requires transient sensitive input parameter")
  pure slot

/-- The value of a mapping: a parameter of the request or a literal. -/
def mappedValue (mapping : DatasetRecipeFilter) : Except String Json :=
  match mapping.parameter, mapping.value with
  | some parameter, _ => okOr (params.get? parameter)
      ("missing dataset recipe parameter " ++ parameter)
  | none, some value => .ok value
  | none, none => .error "validated exactly one recipe value source"

/-- The filters of the recipe; an exact identifier is bound at execution only. -/
def resolveFilters : List DatasetRecipeFilter → Except String (List DatasetFilterSelection)
  | [] => .ok []
  | mapping :: rest => do
    let slot ← resolveSlot dataset mapping
    if slot.inputPolicy = .exactIdentifier then resolveFilters rest
    else do
      let value ← mappedValue params mapping
      failIf (validFilterValue isDecimal slot.kind mapping.operator value shape.rowCap = false)
        ("dataset filter " ++ slot.id ++ " has invalid value type or exceeds the shape row cap")
      let filters ← resolveFilters rest
      pure (⟨slot.id, mapping.operator, value⟩ :: filters)

def resolveRecipe (recipe : DatasetRecipe) : Except String DatasetSelection := do
  failIf (dataset.id ≠ recipe.datasetId)
    ("dataset recipe references unknown dataset " ++ recipe.datasetId)
  let shape ← okOr (dataset.shape recipe.shapeId)
    ("dataset " ++ dataset.id ++ " has no shape " ++ recipe.shapeId)
  forSome recipe.orderById fun orderById =>
    failIf (orderById ∉ shape.orderBy)
      ("dataset " ++ dataset.id ++ " shape " ++ shape.id ++ " does not allow order_by " ++
        orderById)
  failIf (isObject params = false) "dataset recipe parameters must be an object"
  let filters ← resolveFilters isDecimal dataset shape params recipe.filters
  forEach recipe.projection fun field =>
    failIf (field ∉ (shape.outputFieldsOf dataset).map (·.name))
      ("dataset " ++ dataset.id ++ " has no output field " ++ field)
  pure ⟨dataset.id, shape.id, recipe.orderById, filters, recipe.projection⟩

end Recipe

section Lemmas

variable {isDecimal : String → Bool} {dataset : DatasetKnowledge} {shape : ShapeOption}
  {params : Json} {selection : DatasetSelection} {recipe : DatasetRecipe}

theorem resolveFilters_slots {mappings : List DatasetRecipeFilter}
    {filters : List DatasetFilterSelection}
    (h : resolveFilters isDecimal dataset shape params mappings = .ok filters) :
    ∀ filter ∈ filters, ∃ slot ∈ dataset.filters, slot.id = filter.filterId ∧
      filter.operator ∈ slot.operators ∧ slot.inputPolicy = .ordinary := by
  induction mappings generalizing filters with
  | nil =>
    cases h
    simp
  | cons mapping rest ih =>
    simp only [resolveFilters, bind_eq_ok_iff] at h
    obtain ⟨slot, hslot, h⟩ := h
    split_ifs at h with hexact
    · exact ih h
    · simp only [bind_eq_ok_iff, exists_unit_iff, pure_eq_ok] at h
      obtain ⟨value, -, -, others, hothers, rfl⟩ := h
      simp only [resolveSlot, bind_eq_ok_iff, exists_unit_iff, okOr_eq_ok, failIf_eq_ok, not_not,
        pure_eq_ok] at hslot
      obtain ⟨found, hfound, hoperator, -, -, rfl⟩ := hslot
      have hpolicy : found.inputPolicy = .ordinary := by
        cases hcase : found.inputPolicy with
        | ordinary => rfl
        | exactIdentifier => exact absurd hcase hexact
      intro filter hfilter
      obtain rfl | hin := List.mem_cons.mp hfilter
      · exact ⟨found, List.mem_of_find?_eq_some hfound, rfl, hoperator, hpolicy⟩
      · exact ih hothers filter hin

/-- A resolved recipe selects declared, ordinary filters of its dataset. -/
theorem resolveRecipe_filters (h : resolveRecipe isDecimal dataset params recipe = .ok selection) :
    selection.datasetId = dataset.id ∧ dataset.id = recipe.datasetId ∧
      ∀ filter ∈ selection.filters, ∃ slot ∈ dataset.filters, slot.id = filter.filterId ∧
        filter.operator ∈ slot.operators ∧ slot.inputPolicy = .ordinary := by
  simp only [resolveRecipe, bind_eq_ok_iff, exists_unit_iff, failIf_eq_ok, not_not, pure_eq_ok] at h
  obtain ⟨hid, shape, -, -, -, filters, hfilters, -, rfl⟩ := h
  exact ⟨rfl, hid, resolveFilters_slots hfilters⟩

end Lemmas

end FineractReports.Dataset
