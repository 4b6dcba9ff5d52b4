import FineractReports.Knowledge.DatasetCompose
import FineractReports.Knowledge.DatasetResolve

/-!
# Executable combinations

Every statement text a dataset is prepared for: its shapes, each with one of its
orderings. Filters do not multiply the texts.
-/

namespace FineractReports.Dataset

def shapeCombinations (shape : ShapeOption) : List (String × Option String) :=
  if shape.orderBy = [] then [(shape.id, none)]
  else shape.orderBy.map fun orderById => (shape.id, some orderById)

def executableCombinations (dataset : DatasetKnowledge) : List (String × Option String) :=
  dataset.shapes.flatMap shapeCombinations

/-- The orderings a shape is enumerated with. -/
def Enumerated (shape : ShapeOption) (orderById : Option String) : Prop :=
  match orderById with
  | none => shape.orderBy = []
  | some id => id ∈ shape.orderBy

variable {dataset : DatasetKnowledge} {shape : ShapeOption}

theorem mem_shapeCombinations {shapeId : String} {orderById : Option String} :
    (shapeId, orderById) ∈ shapeCombinations shape ↔
      shape.id = shapeId ∧ Enumerated shape orderById := by
  unfold shapeCombinations Enumerated
  split_ifs with hnone
  · cases orderById with
    | none => simp [hnone, eq_comm]
    | some id => simp [hnone]
  · cases orderById with
    | none => simp [hnone]
    | some id => simp [and_comm]

theorem mem_executableCombinations {shapeId : String} {orderById : Option String} :
    (shapeId, orderById) ∈ executableCombinations dataset ↔
      ∃ shape ∈ dataset.shapes, shape.id = shapeId ∧ Enumerated shape orderById := by
  simp [executableCombinations, mem_shapeCombinations]

theorem shape_mem {shapeId : String} (h : dataset.shape shapeId = some shape) :
    shape ∈ dataset.shapes ∧ shape.id = shapeId :=
  ⟨List.mem_of_find?_eq_some h, by simpa using List.find?_some h⟩

/-- The shapes of a valid dataset have distinct ids. -/
theorem validateDataset_shapes_nodup (h : validateDataset dataset = .ok ()) :
    (dataset.shapes.map (·.id)).Nodup := by
  simp only [validateDataset, bind_eq_ok_iff, exists_unit_iff] at h
  obtain ⟨-, -, -, -, hshapes, -⟩ := h
  have hfresh : ∀ (before : List ShapeOption) (shape : ShapeOption),
      validateShape dataset before shape = .ok () → shape.id ∉ before.map (·.id) := by
    intro before shape hshape
    simp only [validateShape, bind_eq_ok_iff, exists_unit_iff, failIf_eq_ok] at hshape
    exact hshape.1
  have hnodup : (([] ++ dataset.shapes).map fun shape : ShapeOption => shape.id).Nodup :=
    forEachAfter_nodup hfresh hshapes List.nodup_nil
  exact hnodup

/-- With distinct shape ids a pair is enumerated by its own shape. -/
theorem mem_executableCombinations_of_shape {shapeId : String} {orderById : Option String}
    (hids : (dataset.shapes.map (·.id)).Nodup) (h : dataset.shape shapeId = some shape) :
    (shapeId, orderById) ∈ executableCombinations dataset ↔ Enumerated shape orderById := by
  obtain ⟨hmem, hid⟩ := shape_mem h
  rw [mem_executableCombinations]
  constructor
  · rintro ⟨other, hother, hotherId, henumerated⟩
    obtain rfl := List.inj_on_of_nodup_map hids hother hmem (hotherId.trans hid.symm)
    exact henumerated
  · exact fun henumerated => ⟨shape, hmem, hid, henumerated⟩

/-- What a resolved recipe takes over, and what it checked. -/
theorem resolveRecipe_shape {isDecimal : String → Bool} {params : Json} {recipe : DatasetRecipe}
    {selection : DatasetSelection}
    (h : resolveRecipe isDecimal dataset params recipe = .ok selection) :
    ∃ shape, dataset.shape recipe.shapeId = some shape ∧ selection.shapeId = recipe.shapeId ∧
      selection.orderById = recipe.orderById ∧
      (∀ orderById, recipe.orderById = some orderById → orderById ∈ shape.orderBy) ∧
      resolveFilters isDecimal dataset shape params recipe.filters = .ok selection.filters := by
  simp only [resolveRecipe, bind_eq_ok_iff, exists_unit_iff, okOr_eq_ok, failIf_eq_ok, not_not,
    pure_eq_ok] at h
  obtain ⟨-, shape, hshape, horder, -, filters, hfilters, -, rfl⟩ := h
  refine ⟨shape, hshape, (shape_mem hshape).2, rfl, fun orderById heq => ?_, hfilters⟩
  rw [heq] at horder
  simpa using horder

/-- A resolved recipe selects an enumerated pair exactly when it names an ordering or
its shape has none. -/
theorem resolveRecipe_enumerated_iff {isDecimal : String → Bool} {params : Json}
    {recipe : DatasetRecipe} {selection : DatasetSelection}
    (hids : (dataset.shapes.map (·.id)).Nodup) (hshape : dataset.shape recipe.shapeId = some shape)
    (h : resolveRecipe isDecimal dataset params recipe = .ok selection) :
    (selection.shapeId, selection.orderById) ∈ executableCombinations dataset ↔
      recipe.orderById.isSome = true ∨ shape.orderBy = [] := by
  obtain ⟨other, hother, hid, horder, hlisted, -⟩ := resolveRecipe_shape h
  obtain rfl := Option.some.inj (hshape.symm.trans hother)
  rw [hid, horder, mem_executableCombinations_of_shape hids hshape]
  cases hnamed : recipe.orderById with
  | none => simp [Enumerated]
  | some orderById => simpa [Enumerated] using hlisted orderById hnamed

end FineractReports.Dataset
