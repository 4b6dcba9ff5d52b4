import FineractReports.Execution.Plan
import FineractReports.Knowledge.DatasetResolve
import FineractReports.Workflow.DataTools

/-!
# The plan of a tool request

The plan the data executor builds from the request of a workflow node and the parameters
resolved when its capability was planned.
-/

namespace FineractReports.Execution

open Workflow Dataset

/-- Bindings the runner left open are filled from the resolved parameters; the others are
the runner's own and stay. -/
def fillOpenBindings (parameters resolvedParams : Bindings) : Bindings :=
  parameters.map fun (name, value) =>
    if value.isNull = true then (name, (Assoc.get? resolvedParams name).getD value)
    else (name, value)

/-- The dataset selection of a capability that declares a recipe. -/
def recipeSelection (isDecimal : String → Bool) (catalog : KnowledgeCatalog)
    (capability : CapabilityKnowledge) (params : Json) : Except String (Option DatasetSelection) :=
  match capability.datasetRecipe with
  | none => .ok none
  | some recipe => do
    let dataset ← okOr (catalog.datasets.find? fun dataset => dataset.id = recipe.datasetId)
      ("dataset " ++ recipe.datasetId ++ " not found for capability " ++ capability.id)
    let selection ← resolveRecipe isDecimal dataset params recipe
    pure (some selection)

def buildQueryRequest (isDecimal : String → Bool) (request : DataToolRequest)
    (catalog : KnowledgeCatalog) (resolvedParams : Bindings) : Except String ExecutionPlan := do
  let capability ← okOr
    (catalog.capabilities.find? fun capability => capability.id = request.capabilityId)
    ("capability " ++ request.capabilityId ++ " not found in catalog")
  let params := Json.obj (fillOpenBindings request.parameters resolvedParams)
  let datasetSelection ← recipeSelection isDecimal catalog capability params
  pure
    { domain := capability.domain
      capability := request.capabilityId
      queryId := capability.queryId
      datasetSelection := datasetSelection
      outputMode := capability.outputMode
      params := params }

end FineractReports.Execution
