import FineractReports.Assistant.ClarificationPlanner
import FineractReports.Execution.Parameters

/-!
# Clarification answers in the runtime

How the patch of an accepted answer is merged into the intent of the turn, and what
the planner is told about the turn before it asks a question.
-/

namespace FineractReports.Execution

def patchLimit (patch : ConstraintPatch) : ℤ :=
  match Assoc.get? patch .limitValue with
  | some (.integer value) => value
  | _ => 1

def applyConstraint (patch : ConstraintPatch) (constraints : AssistantConstraints)
    (entry : ConstraintField × TypedFactValue) : AssistantConstraints :=
  match entry with
  | (.fromDate, .date value) => { constraints with fromDate := some value }
  | (.toDate, .date value) => { constraints with toDate := some value }
  | (.limitValue, .integer value) =>
    match constraints.quantity with
    | some (.topN _) => { constraints with quantity := some (.topN value) }
    | _ => { constraints with quantity := some (.limit value) }
  | (.limitMode, .limitMode .topN) =>
    { constraints with quantity := some (.topN (patchLimit patch)) }
  | (.limitMode, .limitMode .limit) =>
    { constraints with quantity := some (.limit (patchLimit patch)) }
  | (.limitMode, .limitMode .all) => { constraints with quantity := some .all }
  | (.limitMode, .limitMode .default) => { constraints with quantity := some .default }
  | _ => constraints

/-- Entries of the patch without a place in the constraints are dropped. -/
def applyConstraintPatch (intent : AssistantIntent) (patch : ConstraintPatch) : AssistantIntent :=
  { intent with constraints := patch.entries.foldl (applyConstraint patch) intent.constraints }

/-- The mode and the value a quantity states. -/
def quantityFacts (quantity : Quantity) : LimitMode × Option ℤ :=
  match quantity with
  | .topN value => (.topN, some value)
  | .limit value => (.limit, some value)
  | .all => (.all, none)
  | .default => (.default, none)

def fillGapSome (facts : Facts) (field : ConstraintField) (value : Option TypedFactValue) :
    Facts :=
  match value with
  | some value => fillGap facts field value
  | none => facts

/-- The patch, with its gaps filled from the constraints of the intent. -/
def clarificationFacts (intent : Option AssistantIntent) (patch : ConstraintPatch) :
    ClarificationFacts :=
  match intent with
  | none => patch
  | some intent =>
    let constraints := intent.constraints
    let values := fillGapSome patch .fromDate (constraints.fromDate.map .date)
    let values := fillGapSome values .toDate (constraints.toDate.map .date)
    let quantity := constraints.quantity.map quantityFacts
    let values := fillGapSome values .limitMode (quantity.map fun stated => .limitMode stated.1)
    fillGapSome values .limitValue ((quantity.bind (·.2)).map .integer)

/-- The planner's question as the next revision of the existing one. -/
def plannedClarification (toUppercase : Char → String) (catalog : KnowledgeCatalog)
    (candidateIds : List String) (intent : Option AssistantIntent) (patch : ConstraintPatch)
    (sourceIntent : Option SourceIntentSnapshot) (existing : Option ClarificationPayload)
    (newId : Uuid) : ClarificationPlanResult :=
  let id := (existing.map (·.id)).getD newId
  match ClarificationPlanner.plan toUppercase catalog candidateIds
    (clarificationFacts intent patch) id with
  | .clarify payload approvedDefaults => .clarify
      { payload with
        revision := (existing.map (·.revision + 1)).getD 1
        attempt := (existing.map (·.attempt)).getD 1
        sourceIntent := sourceIntent } approvedDefaults
  | .complete capabilityId approvedDefaults => .complete capabilityId approvedDefaults

/-- A patch reaches the dates and the quantity, nothing else of the constraints. -/
theorem applyConstraint_productIds (patch : ConstraintPatch) (constraints : AssistantConstraints)
    (entry : ConstraintField × TypedFactValue) :
    (applyConstraint patch constraints entry).productIds = constraints.productIds := by
  unfold applyConstraint
  split
  case h_3 => split <;> rfl
  all_goals rfl

theorem applyConstraintPatch_productIds (intent : AssistantIntent) (patch : ConstraintPatch) :
    (applyConstraintPatch intent patch).constraints.productIds = intent.constraints.productIds := by
  unfold applyConstraintPatch
  generalize intent.constraints = constraints
  induction patch.entries generalizing constraints with
  | nil => rfl
  | cons entry rest ih => rw [List.foldl_cons, ih, applyConstraint_productIds]

theorem applyConstraintPatch_entities (intent : AssistantIntent) (patch : ConstraintPatch) :
    (applyConstraintPatch intent patch).entities = intent.entities := rfl

end FineractReports.Execution
