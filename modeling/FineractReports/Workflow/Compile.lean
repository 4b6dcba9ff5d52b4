import FineractReports.Workflow.Verify

/-!
# The workflow compiler

A proposal of one capability becomes a query node whose inputs are acquired one
policy at a time; an acquisition may put a resolver probe or a clarification in
front of the query. A proposal that brings its own nodes is checked against the
catalog and its iterations are expanded.
-/

namespace FineractReports.Workflow

open Dataset (ShapeOption ShapeRole DatasetRecipe FilterSlot)

/-- What a turn already knows: the constraint fields that hold a value and the
values other nodes provide. -/
structure AcquisitionFacts where
  deterministic : List ConstraintField
  verifiedUser : List ConstraintField
  safePrior : List (String × NodeId)
  priorSteps : List (String × (NodeId × String))
deriving DecidableEq

def AcquisitionFacts.empty : AcquisitionFacts := ⟨[], [], [], []⟩

inductive CompileError where
  | unknownCapability (capability : String)
  | unsupported
  | groupedQueryPreferred (shape : String)
  | budgetExceeded
  | invalidProposal
  | comparisonFactsDiverge (node : NodeId)
deriving DecidableEq

def CompileError.message : CompileError → String
  | unknownCapability _ => "requested capability is unavailable"
  | unsupported => "request is unsupported"
  | groupedQueryPreferred shape =>
    "grouped shape " ++ shape ++ " must be used instead of iteration"
  | budgetExceeded => "workflow exceeds configured budget"
  | invalidProposal => "workflow proposal is invalid"
  | comparisonFactsDiverge node =>
    "comparison node " ++ node.value ++ " has sources with differing scope or temporal facts"

def constraintFor (parameter : String) : Option ConstraintField :=
  if parameter = "client_id" then some .clientId
  else if parameter = "office_ids" then some .officeIds
  else if parameter = "product_ids" then some .productIds
  else if parameter = "currency_code" then some .currencyCode
  else if parameter = "from_date" then some .fromDate
  else if parameter = "to_date" then some .toDate
  else if parameter = "limit" then some .limitValue
  else none

def parseKind (kind : String) : ParameterType :=
  if kind = "date" then .date
  else if kind = "integer_array" then .integerArray
  else if kind = "string" then .string
  else if kind = "currency" then .currency
  else .integer

def mapCardinality : Dataset.Cardinality → Cardinality
  | .zero => .zero
  | .one => .one
  | .many => .many

def nodePolicy (capability : Option String) : NodePolicy where
  requiredCapability := capability
  officeScope := .authorizedIntersection
  maxSensitivity := .pii
  piiRequired := false

def outputMode (value : String) : OutputMode :=
  if value = "scalar" then .scalar
  else if value = "comparison" then .comparison
  else if value = "grouped" then .grouped
  else if value = "not_found" then .notFound
  else .table

def approvedCapability? (catalog : KnowledgeCatalog) (id : String) :
    Option CapabilityKnowledge :=
  catalog.capabilities.find? fun capability =>
    capability.id = id ∧ capability.status = "approved_mvp"

/-- Does a recipe filter of that parameter land in an exact-identifier slot? -/
def isExactIdentifierParam (capability : CapabilityKnowledge) (name : String)
    (catalog : KnowledgeCatalog) : Bool :=
  capability.datasetRecipe.any fun recipe =>
    (catalogDataset? catalog recipe.datasetId).any fun dataset =>
      recipe.filters.any fun mapping => decide (mapping.parameter = some name) &&
        dataset.filters.any fun slot =>
          decide (slot.id = mapping.filterId ∧ slot.inputPolicy = .exactIdentifier)

/-- A binding source with the nodes and edges that provide it. -/
structure Acquired where
  source : BindingSource
  nodes : List WorkflowNode
  edges : List WorkflowEdge
deriving DecidableEq

def defaultResolution : List ResolutionStrategy :=
  [.authorizedScope, .catalogDefault, .deterministicExtraction, .verifiedUserText,
   .safePriorSelection, .priorStep, .authorizedDataProbe, .clarify]

def resolutionOrder (policy : ParameterPolicy) : List ResolutionStrategy :=
  if policy.resolution = [] then defaultResolution else policy.resolution

def terminalBudget : NodeBudget := ⟨0, 0, 0⟩

def scopeInput : NodeInput := ⟨"office_ids", .integerArray, .authorizedScope⟩

/-- A node that runs no query. -/
def controlNode (id : NodeId) (kind : NodeKind) (idempotency : Idempotency) : WorkflowNode where
  id := id
  kind := kind
  inputs := []
  outputs := []
  policy := nodePolicy none
  budget := terminalBudget
  idempotency := idempotency
  retry := ⟨0⟩

def resolverNode (id : NodeId) (dataset : DatasetKnowledge) (shape : ShapeOption)
    (output : Dataset.ProducedSlot) (backing : CapabilityKnowledge) : WorkflowNode where
  id := id
  kind := .resolveEntity
    ⟨dataset.id, shape.id, (dataset.entity.map (·.kind)).getD "entity", shape.rowCap.getD 25⟩
  inputs := [scopeInput]
  outputs :=
    [⟨output.slot, parseKind output.kind, output.sensitivity, mapCardinality output.cardinality⟩]
  policy := nodePolicy (some backing.id)
  budget := ⟨dataset.timeoutMs.getD 5000, shape.rowCap.getD 25, 1⟩
  idempotency := .executeOnce
  retry := ⟨0⟩

/-- The approved capability whose recipe selects exactly this dataset and shape. -/
def backingCapability? (catalog : KnowledgeCatalog) (probe : ProbeRef) :
    Option CapabilityKnowledge :=
  catalog.capabilities.find? fun capability =>
    capability.status = "approved_mvp" ∧ capability.datasetRecipe.any (fun recipe =>
      recipe.datasetId = probe.datasetId ∧ recipe.shapeId = probe.shapeId) = true

/-- `NodeId::new(format!(..))`, an invalid proposal when the id is not valid. -/
def policyNodeId (stem : String) (policy : ParameterPolicy) : Except CompileError NodeId :=
  okOr (NodeId.new (stem ++ policy.name)) .invalidProposal

/-- The nodes of a probe: resolver, branch on its rows, not-found terminal and
selection. -/
def probeGraph (resolve branch notFound select execute : NodeId) (resolver : WorkflowNode)
    (slot : String) : Acquired where
  source := .authorizedDataProbe resolve slot
  nodes :=
    [resolver,
     controlNode branch (.cardinalityBranch ⟨resolve, notFound, execute, select⟩) .pure,
     controlNode notFound (.complete ⟨.notFound⟩) .pure,
     controlNode select (.clarificationInterrupt ⟨"select_entity", resolve, execute⟩) .replayable]
  edges :=
    [⟨resolve, branch, .always⟩, ⟨branch, notFound, .cardinality .zero⟩,
     ⟨branch, execute, .cardinality .one⟩, ⟨branch, select, .cardinality .many⟩,
     ⟨select, execute, .clarificationAnswered⟩]

def probeSource (policy : ParameterPolicy) (probe : ProbeRef) (execute : NodeId)
    (catalog : KnowledgeCatalog) : Except CompileError Acquired := do
  let dataset ← okOr (catalogDataset? catalog probe.datasetId) .invalidProposal
  let shape ← okOr ((dataset.shape probe.shapeId).filter
    fun shape => shape.role = .resolver ∨ shape.role = .probe) .invalidProposal
  let resolve ← policyNodeId "resolve_" policy
  let output ← okOr (shape.produces.find? fun slot => slot.slot = probe.outputSlot)
    .invalidProposal
  let backing ← okOr (backingCapability? catalog probe) .invalidProposal
  let branch ← policyNodeId "branch_" policy
  let notFound ← policyNodeId "not_found_" policy
  let select ← policyNodeId "select_" policy
  return probeGraph resolve branch notFound select execute
    (resolverNode resolve dataset shape output backing) probe.outputSlot

def clarifyGraph (clarify execute : NodeId) : Acquired where
  source := .safePriorSelection clarify
  nodes :=
    [controlNode clarify (.clarificationInterrupt ⟨"collect_fields", execute, execute⟩) .replayable]
  edges := [⟨clarify, execute, .clarificationAnswered⟩]

def clarifySource (policy : ParameterPolicy) (execute : NodeId) : Except CompileError Acquired :=
  (policyNodeId "clarify_" policy).map fun clarify => clarifyGraph clarify execute

def bound (source : BindingSource) : Acquired := ⟨source, [], []⟩

/-- One strategy; none when the next one has to be tried. -/
def strategySource (policy : ParameterPolicy) (facts : AcquisitionFacts) (execute : NodeId)
    (catalog : KnowledgeCatalog) (strategy : ResolutionStrategy) :
    Except CompileError (Option Acquired) :=
  let fields := catalog.bindingFields policy.name
  match strategy with
  | .authorizedScope =>
    .ok (if policy.name = "office_ids" then some (bound .authorizedScope) else none)
  | .catalogDefault => .ok (if policy.default.isSome then some (bound .catalogDefault) else none)
  | .deterministicExtraction =>
    .ok ((fields.find? fun field => field ∈ facts.deterministic).map fun field =>
      bound (.deterministicExtraction field))
  | .verifiedUserText =>
    .ok ((fields.find? fun field => field ∈ facts.verifiedUser).map fun field =>
      bound (.verifiedUserText field))
  | .safePriorSelection =>
    .ok ((Assoc.get? facts.safePrior policy.name).map fun node => bound (.safePriorSelection node))
  | .priorStep =>
    .ok ((Assoc.get? facts.priorSteps policy.name).map fun step =>
      bound (.priorStep step.1 step.2))
  | .authorizedDataProbe =>
    match policy.probe with
    | some probe => (probeSource policy probe execute catalog).map some
    | none => .ok none
  | .clarify =>
    if policy.userRequired ∨ policy.required then (clarifySource policy execute).map some
    else .ok none

def firstSource (policy : ParameterPolicy) (facts : AcquisitionFacts) (execute : NodeId)
    (catalog : KnowledgeCatalog) : List ResolutionStrategy → Except CompileError Acquired
  | [] => .error .unsupported
  | strategy :: rest =>
    strategySource policy facts execute catalog strategy >>= fun found =>
      match found with
      | some acquired => .ok acquired
      | none => firstSource policy facts execute catalog rest

def acquisitionSource (capability : CapabilityKnowledge) (policy : ParameterPolicy)
    (facts : AcquisitionFacts) (execute : NodeId) (catalog : KnowledgeCatalog) :
    Except CompileError Acquired :=
  if isExactIdentifierParam capability policy.name catalog then .ok (bound .exactSensitiveInput)
  else firstSource policy facts execute catalog (resolutionOrder policy)

/-- Names of the parameters the capability's query requires. -/
def queryRequired (capability : CapabilityKnowledge) (catalog : KnowledgeCatalog) : List String :=
  match catalogQuery? catalog capability.queryId with
  | some query => (query.parameters.filter (·.required)).map (·.name)
  | none => []

/-- The policies an input is made for. -/
def acquiredPolicies (capability : CapabilityKnowledge) (catalog : KnowledgeCatalog) :
    List ParameterPolicy :=
  capability.parameterPolicies.filter fun policy => policy.name ≠ "office_ids" ∧
    (policy.required = true ∨ policy.name ∈ queryRequired capability catalog)

/-- The inputs of the query node with the nodes and edges in front of it. -/
structure Acquisition where
  inputs : List NodeInput
  nodes : List WorkflowNode
  edges : List WorkflowEdge
deriving DecidableEq

def acquireAll (capability : CapabilityKnowledge) (facts : AcquisitionFacts) (execute : NodeId)
    (catalog : KnowledgeCatalog) : List ParameterPolicy → Except CompileError Acquisition
  | [] => .ok ⟨[], [], []⟩
  | policy :: rest => do
    let acquired ← acquisitionSource capability policy facts execute catalog
    let others ← acquireAll capability facts execute catalog rest
    return ⟨⟨policy.name, policy.kind, acquired.source⟩ :: others.inputs,
      acquired.nodes ++ others.nodes, acquired.edges ++ others.edges⟩

def acquisitionInputs (capability : CapabilityKnowledge) (facts : AcquisitionFacts)
    (execute : NodeId) (catalog : KnowledgeCatalog) : Except CompileError Acquisition :=
  (acquireAll capability facts execute catalog (acquiredPolicies capability catalog)).map
    fun acquisition => { acquisition with inputs := scopeInput :: acquisition.inputs }

def executeId : NodeId := ⟨"execute_query", by decide⟩

def completeId : NodeId := ⟨"complete", NodeId.isValid_complete⟩

/-- `max_limit.unwrap_or(100).try_into().unwrap_or(100)`. -/
def rowCapOf (maxLimit : Option ℤ) : UInt32 :=
  let limit := maxLimit.getD 100
  if 0 ≤ limit ∧ limit < 2 ^ 32 then UInt32.ofNat limit.toNat else 100

def executeNode (capability : CapabilityKnowledge) (catalog : KnowledgeCatalog)
    (budgets : WorkflowBudgets) (inputs : List NodeInput) : WorkflowNode where
  id := executeId
  kind := .executeQuery
    { capabilityId := some capability.id
      datasetId := capability.datasetRecipe.map (·.datasetId)
      shapeId := capability.datasetRecipe.map (·.shapeId)
      queryId := some capability.queryId
      iterateOver := none }
  inputs := inputs
  outputs := []
  policy := nodePolicy (some capability.id)
  budget :=
    { timeoutMs := ((catalogQuery? catalog capability.queryId).bind (·.timeoutMs)).getD 5000
      rowCap := rowCapOf capability.guards.maxLimit
      queryCost := 1 }
  idempotency := .executeOnce
  retry := ⟨budgets.maxNodeRetries⟩

def successNode : WorkflowNode := controlNode completeId (.complete ⟨.success⟩) .pure

def findApproved (catalog : KnowledgeCatalog) (id : String) :
    Except CompileError CapabilityKnowledge :=
  okOr (approvedCapability? catalog id) (.unknownCapability id)

/-- The resources a proposed query node names. -/
def resolveQueryResources (execute : ExecuteQueryNode) (catalog : KnowledgeCatalog) :
    Except CompileError Unit := do
  forSome execute.capabilityId fun id => do
    let capability ← findApproved catalog id
    failIf (execute.queryId ≠ some capability.queryId ∨
      execute.datasetId ≠ capability.datasetRecipe.map (·.datasetId) ∨
      execute.shapeId ≠ capability.datasetRecipe.map (·.shapeId)) .invalidProposal
  failIf (execute.queryId.any (fun id => (catalogQuery? catalog id).isNone) = true)
    .invalidProposal
  forSome execute.datasetId fun datasetId => forSome execute.shapeId fun shapeId => do
    let dataset ← okOr (catalogDataset? catalog datasetId) .invalidProposal
    failIf ((dataset.shape shapeId).isNone = true) .invalidProposal

def resolveNodeResources (node : WorkflowNode) (catalog : KnowledgeCatalog) :
    Except CompileError Unit :=
  match node.kind with
  | .executeQuery execute => resolveQueryResources execute catalog
  | .resolveEntity resolve => do
    let dataset ← okOr (catalogDataset? catalog resolve.datasetId) .invalidProposal
    failIf (¬ (dataset.shape resolve.resolverShapeId).any
      (fun shape => shape.role = .resolver ∨ shape.role = .probe) = true) .invalidProposal
  | _ => .ok ()

def resolveProposalResources (proposal : WorkflowProposal) (catalog : KnowledgeCatalog) :
    Except CompileError Unit := do
  forEach proposal.capabilityIds fun id => (findApproved catalog id).map fun _ => ()
  forEach proposal.nodes fun node => resolveNodeResources node catalog

def siblingIds (id : NodeId) : ℕ → ℕ → Except CompileError (List NodeId)
  | _, 0 => .ok []
  | index, count + 1 => do
    let sibling ← okOr (NodeId.new (id.value ++ "_iter_" ++ toString index)) .invalidProposal
    let rest ← siblingIds id (index + 1) count
    return sibling :: rest

/-- The siblings of an iterated query node. -/
def iterationSiblings (node : WorkflowNode) (execute : ExecuteQueryNode) (iterate : IterateOver)
    (budgets : WorkflowBudgets) (catalog : KnowledgeCatalog) :
    Except CompileError (List NodeId) := do
  failIf (iterate.max = 0 ∨ iterate.max.toUInt16 > budgets.maxQueryCount.toUInt16) .budgetExceeded
  let datasetId ← okOr execute.datasetId .invalidProposal
  let shapeId ← okOr execute.shapeId .invalidProposal
  let dataset ← okOr (catalogDataset? catalog datasetId) .invalidProposal
  forSome (dataset.shapes.find? fun shape => shape.groupedBy = some iterate.slot) fun grouped =>
    .error (.groupedQueryPreferred grouped.id)
  failIf ((dataset.shape shapeId).isNone = true ∨
    ¬ ∃ filter ∈ dataset.filters, filter.kind = "integer" ∧ .in ∈ filter.operators)
    .invalidProposal
  siblingIds node.id 0 iterate.max.toNat

/-- What a node is replaced by, and the ids its edges are redirected to. -/
def expandNode (node : WorkflowNode) (budgets : WorkflowBudgets) (catalog : KnowledgeCatalog) :
    Except CompileError (List WorkflowNode × Option (List NodeId)) :=
  match node.kind with
  | .executeQuery execute =>
    match execute.iterateOver with
    | none => .ok ([node], none)
    | some iterate => do
      let siblings ← iterationSiblings node execute iterate budgets catalog
      return (siblings.map fun sibling =>
        { node with id := sibling, kind := .executeQuery { execute with iterateOver := none } },
        some siblings)
  | _ => .ok ([node], none)

def expandNodes (budgets : WorkflowBudgets) (catalog : KnowledgeCatalog) :
    List WorkflowNode → List (NodeId × List NodeId) →
      Except CompileError (List WorkflowNode × List (NodeId × List NodeId))
  | [], replacements => .ok ([], replacements)
  | node :: rest, replacements => do
    let (nodes, siblings) ← expandNode node budgets catalog
    let (others, all) ← expandNodes budgets catalog rest
      (match siblings with
       | some ids => Assoc.insert replacements node.id ids
       | none => replacements)
    return (nodes ++ others, all)

def redirect (replacements : List (NodeId × List NodeId)) (edge : WorkflowEdge) :
    List WorkflowEdge :=
  let ends (id : NodeId) : List NodeId := (Assoc.get? replacements id).getD [id]
  (ends edge.source).flatMap fun source =>
    (ends edge.target).map fun target => ⟨source, target, edge.condition⟩

def expandIteration (workflow : ExecutionWorkflow) (catalog : KnowledgeCatalog) :
    Except CompileError ExecutionWorkflow := do
  let (expanded, replacements) ← expandNodes workflow.budgets catalog workflow.nodes []
  if replacements = [] then return { workflow with nodes := expanded }
  failIf ((expanded.map fun node => node.budget.queryCost.toUInt16).sum >
    workflow.budgets.maxQueryCount.toUInt16) .budgetExceeded
  return { workflow with
    nodes := expanded
    edges := workflow.edges.flatMap (redirect replacements) }

def isScopeOrTemporal (parameter : String) : Bool :=
  (constraintFor parameter).any fun field =>
    decide (field ∈ [ConstraintField.clientId, .officeIds, .productIds, .fromDate, .toDate])

/-- The binding sources of a node's scope and temporal parameters, as a map. -/
def comparisonFacts (node : WorkflowNode) : List (String × BindingSource) :=
  (node.inputs.filter fun input => isScopeOrTemporal input.parameter).foldl
    (fun facts input => Assoc.insert facts input.parameter input.source) []

def sameFacts (a b : List (String × BindingSource)) : Bool :=
  (Assoc.keys a ++ Assoc.keys b).all fun key => decide (Assoc.get? a key = Assoc.get? b key)

def checkSources (workflow : ExecutionWorkflow) (compose : NodeId) :
    List NodeId → Option (List (String × BindingSource)) → Except CompileError Unit
  | [], _ => .ok ()
  | source :: rest, reference => do
    let node ← okOr (workflow.node? source) .invalidProposal
    match reference with
    | none => checkSources workflow compose rest (some (comparisonFacts node))
    | some facts => do
      failIf (sameFacts facts (comparisonFacts node) = false) (.comparisonFactsDiverge compose)
      checkSources workflow compose rest reference

def checkComparisonNode (workflow : ExecutionWorkflow) (node : WorkflowNode) :
    Except CompileError Unit :=
  match node.kind with
  | .composeResult compose =>
    if compose.composition = .comparison then checkSources workflow node.id compose.sources none
    else .ok ()
  | _ => .ok ()

def checkComparisonFacts (workflow : ExecutionWorkflow) : Except CompileError Unit :=
  forEach workflow.nodes (checkComparisonNode workflow)

/-- The workflow of one capability, given what was acquired for it. -/
def capabilityWorkflow (capability : CapabilityKnowledge) (catalog : KnowledgeCatalog)
    (workflowId catalogVersion : Uuid) (budgets : WorkflowBudgets) (acquisition : Acquisition) :
    ExecutionWorkflow where
  id := workflowId
  contractVersion := WORKFLOW_CONTRACT_VERSION
  catalogVersion := catalogVersion
  nodes := acquisition.nodes ++ [executeNode capability catalog budgets acquisition.inputs,
    successNode]
  edges := acquisition.edges ++ [⟨executeId, completeId, .always⟩]
  budgets := budgets
  failPolicy := .failFast
  outputContract := ⟨outputMode capability.outputMode, false, .pii⟩

/-- The workflow of a proposal that brings its own nodes. -/
def proposedWorkflow (proposal : WorkflowProposal) (workflowId catalogVersion : Uuid)
    (budgets : WorkflowBudgets) : ExecutionWorkflow where
  id := workflowId
  contractVersion := WORKFLOW_CONTRACT_VERSION
  catalogVersion := catalogVersion
  nodes := proposal.nodes
  edges := proposal.edges
  budgets := budgets
  failPolicy := .failFast
  outputContract := ⟨.table, false, .pii⟩

/-- The workflow id is the fresh one the compiler draws. -/
def compileWithFacts (proposal : WorkflowProposal) (catalog : KnowledgeCatalog)
    (workflowId catalogVersion : Uuid) (budgets : WorkflowBudgets) (facts : AcquisitionFacts) :
    Except CompileError ExecutionWorkflow :=
  if proposal.nodes ≠ [] then do
    resolveProposalResources proposal catalog
    let workflow ← expandIteration (proposedWorkflow proposal workflowId catalogVersion budgets)
      catalog
    checkComparisonFacts workflow
    return workflow
  else do
    forEach proposal.capabilityIds fun id => (findApproved catalog id).map fun _ => ()
    let capabilityId ← okOr proposal.capabilityIds.head? .unsupported
    let capability ← findApproved catalog capabilityId
    let acquisition ← acquisitionInputs capability facts executeId catalog
    let workflow ← expandIteration
      (capabilityWorkflow capability catalog workflowId catalogVersion budgets acquisition) catalog
    checkComparisonFacts workflow
    return workflow

def compile (proposal : WorkflowProposal) (catalog : KnowledgeCatalog)
    (workflowId catalogVersion : Uuid) (budgets : WorkflowBudgets) :
    Except CompileError ExecutionWorkflow :=
  compileWithFacts proposal catalog workflowId catalogVersion budgets .empty

end FineractReports.Workflow
