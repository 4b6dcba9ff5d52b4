import FineractReports.Knowledge.Model

/-!
# The workflow contract

Typed nodes, conditional edges and the budgets a run shares. A node id carries
the proof that it matches the pattern its constructor checks.
-/

namespace FineractReports.Workflow

/-- Node ids match `^[a-z][a-z0-9_]{0,47}$`. Every admitted character is one
byte, so the length is counted in characters. -/
def NodeId.IsValid (value : String) : Prop :=
  (1 ≤ value.toList.length ∧ value.toList.length ≤ 48) ∧
    value.toList.head?.any Char.isLower = true ∧
    value.toList.all (fun c => c.isLower || c.isDigit || c = '_') = true

instance (value : String) : Decidable (NodeId.IsValid value) := by
  unfold NodeId.IsValid; infer_instance

structure NodeId where
  value : String
  valid : NodeId.IsValid value
deriving DecidableEq

/-! Ids that several workflows use. -/

theorem NodeId.isValid_first : NodeId.IsValid "first" := by decide
theorem NodeId.isValid_second : NodeId.IsValid "second" := by decide
theorem NodeId.isValid_branch : NodeId.IsValid "branch" := by decide
theorem NodeId.isValid_compose : NodeId.IsValid "compose" := by decide
theorem NodeId.isValid_execute : NodeId.IsValid "execute" := by decide
theorem NodeId.isValid_complete : NodeId.IsValid "complete" := by decide

def NodeId.new (value : String) : Option NodeId :=
  if h : NodeId.IsValid value then some ⟨value, h⟩ else none

theorem NodeId.new_eq_some {value : String} {id : NodeId} :
    NodeId.new value = some id ↔ id.value = value := by
  unfold NodeId.new
  constructor
  · intro h
    split_ifs at h
    exact congrArg NodeId.value (Option.some.inj h).symm
  · rintro rfl
    rw [dif_pos id.valid]

@[ext] theorem NodeId.ext {a b : NodeId} (h : a.value = b.value) : a = b := by
  cases a; cases b; simp_all

structure WorkflowBudgets where
  sharedTimeoutMs : UInt64
  sharedRowCap : UInt32
  maxQueryCount : UInt8
  maxParallelQueries : UInt8
  maxModelTurns : UInt8
  maxNodeRetries : UInt8
deriving DecidableEq

inductive FailPolicy where
  | failFast | continueLabelled
deriving DecidableEq, Repr

inductive OutputMode where
  | table | scalar | comparison | grouped | notFound
deriving DecidableEq, Repr

structure OutputContract where
  mode : OutputMode
  allowsPartial : Bool
  maxSensitivity : Sensitivity
deriving DecidableEq, Repr

structure ResolveEntityNode where
  datasetId : String
  resolverShapeId : String
  entityKind : String
  probeRowCap : UInt32
deriving DecidableEq

structure IterateOver where
  source : NodeId
  slot : String
  max : UInt8
deriving DecidableEq

structure ExecuteQueryNode where
  capabilityId : Option String
  datasetId : Option String
  shapeId : Option String
  queryId : Option String
  iterateOver : Option IterateOver
deriving DecidableEq

structure CardinalityBranchNode where
  source : NodeId
  zero : NodeId
  one : NodeId
  many : NodeId
deriving DecidableEq

structure ClarificationInterruptNode where
  clarificationKind : String
  optionSource : NodeId
  resume : NodeId
deriving DecidableEq

inductive Composition where
  | single | comparison | grouped
deriving DecidableEq, Repr

structure ComposeResultNode where
  sources : List NodeId
  composition : Composition
deriving DecidableEq

inductive TerminalState where
  | success | unsupported | notFound | failedOperational
deriving DecidableEq, Repr

structure CompleteNode where
  terminal : TerminalState
deriving DecidableEq, Repr

inductive NodeKind where
  | resolveEntity (config : ResolveEntityNode)
  | executeQuery (config : ExecuteQueryNode)
  | cardinalityBranch (config : CardinalityBranchNode)
  | clarificationInterrupt (config : ClarificationInterruptNode)
  | composeResult (config : ComposeResultNode)
  | complete (config : CompleteNode)
deriving DecidableEq

/-- The office scope has one value, the principal's authorized offices. -/
inductive OfficeScope where
  | authorizedIntersection
deriving DecidableEq, Repr

structure NodePolicy where
  requiredCapability : Option String
  officeScope : OfficeScope
  maxSensitivity : Sensitivity
  piiRequired : Bool
deriving DecidableEq, Repr

structure NodeBudget where
  timeoutMs : UInt64
  rowCap : UInt32
  queryCost : UInt8
deriving DecidableEq

inductive Idempotency where
  | pure | replayable | executeOnce
deriving DecidableEq, Repr

structure RetryPolicy where
  maxAttempts : UInt8
deriving DecidableEq

inductive Cardinality where
  | zero | one | many
deriving DecidableEq, Repr

inductive EdgeCondition where
  | always
  | cardinality (expected : Cardinality)
  | clarificationAnswered
deriving DecidableEq, Repr

structure WorkflowEdge where
  source : NodeId
  target : NodeId
  condition : EdgeCondition
deriving DecidableEq

inductive BindingSource where
  | authorizedScope
  | catalogDefault
  | deterministicExtraction (field : ConstraintField)
  | verifiedUserText (field : ConstraintField)
  | exactSensitiveInput
  | safePriorSelection (clarification : NodeId)
  | priorStep (node : NodeId) (slot : String)
  | authorizedDataProbe (node : NodeId) (slot : String)
deriving DecidableEq

structure NodeInput where
  parameter : String
  kind : ParameterType
  source : BindingSource
deriving DecidableEq

structure NodeOutputSlot where
  name : String
  kind : ParameterType
  sensitivity : Sensitivity
  cardinality : Cardinality
deriving DecidableEq, Repr

structure WorkflowNode where
  id : NodeId
  kind : NodeKind
  inputs : List NodeInput
  outputs : List NodeOutputSlot
  policy : NodePolicy
  budget : NodeBudget
  idempotency : Idempotency
  retry : RetryPolicy
deriving DecidableEq

structure ExecutionWorkflow where
  id : Uuid
  contractVersion : UInt16
  catalogVersion : Uuid
  nodes : List WorkflowNode
  edges : List WorkflowEdge
  budgets : WorkflowBudgets
  failPolicy : FailPolicy
  outputContract : OutputContract
deriving DecidableEq

def WORKFLOW_CONTRACT_VERSION : UInt16 := 1

/-- Planner output: ids, bindings and values only. -/
structure WorkflowProposal where
  capabilityIds : List String
  nodes : List WorkflowNode
  edges : List WorkflowEdge
deriving DecidableEq

namespace WorkflowNode

/-- The producer a binding source reads, if it reads one. -/
def sourceProducer? : BindingSource → Option NodeId
  | .safePriorSelection clarification => some clarification
  | .priorStep node _ => some node
  | .authorizedDataProbe node _ => some node
  | _ => none

/-- The nodes whose completed runs a node reads: its inputs' producers, the
sources it composes and the source it branches on. -/
def reads (node : WorkflowNode) : List NodeId :=
  node.inputs.filterMap (fun input => sourceProducer? input.source) ++
    match node.kind with
    | .composeResult compose => compose.sources
    | .cardinalityBranch branch => [branch.source]
    | _ => []

def isComplete (node : WorkflowNode) : Bool :=
  match node.kind with
  | .complete _ => true
  | _ => false

def isClarificationInterrupt (node : WorkflowNode) : Bool :=
  match node.kind with
  | .clarificationInterrupt _ => true
  | _ => false

def isCardinalityBranch (node : WorkflowNode) : Bool :=
  match node.kind with
  | .cardinalityBranch _ => true
  | _ => false

end WorkflowNode

end FineractReports.Workflow
