import FineractReports.Workflow.DataTools
import FineractReports.Workflow.Runner

/-!
# The executor of catalog nodes

Query and resolver nodes go through the guard to the data executor; interrupts
answer with a question. A resolver's slots are copied to the top of its output
only when exactly one row came back.
-/

namespace FineractReports.Workflow

/-- What the world outside answers: the data executor's result for a request and
the fresh id of a clarification. -/
structure ExecutorReply where
  executeApproved : DataToolRequest → Except String Json
  clarificationId : Uuid

def clarificationKindOf (value : String) : ClarificationKind :=
  if value = "select_option" then .selectOption
  else if value = "select_entity" then .selectEntity
  else if value = "free_text" then .freeText
  else .collectFields

/-- The rows inside a guarded output. -/
def outputRows (output : Json) : Option (List Json) :=
  ((output.get? "untrusted_tool_output").bind (·.get? "rows")).bind Json.asArray?

def candidateLabel (row : Json) (clientId : ℤ) (canViewPii : Bool) : String :=
  let fallback := "Client " ++ toString clientId
  if canViewPii then ((row.get? "client_display_name").bind Json.asStr?).getD fallback
  else fallback

def candidateOption (row : Json) (clientId : ℤ) (canViewPii : Bool) : ClarificationOption where
  id := "client:" ++ toString clientId
  label := candidateLabel row clientId canViewPii
  description := (row.get? "office_name").bind Json.asStr?
  fields := []

/-- One option a client; rows without a client id and repeated clients are dropped. -/
def candidateOptions (canViewPii : Bool) : List Json → List ℤ → List ClarificationOption
  | [], _ => []
  | row :: rest, seen =>
    match (row.get? "client_id").bind Json.asI64? with
    | none => candidateOptions canViewPii rest seen
    | some clientId =>
      if clientId ∈ seen then candidateOptions canViewPii rest seen
      else candidateOption row clientId canViewPii ::
        candidateOptions canViewPii rest (clientId :: seen)

/-- The options of a selection, from the candidate rows of its resolver. -/
def resolverEntityOptions (runs : List WorkflowNodeRun) (source : NodeId) (canViewPii : Bool) :
    List ClarificationOption :=
  match ((completedRun runs source).bind (·.outputJson)).bind outputRows with
  | none => []
  | some rows => candidateOptions canViewPii rows []

def interruptClarification (interrupt : ClarificationInterruptNode) (runs : List WorkflowNodeRun)
    (canViewPii : Bool) (clarificationId : Uuid) : ClarificationPayload :=
  let kind := clarificationKindOf interrupt.clarificationKind
  let options := if kind = .selectEntity then
      resolverEntityOptions runs interrupt.optionSource canViewPii
    else []
  { version := CLARIFICATION_VERSION_1
    id := clarificationId
    revision := 0
    kind := kind
    question := if options = [] then "Additional information is needed to continue."
      else "Which one did you mean?"
    options := options
    fields := []
    attempt := 0
    sourceIntent := none
    allowFreeText := false
    isMissingExecutionParameters := true
    workflowId := none
    nodeId := none
    resumeNodeId := none
    entityKind := none }

/-- Copies each declared slot of the first row to the top level of the output. -/
def projectResolvedSlots (node : WorkflowNode) (output : Json) : Json :=
  match (outputRows output).bind List.head? with
  | none => output
  | some row => node.outputs.foldl (fun projected slot =>
      match row.get? slot.name with
      | some value => projected.insertMember slot.name value
      | none => projected) output

/-- `len() as i32`. -/
def rowCount (output : Json) : Int32 :=
  match outputRows output with
  | some rows => Int32.ofNat rows.length
  | none => 0

def isProbeNode (node : WorkflowNode) : Bool :=
  match node.kind with
  | .resolveEntity _ => true
  | _ => false

/-- A query or resolver node through the guard; a rejection fails the node. -/
def executeGuarded (workflow : ExecutionWorkflow) (principal : PrincipalContext)
    (catalog : KnowledgeCatalog) (node : WorkflowNode) (bindings : Bindings)
    (runs : List WorkflowNodeRun) (reply : ExecutorReply) : Except String NodeExecution := do
  let capability ← okOr (declaredCapability node) "workflow node has no declared capability id"
  match GuardedDataTools.execute reply.executeApproved workflow runs principal catalog
      (ownRequest node capability bindings) (isProbeNode node) with
  | .error _ => return .failed
  | .ok output =>
    let rowsReturned := rowCount output
    return .completed
      (if isProbeNode node = true ∧ rowsReturned = 1 then projectResolvedSlots node output
       else output) rowsReturned

namespace CapabilityNodeExecutor

def execute (workflow : ExecutionWorkflow) (principal : PrincipalContext)
    (catalog : KnowledgeCatalog) (node : WorkflowNode) (bindings : Bindings)
    (runs : List WorkflowNodeRun) (reply : ExecutorReply) : Except String NodeExecution :=
  match node.kind with
  | .clarificationInterrupt interrupt =>
    .ok (.waiting (interruptClarification interrupt runs principal.canViewPii
      reply.clarificationId))
  | .resolveEntity _ | .executeQuery _ =>
    executeGuarded workflow principal catalog node bindings runs reply
  -- the runner computes the other kinds itself
  | _ => .error "WorkflowRunner never routes this node to WorkflowNodeExecutor"

end CapabilityNodeExecutor

/-- The runner of a job, built with the executor of catalog nodes. -/
def capabilityEnv (workflow : ExecutionWorkflow) (principal : PrincipalContext)
    (catalog : KnowledgeCatalog) : RunnerEnv ExecutorReply where
  workflow := workflow
  principal := principal
  catalog := catalog
  executor := CapabilityNodeExecutor.execute workflow principal catalog

/-- An output whose only member is the wrapped tool output, an object. -/
def OnlyWrapped (output : Option Json) : Prop :=
  ∀ key value, output.bind (·.get? key) = some value →
    key = "untrusted_tool_output" ∧ ∃ members, value = .obj members

theorem execute_output {executeApproved : DataToolRequest → Except String Json}
    {workflow : ExecutionWorkflow} {runs : List WorkflowNodeRun} {principal : PrincipalContext}
    {catalog : KnowledgeCatalog} {request : DataToolRequest} {probe : Bool} {output : Json}
    (h : GuardedDataTools.execute executeApproved workflow runs principal catalog request probe =
      .ok output) : ∃ value, output = .obj [("untrusted_tool_output", value)] := by
  simp only [GuardedDataTools.execute, bind_eq_ok_iff, exists_unit_iff, pure_eq_ok] at h
  obtain ⟨-, value, -, rfl⟩ := h
  exact ⟨value, rfl⟩

theorem rowCount_two {value : Json}
    (h : 2 ≤ (rowCount (.obj [("untrusted_tool_output", value)])).toInt) :
    ∃ members, value = .obj members := by
  cases value with
  | obj members => exact ⟨members, rfl⟩
  | _ =>
    simp [rowCount, outputRows, Assoc.get?, Json.get?] at h

/-- With two rows or more nothing is copied to the top of the output. -/
theorem capability_output {workflow : ExecutionWorkflow} {principal : PrincipalContext}
    {catalog : KnowledgeCatalog} {node : WorkflowNode} {bindings : Bindings}
    {runs : List WorkflowNodeRun} {reply : ExecutorReply} {output : Json} {rowsReturned : Int32}
    (h : CapabilityNodeExecutor.execute workflow principal catalog node bindings runs reply =
      .ok (.completed output rowsReturned)) (hrows : 2 ≤ rowsReturned.toInt) :
    ∃ members, output = .obj [("untrusted_tool_output", .obj members)] := by
  have hguarded : executeGuarded workflow principal catalog node bindings runs reply =
      .ok (.completed output rowsReturned) := by
    unfold CapabilityNodeExecutor.execute at h
    split at h
    · simp at h
    · exact h
    · exact h
    · simp at h
  simp only [executeGuarded, bind_eq_ok_iff] at hguarded
  obtain ⟨capability, -, hguarded⟩ := hguarded
  split at hguarded
  · simp at hguarded
  · rename_i wrapped hwrapped
    obtain ⟨value, rfl⟩ := execute_output hwrapped
    simp only [pure_eq_ok, NodeExecution.completed.injEq] at hguarded
    obtain ⟨houtput, hcount⟩ := hguarded
    rw [hcount] at houtput
    obtain ⟨members, rfl⟩ := rowCount_two (hcount ▸ hrows)
    have hone : rowsReturned ≠ 1 := by
      rintro rfl
      exact absurd hrows (by decide)
    rw [if_neg fun hboth => hone hboth.2] at houtput
    exact ⟨members, houtput.symm⟩

end FineractReports.Workflow
