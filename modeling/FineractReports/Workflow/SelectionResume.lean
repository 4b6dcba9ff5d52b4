import FineractReports.Workflow.Compile
import FineractReports.Workflow.NodeExecutor
import FineractReports.Workflow.RunnerReachable

/-!
# Resuming an entity selection

A resolver that found several candidates leaves no slot at the top of its output,
and a resume writes the selected value to the job's state only. The query node
behind the selection still reads the resolver's slot.
-/

namespace FineractReports.Workflow

/-- A run of two rows or more has nothing but its wrapped output. -/
def WrappedRun (run : WorkflowNodeRun) : Prop :=
  2 ≤ run.rowsReturned.toInt → OnlyWrapped run.outputJson

/-- Rows that kept the outputs they had. -/
def KeepsOutputs (before after : List WorkflowNodeRun) : Prop :=
  ∀ row ∈ after, ∃ old ∈ before, row.workflowId = old.workflowId ∧
    row.outputJson = old.outputJson ∧ row.rowsReturned = old.rowsReturned

theorem KeepsOutputs.refl (rows : List WorkflowNodeRun) : KeepsOutputs rows rows :=
  fun row hrow => ⟨row, hrow, rfl, rfl, rfl⟩

theorem KeepsOutputs.wrapped {before after : List WorkflowNodeRun} {workflowId : Uuid}
    (hkeep : KeepsOutputs before after)
    (h : ∀ row ∈ before, row.workflowId = workflowId → WrappedRun row) :
    ∀ row ∈ after, row.workflowId = workflowId → WrappedRun row := by
  intro row hrow hworkflow hwide
  obtain ⟨old, hold, hid, houtput, hrows⟩ := hkeep row hrow
  rw [houtput]
  exact h old hold (hid ▸ hworkflow) (hrows ▸ hwide)

theorem updateRuns_keepsOutputs {tables : JobTables} {matching : WorkflowNodeRun → Bool}
    {update : WorkflowNodeRun → WorkflowNodeRun}
    (hupdate : ∀ row, (update row).workflowId = row.workflowId ∧
      (update row).outputJson = row.outputJson ∧ (update row).rowsReturned = row.rowsReturned) :
    KeepsOutputs tables.nodeRuns (tables.updateRuns matching update).nodeRuns := by
  intro row hrow
  obtain ⟨old, hold, rfl⟩ := List.mem_map.mp hrow
  refine ⟨old, hold, ?_⟩
  split_ifs
  · exact hupdate old
  · exact ⟨rfl, rfl, rfl⟩

theorem failNode_keepsOutputs (tables : JobTables) (run : WorkflowNodeRun) (elapsed : Int32) :
    KeepsOutputs tables.nodeRuns (tables.failNode run elapsed).nodeRuns :=
  updateRuns_keepsOutputs fun _ => ⟨rfl, rfl, rfl⟩

theorem markWorkflowPaused_keepsOutputs {tables after : JobTables} {userId workflowId : Uuid}
    {nodeId : NodeId} {clarification : ClarificationPayload}
    (h : tables.markWorkflowPaused userId workflowId nodeId clarification = .ok after) :
    KeepsOutputs tables.nodeRuns after.nodeRuns := by
  unfold JobTables.markWorkflowPaused at h
  split_ifs at h
  obtain rfl := Except.ok.inj h
  exact updateRuns_keepsOutputs fun _ => ⟨rfl, rfl, rfl⟩

theorem resume_keepsOutputs (tables : JobTables) (request : WorkflowResumeRequest) :
    KeepsOutputs tables.nodeRuns (tables.resume request).2.nodeRuns := by
  rcases tables.resume_snd request with hafter | hafter
  · rw [hafter]
    exact updateRuns_keepsOutputs fun _ => ⟨rfl, rfl, rfl⟩
  · rw [hafter]
    exact .refl _

theorem onlyWrapped_persisted (inputs : List NodeInput) (members : List (String × Json)) :
    OnlyWrapped (some (persistedOutput inputs
      (.obj [("untrusted_tool_output", .obj members)]))) := by
  intro key value h
  unfold persistedOutput at h
  simp only at h
  split_ifs at h with hnone
  · simp only [Option.bind_some, Json.get?_obj, Assoc.get?_cons, Assoc.get?_nil] at h
    split_ifs at h with hkey
    exact ⟨hkey.symm, members, (Option.some.inj h).symm⟩
  · simp only [Json.redactFields, Json.redactMembers, Option.bind_some] at h
    split_ifs at h with hredacted
    · simp at h
    · simp only [Json.get?_obj, Assoc.get?_cons, Assoc.get?_nil] at h
      split_ifs at h with hkey
      exact ⟨hkey.symm, _, (Option.some.inj h).symm⟩

section Runs

variable {workflow : ExecutionWorkflow} {principal : PrincipalContext} {catalog : KnowledgeCatalog}

/-- Nodes computed by the runner return no rows, the others go through the guard. -/
theorem execution_wrapped {tables : JobTables} {node : WorkflowNode} {bindings : Bindings}
    {runs : List WorkflowNodeRun} {reply : ExecutorReply} {output : Json} {rowsReturned : Int32}
    (h : resolveExecution (capabilityEnv workflow principal catalog) tables node bindings runs
      reply = .ok (.completed output rowsReturned)) (hrows : 2 ≤ rowsReturned.toInt) :
    OnlyWrapped (some (persistedOutput node.inputs output)) := by
  have hzero : ¬ (2 : ℤ) ≤ (0 : Int32).toInt := by decide
  unfold resolveExecution at h
  split at h
  · simp only [bind_eq_ok_iff, pure_eq_ok, NodeExecution.completed.injEq] at h
    obtain ⟨-, -, -, rfl⟩ := h
    exact absurd hrows hzero
  · simp only [Except.ok.injEq, NodeExecution.completed.injEq] at h
    obtain ⟨-, rfl⟩ := h
    exact absurd hrows hzero
  · simp only [bind_eq_ok_iff, pure_eq_ok, NodeExecution.completed.injEq] at h
    obtain ⟨-, -, -, -, -, -, -, rfl⟩ := h
    exact absurd hrows hzero
  · obtain ⟨members, rfl⟩ := capability_output h hrows
    exact onlyWrapped_persisted node.inputs members

/-- Wherever a run of the workflow is kept, it is a wrapped one. -/
structure WrappedInv (workflow : ExecutionWorkflow) (state : RunnerState) : Prop where
  rows : ∀ row ∈ state.tables.nodeRuns, row.workflowId = workflow.id → WrappedRun row
  runs : ∀ active, state.active = some active → ∀ run ∈ active.runs, WrappedRun run
  results : ∀ active, state.active = some active → ∀ task ∈ active.batch,
    ∀ done decision nodeId cost,
      task.result = some (.ok (.completed done decision nodeId cost)) → WrappedRun done

theorem WrappedInv.of_idle {state : RunnerState} (hidle : state.active = none)
    (hrows : ∀ row ∈ state.tables.nodeRuns, row.workflowId = workflow.id → WrappedRun row) :
    WrappedInv workflow state :=
  ⟨hrows, by simp [hidle], by simp [hidle]⟩

/-- How the end of a node changes the rows, and what it hands to the call. -/
theorem settle_wrapped {tables after : JobTables} {node : WorkflowNode} {run : WorkflowNodeRun}
    {bindings : Except String Bindings} {runs : List WorkflowNodeRun} {reply : ExecutorReply}
    {elapsed : Int32} {result : Except String NodeBatchOutcome}
    (h : settle (capabilityEnv workflow principal catalog) tables node run
      (bindings >>= fun bindings => resolveExecution (capabilityEnv workflow principal catalog)
        tables node bindings runs reply) elapsed = (result, after))
    (hrows : ∀ row ∈ tables.nodeRuns, row.workflowId = workflow.id → WrappedRun row) :
    (∀ row ∈ after.nodeRuns, row.workflowId = workflow.id → WrappedRun row) ∧
      ∀ done decision nodeId cost, result = .ok (.completed done decision nodeId cost) →
        WrappedRun done := by
  unfold settle at h
  split at h
  · obtain ⟨rfl, rfl⟩ := Prod.mk.inj h
    exact ⟨hrows, by simp⟩
  · rename_i output rowsReturned hexecution
    obtain ⟨bound, -, hcompleted⟩ := bind_eq_ok_iff.mp hexecution
    have hwrapped : ∀ row : WorkflowNodeRun,
        row.outputJson = some (persistedOutput node.inputs output) →
          row.rowsReturned = rowsReturned → WrappedRun row := by
      intro row houtput hcount hwide
      rw [houtput]
      exact execution_wrapped hcompleted (hcount ▸ hwide)
    simp only at h
    split at h
    · obtain ⟨rfl, rfl⟩ := Prod.mk.inj h
      exact ⟨hrows, by simp⟩
    · rename_i completed hdone
      obtain ⟨rfl, rfl⟩ := Prod.mk.inj h
      unfold JobTables.completeNode at hdone
      split_ifs at hdone
      obtain rfl := Except.ok.inj hdone
      constructor
      · intro row hrow hworkflow
        rw [JobTables.addBudgetConsumed_nodeRuns] at hrow
        obtain ⟨old, hold, rfl⟩ := List.mem_map.mp hrow
        split_ifs at hworkflow ⊢
        · exact hwrapped _ rfl rfl
        · exact hrows old hold hworkflow
      · intro done decision nodeId cost hresult
        simp only [Except.ok.injEq, NodeBatchOutcome.completed.injEq] at hresult
        obtain ⟨rfl, -⟩ := hresult
        exact hwrapped _ rfl rfl
  · obtain ⟨rfl, rfl⟩ := Prod.mk.inj h
    exact ⟨hrows, by simp⟩
  · obtain ⟨rfl, rfl⟩ := Prod.mk.inj h
    exact ⟨(failNode_keepsOutputs tables run elapsed).wrapped hrows, by simp⟩

/-- Writing a task keeps the invariant when its rows and its result are wrapped. -/
theorem WrappedInv.setTask {state : RunnerState} {active : ActiveRun} {index : ℕ}
    {written : NodeTask × JobTables} (h : WrappedInv workflow state)
    (hactive : state.active = some active)
    (hrows : ∀ row ∈ written.2.nodeRuns, row.workflowId = workflow.id → WrappedRun row)
    (hresult : ∀ done decision nodeId cost,
      written.1.result = some (.ok (.completed done decision nodeId cost)) → WrappedRun done) :
    WrappedInv workflow (state.setTask active index written) where
  rows := hrows
  runs call heq := by
    obtain rfl := Option.some.inj heq
    exact h.runs active hactive
  results call heq task htask := by
    obtain rfl := Option.some.inj heq
    rcases List.mem_or_eq_of_mem_set htask with hmem | rfl
    · exact h.results active hactive task hmem
    · exact hresult

theorem WrappedInv.effect {state after : RunnerState} {action : RunnerAction ExecutorReply}
    (h : WrappedInv workflow state)
    (heffect : RunnerEffect (capabilityEnv workflow principal catalog) state action after) :
    WrappedInv workflow after := by
  have hzero : ¬ (2 : ℤ) ≤ (0 : Int32).toInt := by decide
  cases heffect with
  | started _ =>
    refine ⟨h.rows, fun active hactive run hrun => ?_, fun active hactive task htask => ?_⟩
    · obtain rfl := Option.some.inj hactive
      obtain ⟨hrow, hworkflow⟩ := JobTables.mem_nodeRunsOf.mp hrun
      exact h.rows run hrow hworkflow
    · obtain rfl := Option.some.inj hactive
      simp at htask
  | @selected active _ hactive _ hselect =>
    cases hselect with
    | exhausted _ => exact .of_idle rfl h.rows
    | repeated _ _ => exact .of_idle rfl h.rows
    | starved _ _ => exact .of_idle rfl h.rows
    | chosen _ =>
      refine ⟨h.rows, fun call heq => ?_, fun call heq task htask => ?_⟩
      · obtain rfl := Option.some.inj heq
        exact h.runs active hactive
      · obtain rfl := Option.some.inj heq
        obtain ⟨node, -, rfl⟩ := List.mem_map.mp htask
        simp
  | @begun active index task runId now hactive htask _ hresult _ =>
    unfold beginTask
    split
    · exact h.setTask hactive h.rows (by simp)
    · simp only
      split_ifs
      · exact h.setTask hactive h.rows (by simp)
      · refine h.setTask hactive (fun row hrow hworkflow => ?_) (by simp [hresult])
        rcases List.mem_append.mp hrow with hmem | hmem
        · exact h.rows row hmem hworkflow
        · obtain rfl := List.mem_singleton.mp hmem
          exact fun hwide => absurd hwide hzero
  | @finished active index task run reply elapsed hactive htask _ _ =>
    obtain ⟨hrows, hresult⟩ := settle_wrapped (Eq.refl (settle (capabilityEnv workflow principal
      catalog) state.tables task.node run (bindingsFor task.node active.runs principal >>=
        fun bindings => resolveExecution (capabilityEnv workflow principal catalog) state.tables
          task.node bindings active.runs reply) elapsed)) h.rows
    refine h.setTask hactive hrows fun done decision nodeId cost heq => ?_
    exact hresult done decision nodeId cost (Option.some.inj heq)
  | @cancelled active index task run elapsed hactive _ _ _ =>
    unfold cancelTask
    split
    · exact h.setTask hactive h.rows (by simp)
    · exact h.setTask hactive ((failNode_keepsOutputs state.tables run elapsed).wrapped h.rows)
        (by simp)
  | @collected active results _ hactive _ hresults hcollect =>
    have hrecorded (outcomes : List NodeBatchOutcome) : ∀ row ∈
        (recordDecisions outcomes state.tables).nodeRuns, row.workflowId = workflow.id →
          WrappedRun row := by
      rw [recordDecisions_nodeRuns]
      exact h.rows
    cases hcollect with
    | error _ => exact .of_idle rfl h.rows
    | failed _ => exact .of_idle rfl (hrecorded _)
    | refused _ _ _ => exact .of_idle rfl (hrecorded _)
    | paused _ _ hpause =>
      exact .of_idle rfl ((markWorkflowPaused_keepsOutputs hpause).wrapped (hrecorded _))
    | continued _ _ =>
      refine ⟨hrecorded _, fun call heq run hrun => ?_, fun call heq task htask => ?_⟩
      · obtain rfl := Option.some.inj heq
        rcases mem_collectCompleted.mp hrun with hold | ⟨decision, nodeId, cost, houtcome⟩
        · exact h.runs active hactive run hold
        · obtain ⟨task, htask, heq⟩ := (batchResults_ok hresults).2 _ houtcome
          exact h.results active hactive task htask _ _ _ _ heq
      · obtain rfl := Option.some.inj heq
        simp at htask
  | resumed request =>
    exact ⟨(resume_keepsOutputs state.tables request).wrapped h.rows, h.runs, h.results⟩
  | stateFailed hactive _ _ => exact h.setTask hactive h.rows (by simp)
  | @auditFailed active index task run reply elapsed message hactive _ _ _ =>
    obtain ⟨hrows, -⟩ := settle_wrapped (Eq.refl (settle (capabilityEnv workflow principal
      catalog) state.tables task.node run (bindingsFor task.node active.runs principal >>=
        fun bindings => resolveExecution (capabilityEnv workflow principal catalog) state.tables
          task.node bindings active.runs reply) elapsed)) h.rows
    exact h.setTask hactive hrows (by simp)
  | collectFailed _ _ _ => exact .of_idle rfl h.rows

theorem wrapped_reachable {state : RunnerState}
    (h : (runner (capabilityEnv workflow principal catalog)).Reachable state) :
    WrappedInv workflow state := by
  refine h.invariant (fun s hinit => ?_) fun _ _ _ hinv _ hstep =>
    hinv.effect (runnerStep_effect hstep)
  obtain ⟨hidle, -, hforeign⟩ := hinit
  exact .of_idle hidle fun row hrow hworkflow => absurd hworkflow (hforeign row hrow)

/-- When every input of a name reads one producer's slot, the name is bound to it. -/
theorem bindInputs_slot {runs : List WorkflowNodeRun} {parameter slot : String} {node : NodeId}
    {inputs : List NodeInput} {bindings result : Bindings}
    (h : bindInputs runs principal inputs bindings = .ok result)
    (honly : ∀ input ∈ inputs, input.parameter = parameter →
      input.source = .authorizedDataProbe node slot)
    (hmem : (∃ input ∈ inputs, input.parameter = parameter) ∨
      ∃ value, Assoc.get? bindings parameter = some value ∧ outputSlot runs node slot = .ok value) :
    ∃ value, Assoc.get? result parameter = some value ∧ outputSlot runs node slot = .ok value := by
  induction inputs generalizing bindings with
  | nil =>
    obtain rfl : bindings = result := by simpa [bindInputs] using h
    rcases hmem with ⟨input, hinput, -⟩ | hbound
    · simp at hinput
    · exact hbound
  | cons input rest ih =>
    have hrest : ∀ other ∈ rest, other.parameter = parameter →
        other.source = .authorizedDataProbe node slot :=
      fun other hother => honly other (List.mem_cons_of_mem _ hother)
    rw [bindInputs] at h
    by_cases hname : input.parameter = parameter
    · have hsource := honly input List.mem_cons_self hname
      rw [if_neg (by simp [hsource])] at h
      obtain ⟨value, hvalue, h⟩ := bind_eq_ok_iff.mp h
      refine ih h hrest (Or.inr ⟨value, ?_, by simpa [inputValue, hsource] using hvalue⟩)
      rw [hname, Assoc.get?_insert_self]
    · have hstill : (∃ other ∈ rest, other.parameter = parameter) ∨
          ∃ value, Assoc.get? bindings parameter = some value ∧
            outputSlot runs node slot = .ok value := by
        rcases hmem with ⟨other, hother, hotherName⟩ | hbound
        · rcases List.mem_cons.mp hother with rfl | hother
          · exact absurd hotherName hname
          · exact Or.inl ⟨other, hother, hotherName⟩
        · exact Or.inr hbound
      split_ifs at h
      · exact ih h hrest hstill
      · obtain ⟨value, -, h⟩ := bind_eq_ok_iff.mp h
        refine ih h hrest (hstill.imp_right ?_)
        rintro ⟨bound, hbound, hslot⟩
        exact ⟨bound, by rw [Assoc.get?_insert_of_ne _ _ hname, hbound], hslot⟩

/-- Identifiers are numbers or texts. -/
def isIdentifier : Json → Bool
  | .int _ | .str _ => true
  | _ => false

/-- With two candidates or more a probed parameter is never bound to an identifier,
whether or not one of them has been selected since. -/
theorem selection_never_bound {state : RunnerState} {active : ActiveRun} {node : WorkflowNode}
    {parameter slot : String} {resolver : NodeId} {run : WorkflowNodeRun}
    (hreach : (runner (capabilityEnv workflow principal catalog)).Reachable state)
    (hactive : state.active = some active)
    (hprobed : ∃ input ∈ node.inputs, input.parameter = parameter)
    (honly : ∀ input ∈ node.inputs, input.parameter = parameter →
      input.source = .authorizedDataProbe resolver slot)
    (hresolver : completedRun active.runs resolver = some run)
    (hcandidates : 2 ≤ run.rowsReturned.toInt) :
    ¬ ∃ bindings value, bindingsFor node active.runs principal = .ok bindings ∧
      Assoc.get? bindings parameter = some value ∧ isIdentifier value = true := by
  rintro ⟨bindings, value, hbindings, hvalue, hidentifier⟩
  have hwrapped := (wrapped_reachable hreach).runs active hactive run
    (completedRun_spec hresolver).1 hcandidates
  obtain ⟨slotValue, hbound, hslot⟩ := bindInputs_slot hbindings honly (Or.inl hprobed)
  have hread : run.outputJson.bind (·.get? slot) = some slotValue := by
    simpa [outputSlot, hresolver] using hslot
  obtain ⟨-, members, rfl⟩ := hwrapped slot slotValue hread
  obtain rfl : value = .obj members := Option.some.inj (hvalue.symm.trans hbound)
  simp [isIdentifier] at hidentifier

end Runs

namespace TwoClients

/-! A client resolved by name; two clients carry it and the user picks one. -/

def capability (id : String) (recipe : Option Dataset.DatasetRecipe)
    (policies : List ParameterPolicy) : CapabilityKnowledge where
  id := id
  status := "approved_mvp"
  domain := "savings"
  queryId := id
  outputMode := "table"
  requestShape := ⟨.list, .client, .none, .list, .none⟩
  kind := .terminal
  memberCapabilityIds := []
  displayName := none
  description := none
  dataAreas := []
  metrics := []
  examples := []
  requiredParameters := []
  optionalParameters := []
  defaultLimit := none
  guards := ⟨none, none⟩
  datasetRecipe := recipe
  parameterPolicies := policies

def clientPolicy : ParameterPolicy where
  name := "client_id"
  kind := .integer
  required := true
  default := none
  fillWhenMissing := false
  userMayOverride := false
  hardCap := none
  userRequired := false
  resolution := [.authorizedDataProbe]
  probe := some ⟨"clients", "by_name", "client_id"⟩

def dataset : DatasetKnowledge where
  id := "clients"
  database := "fineract"
  sourceSql := ""
  tables := []
  filters := []
  entity := none
  filtersExempt := []
  shapes :=
    [{ id := "by_name", requestShape := ⟨.lookup, .client, .none, .lookup, .none⟩, role := .resolver
       expectedCardinality := none, rowCap := none, groupedBy := none
       produces := [⟨"client_id", "integer", .filterOnly, .one⟩], fragment := none, orderBy := []
       outputFields := [], parameters := [] }]
  orderBy := []
  outputFields := []
  parameters := []
  timeoutMs := none

def catalog : KnowledgeCatalog :=
  ⟨[], [], [], [], [],
   [capability "client_savings" none [clientPolicy],
    capability "client_by_name" (some ⟨"clients", "by_name", none, [], []⟩) []],
   [], [], [], [], [], ⟨⟨0, "0"⟩, ⟨0, "0"⟩, "others", "Others"⟩, [dataset]⟩

def budgets : WorkflowBudgets := ⟨30000, 1000, 5, 2, 2, 0⟩

def resolveId : NodeId := ⟨"resolve_client_id", by decide⟩
def selectId : NodeId := ⟨"select_client_id", by decide⟩

/-- What the compiler makes of the capability. -/
def workflow : ExecutionWorkflow :=
  (compileWithFacts ⟨["client_savings"], [], []⟩ catalog 7 0 budgets .empty).toOption.getD
    (proposedWorkflow ⟨[], [], []⟩ 7 0 budgets)

theorem compiled : compileWithFacts ⟨["client_savings"], [], []⟩ catalog 7 0 budgets .empty =
    .ok workflow := by decide

def principal : PrincipalContext :=
  ⟨1, "analyst", ["client_savings", "client_by_name"], [1], false⟩

def reply : ExecutorReply where
  executeApproved _ := .ok (.obj [("rows", .arr
    [.obj [("client_id", .int 11)], .obj [("client_id", .int 12)]])])
  clarificationId := 5

def start : RunnerState where
  tables :=
    { jobId := 3, userId := 1, sessionArchived := false, status := .running, currentStep := ""
      resumeFromStep := none, stateJson := .obj [], resultJson := none, errorJson := none
      workflowId := some 7, workflowRevision := 0, currentNodeId := none
      pendingClarification := none, memoryRevision := 0, nodeRuns := [], events := [] }
  active := none
  outcome := none

def node (runId : Uuid) : List (RunnerAction ExecutorReply) :=
  [.select, .begin 0 runId runId, .finish 0 reply 5, .collect]

/-- The resolver, the branch and the selection run; the call pauses. -/
def pausing : List (RunnerAction ExecutorReply) := .run :: (node 11 ++ node 12 ++ node 13)

/-- The second of the offered clients. -/
def selection : WorkflowResumeRequest := ⟨3, 1, 7, selectId, 5, 1, .str "client:12"⟩

def offered (state : RunnerState) : List String :=
  (state.tables.pendingClarification.map fun payload => payload.options.map (·.id)).getD []

theorem start_reachable : (runner (capabilityEnv workflow principal catalog)).Reachable start :=
  .init ⟨rfl, List.nodup_nil, by simp [start]⟩

/-- The pause offers the client, the answer is accepted and the next call is at the
query node. -/
def resumes (state : RunnerState) : Bool :=
  decide ("client:12" ∈ offered state ∧ (state.tables.resume selection).1 = .resumed) &&
    ((runner (capabilityEnv workflow principal catalog)).run state [.resume selection, .run]).any
      fun next => next.active.any fun active =>
        (runnableNodes workflow active.runs).any fun node =>
          decide (node.id = executeId ∧
            (∃ input ∈ node.inputs, input.parameter = "client_id") ∧
            (∀ input ∈ node.inputs, input.parameter = "client_id" →
              input.source = .authorizedDataProbe resolveId "client_id")) &&
          (completedRun active.runs resolveId).any fun run =>
            decide ((2 : ℤ) ≤ run.rowsReturned.toInt) &&
              match bindingsFor node active.runs principal with
              | .ok _ => false
              | .error message => decide (message = "completed workflow output slot is missing")

theorem pausing_resumes : ((runner (capabilityEnv workflow principal catalog)).run start
    pausing).any resumes = true := by decide

end TwoClients

theorem selection_never_bound_twoClients : ∃ state active node,
    (runner (capabilityEnv TwoClients.workflow TwoClients.principal TwoClients.catalog)).Reachable
        state ∧ state.active = some active ∧ node ∈ runnableNodes TwoClients.workflow active.runs ∧
      ¬ ∃ bindings value, bindingsFor node active.runs TwoClients.principal = .ok bindings ∧
        Assoc.get? bindings "client_id" = some value ∧ isIdentifier value = true := by
  obtain ⟨state, hreach, htest⟩ :=
    TwoClients.start_reachable.exists_of_run TwoClients.pausing_resumes
  obtain ⟨-, hnext⟩ := Bool.and_eq_true_iff.mp htest
  obtain ⟨next, hnextReach, htest⟩ := hreach.exists_of_run hnext
  obtain ⟨active, hactive, hnode⟩ := (Option.any_eq_true _ _).mp htest
  obtain ⟨node, hmem, htest⟩ := List.any_eq_true.mp hnode
  obtain ⟨hinputs, htest⟩ := Bool.and_eq_true_iff.mp htest
  obtain ⟨-, hprobed, honly⟩ := of_decide_eq_true hinputs
  obtain ⟨run, hrun, htest⟩ := (Option.any_eq_true _ _).mp htest
  obtain ⟨hrows, -⟩ := Bool.and_eq_true_iff.mp htest
  refine ⟨next, active, node, hnextReach, hactive, hmem, ?_⟩
  exact selection_never_bound hnextReach hactive hprobed honly hrun (of_decide_eq_true hrows)

/-- A compiled workflow, a resolver with two rows and an accepted answer with one of
the offered options: the query node's bindings fail. -/
theorem selection_resume_fails : ∃ paused next active node,
    compileWithFacts ⟨["client_savings"], [], []⟩ TwoClients.catalog 7 0 TwoClients.budgets
        .empty = .ok TwoClients.workflow ∧
      (runner (capabilityEnv TwoClients.workflow TwoClients.principal
        TwoClients.catalog)).Reachable paused ∧
      "client:12" ∈ TwoClients.offered paused ∧
      (paused.tables.resume TwoClients.selection).1 = .resumed ∧
      (runner (capabilityEnv TwoClients.workflow TwoClients.principal
        TwoClients.catalog)).run paused [.resume TwoClients.selection, .run] = some next ∧
      next.active = some active ∧ node ∈ runnableNodes TwoClients.workflow active.runs ∧
      node.id = executeId ∧ (∃ input ∈ node.inputs, input.parameter = "client_id" ∧
        input.source = .authorizedDataProbe TwoClients.resolveId "client_id") ∧
      bindingsFor node active.runs TwoClients.principal =
        .error "completed workflow output slot is missing" := by
  obtain ⟨paused, hreach, htest⟩ :=
    TwoClients.start_reachable.exists_of_run TwoClients.pausing_resumes
  obtain ⟨hpaused, hnext⟩ := Bool.and_eq_true_iff.mp htest
  obtain ⟨hoffered, hresumed⟩ := of_decide_eq_true hpaused
  obtain ⟨next, hrun, htest⟩ := (Option.any_eq_true _ _).mp hnext
  obtain ⟨active, hactive, hnode⟩ := (Option.any_eq_true _ _).mp htest
  obtain ⟨node, hmem, htest⟩ := List.any_eq_true.mp hnode
  obtain ⟨hinputs, htest⟩ := Bool.and_eq_true_iff.mp htest
  obtain ⟨hid, ⟨input, hinput, hname⟩, honly⟩ := of_decide_eq_true hinputs
  obtain ⟨run, -, htest⟩ := (Option.any_eq_true _ _).mp htest
  obtain ⟨-, hbindings⟩ := Bool.and_eq_true_iff.mp htest
  refine ⟨paused, next, active, node, TwoClients.compiled, hreach, hoffered, hresumed, hrun,
    hactive, hmem, hid, ⟨input, hinput, hname, honly input hinput hname⟩, ?_⟩
  split at hbindings
  · exact absurd hbindings (by simp)
  · rename_i message hmessage
    rw [hmessage, of_decide_eq_true hbindings]

end FineractReports.Workflow
