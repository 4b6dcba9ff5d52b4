import FineractReports.Workflow.ComposeSensitivity
import FineractReports.Workflow.ProducerOrder

/-!
# The rows the runner writes

Node runs, checkpoints and events are rows of tables whose types the migrations
list. The rows each step inserts are collected here, in the order the repository
issues them, and compared with the lists of the last migration.
-/

namespace FineractReports.Workflow

/-- `chk_chat_job_checkpoints_type`, as the last migration leaves it. -/
def jobCheckpointTypes : List String :=
  ["job_created", "step_started", "step_completed", "clarification_required",
   "user_response_received", "decision_completed", "query_completed",
   "response_completed", "job_failed", "job_cancelled",
   "node_started", "node_completed", "workflow_paused", "workflow_resumed"]

def NodeRunStatus.asStr : NodeRunStatus → String
  | .runnable => "runnable"
  | .running => "running"
  | .completed => "completed"
  | .failed => "failed"
  | .skipped => "skipped"
  | .waiting => "waiting"

/-- The check on the status of `chat_workflow_node_runs`. -/
def nodeRunStatuses : List String :=
  ["runnable", "running", "completed", "failed", "skipped", "waiting"]

/-- A row by the column its table checks. -/
inductive AuditRow where
  | nodeRun (status : NodeRunStatus)
  | checkpoint (checkpointType : String)
  | event (eventType : String)
deriving DecidableEq

namespace AuditRow

def Allowed : AuditRow → Prop
  | nodeRun status => status.asStr ∈ nodeRunStatuses
  | checkpoint checkpointType => checkpointType ∈ jobCheckpointTypes
  | event eventType => eventType ∈ jobEventTypes

instance (row : AuditRow) : Decidable row.Allowed := by
  cases row <;> exact inferInstanceAs (Decidable (_ ∈ _))

/-- The type of an event row the table accepts. -/
def acceptedEvent? : AuditRow → Option String
  | event eventType => if eventType ∈ jobEventTypes then some eventType else none
  | _ => none

end AuditRow

def beginNodeRows : List AuditRow :=
  [.nodeRun .running, .checkpoint "node_started", .event "workflow_node_started"]

def completeNodeRows : List AuditRow :=
  [.nodeRun .completed, .checkpoint "node_completed", .event "workflow_node_completed"]

def failNodeRows : List AuditRow := [.nodeRun .failed]

def pausedRows : List AuditRow :=
  [.nodeRun .waiting, .checkpoint "workflow_paused", .event "workflow_paused"]

def resumedRows : List AuditRow :=
  [.nodeRun .completed, .checkpoint "workflow_resumed", .event "workflow_resumed"]

/-- One event for each branch of the batch. -/
def decisionRows (outcomes : List NodeBatchOutcome) : List AuditRow :=
  outcomes.filterMap fun outcome =>
    match outcome with
    | .completed _ (some _) _ _ => some (.event "workflow_branch_decided")
    | _ => none

def sensitivityDropRows (droppedFields : List String) : List AuditRow :=
  if droppedFields = [] then [] else [.event "workflow_field_dropped"]

variable {ρ : Type} (env : RunnerEnv ρ)

/-- What the composition of a node drops, when it gets that far. -/
def droppedFields (active : ActiveRun) (task : NodeTask) : List String :=
  match task.node.kind, bindingsFor task.node active.runs env.principal with
  | .composeResult config, .ok _ =>
    match composeSources env.workflow active.runs config.sources with
    | .ok sources =>
      match compose config.composition sources (maxVisibleSensitivity env.principal) with
      | .ok outcome => outcome.droppedFields
      | .error _ => []
    | .error _ => []
  | _, _ => []

/-- The rows of `settle`. -/
def settleRows (tables : JobTables) (node : WorkflowNode) (run : WorkflowNodeRun)
    (execution : Except String NodeExecution) (elapsed : Int32) : List AuditRow :=
  match execution with
  | .ok (.completed output rowsReturned) =>
    match tables.completeNode run (persistedOutput node.inputs output) rowsReturned elapsed with
    | .ok _ => completeNodeRows
    | .error _ => []
  | .ok .failed => failNodeRows
  | _ => []

def finishRows (tables : JobTables) (active : ActiveRun) (task : NodeTask) (run : WorkflowNodeRun)
    (reply : ρ) (elapsed : Int32) : List AuditRow :=
  sensitivityDropRows (droppedFields env active task) ++
    settleRows tables task.node run (bindingsFor task.node active.runs env.principal >>=
      fun bindings => resolveExecution env tables task.node bindings active.runs reply) elapsed

/-- The rows of `collectStep`: the decisions, and a pause that is not stale. -/
def collectRows (tables : JobTables) (results : Except String (List NodeBatchOutcome)) :
    List AuditRow :=
  match results with
  | .error _ => []
  | .ok outcomes =>
    decisionRows outcomes ++
      if anyFailed outcomes then []
      else match firstWaiting outcomes with
        | some (nodeId, clarification) =>
          match (recordDecisions outcomes tables).markWorkflowPaused env.principal.userId
              env.workflow.id nodeId clarification with
          | .ok _ => pausedRows
          | .error _ => []
        | none => []

/-- The rows of one task's step. -/
def taskRows (state : RunnerState) (index : ℕ)
    (rows : ActiveRun → NodeTask → WorkflowNodeRun → List AuditRow) : List AuditRow :=
  match state.active with
  | none => []
  | some active =>
    match active.batch[index]? with
    | none => []
    | some task => task.run.elim [] (rows active task)

/-- The rows a step asks the tables to take. -/
def insertedRows (state : RunnerState) : RunnerAction ρ → List AuditRow
  | .begin index runId now =>
    match state.active with
    | none => []
    | some active =>
      match active.batch[index]? with
      | none => []
      | some task =>
        if (beginTask env state.tables active.runs task runId now).1.run.isSome then beginNodeRows
        else []
  | .finish index reply elapsed | .auditError index reply elapsed _ =>
    taskRows state index fun active task run =>
      finishRows env state.tables active task run reply elapsed
  | .cancel index _ =>
    taskRows state index fun active task _ =>
      match bindingsFor task.node active.runs env.principal with
      | .ok _ => failNodeRows
      | .error _ => []
  | .collect =>
    match state.active.bind fun active => batchResults active.batch with
    | some results => collectRows env state.tables results
    | none => []
  | .resume request =>
    match state.tables.resume request with
    | (.resumed, _) => resumedRows
    | _ => []
  | .run | .select | .stateError _ _ | .collectError _ => []

section Allowed

theorem beginNodeRows_allowed : ∀ row ∈ beginNodeRows, row.Allowed := by decide

theorem completeNodeRows_allowed : ∀ row ∈ completeNodeRows, row.Allowed := by decide

theorem failNodeRows_allowed : ∀ row ∈ failNodeRows, row.Allowed := by decide

theorem pausedRows_allowed : ∀ row ∈ pausedRows, row.Allowed := by decide

theorem resumedRows_allowed : ∀ row ∈ resumedRows, row.Allowed := by decide

theorem decisionRows_allowed (outcomes : List NodeBatchOutcome) :
    ∀ row ∈ decisionRows outcomes, row.Allowed := by
  intro row hrow
  obtain ⟨outcome, -, heq⟩ := List.mem_filterMap.mp hrow
  split at heq
  · obtain rfl := Option.some.inj heq
    decide
  · simp at heq

/-- Of all the rows only the one of a dropped field is not allowed. -/
theorem sensitivityDropRows_allowed_iff {dropped : List String} :
    (∀ row ∈ sensitivityDropRows dropped, row.Allowed) ↔ dropped = [] := by
  unfold sensitivityDropRows
  split_ifs with h
  · simp [h]
  · refine iff_of_false (fun hall => ?_) h
    exact absurd (hall _ List.mem_cons_self) (by decide)

variable {env}

theorem settleRows_allowed {tables : JobTables} {node : WorkflowNode} {run : WorkflowNodeRun}
    {execution : Except String NodeExecution} {elapsed : Int32} :
    ∀ row ∈ settleRows tables node run execution elapsed, row.Allowed := by
  unfold settleRows
  split
  · split
    · exact completeNodeRows_allowed
    · simp
  · exact failNodeRows_allowed
  · simp

theorem finishRows_allowed_iff {tables : JobTables} {active : ActiveRun} {task : NodeTask}
    {run : WorkflowNodeRun} {reply : ρ} {elapsed : Int32} :
    (∀ row ∈ finishRows env tables active task run reply elapsed, row.Allowed) ↔
      droppedFields env active task = [] := by
  rw [finishRows, List.forall_mem_append, sensitivityDropRows_allowed_iff]
  exact and_iff_left settleRows_allowed

theorem collectRows_allowed {tables : JobTables}
    {results : Except String (List NodeBatchOutcome)} :
    ∀ row ∈ collectRows env tables results, row.Allowed := by
  unfold collectRows
  split
  · simp
  · rw [List.forall_mem_append]
    refine ⟨decisionRows_allowed _, ?_⟩
    split_ifs
    · simp
    · split
      · split
        · exact pausedRows_allowed
        · simp
      · simp

/-- The composition of a node finds a hidden slot at the top of one of its sources. -/
def ComposesHidden (env : RunnerEnv ρ) (active : ActiveRun) (task : NodeTask) : Prop :=
  ∃ config bindings sources outcome, task.node.kind = .composeResult config ∧
    bindingsFor task.node active.runs env.principal = .ok bindings ∧
    composeSources env.workflow active.runs config.sources = .ok sources ∧
    compose config.composition sources (maxVisibleSensitivity env.principal) = .ok outcome ∧
    ∃ source ∈ sources, ∃ name, source.Hides (maxVisibleSensitivity env.principal) name ∧
      (source.output.get? name).isSome = true

theorem droppedFields_ne_nil_iff {active : ActiveRun} {task : NodeTask} :
    droppedFields env active task ≠ [] ↔ ComposesHidden env active task := by
  constructor
  · intro hne
    obtain ⟨name, hname⟩ := List.exists_mem_of_ne_nil _ hne
    unfold droppedFields at hname
    split at hname
    · rename_i config bindings hkind hbindings
      split at hname
      · rename_i sources hsources
        split at hname
        · rename_i outcome houtcome
          obtain ⟨source, hsource, hhidden⟩ := (compose_dropped houtcome name).mp hname
          exact ⟨config, bindings, sources, outcome, hkind, hbindings, hsources, houtcome, source,
            hsource, name, hhidden⟩
        · simp at hname
      · simp at hname
    · simp at hname
  · rintro ⟨config, bindings, sources, outcome, hkind, hbindings, hsources, houtcome, source,
      hsource, name, hhidden⟩
    have hdropped : droppedFields env active task = outcome.droppedFields := by
      simp only [droppedFields, hkind, hbindings, hsources, houtcome]
    rw [hdropped]
    exact List.ne_nil_of_mem ((compose_dropped houtcome name).mpr ⟨source, hsource, hhidden⟩)

/-- The tables accept every row the step inserts. -/
def RowsAllowed (env : RunnerEnv ρ) (state : RunnerState) (action : RunnerAction ρ) : Prop :=
  ∀ row ∈ insertedRows env state action, row.Allowed

/-- The step is not the end of a node whose composition finds a hidden slot. -/
def HidesNothing (env : RunnerEnv ρ) (state : RunnerState) : RunnerAction ρ → Prop
  | .finish index _ _ | .auditError index _ _ _ =>
    ∀ active, state.active = some active → ∀ task, active.batch[index]? = some task →
      ∀ run, task.run = some run → ¬ ComposesHidden env active task
  | _ => True

theorem taskRows_allowed_iff {state : RunnerState} {index : ℕ}
    {rows : ActiveRun → NodeTask → WorkflowNodeRun → List AuditRow}
    {P : ActiveRun → NodeTask → Prop}
    (h : ∀ active task run, (∀ row ∈ rows active task run, row.Allowed) ↔ P active task) :
    (∀ row ∈ taskRows state index rows, row.Allowed) ↔
      ∀ active, state.active = some active → ∀ task, active.batch[index]? = some task →
        ∀ run, task.run = some run → P active task := by
  unfold taskRows
  cases hactive : state.active with
  | none => simp
  | some active =>
    cases htask : active.batch[index]? with
    | none => simp [htask]
    | some task =>
      cases hrun : task.run with
      | none => simp [htask, hrun]
      | some run => simp [htask, hrun, h active task run]

/-- What a step inserts is allowed unless its composition drops a field. -/
theorem rowsAllowed_iff (state : RunnerState) (action : RunnerAction ρ) :
    RowsAllowed env state action ↔ HidesNothing env state action := by
  have hfinish : ∀ (index : ℕ) (reply : ρ) (elapsed : Int32),
      (∀ row ∈ taskRows state index fun active task run =>
        finishRows env state.tables active task run reply elapsed, row.Allowed) ↔
      ∀ active, state.active = some active → ∀ task, active.batch[index]? = some task →
        ∀ run, task.run = some run → ¬ ComposesHidden env active task := fun index reply elapsed =>
    taskRows_allowed_iff fun active task run => by
      rw [finishRows_allowed_iff, ← droppedFields_ne_nil_iff, not_not]
  cases action with
  | finish index reply elapsed => exact hfinish index reply elapsed
  | auditError index reply elapsed message => exact hfinish index reply elapsed
  | begin index runId now =>
    refine iff_of_true ?_ trivial
    simp only [RowsAllowed, insertedRows]
    split
    · simp
    · split
      · simp
      · split_ifs
        · exact beginNodeRows_allowed
        · simp
  | cancel index elapsed =>
    refine iff_of_true ((taskRows_allowed_iff (P := fun _ _ => True) fun active task run => ?_).mpr
      fun _ _ _ _ _ _ => trivial) trivial
    refine iff_of_true ?_ trivial
    split
    · exact failNodeRows_allowed
    · simp
  | collect =>
    refine iff_of_true ?_ trivial
    simp only [RowsAllowed, insertedRows]
    split
    · exact collectRows_allowed
    · simp
  | resume request =>
    refine iff_of_true ?_ trivial
    simp only [RowsAllowed, insertedRows]
    split
    · exact resumedRows_allowed
    · simp
  | run => exact iff_of_true (by simp [RowsAllowed, insertedRows]) trivial
  | select => exact iff_of_true (by simp [RowsAllowed, insertedRows]) trivial
  | stateError index message => exact iff_of_true (by simp [RowsAllowed, insertedRows]) trivial
  | collectError message => exact iff_of_true (by simp [RowsAllowed, insertedRows]) trivial

end Allowed

section Events

variable {env} {tables after : JobTables}

/-- The types in the event log. -/
def JobTables.eventTypes (tables : JobTables) : List String := tables.events.map (·.eventType)

def acceptedEvents (rows : List AuditRow) : List String := rows.filterMap AuditRow.acceptedEvent?

@[simp] theorem insertEvent_eventTypes (eventType : String) (step : Option String)
    (payload : Json) :
    (tables.insertEvent eventType step payload).eventTypes = tables.eventTypes ++ [eventType] := by
  simp [JobTables.eventTypes, JobTables.insertEvent]

@[simp] theorem addBudgetConsumed_eventTypes (queries rows ms : ℤ) :
    (tables.addBudgetConsumed queries rows ms).eventTypes = tables.eventTypes := by
  unfold JobTables.addBudgetConsumed
  split <;> rfl

theorem completeNode_eventTypes {run : WorkflowNodeRun} {output : Json}
    {rowsReturned elapsed : Int32}
    (h : tables.completeNode run output rowsReturned elapsed = .ok after) :
    after.eventTypes = tables.eventTypes ++ acceptedEvents completeNodeRows := by
  unfold JobTables.completeNode at h
  split_ifs at h
  obtain rfl := Except.ok.inj h
  rw [insertEvent_eventTypes]
  rfl

theorem markWorkflowPaused_eventTypes {userId workflowId : Uuid} {nodeId : NodeId}
    {clarification : ClarificationPayload}
    (h : tables.markWorkflowPaused userId workflowId nodeId clarification = .ok after) :
    after.eventTypes = tables.eventTypes ++ acceptedEvents pausedRows := by
  unfold JobTables.markWorkflowPaused at h
  split_ifs at h
  obtain rfl := Except.ok.inj h
  rw [insertEvent_eventTypes]
  rfl

theorem recordDecisions_eventTypes (outcomes : List NodeBatchOutcome) (tables : JobTables) :
    (recordDecisions outcomes tables).eventTypes =
      tables.eventTypes ++ acceptedEvents (decisionRows outcomes) := by
  induction outcomes generalizing tables with
  | nil => simp [recordDecisions, decisionRows, acceptedEvents]
  | cons outcome rest ih =>
    rw [recordDecisions, List.foldl_cons]
    refine (ih _).trans ?_
    cases outcome with
    | completed run decision nodeId cost =>
      cases decision with
      | none => rfl
      | some cardinality =>
        simp only [JobTables.recordBranchDecision, insertEvent_eventTypes, List.append_assoc]
        rfl
    | _ => rfl

theorem settle_eventTypes (env : RunnerEnv ρ) (tables : JobTables) (node : WorkflowNode)
    (run : WorkflowNodeRun) (execution : Except String NodeExecution) (elapsed : Int32) :
    (settle env tables node run execution elapsed).2.eventTypes =
      tables.eventTypes ++ acceptedEvents (settleRows tables node run execution elapsed) := by
  cases execution with
  | error message => exact (List.append_nil _).symm
  | ok execution =>
    cases execution with
    | completed output rowsReturned =>
      simp only [settle, settleRows]
      cases hcomplete : tables.completeNode run (persistedOutput node.inputs output) rowsReturned
          elapsed with
      | error message => exact (List.append_nil _).symm
      | ok completed =>
        simp only [addBudgetConsumed_eventTypes]
        exact completeNode_eventTypes hcomplete
    | waiting clarification => exact (List.append_nil _).symm
    | failed => exact (List.append_nil _).symm

theorem sensitivityDropRows_events (dropped : List String) :
    acceptedEvents (sensitivityDropRows dropped) = [] := by
  unfold sensitivityDropRows
  split_ifs <;> decide

theorem finishTask_eventTypes (active : ActiveRun) (task : NodeTask) (run : WorkflowNodeRun)
    (reply : ρ) (elapsed : Int32) :
    (finishTask env tables active.runs task run reply elapsed).2.eventTypes =
      tables.eventTypes ++ acceptedEvents
        (finishRows env tables active task run reply elapsed) := by
  rw [finishRows, acceptedEvents, List.filterMap_append]
  change _ = _ ++ (acceptedEvents _ ++ _)
  rw [sensitivityDropRows_events]
  exact settle_eventTypes _ _ _ _ _ _

theorem recorded_eventTypes (state : RunnerState) (outcomes : List NodeBatchOutcome) :
    (state.recorded outcomes).tables.eventTypes =
      state.tables.eventTypes ++ acceptedEvents (decisionRows outcomes) :=
  recordDecisions_eventTypes outcomes state.tables

theorem CollectEffect.eventTypes {state after : RunnerState} {active : ActiveRun}
    {results : Except String (List NodeBatchOutcome)}
    (h : CollectEffect env state active results after) :
    after.tables.eventTypes =
      state.tables.eventTypes ++ acceptedEvents (collectRows env state.tables results) := by
  cases h with
  | error message => exact (List.append_nil _).symm
  | @failed outcomes hfailed =>
    simp only [collectRows, hfailed, if_true, List.append_nil]
    exact recorded_eventTypes state outcomes
  | @refused outcomes nodeId clarification message hfailed hwaiting hpause =>
    simp only [RunnerState.recorded] at hpause
    simp only [collectRows, hfailed, hwaiting, hpause, Bool.false_eq_true, if_false,
      List.append_nil]
    exact recorded_eventTypes state outcomes
  | @paused outcomes nodeId clarification paused hfailed hwaiting hpause =>
    have hevents := markWorkflowPaused_eventTypes hpause
    simp only [RunnerState.recorded] at hpause
    simp only [collectRows, hfailed, hwaiting, hpause]
    rw [acceptedEvents, List.filterMap_append, ← List.append_assoc]
    refine hevents.trans ?_
    rw [recorded_eventTypes]
    rfl
  | @continued outcomes hfailed hwaiting =>
    simp only [collectRows, hfailed, hwaiting, Bool.false_eq_true, if_false, List.append_nil]
    exact recorded_eventTypes state outcomes

theorem beginTask_eventTypes (active : ActiveRun) {task : NodeTask} (hrun : task.run = none)
    (runId : Uuid) (now : ℕ) :
    (beginTask env tables active.runs task runId now).2.eventTypes = tables.eventTypes ++
      acceptedEvents (if (beginTask env tables active.runs task runId now).1.run.isSome then
        beginNodeRows else []) := by
  rcases beginTask_cases env tables active.runs task runId now with
    ⟨message, hbegin⟩ | ⟨run, -, -, hbegin⟩
  · rw [hbegin]
    simp [hrun, acceptedEvents]
  · rw [hbegin]
    simp only [JobTables.beginNode, insertEvent_eventTypes, Option.isSome_some, if_true]
    rfl

theorem resume_eventTypes (tables : JobTables) (request : WorkflowResumeRequest) :
    (tables.resume request).2.eventTypes = tables.eventTypes ++ acceptedEvents
      (match tables.resume request with
        | (.resumed, _) => resumedRows
        | _ => []) := by
  cases hresume : tables.resume request with
  | mk outcome after =>
    rcases JobTables.resume_eq hresume with ⟨rfl, -, -, rfl⟩ | ⟨hne, rfl⟩
    · simp only [JobTables.resumed, insertEvent_eventTypes]
      rfl
    · cases outcome with
      | resumed => exact absurd rfl hne
      | _ => exact (List.append_nil _).symm

/-- The event log grows by the rows of the step that its table accepts. -/
theorem step_eventTypes {state after : RunnerState} {action : RunnerAction ρ}
    (h : runnerStep env state action = some after) :
    after.tables.eventTypes =
      state.tables.eventTypes ++ acceptedEvents (insertedRows env state action) := by
  have hsame : ∀ tables : JobTables, tables.eventTypes =
      tables.eventTypes ++ acceptedEvents [] := fun _ => (List.append_nil _).symm
  cases runnerStep_effect h with
  | started _ => exact hsame _
  | selected _ _ hselect => cases hselect <;> exact hsame _
  | @begun active index task runId now hactive htask hrun _ _ =>
    simp only [insertedRows, hactive, htask]
    exact beginTask_eventTypes active hrun runId now
  | @finished active index task run reply elapsed hactive htask hrun _ =>
    simp only [insertedRows, taskRows, hactive, htask, hrun, Option.elim_some]
    exact finishTask_eventTypes active task run reply elapsed
  | @cancelled active index task run elapsed hactive htask hrun _ =>
    simp only [insertedRows, taskRows, hactive, htask, hrun, Option.elim_some]
    unfold cancelTask
    cases bindingsFor task.node active.runs env.principal <;> exact hsame _
  | collected hactive _ hresults hcollect =>
    simp only [insertedRows, hactive, Option.bind_some, hresults]
    exact hcollect.eventTypes
  | resumed request => exact resume_eventTypes state.tables request
  | stateFailed _ _ _ => exact hsame _
  | @auditFailed active index task run reply elapsed message hactive htask hrun _ =>
    simp only [insertedRows, taskRows, hactive, htask, hrun, Option.elim_some]
    exact finishTask_eventTypes active task run reply elapsed
  | collectFailed _ _ _ => exact hsame _

end Events

/-- Along every run the tables accept every row, exactly when no composition of the
run finds a hidden slot. -/
theorem audit_rows_allowed_iff (env : RunnerEnv ρ) (state : RunnerState)
    (actions : List (RunnerAction ρ)) :
    (runner env).Along (RowsAllowed env) state actions ↔
      (runner env).Along (HidesNothing env) state actions :=
  Machine.along_congr (fun s a _ _ => rowsAllowed_iff s a) state actions

namespace DroppedPhone

/-! A resolved client's phone is composed for a principal who may not see it. -/

def composeId : NodeId := ⟨"compose", NodeId.isValid_compose⟩

def sensitive (node : WorkflowNode) : WorkflowNode :=
  { node with policy := { node.policy with maxSensitivity := .pii } }

def workflow : ExecutionWorkflow :=
  { Bypass.workflow with
    nodes :=
      [sensitive (Bypass.node Bypass.lookupId Bypass.query [Bypass.scope]
          [⟨"phone", .string, .pii, .one⟩] 1),
       sensitive (Bypass.node composeId (.composeResult ⟨[Bypass.lookupId], .single⟩) [] [] 0),
       Bypass.node Bypass.doneId (.complete ⟨.success⟩) [] [] 0]
    edges := [⟨Bypass.lookupId, composeId, .always⟩, ⟨composeId, Bypass.doneId, .always⟩]
    outputContract := ⟨.table, false, .pii⟩ }

def setup : RunnerEnv NodeExecution := { Bypass.setup with workflow := workflow }

theorem accepted : verify DirectedGraph.sourceRemoval workflow setup.principal setup.catalog =
    .ok ⟨workflow⟩ := by decide

theorem start_reachable : (runner setup).Reachable Bypass.start :=
  .init ⟨rfl, List.nodup_nil, by simp [Bypass.start]⟩

/-- The row of the client, with the phone also at the top of the output. -/
def output : Json :=
  .obj [("untrusted_tool_output", .obj [("rows", .arr [.obj [("phone", .str "555-0101")]])]),
    ("phone", .str "555-0101")]

def composing : List (RunnerAction NodeExecution) :=
  [.run, .select, .begin 0 11 1, .finish 0 (.completed output 1) 5, .collect,
   .select, .begin 0 12 2]

def composed : RunnerAction NodeExecution := .finish 0 .failed 5

/-- The row is refused, and with it the composition fails. -/
def refused (state : RunnerState) : Bool :=
  decide (.event "workflow_field_dropped" ∈ insertedRows setup state composed) &&
    (runnerStep setup state composed).any fun after =>
      after.active.any fun active => active.batch.any fun task =>
        match task.result with
        | some (.error message) =>
          decide (message = "new row violates check constraint chk_chat_job_events_type")
        | _ => false

theorem composing_refused : ((runner setup).run Bypass.start composing).any refused = true := by
  decide

end DroppedPhone

/-- A verified workflow whose composition fails because of the event that records what
it dropped. -/
theorem dropped_field_refused :
    verify DirectedGraph.sourceRemoval DroppedPhone.workflow DroppedPhone.setup.principal
        DroppedPhone.setup.catalog = .ok ⟨DroppedPhone.workflow⟩ ∧
      ∃ state after task, (runner DroppedPhone.setup).Reachable state ∧
        runnerStep DroppedPhone.setup state DroppedPhone.composed = some after ∧
        ¬ RowsAllowed DroppedPhone.setup state DroppedPhone.composed ∧
        (∃ active, after.active = some active ∧ task ∈ active.batch) ∧
        task.result =
          some (.error "new row violates check constraint chk_chat_job_events_type") := by
  refine ⟨DroppedPhone.accepted, ?_⟩
  obtain ⟨state, hreach, htest⟩ :=
    DroppedPhone.start_reachable.exists_of_run DroppedPhone.composing_refused
  obtain ⟨hrow, hstep⟩ := Bool.and_eq_true_iff.mp htest
  obtain ⟨after, hafter, hactive⟩ := (Option.any_eq_true _ _).mp hstep
  obtain ⟨active, hsome, htask⟩ := (Option.any_eq_true _ _).mp hactive
  obtain ⟨task, hmem, hresult⟩ := List.any_eq_true.mp htask
  refine ⟨state, after, task, hreach, hafter, fun hall => ?_, ⟨active, hsome, hmem⟩, ?_⟩
  · exact absurd (hall _ (of_decide_eq_true hrow)) (by decide)
  · split at hresult
    · rename_i message hmessage
      rw [hmessage, of_decide_eq_true hresult]
    · simp at hresult

end FineractReports.Workflow
