import FineractReports.Workflow.Progress
import FineractReports.Workflow.RowOrigins

/-!
# The width of what is runnable

The verifier bounds the widest wave of nodes whose parents are all done. The scheduler
starts a node behind any satisfied edge and calls may stop between nodes, so what bounds
it are the borders of all sets of nodes that can have completed.
-/

namespace FineractReports.Workflow

open DirectedGraph

variable {ρ : Type} {env : RunnerEnv ρ} {state after : RunnerState}

/-! ### Borders -/

/-- The node whose output an input is filled from. -/
def suppliedBy? : BindingSource → Option NodeId
  | .priorStep node _ => some node
  | .authorizedDataProbe node _ => some node
  | _ => none

/-- Nodes that have to complete before a node can. -/
def WorkflowNode.needs (node : WorkflowNode) : List NodeId :=
  node.inputs.filterMap (fun input => suppliedBy? input.source) ++
    match node.kind with
    | .composeResult compose => compose.sources
    | .cardinalityBranch branch => [branch.source]
    | _ => []

/-- A set of nodes that can have completed: each lies behind others of the set, finds what
it needs there and, as a branch, counts for its decision. -/
structure IsCut (workflow : ExecutionWorkflow) (outcomes : Outcomes) (done : NodeId → Prop) :
    Prop where
  ways : ∀ id, done id → ∃ way, Way workflow outcomes way id ∧ ∀ passed ∈ way, done passed
  supplied : ∀ node ∈ workflow.nodes, done node.id → ∀ need ∈ node.needs, done need
  decided : ∀ id, done id → Decided workflow outcomes id

/-- Not in the set, but an entry or behind an admitted edge from it. -/
def OnBorder (workflow : ExecutionWorkflow) (outcomes : Outcomes) (done : NodeId → Prop)
    (id : NodeId) : Prop :=
  ¬ done id ∧ ∃ way, Way workflow outcomes way id ∧ ∀ passed ∈ way, done passed

/-- No set of nodes that can have completed has more than `bound` nodes on its border. -/
def BordersWithin (workflow : ExecutionWorkflow) (bound : ℕ) : Prop :=
  ∀ outcomes done, IsCut workflow outcomes done → ∀ ids : List NodeId, ids.Nodup →
    (∀ id ∈ ids, OnBorder workflow outcomes done id) → ids.length ≤ bound

/-! ### What an execution needs -/

section Executions

variable {runs : List WorkflowNodeRun} {principal : PrincipalContext} {tables : JobTables}
  {task : NodeTask} {reply : ρ} {execution : NodeExecution}

theorem bindInputs_supplied {inputs : List NodeInput} {bindings result : Bindings}
    (h : bindInputs runs principal inputs bindings = .ok result) :
    ∀ input ∈ inputs, ∀ id, suppliedBy? input.source = some id → id ∈ completedIds runs := by
  induction inputs generalizing bindings with
  | nil => simp
  | cons input rest ih =>
    intro other hother id hid
    rw [bindInputs] at h
    split_ifs at h with hexact
    · rcases List.mem_cons.mp hother with rfl | hother
      · rw [hexact] at hid
        cases hid
      · exact ih h other hother id hid
    · obtain ⟨value, hvalue, h⟩ := bind_eq_ok_iff.mp h
      rcases List.mem_cons.mp hother with rfl | hother
      · have hslot : ∃ slot, outputSlot runs id slot = .ok value := by
          cases hsource : other.source <;> rw [hsource] at hid hvalue <;> cases hid
          · exact ⟨_, hvalue⟩
          · exact ⟨_, hvalue⟩
        obtain ⟨slot, hslot⟩ := hslot
        simp only [outputSlot, okOr_eq_ok, Option.bind_eq_some_iff] at hslot
        obtain ⟨-, ⟨run, hrun, -⟩, -⟩ := hslot
        exact completedRun_isSome.mp (by rw [hrun]; rfl)
      · exact ih h other hother id hid

theorem composeSources_supplied {workflow : ExecutionWorkflow} {ids : List NodeId}
    {sources : List ComposeSource} (h : composeSources workflow runs ids = .ok sources) :
    ∀ id ∈ ids, id ∈ completedIds runs := by
  induction ids generalizing sources with
  | nil => simp
  | cons id rest ih =>
    simp only [composeSources, bind_eq_ok_iff, nodeOutput, okOr_eq_ok, Option.bind_eq_some_iff] at h
    obtain ⟨node, -, output, ⟨run, hrun, -⟩, others, hothers, -⟩ := h
    intro other hother
    rcases List.mem_cons.mp hother with rfl | hother
    · exact completedRun_isSome.mp (by rw [hrun]; rfl)
    · exact ih hothers other hother

/-- An execution that comes to something found what its node needs. -/
theorem needs_of_execution (h : taskExecution env tables runs task reply = .ok execution) :
    ∀ need ∈ task.node.needs, need ∈ completedIds runs := by
  obtain ⟨bindings, hbindings, hresolved⟩ := bind_eq_ok_iff.mp h
  intro need hneed
  rcases List.mem_append.mp hneed with hinput | hkind
  · obtain ⟨input, hmem, hsource⟩ := List.mem_filterMap.mp hinput
    exact bindInputs_supplied hbindings input hmem need hsource
  · split at hkind
    · rename_i compose hcompose
      simp only [resolveExecution, hcompose, bind_eq_ok_iff] at hresolved
      obtain ⟨sources, hsources, -⟩ := hresolved
      exact composeSources_supplied hsources need hkind
    · rename_i branch hbranch
      obtain rfl := List.mem_singleton.mp hkind
      simp only [resolveExecution, hbranch, bind_eq_ok_iff] at hresolved
      obtain ⟨decision, hdecision, -⟩ := hresolved
      exact mem_completedIds_of_cardinalityFor hdecision
    · simp at hkind

theorem waiting_not_branch {clarification : ClarificationPayload}
    (h : taskExecution env tables runs task reply = .ok (.waiting clarification)) :
    task.node.isCardinalityBranch = false := by
  obtain ⟨bindings, -, hresolved⟩ := bind_eq_ok_iff.mp h
  unfold WorkflowNode.isCardinalityBranch
  split
  · rename_i branch hbranch
    simp only [resolveExecution, hbranch, bind_eq_ok_iff, pure_eq_ok, reduceCtorEq, and_false,
      exists_false] at hresolved
  · rfl

theorem settle_waiting {run : WorkflowNodeRun} {elapsed : Int32}
    {execution : Except String NodeExecution} {node : WorkflowNode} {nodeId : NodeId}
    {clarification : ClarificationPayload}
    (h : (settle env tables node run execution elapsed).1 = .ok (.waiting nodeId clarification)) :
    nodeId = node.id ∧ ∃ asked, execution = .ok (.waiting asked) := by
  unfold settle at h
  split at h
  · cases h
  · simp only at h
    split at h <;> cases h
  · rename_i asked
    simp only [Except.ok.injEq, NodeBatchOutcome.waiting.injEq] at h
    exact ⟨h.1.symm, asked, rfl⟩
  · cases h

end Executions

/-! ### The rows of any run -/

/-- The rows of a job whatever happened to its calls: the nodes that have completed are a
cut, and a node that waits needs nothing more. -/
structure CutRows (env : RunnerEnv ρ) (rows : List WorkflowNodeRun) : Prop where
  reached : ∀ row ∈ rows, row.workflowId = env.workflow.id →
    ReachedThrough env.workflow rows row.nodeId
  supplied : ∀ row ∈ rows, row.workflowId = env.workflow.id →
    row.status = .completed ∨ row.status = .waiting →
      ∀ node ∈ env.workflow.nodes, node.id = row.nodeId → ∀ need ∈ node.needs,
        durablyCompleted env.workflow.id rows need
  undecided : ∀ row ∈ rows, row.workflowId = env.workflow.id → row.status = .waiting →
    ∀ node ∈ env.workflow.nodes, node.id = row.nodeId → node.isCardinalityBranch = false
  decided : ∀ row, IsDone env.workflow.id rows row →
    Decided env.workflow (outcomesOf env.workflow.id rows) row.nodeId

/-- A task that asks the user has what it needs and is not a branch. -/
def AskingTasks (state : RunnerState) : Prop :=
  ∀ active, state.active = some active → ∀ task ∈ active.batch, ∀ nodeId clarification,
    task.result = some (.ok (.waiting nodeId clarification)) → nodeId = task.node.id ∧
      task.node.isCardinalityBranch = false ∧
        ∀ need ∈ task.node.needs, need ∈ completedIds active.runs

section Rows

variable {rows : List WorkflowNodeRun} {active : ActiveRun} {action : RunnerAction ρ}

theorem CutRows.isCut (h : CutRows env rows) : IsCut env.workflow
    (outcomesOf env.workflow.id rows) (durablyCompleted env.workflow.id rows) where
  ways id hid := by
    obtain ⟨row, hrow, hworkflow, rfl, -⟩ := hid
    exact h.reached row hrow hworkflow
  supplied node hnode hdone := by
    obtain ⟨row, hrow, hworkflow, hid, hstatus⟩ := hdone
    exact h.supplied row hrow hworkflow (Or.inl hstatus) node hnode hid.symm
  decided id hid := by
    obtain ⟨row, hrow, rfl⟩ := durablyCompleted_iff.mp hid
    exact h.decided row hrow

/-- What the scheduler considers at a loop head is on the border of what has completed. -/
theorem CutRows.runnable_le {bound : ℕ} (h : CutRows env rows)
    (hborders : BordersWithin env.workflow bound)
    (hids : (env.workflow.nodes.map (·.id)).Nodup) (hrows : RowsInv env.workflow.id rows)
    (hcall : CallInv env rows active) (hhead : active.batch = []) :
    (runnableNodes env.workflow active.runs).length ≤ bound := by
  have hlength : (runnableNodes env.workflow active.runs).length =
      ((runnableNodes env.workflow active.runs).map (·.id)).length := by simp
  rw [hlength]
  apply hborders _ _ h.isCut
  · exact hids.sublist (List.filter_sublist.map _)
  · intro id hid
    obtain ⟨node, hnode, rfl⟩ := List.mem_map.mp hid
    obtain ⟨hmem, hrunnable⟩ := mem_runnableNodes.mp hnode
    refine ⟨?_, ReachedThrough.of_runnable h.reached hcall hrows hmem hrunnable⟩
    intro hdone
    obtain ⟨row, hrow, hrowId⟩ := durablyCompleted_iff.mp hdone
    -- the row blocks the node in the list of the call too, since no task is under way
    rcases hcall.seen row hrow.1 hrow.2.1 hrow.blocks with ⟨run, hrun, hrunId, hblocks⟩ | htask
    · have hfree := (runnable_iff.mp hrunnable).1 run hrun (hrunId.trans hrowId)
      rw [hfree] at hblocks
      cases hblocks
    · obtain ⟨task, htask, -⟩ := htask
      rw [hhead] at htask
      cases htask

theorem durablyCompleted_mono {after : List WorkflowNodeRun} {id : NodeId}
    (hkept : ∀ row, IsDone env.workflow.id rows row → IsDone env.workflow.id after row)
    (h : durablyCompleted env.workflow.id rows id) :
    durablyCompleted env.workflow.id after id := by
  obtain ⟨row, hdone, hid⟩ := durablyCompleted_iff.mp h
  exact durablyCompleted_iff.mpr ⟨row, hkept row hdone, hid⟩

/-- Every step of the runner keeps what is known of the rows. -/
theorem CutRows.step (h : CutRows env state.tables.nodeRuns) (hasking : AskingTasks state)
    (hinv : RunnerInv env state) (hids : (env.workflow.nodes.map (·.id)).Nodup)
    (hafter : RunnerInv env after) (heffect : RunnerEffect env state action after) :
    CutRows env after.tables.nodeRuns := by
  have horigin := heffect.rowOrigin hinv
  have hkept : ∀ row, IsDone env.workflow.id state.tables.nodeRuns row →
      IsDone env.workflow.id after.tables.nodeRuns row :=
    fun row => (heffect.rowsStep hinv).isDone
  have hreached : ∀ row ∈ state.tables.nodeRuns, row.workflowId = env.workflow.id →
      ReachedThrough env.workflow after.tables.nodeRuns row.nodeId :=
    fun row hrow hworkflow => (h.reached row hrow hworkflow).mono hafter.rows hkept
  have hdurable {active : ActiveRun} {need : NodeId} (hactive : state.active = some active)
      (hneed : need ∈ completedIds active.runs) :
      durablyCompleted env.workflow.id after.tables.nodeRuns need :=
    durablyCompleted_mono hkept ((hinv.call active hactive).durablyCompleted hneed)
  refine ⟨?_, ?_, ?_, ?_⟩
  · intro row hrow hworkflow
    cases horigin row hrow with
    | kept hbefore => exact hreached row hbefore hworkflow
    | begun hactive htask hnode _ =>
      have hcall := hinv.call _ hactive
      have htaskInv := hcall.tasks _ htask
      rw [hnode]
      exact (ReachedThrough.of_runnable h.reached hcall hinv.rows htaskInv.node_mem
        htaskInv.runnable).mono hafter.rows hkept
    | failed hbefore hnode hsame _ =>
      rw [hnode]
      exact hreached _ hbefore (hsame ▸ hworkflow)
    | paused _ _ _ hbefore hnode hsame _ =>
      rw [hnode]
      exact hreached _ hbefore (hsame ▸ hworkflow)
    | @answered old hbefore _ heq =>
      subst heq
      exact hreached old hbefore hworkflow
    | @completed _ _ _ _ _ _ old _ _ hbefore _ _ heq =>
      subst heq
      exact hreached old hbefore hworkflow
  · intro row hrow hworkflow hstatus node hnode hid need hneed
    cases horigin row hrow with
    | kept hbefore =>
      exact durablyCompleted_mono hkept
        (h.supplied row hbefore hworkflow hstatus node hnode hid need hneed)
    | begun _ _ _ hrunning => simp [hrunning] at hstatus
    | failed _ _ _ hfailed => simp [hfailed] at hstatus
    | paused hactive htask hresult _ _ _ _ =>
      obtain ⟨hown, -, hneeds⟩ := hasking _ hactive _ htask _ _ hresult
      obtain rfl := node_eq_of_id hids hnode ((hinv.call _ hactive).tasks _ htask).node_mem
        (hid.trans hown)
      exact hdurable hactive (hneeds need hneed)
    | @answered old hbefore hwaiting heq =>
      subst heq
      exact durablyCompleted_mono hkept
        (h.supplied old hbefore hworkflow (Or.inr hwaiting) node hnode hid need hneed)
    | completed hactive htask _ hown hexecution heq =>
      subst heq
      obtain rfl := node_eq_of_id hids hnode ((hinv.call _ hactive).tasks _ htask).node_mem
        (hid.trans hown)
      exact hdurable hactive (needs_of_execution hexecution need hneed)
  · intro row hrow hworkflow hstatus node hnode hid
    cases horigin row hrow with
    | kept hbefore => exact h.undecided row hbefore hworkflow hstatus node hnode hid
    | begun _ _ _ hrunning => simp [hrunning] at hstatus
    | failed _ _ _ hfailed => simp [hfailed] at hstatus
    | paused hactive htask hresult _ _ _ _ =>
      obtain ⟨hown, hbranch, -⟩ := hasking _ hactive _ htask _ _ hresult
      obtain rfl := node_eq_of_id hids hnode ((hinv.call _ hactive).tasks _ htask).node_mem
        (hid.trans hown)
      exact hbranch
    | answered _ _ heq => simp [heq] at hstatus
    | completed _ _ _ _ _ heq => simp [heq, completedWith] at hstatus
  · intro row hdone
    obtain ⟨hrow, hworkflow, hstatus⟩ := hdone
    cases horigin row hrow with
    | kept hbefore =>
      exact (h.decided row ⟨hbefore, hworkflow, hstatus⟩).mono (outcomesOf_mono hafter.rows hkept)
    | begun _ _ _ hrunning => simp [hrunning] at hstatus
    | failed _ _ _ hfailed => simp [hfailed] at hstatus
    | paused _ _ _ _ _ _ hwaiting => simp [hwaiting] at hstatus
    | @answered old hbefore hwaiting heq =>
      subst heq
      intro node hnode hid branch hbranch
      have hplain := h.undecided old hbefore hworkflow hwaiting node hnode hid
      simp [WorkflowNode.isCardinalityBranch, hbranch] at hplain
    | completed hactive htask _ hown hexecution heq =>
      subst heq
      have hcall := hinv.call _ hactive
      simp only [completedWith, hown]
      exact decided_of_execution hids hcall hinv.rows h.reached hafter.rows hkept
        (hcall.tasks _ htask).node_mem hexecution hown ⟨hrow, hworkflow, rfl⟩

theorem AskingTasks.of_idle (hidle : state.active = none) : AskingTasks state := by
  intro active hactive
  rw [hidle] at hactive
  cases hactive

/-- A task is replaced by one that asks nothing, or that executed to a question. -/
theorem AskingTasks.setTask {index : ℕ} {written : NodeTask × JobTables} (h : AskingTasks state)
    (hactive : state.active = some active)
    (hwritten : ∀ nodeId clarification,
      written.1.result = some (.ok (.waiting nodeId clarification)) → nodeId = written.1.node.id ∧
        written.1.node.isCardinalityBranch = false ∧
          ∀ need ∈ written.1.node.needs, need ∈ completedIds active.runs) :
    AskingTasks (state.setTask active index written) := by
  intro call hcall task htask nodeId clarification hresult
  obtain rfl := Option.some.inj hcall
  rcases List.mem_or_eq_of_mem_set htask with hmem | rfl
  · exact h active hactive task hmem nodeId clarification hresult
  · exact hwritten nodeId clarification hresult

theorem AskingTasks.step (h : AskingTasks state) (heffect : RunnerEffect env state action after) :
    AskingTasks after := by
  cases heffect with
  | started _ =>
    intro call hcall task htask
    obtain rfl := Option.some.inj hcall
    cases htask
  | selected hactive _ hselect =>
    cases hselect with
    | exhausted _ => exact .of_idle rfl
    | repeated _ _ => exact .of_idle rfl
    | starved _ _ => exact .of_idle rfl
    | chosen _ =>
      intro call hcall task htask nodeId clarification hresult
      obtain rfl := Option.some.inj hcall
      obtain ⟨node, -, rfl⟩ := List.mem_map.mp htask
      cases hresult
  | @begun active index task runId now hactive _ _ hnone _ =>
    apply h.setTask hactive
    intro nodeId clarification hresult
    rcases beginTask_cases env state.tables active.runs task runId now with
      ⟨message, hbegin⟩ | ⟨run, -, -, hbegin⟩
    · rw [hbegin] at hresult
      cases hresult
    · rw [hbegin] at hresult
      simp only [hnone] at hresult
      cases hresult
  | finished hactive _ _ _ =>
    apply h.setTask hactive
    intro nodeId clarification hresult
    obtain ⟨hown, asked, hexecution⟩ := settle_waiting (Option.some.inj hresult)
    exact ⟨hown, waiting_not_branch hexecution, needs_of_execution hexecution⟩
  | @cancelled active index task run elapsed hactive _ _ _ =>
    apply h.setTask hactive
    intro nodeId clarification hresult
    unfold cancelTask at hresult
    split at hresult <;> cases hresult
  | collected _ _ _ hcollect =>
    cases hcollect with
    | error _ => exact .of_idle rfl
    | failed _ => exact .of_idle rfl
    | refused _ _ _ => exact .of_idle rfl
    | paused _ _ _ => exact .of_idle rfl
    | continued _ _ =>
      intro call hcall task htask
      obtain rfl := Option.some.inj hcall
      cases htask
  | resumed request => exact h
  | stateFailed hactive _ _ =>
    apply h.setTask hactive
    intro nodeId clarification hresult
    cases hresult
  | auditFailed hactive _ _ _ =>
    apply h.setTask hactive
    intro nodeId clarification hresult
    cases hresult
  | collectFailed _ _ _ => exact .of_idle rfl

/-- The list of a call changes only where the call is back at its loop head. -/
theorem RunnerEffect.runs_or_head (heffect : RunnerEffect env state action after)
    (hafter : after.active = some active) :
    active.batch = [] ∨ ∃ before, state.active = some before ∧ active.runs = before.runs := by
  cases heffect with
  | started _ =>
    obtain rfl := Option.some.inj hafter
    exact Or.inl rfl
  | selected hactive _ hselect =>
    cases hselect with
    | exhausted _ => cases hafter
    | repeated _ _ => cases hafter
    | starved _ _ => cases hafter
    | chosen _ =>
      obtain rfl := Option.some.inj hafter
      exact Or.inr ⟨_, hactive, rfl⟩
  | collected _ _ _ hcollect =>
    cases hcollect with
    | error _ => cases hafter
    | failed _ => cases hafter
    | refused _ _ _ => cases hafter
    | paused _ _ _ => cases hafter
    | continued _ _ =>
      obtain rfl := Option.some.inj hafter
      exact Or.inl rfl
  | resumed request => exact Or.inr ⟨active, hafter, rfl⟩
  | collectFailed _ _ _ => cases hafter
  | begun hactive _ _ _ _ | finished hactive _ _ _ | cancelled hactive _ _ _
  | stateFailed hactive _ _ | auditFailed hactive _ _ _ =>
    obtain rfl := Option.some.inj hafter
    exact Or.inr ⟨_, hactive, rfl⟩

end Rows

/-- What holds in every state of a job whose workflow has narrow borders. -/
structure WidthInv (env : RunnerEnv ρ) (bound : ℕ) (state : RunnerState) : Prop where
  rows : CutRows env state.tables.nodeRuns
  asking : AskingTasks state
  width : ∀ active, state.active = some active →
    (runnableNodes env.workflow active.runs).length ≤ bound

theorem WidthInv.init {bound : ℕ} (h : (runner env).init state) : WidthInv env bound state := by
  obtain ⟨hidle, -, hforeign⟩ := h
  have hnone {row : WorkflowNodeRun} {p : Prop} (hrow : row ∈ state.tables.nodeRuns)
      (hworkflow : row.workflowId = env.workflow.id) : p := absurd hworkflow (hforeign row hrow)
  refine ⟨⟨?_, ?_, ?_, ?_⟩, .of_idle hidle, ?_⟩
  · exact fun row hrow hworkflow => hnone hrow hworkflow
  · exact fun row hrow hworkflow => hnone hrow hworkflow
  · exact fun row hrow hworkflow => hnone hrow hworkflow
  · exact fun row hdone => hnone hdone.1 hdone.2.1
  · intro active hactive
    rw [hidle] at hactive
    cases hactive

theorem width_reachable {bound : ℕ} (hids : (env.workflow.nodes.map (·.id)).Nodup)
    (hborders : BordersWithin env.workflow bound) (h : (runner env).Reachable state) :
    WidthInv env bound state := by
  apply h.invariant_under (fun hr => runner_reachable hids hr) (fun _ => .init)
  intro before action after hinv hwidth _ hstep
  have heffect := runnerStep_effect hstep
  have hafter := hinv.effect hids heffect
  have hrows := hwidth.rows.step hwidth.asking hinv hids hafter heffect
  refine ⟨hrows, hwidth.asking.step heffect, ?_⟩
  intro active hactive
  rcases heffect.runs_or_head hactive with hhead | ⟨earlier, hearlier, hsame⟩
  · exact hrows.runnable_le hborders hids hafter.rows (hafter.call active hactive) hhead
  · rw [hsame]
    exact hwidth.width earlier hearlier

/-- The verifier's width bounds what is runnable wherever it bounds the borders. -/
theorem runnable_within_width {sort : TopologicalSort NodeId}
    {verified : VerifiedWorkflow} {active : ActiveRun}
    (hverify : verify sort env.workflow env.principal env.catalog = .ok verified)
    (hborders : BordersWithin env.workflow (WorkflowGraph.new env.workflow).maxReadyWidth)
    (hreach : (runner env).Reachable state) (hactive : state.active = some active) :
    (runnableNodes env.workflow active.runs).length ≤
      (WorkflowGraph.new env.workflow).maxReadyWidth := by
  obtain ⟨-, hshape, -⟩ := verify_eq_ok.mp hverify
  exact (width_reachable hshape.ids_nodup hborders hreach).width active hactive

namespace Shortcut

/-! A node that waits for a long way in the verifier's waves and follows a short one. -/

def firstId : NodeId := ⟨"first", NodeId.isValid_first⟩
def secondId : NodeId := ⟨"second", NodeId.isValid_second⟩
def thirdId : NodeId := ⟨"third", by decide⟩
def joinId : NodeId := ⟨"join", by decide⟩
def leftId : NodeId := ⟨"left", by decide⟩
def rightId : NodeId := ⟨"right", by decide⟩

def query (id : NodeId) : WorkflowNode where
  id := id
  kind := .executeQuery ⟨none, none, none, none, none⟩
  inputs := [⟨"office_ids", .integerArray, .authorizedScope⟩]
  outputs := []
  policy := ⟨none, .authorizedIntersection, .publicBusiness, false⟩
  budget := ⟨1000, 10, 1⟩
  idempotency := .replayable
  retry := ⟨0⟩

def done (id : NodeId) : WorkflowNode :=
  { query id with kind := .complete ⟨.success⟩, inputs := [], budget := ⟨1000, 10, 0⟩ }

def workflow : ExecutionWorkflow where
  id := 7
  contractVersion := WORKFLOW_CONTRACT_VERSION
  catalogVersion := 0
  nodes := [query firstId, query secondId, query thirdId, query joinId, done leftId, done rightId]
  edges :=
    [⟨firstId, joinId, .always⟩, ⟨firstId, secondId, .always⟩, ⟨secondId, thirdId, .always⟩,
     ⟨thirdId, joinId, .always⟩, ⟨joinId, leftId, .always⟩, ⟨joinId, rightId, .always⟩]
  budgets := ⟨30000, 1000, 4, 2, 2, 0⟩
  failPolicy := .failFast
  outputContract := ⟨.table, false, .publicBusiness⟩

def chain : ExecutionWorkflow :=
  { workflow with
    nodes := [query firstId, done leftId]
    edges := [⟨firstId, leftId, .always⟩] }

def setup (workflow : ExecutionWorkflow) : RunnerEnv NodeExecution where
  workflow := workflow
  principal := ⟨1, "analyst", [], [1], false⟩
  catalog := ⟨[], [], [], [], [], [], [], [], [], [], [],
    ⟨⟨0, "0"⟩, ⟨0, "0"⟩, "others", "Others"⟩, []⟩
  executor := fun _ _ _ reply => .ok reply

def start : RunnerState where
  tables :=
    { jobId := 3, userId := 1, sessionArchived := false, status := .running, currentStep := ""
      resumeFromStep := none, stateJson := .obj [], resultJson := none, errorJson := none
      workflowId := some 7, workflowRevision := 0, currentNodeId := none
      pendingClarification := none, memoryRevision := 0, nodeRuns := [], events := [] }
  active := none
  outcome := none

theorem start_reachable (workflow : ExecutionWorkflow) :
    (runner (setup workflow)).Reachable start :=
  .init ⟨rfl, List.nodup_nil, by simp [start]⟩

/-- The first query, then the join beside the second query. -/
def joined : List (RunnerAction NodeExecution) :=
  [.run, .select, .begin 0 11 1, .finish 0 (.completed (.obj []) 1) 5, .collect, .select,
   .begin 0 12 2, .begin 1 13 2, .finish 0 (.completed (.obj []) 1) 5,
   .finish 1 (.completed (.obj []) 1) 5, .collect]

/-- Of a chain of two only one node is on a border. -/
theorem chain_borders : BordersWithin chain 1 := by
  classical
  intro outcomes done _ ids hnodup hborder
  have hends : ∀ id ∈ ids, id = if done firstId then leftId else firstId := by
    intro id hid
    obtain ⟨hopen, way, hway, hpassed⟩ := hborder id hid
    cases hway with
    | @entry node hnode hentry =>
      obtain rfl | rfl : node = query firstId ∨ node = Shortcut.done leftId := by
        simpa [chain] using hnode
      · exact (if_neg hopen).symm
      · exact absurd rfl (hentry ⟨firstId, leftId, .always⟩ List.mem_cons_self)
    | step _ hedge _ =>
      obtain rfl := List.mem_singleton.mp hedge
      exact (if_pos (hpassed firstId List.mem_cons_self)).symm
  rw [List.eq_replicate_of_mem hends, List.nodup_replicate] at hnodup
  exact hnodup

end Shortcut

theorem runnable_within_width_chain : ∃ state active,
    (runner (Shortcut.setup Shortcut.chain)).Reachable state ∧ state.active = some active ∧
      (runnableNodes Shortcut.chain active.runs).length ≤
        (WorkflowGraph.new Shortcut.chain).maxReadyWidth := by
  obtain ⟨state, hreach, hactive⟩ := (Shortcut.start_reachable Shortcut.chain).exists_of_run
    (show ((runner (Shortcut.setup Shortcut.chain)).run Shortcut.start [.run]).any
      (fun state => state.active.isSome) = true by decide)
  obtain ⟨active, hactive⟩ := Option.isSome_iff_exists.mp hactive
  have hverify : verify sourceRemoval Shortcut.chain (Shortcut.setup Shortcut.chain).principal
      (Shortcut.setup Shortcut.chain).catalog = .ok ⟨Shortcut.chain⟩ := by decide
  have hwidth : (WorkflowGraph.new Shortcut.chain).maxReadyWidth = 1 := by decide
  have hborders : BordersWithin (Shortcut.setup Shortcut.chain).workflow
      (WorkflowGraph.new (Shortcut.setup Shortcut.chain).workflow).maxReadyWidth := by
    change BordersWithin Shortcut.chain (WorkflowGraph.new Shortcut.chain).maxReadyWidth
    rw [hwidth]
    exact Shortcut.chain_borders
  exact ⟨state, active, hreach, hactive, runnable_within_width hverify hborders hreach hactive⟩

/-- Three nodes are runnable at once in a workflow whose widest wave has two. -/
theorem runnable_beyond_width : ∃ state active,
    verify sourceRemoval Shortcut.workflow (Shortcut.setup Shortcut.workflow).principal
        (Shortcut.setup Shortcut.workflow).catalog = .ok ⟨Shortcut.workflow⟩ ∧
      (runner (Shortcut.setup Shortcut.workflow)).Reachable state ∧ state.active = some active ∧
      (WorkflowGraph.new Shortcut.workflow).maxReadyWidth <
        (runnableNodes Shortcut.workflow active.runs).length := by
  obtain ⟨state, hreach, hwide⟩ := (Shortcut.start_reachable Shortcut.workflow).exists_of_run
    (show ((runner (Shortcut.setup Shortcut.workflow)).run Shortcut.start Shortcut.joined).any
      (fun state => state.active.any fun active =>
        decide ((runnableNodes Shortcut.workflow active.runs).length = 3)) = true by decide)
  obtain ⟨active, hactive, hthree⟩ := (Option.any_eq_true _ _).mp hwide
  have hwidth : (WorkflowGraph.new Shortcut.workflow).maxReadyWidth = 2 := by decide
  refine ⟨state, active, by decide, hreach, hactive, ?_⟩
  rw [hwidth, of_decide_eq_true hthree]
  decide

end FineractReports.Workflow
