import FineractReports.Execution.SelectedCapability
import FineractReports.Knowledge.Validator
import FineractReports.Workflow.Compile

/-!
# The audit trail of an execution

The lifecycle events written with a job's terminal state, from what the execution left
in the memory of the job.
-/

namespace FineractReports.Job

open Workflow Execution

/-! ### Audit events -/

def isIdentifierByte (c : Char) : Bool := c.isAlphanum || c = '_' || c = '-' || c = '.'

/-- 1 to 128 ASCII identifier characters. -/
structure SafeIdentifier where
  value : String
  safe : value ≠ "" ∧ value.utf8ByteSize ≤ 128 ∧ value.toList.all isIdentifierByte = true
deriving DecidableEq

def SafeIdentifier.tryFrom (value : String) : Option SafeIdentifier :=
  if h : value ≠ "" ∧ value.utf8ByteSize ≤ 128 ∧ value.toList.all isIdentifierByte = true then
    some ⟨value, h⟩
  else none

inductive AuditEventType where
  | policyEvaluated | executionAuthorized | executionBlocked | executionCompleted
  | executionResultTruncated | executionTimedOut | chatClarificationRequested
  | chatJobCompleted | chatJobFailed
deriving DecidableEq, Repr

inductive AuditOutcome where
  | success | blocked | clarification | unsupported | failed
deriving DecidableEq, Repr

inductive PolicyResult where
  | allowed | denied
deriving DecidableEq, Repr

inductive AuditSummary where
  | jobCompleted | jobFailed | clarificationRequested
  | policyEvaluated (capabilityId : SafeIdentifier) (result : PolicyResult)
  | execution (queryId : SafeIdentifier) (rowCount : Option ℕ)
deriving DecidableEq

structure AuditEvent where
  eventType : AuditEventType
  outcome : AuditOutcome
  summary : AuditSummary
deriving DecidableEq

structure ExecutionAuditContext where
  capabilityId : SafeIdentifier
  queryId : SafeIdentifier
  rowCount : Option ℕ
  allowed : Bool
  truncated : Bool
  timedOut : Bool
deriving DecidableEq

def asBool? : Json → Option Bool
  | .bool value => some value
  | _ => none

/-- The identifiers, the row count and the flags of an execution summary. -/
def executionAuditFromMemory (summary : Json) (terminal : TerminalState) :
    Option ExecutionAuditContext := do
  let plan ← summary.get? "plan"
  let capabilityId ← (plan.get? "capability_id").bind Json.asStr?
  let queryId ← (plan.get? "query_id").bind Json.asStr?
  let result := summary.get? "result"
  let capabilityId ← SafeIdentifier.tryFrom capabilityId
  let queryId ← SafeIdentifier.tryFrom queryId
  pure
    { capabilityId := capabilityId
      queryId := queryId
      rowCount := ((result.bind (·.get? "rows")).bind Json.asArray?).map List.length
      allowed := terminal ≠ .blockedByPolicy
      truncated := ((result.bind (·.get? "truncated")).bind asBool?).getD false
      timedOut := ((result.bind (·.get? "timed_out")).bind asBool?).getD false }

def executionEvent (eventType : AuditEventType) (outcome : AuditOutcome)
    (execution : ExecutionAuditContext) (rowCount : Option ℕ) : AuditEvent :=
  ⟨eventType, outcome, .execution execution.queryId rowCount⟩

def executionLifecycleEvents (execution : ExecutionAuditContext) : List AuditEvent :=
  if execution.allowed then
    [⟨.policyEvaluated, .success, .policyEvaluated execution.capabilityId .allowed⟩,
      executionEvent .executionAuthorized .success execution none] ++
    (if execution.timedOut then []
      else [executionEvent .executionCompleted .success execution execution.rowCount]) ++
    (if execution.truncated then
      [executionEvent .executionResultTruncated .success execution execution.rowCount] else []) ++
    if execution.timedOut then [executionEvent .executionTimedOut .failed execution none] else []
  else
    [⟨.policyEvaluated, .blocked, .policyEvaluated execution.capabilityId .denied⟩,
      executionEvent .executionBlocked .blocked execution none]

/-- The events written with the terminal state of a job that has a response. -/
def persistedEvents (job : AuditEvent) (execution : Option ExecutionAuditContext) :
    List AuditEvent :=
  job :: (execution.map executionLifecycleEvents).getD []

def auditEvents (memory : ExecutionMemory) : List AuditEvent :=
  let terminal := memory.terminalState.getD .failedOperational
  let execution := executionAuditFromMemory memory.executionSummary terminal
  match terminal with
  | .waitingForUserInput =>
    [⟨.chatClarificationRequested, .clarification, .clarificationRequested⟩]
  | .completed => persistedEvents ⟨.chatJobCompleted, .success, .jobCompleted⟩ execution
  | .failedOperational => persistedEvents ⟨.chatJobFailed, .failed, .jobFailed⟩ execution
  | .blockedByPolicy => persistedEvents ⟨.chatJobCompleted, .blocked, .jobCompleted⟩ execution
  | .unsupported | .outOfDomain | .contextWindowExceeded =>
    persistedEvents ⟨.chatJobCompleted, .unsupported, .jobCompleted⟩ none

/-! ### What the trail tells -/

def Reports (eventType : AuditEventType) (events : List AuditEvent) : Prop :=
  ∃ event ∈ events, event.eventType = eventType

/-- The rows of an executor's result. -/
def resultRows (output : Json) : List Json := ((output.get? "rows").bind Json.asArray?).getD []

/-- The events tell of one answer of the executor: completion with the number of rows it
returned, truncation when it is marked truncated, a timeout when it failed with one. -/
def Tells (events : List AuditEvent) (result : Except String Json) : Prop :=
  (∀ output, result = .ok output → ∃ event ∈ events, event.eventType = .executionCompleted ∧
      ∃ queryId, event.summary = .execution queryId (some (resultRows output).length)) ∧
    (Reports .executionResultTruncated events ↔
      ∃ output, result = .ok output ∧ output.get? "truncated" = some (.bool true)) ∧
    (Reports .executionTimedOut events ↔ result = .error "execution_timed_out")

/-- The plan of a summary names its capability under another key than the audit reads. -/
theorem executionAuditFromMemory_executed (run : CapabilityRun) (terminal : TerminalState) :
    executionAuditFromMemory run.executed.executionSummary terminal = none := by
  obtain hmembers | ⟨reason, hsummary⟩ := run.executed_summary
  · rw [hmembers]
    rfl
  · rw [hsummary]
    rfl

/-- No lifecycle event of an execution is written with any outcome of a capability run. -/
theorem auditEvents_executed (run : CapabilityRun) : ∃ event,
    auditEvents run.executed = [event] ∧ event.eventType ≠ .executionCompleted ∧
      event.eventType ≠ .executionResultTruncated ∧ event.eventType ≠ .executionTimedOut := by
  unfold auditEvents
  simp only [executionAuditFromMemory_executed, persistedEvents, Option.map_none, Option.getD_none]
  split <;> exact ⟨_, rfl, by decide, by decide, by decide⟩

/-- The trail tells of an answer of the executor exactly when the executor failed with
something else than its statement timeout. -/
theorem tells_iff (run : CapabilityRun) : ∀ result ∈ run.results,
    (Tells (auditEvents run.executed) result ↔
      ∃ message, result = .error message ∧ message ≠ "execution_timed_out") := by
  intro result _
  obtain ⟨event, hevents, hcompleted, htruncated, htimedOut⟩ := auditEvents_executed run
  have hsilent : ∀ eventType, event.eventType ≠ eventType →
      ¬ Reports eventType (auditEvents run.executed) := by
    rintro eventType hne ⟨reported, hmem, htype⟩
    rw [hevents] at hmem
    obtain rfl := List.mem_singleton.mp hmem
    exact hne htype
  unfold Tells
  constructor
  · rintro ⟨htells, -, htimeout⟩
    cases result with
    | ok output =>
      obtain ⟨reported, hmem, htype, -⟩ := htells output rfl
      exact absurd ⟨reported, hmem, htype⟩ (hsilent _ hcompleted)
    | error message =>
      refine ⟨message, rfl, ?_⟩
      rintro rfl
      exact hsilent _ htimedOut (htimeout.mpr rfl)
  · rintro ⟨message, rfl, hmessage⟩
    refine ⟨fun _ houtput => (nomatch houtput), ?_, ?_⟩
    · constructor
      · intro hreports
        exact absurd hreports (hsilent _ htruncated)
      · rintro ⟨output, houtput, -⟩
        cases houtput
    · constructor
      · intro hreports
        exact absurd hreports (hsilent _ htimedOut)
      · intro herror
        exact absurd (Except.error.inj herror) hmessage

/-! ### A lookup of a client -/

namespace ClientLookup

open FineractReports.NameLookup (catalog)

/-- What the compiler makes of the lookup when the name is known. -/
def workflow : ExecutionWorkflow :=
  (compileWithFacts ⟨["client_name_lookup"], [], []⟩ catalog 7 0 ⟨30000, 1000, 5, 2, 2, 0⟩
    { AcquisitionFacts.empty with deterministic := [.personName] }).toOption.getD
      (proposedWorkflow ⟨[], [], []⟩ 7 0 ⟨30000, 1000, 5, 2, 2, 0⟩)

def principal : PrincipalContext := ⟨1, "analyst", ["client_name_lookup"], [1], true⟩

def start : RunnerState where
  tables :=
    { jobId := 3, userId := 1, sessionArchived := false, status := .running, currentStep := ""
      resumeFromStep := none, stateJson := .obj [], resultJson := none, errorJson := none
      workflowId := some 7, workflowRevision := 0, currentNodeId := none
      pendingClarification := none, memoryRevision := 0, nodeRuns := [], events := [] }
  active := none
  outcome := none

/-- One row, cut off at the row cap. -/
def output : Json :=
  .obj [("row_count", .int 1), ("rows", .arr [.obj [("client_id", .int 7)]]),
    ("truncated", .bool true), ("shown", .int 1)]

def node (answer : Except String Json) (runId : Uuid) : List (RunnerAction ExecutorReply) :=
  [.select, .begin 0 runId runId, .finish 0 ⟨fun _ => answer, 5⟩ 5, .collect]

/-- The query node and the end of the workflow, then the loop finds nothing left. -/
def answering : List (RunnerAction ExecutorReply) :=
  .run :: (node (.ok output) 11 ++ node (.ok output) 12 ++ [.select])

/-- The database is not reached. -/
def refusing : List (RunnerAction ExecutorReply) := .run :: node (.error "connection refused") 11

def after (actions : List (RunnerAction ExecutorReply)) : RunnerState :=
  ((runner (capabilityEnv workflow principal catalog)).run start actions).getD start

theorem run_after {actions : List (RunnerAction ExecutorReply)}
    (h : ((runner (capabilityEnv workflow principal catalog)).run start actions).isSome = true) :
    (runner (capabilityEnv workflow principal catalog)).run start actions =
      some (after actions) := by
  obtain ⟨state, hstate⟩ := Option.isSome_iff_exists.mp h
  rw [after, hstate]
  rfl

def capabilityRun (actions : List (RunnerAction ExecutorReply))
    (h : ((runner (capabilityEnv workflow principal catalog)).run start actions).isSome = true)
    (outcome : Except String WorkflowRunOutcome) (ended : (after actions).outcome = some outcome) :
    CapabilityRun where
  decimals := ⟨Unit, fun _ => none, (), fun _ _ => (), fun _ _ => ""⟩
  showJson _ := ""
  catalog := catalog
  principal := principal
  workflow := workflow
  start := start
  fresh := ⟨rfl, List.nodup_nil, by simp [start]⟩
  actions := actions
  last := after actions
  ran := run_after h
  outcome := outcome
  ended := ended
  capabilityId := "client_name_lookup"
  plan := ⟨"client", "client_name_lookup", "client.name_lookup", none, "list", .obj []⟩
  policy := ⟨.allowed, none, [1], true⟩
  retrievalPlan := .null
  evidenceEvaluation := .null
  sourceIntent := ⟨"find Rahma Jaya", none, .dataLookup, .client,
    NameLookup.capability.requestShape, [], AssistantConstraints.empty⟩
  payloadId := 5
  recentMessageCount := 1
  memory := ⟨none, .null, .null, none⟩
  pendingClarification := none

def answered : CapabilityRun :=
  capabilityRun answering (by decide) (.ok .completed) (by decide)

def refused : CapabilityRun :=
  capabilityRun refusing (by decide) (.ok .failed) (by decide)

/-- The lookup completes with one row, cut off at the cap, and neither is reported. -/
theorem rows_not_told :
    answered.executed.terminalState = some .completed ∧ .ok output ∈ answered.results ∧
      ¬ Tells (auditEvents answered.executed) (.ok output) := by
  refine ⟨by decide, ?_, ?_⟩
  · have hfirst : answered.results.head? = some (.ok output) := by rfl
    exact List.mem_of_mem_head? hfirst
  · rintro ⟨htells, -, -⟩
    obtain ⟨event, hmem, htype, -⟩ := htells output rfl
    have hevents : (auditEvents answered.executed).map (·.eventType) = [.chatJobCompleted] := by
      decide
    have hcompleted : AuditEventType.executionCompleted ∈
        (auditEvents answered.executed).map (·.eventType) := List.mem_map.mpr ⟨event, hmem, htype⟩
    rw [hevents] at hcompleted
    exact absurd hcompleted (by decide)

/-- A failure the trail has nothing to tell about. -/
theorem tells_iff_refused : Tells (auditEvents refused.executed) (.error "connection refused") ↔
    ∃ message, (Except.error "connection refused" : Except String Json) = .error message ∧
      message ≠ "execution_timed_out" := by
  apply tells_iff refused
  have hfirst : refused.results.head? = some (.error "connection refused") := by rfl
  exact List.mem_of_mem_head? hfirst

end ClientLookup

end FineractReports.Job
