import FineractReports.Library.Transition
import FineractReports.Workflow.State

/-!
# The durable budget ledger

A job's state document keeps the consumed budget under `workflow_runtime`. An
install resets it, completed nodes add to it; a pause and a resume put a runtime
object of their own in its place.
-/

namespace FineractReports.Workflow

/-- An amount of queries, rows and milliseconds. -/
abbrev BudgetAmount := ℤ × ℤ × ℤ

/-- What became of the ledger since the last install. -/
inductive LedgerEntry where
  | added (amount : BudgetAmount)
  | replaced
deriving DecidableEq

namespace LedgerEntry

def amount : LedgerEntry → BudgetAmount
  | added amount => amount
  | replaced => 0

/-- The sum of everything added since the last install. -/
def total (entries : List LedgerEntry) : BudgetAmount := (entries.map amount).sum

/-- What the document holds: nothing at all right after a replacement. -/
def stored (entries : List LedgerEntry) : Option BudgetAmount :=
  entries.foldl (fun held entry =>
    match entry with
    | added amount => some (held.getD 0 + amount)
    | replaced => none) (some 0)

/-- Whatever a replacement threw away sums to zero, and something was added after the
last one. -/
def Covered (entries : List LedgerEntry) : Prop :=
  ∀ before after, entries = before ++ replaced :: after → replaced ∉ after →
    total before = 0 ∧ after ≠ []

@[simp] theorem total_append (entries others : List LedgerEntry) :
    total (entries ++ others) = total entries + total others := by
  simp [total]

@[simp] theorem total_cons_replaced (entries : List LedgerEntry) :
    total (replaced :: entries) = total entries := by
  simp [total, amount]

@[simp] theorem stored_added (entries : List LedgerEntry) (amount : BudgetAmount) :
    stored (entries ++ [added amount]) = some ((stored entries).getD 0 + amount) := by
  simp [stored]

@[simp] theorem stored_replaced (entries : List LedgerEntry) :
    stored (entries ++ [replaced]) = none := by
  simp [stored]

/-- Without a replacement everything added is held. -/
theorem stored_of_added {entries : List LedgerEntry} (h : replaced ∉ entries) :
    stored entries = some (total entries) := by
  induction entries using List.reverseRecOn with
  | nil => rfl
  | append_singleton rest entry ih =>
    have hrest : replaced ∉ rest := fun hmem => h (List.mem_append_left _ hmem)
    cases entry with
    | added amount =>
      rw [stored_added, ih hrest, total_append]
      simp [total, LedgerEntry.amount]
    | replaced => simp at h

/-- After a replacement only what came later is held. -/
theorem stored_after_replaced (before : List LedgerEntry) {after : List LedgerEntry}
    (h : replaced ∉ after) :
    stored (before ++ replaced :: after) = if after = [] then none else some (total after) := by
  induction after using List.reverseRecOn with
  | nil => exact stored_replaced before
  | append_singleton rest entry ih =>
    have hrest : replaced ∉ rest := fun hmem => h (List.mem_append_left _ hmem)
    cases entry with
    | added amount =>
      have hassoc : before ++ replaced :: (rest ++ [added amount]) =
          (before ++ replaced :: rest) ++ [added amount] := by simp
      rw [hassoc, stored_added, ih hrest]
      by_cases hnil : rest = []
      · simp [hnil, total, LedgerEntry.amount]
      · simp [hnil, total, LedgerEntry.amount]
    | replaced => simp at h

/-- A list with a replacement splits at its last one. -/
theorem exists_last_replaced {entries : List LedgerEntry} (h : replaced ∈ entries) :
    ∃ before after, entries = before ++ replaced :: after ∧ replaced ∉ after := by
  induction entries with
  | nil => simp at h
  | cons entry rest ih =>
    by_cases hrest : replaced ∈ rest
    · obtain ⟨before, after, rfl, hafter⟩ := ih hrest
      exact ⟨entry :: before, after, rfl, hafter⟩
    · obtain rfl : replaced = entry := (List.mem_cons.mp h).resolve_right hrest
      exact ⟨[], rest, rfl, hrest⟩

/-- Exactly when the document holds the sum of everything added. -/
theorem stored_eq_total_iff {entries : List LedgerEntry} :
    stored entries = some (total entries) ↔ Covered entries := by
  constructor
  · intro hstored before after hsplit hafter
    rw [hsplit, stored_after_replaced before hafter] at hstored
    split_ifs at hstored with hnil
    have hsum : total after = total before + total after := by
      simpa using Option.some.inj hstored
    exact ⟨by simpa using hsum, hnil⟩
  · intro hcovered
    by_cases h : replaced ∈ entries
    · obtain ⟨before, after, rfl, hafter⟩ := exists_last_replaced h
      obtain ⟨hzero, hnil⟩ := hcovered before after rfl hafter
      simp [stored_after_replaced before hafter, hnil, hzero]
    · exact stored_of_added h

end LedgerEntry

/-- The members of `budget_consumed`. -/
def ledgerJson (amount : BudgetAmount) : Json :=
  .obj [("queries", .int amount.1), ("rows", .int amount.2.1), ("ms", .int amount.2.2)]

/-- The values of a `bigint`. -/
def FitsI64 (value : ℤ) : Prop := -2 ^ 63 ≤ value ∧ value < 2 ^ 63

def FitsLedger (amount : BudgetAmount) : Prop :=
  FitsI64 amount.1 ∧ FitsI64 amount.2.1 ∧ FitsI64 amount.2.2

instance (value : ℤ) : Decidable (FitsI64 value) := inferInstanceAs (Decidable (_ ∧ _))

instance (amount : BudgetAmount) : Decidable (FitsLedger amount) :=
  inferInstanceAs (Decidable (_ ∧ _ ∧ _))

namespace JobTables

def budgetConsumed (tables : JobTables) : Option Json :=
  (tables.stateJson.get? "workflow_runtime").bind (·.get? "budget_consumed")

/-- A component of the stored ledger; a missing one counts as zero. -/
def consumedComponent (tables : JobTables) (key : String) : ℤ :=
  ((tables.budgetConsumed.bind (·.get? key)).bind Json.asI64?).getD 0

def consumedAmount (tables : JobTables) : BudgetAmount :=
  (tables.consumedComponent "queries", tables.consumedComponent "rows",
    tables.consumedComponent "ms")

/-- The update fails as a whole when a new component is out of range. -/
def addBudget (tables : JobTables) (queries rows ms : Int64) : Except String JobTables :=
  if FitsLedger (tables.consumedAmount + (queries.toInt, rows.toInt, ms.toInt)) then
    .ok (tables.addBudgetConsumed queries.toInt rows.toInt ms.toInt)
  else .error "bigint out of range"

end JobTables

inductive LedgerAction where
  | install (userId workflowId : Uuid) (workflow : Json)
  | add (queries rows ms : Int64)
  | pause (userId workflowId : Uuid) (nodeId : NodeId) (clarification : ClarificationPayload)
  | resume (request : WorkflowResumeRequest)
  -- whatever else happens to the job and leaves its state document alone
  | other (after : JobTables)

/-- The rows of a job, and what was done to the ledger since its last install. -/
structure LedgerState where
  tables : JobTables
  history : Option (List LedgerEntry)

namespace LedgerState

def record (state : LedgerState) (after : JobTables) (entry : LedgerEntry) : LedgerState :=
  ⟨after, state.history.map (· ++ [entry])⟩

end LedgerState

/-- A call that fails changes nothing. -/
def ledgerStep (state : LedgerState) : LedgerAction → Option LedgerState
  | .install userId workflowId workflow =>
    match state.tables.installWorkflow userId workflowId workflow with
    | .ok after => some ⟨after, some []⟩
    | .error _ => some state
  | .add queries rows ms =>
    match state.tables.addBudget queries rows ms with
    | .ok after => some (state.record after (.added (queries.toInt, rows.toInt, ms.toInt)))
    | .error _ => some state
  | .pause userId workflowId nodeId clarification =>
    match state.tables.markWorkflowPaused userId workflowId nodeId clarification with
    | .ok after => some (state.record after .replaced)
    | .error _ => some state
  | .resume request =>
    match state.tables.resume request with
    | (.resumed, after) => some (state.record after .replaced)
    | _ => some state
  | .other after =>
    if after.stateJson = state.tables.stateJson then some { state with tables := after } else none

/-- A job whose state document is an object; no workflow is installed yet. -/
def budgetLedger : Machine LedgerState LedgerAction where
  init state := state.history = none ∧ ∃ members, state.tables.stateJson = .obj members
  step := ledgerStep

section Documents

variable {tables after : JobTables}

/-- The document has a runtime object, and `held` is what its ledger says. -/
def HoldsAmount (tables : JobTables) (held : Option BudgetAmount) : Prop :=
  ∃ members runtime, tables.stateJson = .obj members ∧
    Assoc.get? members "workflow_runtime" = some (.obj runtime) ∧
    Assoc.get? runtime "budget_consumed" = held.map ledgerJson ∧
    ∀ amount, held = some amount → FitsLedger amount

theorem HoldsAmount.budgetConsumed {held : Option BudgetAmount} (h : HoldsAmount tables held) :
    tables.budgetConsumed = held.map ledgerJson := by
  obtain ⟨members, runtime, hstate, hruntime, hledger, -⟩ := h
  simp [JobTables.budgetConsumed, hstate, hruntime, hledger]

theorem asI64?_int {value : ℤ} (h : FitsI64 value) : (Json.int value).asI64? = some value :=
  if_pos h

theorem HoldsAmount.consumedAmount {held : Option BudgetAmount} (h : HoldsAmount tables held) :
    tables.consumedAmount = held.getD 0 := by
  have hconsumed := h.budgetConsumed
  obtain ⟨-, -, -, -, -, hfits⟩ := h
  cases held with
  | none =>
    simp only [JobTables.consumedAmount, JobTables.consumedComponent, hconsumed]
    rfl
  | some amount =>
    obtain ⟨hqueries, hrows, hms⟩ := hfits amount rfl
    simp [JobTables.consumedAmount, JobTables.consumedComponent, hconsumed, ledgerJson,
      Assoc.get?_cons, asI64?_int hqueries, asI64?_int hrows, asI64?_int hms]

/-- A merged runtime object takes the place of the one before. -/
theorem holdsAmount_merged {members runtime : List (String × Json)}
    (h : after.stateJson = tables.stateJson.concat (.obj [("workflow_runtime", .obj runtime)]))
    (hstate : tables.stateJson = .obj members)
    (hnone : Assoc.get? runtime "budget_consumed" = none) : HoldsAmount after none := by
  refine ⟨_, runtime, by rw [h, hstate]; rfl, by simp, hnone, by simp⟩

theorem installWorkflow_holds {members : List (String × Json)} {userId workflowId : Uuid}
    {workflow : Json} (hstate : tables.stateJson = .obj members)
    (h : tables.installWorkflow userId workflowId workflow = .ok after) :
    HoldsAmount after (some 0) := by
  unfold JobTables.installWorkflow at h
  split_ifs at h
  obtain rfl := Except.ok.inj h
  refine ⟨_, _, by simp only [hstate]; rfl, Assoc.get?_insert_self _ _ _, by decide, ?_⟩
  rintro amount heq
  obtain rfl := Option.some.inj heq
  decide

theorem markWorkflowPaused_holds {members : List (String × Json)} {userId workflowId : Uuid}
    {nodeId : NodeId} {clarification : ClarificationPayload}
    (hstate : tables.stateJson = .obj members)
    (h : tables.markWorkflowPaused userId workflowId nodeId clarification = .ok after) :
    HoldsAmount after none := by
  unfold JobTables.markWorkflowPaused at h
  split_ifs at h
  obtain rfl := Except.ok.inj h
  exact holdsAmount_merged rfl hstate (by simp [Assoc.get?_cons])

theorem resumed_holds {members : List (String × Json)} {request : WorkflowResumeRequest}
    (hstate : tables.stateJson = .obj members) : HoldsAmount (tables.resumed request) none :=
  holdsAmount_merged rfl hstate (by simp [Assoc.get?_cons])

theorem addBudgetConsumed_document {members runtime : List (String × Json)}
    (hstate : tables.stateJson = .obj members)
    (hruntime : Assoc.get? members "workflow_runtime" = some (.obj runtime)) (queries rows ms : ℤ) :
    (tables.addBudgetConsumed queries rows ms).stateJson =
      .obj (Assoc.insert members "workflow_runtime" (.obj (Assoc.insert runtime "budget_consumed"
        (ledgerJson (tables.consumedAmount + (queries, rows, ms)))))) := by
  have hcomponent (key : String) : tables.consumedComponent key =
      ((((Assoc.get? runtime "budget_consumed").getD .null).get? key).bind Json.asI64?).getD 0 := by
    simp only [JobTables.consumedComponent, JobTables.budgetConsumed, hstate, Json.get?_obj,
      hruntime, Option.bind_some]
    cases Assoc.get? runtime "budget_consumed" <;> rfl
  simp [JobTables.addBudgetConsumed, hstate, hruntime, Json.insertMember, ledgerJson,
    JobTables.consumedAmount, hcomponent]

theorem addBudgetConsumed_object {members : List (String × Json)}
    (hstate : tables.stateJson = .obj members) (queries rows ms : ℤ) :
    ∃ members, (tables.addBudgetConsumed queries rows ms).stateJson = .obj members := by
  unfold JobTables.addBudgetConsumed
  split
  · exact ⟨_, by simp only [hstate]; rfl⟩
  · exact ⟨members, hstate⟩

theorem addBudget_holds {held : Option BudgetAmount} {queries rows ms : Int64}
    (hheld : HoldsAmount tables held) (h : tables.addBudget queries rows ms = .ok after) :
    HoldsAmount after (some (held.getD 0 + (queries.toInt, rows.toInt, ms.toInt))) := by
  have hamount := hheld.consumedAmount
  obtain ⟨members, runtime, hstate, hruntime, -, -⟩ := hheld
  unfold JobTables.addBudget at h
  split_ifs at h with hfits
  obtain rfl := Except.ok.inj h
  rw [hamount] at hfits
  refine ⟨_, _, addBudgetConsumed_document hstate hruntime _ _ _, Assoc.get?_insert_self _ _ _,
    ?_, ?_⟩
  · rw [Assoc.get?_insert_self, hamount, Option.map_some]
  · rintro amount heq
    obtain rfl := Option.some.inj heq
    exact hfits

theorem HoldsAmount.object {tables : JobTables} {held : Option BudgetAmount}
    (h : HoldsAmount tables held) : ∃ members, tables.stateJson = .obj members := by
  obtain ⟨members, -, hstate, -⟩ := h
  exact ⟨members, hstate⟩

end Documents

/-- The document stays an object, and once a workflow is installed it holds what the
history says. -/
structure LedgerInv (state : LedgerState) : Prop where
  object : ∃ members, state.tables.stateJson = .obj members
  holds : ∀ entries, state.history = some entries →
    HoldsAmount state.tables (LedgerEntry.stored entries)

theorem LedgerInv.record {state : LedgerState} {after : JobTables} {entry : LedgerEntry}
    (h : LedgerInv state) (hobject : ∃ members, after.stateJson = .obj members)
    (hholds : ∀ entries, HoldsAmount state.tables (LedgerEntry.stored entries) →
      HoldsAmount after (LedgerEntry.stored (entries ++ [entry]))) :
    LedgerInv (state.record after entry) where
  object := hobject
  holds entries heq := by
    obtain ⟨before, hbefore, rfl⟩ := Option.map_eq_some_iff.mp heq
    exact hholds before (h.holds before hbefore)

theorem LedgerInv.install {state : LedgerState} {userId workflowId : Uuid} {workflow : Json}
    {after : JobTables} (h : LedgerInv state)
    (hinstall : state.tables.installWorkflow userId workflowId workflow = .ok after) :
    LedgerInv ⟨after, some []⟩ := by
  obtain ⟨members, hstate⟩ := h.object
  have hholds := installWorkflow_holds hstate hinstall
  refine ⟨hholds.object, fun entries heq => ?_⟩
  obtain rfl := Option.some.inj heq
  exact hholds

theorem LedgerInv.add {state : LedgerState} {queries rows ms : Int64} {after : JobTables}
    (h : LedgerInv state) (hadd : state.tables.addBudget queries rows ms = .ok after) :
    LedgerInv (state.record after (.added (queries.toInt, rows.toInt, ms.toInt))) := by
  obtain ⟨members, hstate⟩ := h.object
  refine h.record ?_ fun entries hheld => ?_
  · unfold JobTables.addBudget at hadd
    split_ifs at hadd
    obtain rfl := Except.ok.inj hadd
    exact addBudgetConsumed_object hstate _ _ _
  · rw [LedgerEntry.stored_added]
    exact addBudget_holds hheld hadd

/-- A pause or a resume leaves a runtime object without a ledger. -/
theorem LedgerInv.replace {state : LedgerState} {after : JobTables} (h : LedgerInv state)
    (hholds : HoldsAmount after none) : LedgerInv (state.record after .replaced) := by
  refine h.record hholds.object fun entries _ => ?_
  rw [LedgerEntry.stored_replaced]
  exact hholds

theorem LedgerInv.step {state after : LedgerState} {action : LedgerAction} (h : LedgerInv state)
    (hstep : ledgerStep state action = some after) : LedgerInv after := by
  obtain ⟨members, hstate⟩ := h.object
  cases action with
  | install userId workflowId workflow =>
    simp only [ledgerStep] at hstep
    split at hstep <;> obtain rfl := Option.some.inj hstep
    · rename_i tables hinstall
      exact h.install hinstall
    · exact h
  | add queries rows ms =>
    simp only [ledgerStep] at hstep
    split at hstep <;> obtain rfl := Option.some.inj hstep
    · rename_i tables hadd
      exact h.add hadd
    · exact h
  | pause userId workflowId nodeId clarification =>
    simp only [ledgerStep] at hstep
    split at hstep <;> obtain rfl := Option.some.inj hstep
    · rename_i tables hpause
      exact h.replace (markWorkflowPaused_holds hstate hpause)
    · exact h
  | resume request =>
    simp only [ledgerStep] at hstep
    split at hstep <;> obtain rfl := Option.some.inj hstep
    · rename_i tables hresume
      rcases JobTables.resume_eq hresume with ⟨-, -, -, rfl⟩ | ⟨hne, -⟩
      · exact h.replace (resumed_holds hstate)
      · exact absurd rfl hne
    · exact h
  | other tables =>
    simp only [ledgerStep] at hstep
    split_ifs at hstep with hsame
    obtain rfl := Option.some.inj hstep
    refine ⟨⟨members, hsame.trans hstate⟩, fun entries heq => ?_⟩
    obtain ⟨members, runtime, hdocument, hrest⟩ := h.holds entries heq
    exact ⟨members, runtime, hsame.trans hdocument, hrest⟩

theorem ledger_reachable {state : LedgerState} (h : budgetLedger.Reachable state) :
    LedgerInv state := by
  refine h.invariant (fun s hinit => ?_) fun _ _ _ hinv _ hstep => hinv.step hstep
  obtain ⟨hnone, hobject⟩ := hinit
  exact ⟨hobject, by simp [hnone]⟩

theorem ledgerJson_inj {a b : BudgetAmount} (h : ledgerJson a = ledgerJson b) : a = b := by
  simp only [ledgerJson, Json.obj.injEq, List.cons.injEq, Prod.mk.injEq, Json.int.injEq,
    true_and, and_true] at h
  exact Prod.ext h.1 (Prod.ext h.2.1 h.2.2)

/-- The durable ledger is the sum of what was added since the last install exactly
when no replacement threw away an amount, or nothing was lost by it. -/
theorem budgetConsumed_exact_iff {state : LedgerState} {entries : List LedgerEntry}
    (hreach : budgetLedger.Reachable state) (hinstalled : state.history = some entries) :
    state.tables.budgetConsumed = some (ledgerJson (LedgerEntry.total entries)) ↔
      LedgerEntry.Covered entries := by
  rw [((ledger_reachable hreach).holds entries hinstalled).budgetConsumed,
    ← LedgerEntry.stored_eq_total_iff]
  constructor
  · intro h
    obtain ⟨amount, hstored, hjson⟩ := Option.map_eq_some_iff.mp h
    rw [hstored, ledgerJson_inj hjson]
  · intro h
    rw [h, Option.map_some]

namespace PausedLedger

/-! One node completes, the next one asks; the answer is accepted and a third node
completes. -/

def askId : NodeId := ⟨"ask", by decide⟩

def start : LedgerState where
  tables :=
    { jobId := 3, userId := 1, sessionArchived := false, status := .running, currentStep := ""
      resumeFromStep := none, stateJson := .obj [("input", .obj [])], resultJson := none
      errorJson := none, workflowId := none, workflowRevision := 0, currentNodeId := none
      pendingClarification := none, memoryRevision := 0, nodeRuns := [], events := [] }
  history := none

def question : ClarificationPayload where
  version := CLARIFICATION_VERSION_1
  id := 5
  revision := 0
  kind := .freeText
  question := "Additional information is needed to continue."
  options := []
  fields := []
  attempt := 0
  sourceIntent := none
  allowFreeText := true
  isMissingExecutionParameters := true
  workflowId := some 7
  nodeId := some "ask"
  resumeNodeId := none
  entityKind := none

/-- The tables once the workflow is installed, the first node has completed and the
asking node has begun. -/
def asking : JobTables :=
  let installed := (start.tables.installWorkflow 1 7 (.obj [])).toOption.getD start.tables
  (installed.addBudgetConsumed 1 40 250).beginNode (JobTables.startedRun 7 askId 0 12 12)

def beforePause : List LedgerAction :=
  [.install 1 7 (.obj []), .add 1 40 250, .other asking]

def answered : List LedgerAction :=
  beforePause ++ [.pause 1 7 askId question, .resume ⟨3, 1, 7, askId, 5, 2, .str "north"⟩,
    .add 1 10 90]

theorem start_reachable : budgetLedger.Reachable start := .init ⟨rfl, _, rfl⟩

/-- The history after a run and the ledger the document then holds. -/
def ledgerAfter (entries : List LedgerEntry) (amount : BudgetAmount) (state : LedgerState) : Bool :=
  decide (state.history = some entries ∧ state.tables.budgetConsumed = some (ledgerJson amount))

theorem ledger_before_pause : (budgetLedger.run start beforePause).any
    (ledgerAfter [.added (1, 40, 250)] (1, 40, 250)) = true := by decide

theorem ledger_answered : (budgetLedger.run start answered).any
    (ledgerAfter [.added (1, 40, 250), .replaced, .replaced, .added (1, 10, 90)] (1, 10, 90)) =
      true := by decide

end PausedLedger

theorem budgetConsumed_exact_before_pause : ∃ state, budgetLedger.Reachable state ∧
    state.history = some [.added (1, 40, 250)] ∧
    state.tables.budgetConsumed = some (ledgerJson (1, 40, 250)) ∧
    LedgerEntry.Covered [.added (1, 40, 250)] := by
  obtain ⟨state, hreach, htest⟩ :=
    PausedLedger.start_reachable.exists_of_run PausedLedger.ledger_before_pause
  obtain ⟨hhistory, hledger⟩ := of_decide_eq_true htest
  exact ⟨state, hreach, hhistory, hledger, (budgetConsumed_exact_iff hreach hhistory).mp hledger⟩

/-- After an answered clarification the ledger has forgotten the node before it. -/
theorem budgetConsumed_lost_by_pause : ∃ state entries, budgetLedger.Reachable state ∧
    state.history = some entries ∧ LedgerEntry.total entries = (2, 50, 340) ∧
    state.tables.budgetConsumed = some (ledgerJson (1, 10, 90)) ∧
    state.tables.budgetConsumed ≠ some (ledgerJson (LedgerEntry.total entries)) := by
  obtain ⟨state, hreach, htest⟩ :=
    PausedLedger.start_reachable.exists_of_run PausedLedger.ledger_answered
  obtain ⟨hhistory, hledger⟩ := of_decide_eq_true htest
  refine ⟨state, _, hreach, hhistory, by decide, hledger, ?_⟩
  rw [hledger]
  decide

end FineractReports.Workflow
