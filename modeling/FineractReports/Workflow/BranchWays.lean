import FineractReports.Workflow.BudgetAdmission

/-!
# Ways through a workflow

What a completed node counts for in an edge condition is read off its row alone.
Once every node is assigned such a cardinality it is decided which edges are
taken, and the ways are the paths along them from a node without incoming edges.
-/

namespace FineractReports.Workflow

/-- The part of `cardinality_for` after the completed run has been found. -/
def rowCardinality (run : WorkflowNodeRun) : Except String Cardinality :=
  match (run.outputJson.bind (·.get? "cardinality")).bind Json.asStr? with
  | some decision =>
    if decision = "zero" then .ok .zero
    else if decision = "one" then .ok .one
    else if decision = "many" then .ok .many
    else .error "branch cardinality decision is invalid"
  | none =>
    let rows := ((run.outputJson.bind (·.get? "row_count")).bind Json.asI64?).getD
      run.rowsReturned.toInt
    if rows = 0 then .ok .zero
    else if rows = 1 then .ok .one
    else if rows > 1 then .ok .many
    else .error "branch row count is invalid"

/-- What each node counts for; nothing when its row gives no cardinality. -/
abbrev Outcomes := NodeId → Option Cardinality

def WorkflowEdge.Admitted (outcomes : Outcomes) (edge : WorkflowEdge) : Prop :=
  match edge.condition with
  | .always | .clarificationAnswered => True
  | .cardinality expected => outcomes edge.source = some expected

/-- A path along admitted edges, with the nodes before its end. -/
inductive Way (workflow : ExecutionWorkflow) (outcomes : Outcomes) : List NodeId → NodeId → Prop
  | entry {node} (hnode : node ∈ workflow.nodes)
      (hentry : ∀ edge ∈ workflow.edges, edge.target ≠ node.id) : Way workflow outcomes [] node.id
  | step {way edge} (hway : Way workflow outcomes way edge.source)
      (hedge : edge ∈ workflow.edges) (hadmitted : edge.Admitted outcomes) :
      Way workflow outcomes (edge.source :: way) edge.target

def Reached (workflow : ExecutionWorkflow) (outcomes : Outcomes) (id : NodeId) : Prop :=
  ∃ way, Way workflow outcomes way id

/-- The redaction of exact sensitive inputs takes the decision out of the output. -/
def hidesDecision (node : WorkflowNode) : Bool :=
  node.inputs.any fun input =>
    decide (input.source = .exactSensitiveInput ∧ input.parameter = "cardinality")

/-- What a branch node itself counts for after a decision. -/
def recordedDecision (node : WorkflowNode) (decision : Cardinality) : Cardinality :=
  if hidesDecision node then .zero else decision

/-- The node a branch names for a decision. -/
def CardinalityBranchNode.arm (branch : CardinalityBranchNode) : Cardinality → NodeId
  | .zero => branch.zero
  | .one => branch.one
  | .many => branch.many

/-- A branch decides by a source that is reached, and counts for its decision. -/
def Decided (workflow : ExecutionWorkflow) (outcomes : Outcomes) (id : NodeId) : Prop :=
  ∀ node ∈ workflow.nodes, node.id = id → ∀ branch, node.kind = .cardinalityBranch branch →
    Reached workflow outcomes branch.source ∧ ∃ decision,
      outcomes branch.source = some decision ∧
        outcomes id = some (recordedDecision node decision)

/-- Whatever the nodes count for, some terminal node is reached, and wherever a branch
is reached an admitted edge leads from the way there, or from the branch, to the arm it
decides for. -/
structure Progresses (workflow : ExecutionWorkflow) : Prop where
  completes : ∀ outcomes, (∀ id, Reached workflow outcomes id → Decided workflow outcomes id) →
    ∃ node ∈ workflow.nodes, node.isComplete = true ∧ Reached workflow outcomes node.id
  arms : ∀ outcomes way, ∀ node ∈ workflow.nodes, ∀ branch decision,
    node.kind = .cardinalityBranch branch → Way workflow outcomes way node.id →
    (∀ id ∈ node.id :: way, Decided workflow outcomes id) →
    outcomes branch.source = some decision →
      (∀ edge ∈ workflow.edges, edge.target ≠ branch.arm decision) ∨
      ∃ edge ∈ workflow.edges, edge.target = branch.arm decision ∧
        edge.source ∈ node.id :: way ∧ edge.Admitted outcomes

section Outcomes

variable {workflow : ExecutionWorkflow} {outcomes others : Outcomes} {way : List NodeId}
  {id : NodeId} {runs rows : List WorkflowNodeRun} {workflowId : Uuid}

theorem WorkflowEdge.Admitted.mono {edge : WorkflowEdge} (h : edge.Admitted outcomes)
    (hmono : ∀ id decision, outcomes id = some decision → others id = some decision) :
    edge.Admitted others := by
  unfold WorkflowEdge.Admitted at h ⊢
  split at h
  · trivial
  · trivial
  · exact hmono _ _ h

/-- More outcomes only add ways. -/
theorem Way.mono (h : Way workflow outcomes way id)
    (hmono : ∀ id decision, outcomes id = some decision → others id = some decision) :
    Way workflow others way id := by
  induction h with
  | entry hnode hentry => exact .entry hnode hentry
  | step _ hedge hadmitted ih => exact .step ih hedge (hadmitted.mono hmono)

theorem Reached.step (h : Reached workflow outcomes id) (edge : WorkflowEdge)
    (hsource : edge.source = id) (hedge : edge ∈ workflow.edges)
    (hadmitted : edge.Admitted outcomes) : Reached workflow outcomes edge.target := by
  obtain ⟨way, hway⟩ := h
  exact ⟨_, .step (hsource ▸ hway) hedge hadmitted⟩

theorem Decided.mono (h : Decided workflow outcomes id)
    (hmono : ∀ id decision, outcomes id = some decision → others id = some decision) :
    Decided workflow others id := by
  intro node hnode hid branch hkind
  obtain ⟨⟨way, hway⟩, decision, hsource, hown⟩ := h node hnode hid branch hkind
  exact ⟨⟨way, hway.mono hmono⟩, decision, hmono _ _ hsource, hmono _ _ hown⟩

theorem cardinalityFor_eq {row : WorkflowNodeRun} (h : completedRun runs id = some row) :
    cardinalityFor runs id = rowCardinality row := by
  simp only [cardinalityFor, h, okOr]
  rfl

/-- The outcomes the completed rows of a workflow give. -/
def outcomesOf (workflowId : Uuid) (rows : List WorkflowNodeRun) : Outcomes := fun id =>
  (doneRow? workflowId rows id).bind fun row => (rowCardinality row).toOption

theorem RowsInv.outcomesOf_eq (h : RowsInv workflowId rows) {row : WorkflowNodeRun}
    (hdone : IsDone workflowId rows row) :
    outcomesOf workflowId rows row.nodeId = (rowCardinality row).toOption := by
  simp [outcomesOf, h.doneRow?_eq hdone]

theorem toOption_eq_some {ε α : Type*} {x : Except ε α} {a : α} :
    x.toOption = some a ↔ x = .ok a := by
  cases x <;> simp [Except.toOption]

theorem exists_done_of_outcomesOf {decision : Cardinality}
    (h : outcomesOf workflowId rows id = some decision) :
    ∃ row, IsDone workflowId rows row ∧ row.nodeId = id ∧ rowCardinality row = .ok decision := by
  obtain ⟨row, hrow, hcardinality⟩ := Option.bind_eq_some_iff.mp h
  obtain ⟨hdone, hid⟩ := doneRow?_spec hrow
  exact ⟨row, hdone, hid, toOption_eq_some.mp hcardinality⟩

/-- Outcomes stay as long as completed rows do. -/
theorem outcomesOf_mono {after : List WorkflowNodeRun} (hafter : RowsInv workflowId after)
    (hkept : ∀ row, IsDone workflowId rows row → IsDone workflowId after row) :
    ∀ id decision, outcomesOf workflowId rows id = some decision →
      outcomesOf workflowId after id = some decision := by
  intro id decision h
  obtain ⟨row, hdone, rfl, hcardinality⟩ := exists_done_of_outcomesOf h
  rw [hafter.outcomesOf_eq (hkept row hdone), hcardinality]
  rfl

/-- The row of a branch that decided counts for the recorded decision. -/
theorem rowCardinality_branch (node : WorkflowNode) (run : WorkflowNodeRun) (elapsed : Int32)
    (decision : Cardinality) :
    rowCardinality (completedWith run elapsed (persistedOutput node.inputs
      (.obj [("cardinality", .str (cardinalityText decision))])) 0) =
        .ok (recordedDecision node decision) := by
  have hhidden : hidesDecision node = true ↔ "cardinality" ∈
      (node.inputs.filter fun input => input.source = .exactSensitiveInput).map (·.parameter) := by
    simp [hidesDecision, and_comm, and_assoc]
  have hread : rowCardinality (completedWith run elapsed
      (.obj [("cardinality", .str (cardinalityText decision))]) 0) = .ok decision := by
    cases decision <;> rfl
  unfold persistedOutput recordedDecision
  simp only
  split_ifs with hnone hhides hhides
  · simp [hnone] at hhidden
    simp [hhidden] at hhides
  · exact hread
  · rw [Json.redactFields, Json.redactMembers, if_pos (hhidden.mp hhides), Json.redactMembers]
    rfl
  · rw [Json.redactFields, Json.redactMembers, if_neg (fun h => hhides (hhidden.mpr h)),
      Json.redactMembers, Json.redactFields]
    · exact hread
    all_goals simp

end Outcomes

/-- Whatever a verified branch or composition names is a node. -/
theorem verify_references {sort : DirectedGraph.TopologicalSort NodeId}
    {workflow : ExecutionWorkflow} {principal : PrincipalContext} {catalog : KnowledgeCatalog}
    {verified : VerifiedWorkflow} (h : verify sort workflow principal catalog = .ok verified) :
    ∀ node ∈ workflow.nodes, ∀ reference ∈ referencedNodes node,
      ∃ named ∈ workflow.nodes, named.id = reference := by
  obtain ⟨-, -, -, -, ⟨topo, -, hnodes⟩, -⟩ := verify_eq_ok.mp h
  intro node hnode reference hreference
  have hverified := hnodes node hnode
  simp only [verifyNode, bind_eq_ok_iff, exists_unit_iff, failIf_eq_ok, not_or] at hverified
  have hfound : (workflow.node? reference).isSome = true := by
    by_contra hmissing
    exact hverified.2.1.1 ⟨reference, hreference, by simpa using hmissing⟩
  obtain ⟨named, hnamed⟩ := Option.isSome_iff_exists.mp hfound
  refine ⟨named, List.mem_of_find?_eq_some hnamed, ?_⟩
  simpa using List.find?_some hnamed

end FineractReports.Workflow
