import FineractReports.Library.DirectedGraph
import FineractReports.Workflow.Contract

/-!
# The workflow's dependency graph

Nodes are the workflow's ids in declaration order. An edge is kept only when
both of its ends are nodes, as the graph wrapper does.
-/

namespace FineractReports.Workflow

/-- The dependency graph shared by the compiler and the verifier. -/
def WorkflowGraph.new (workflow : ExecutionWorkflow) : DirectedGraph NodeId where
  nodes := workflow.nodes.map (·.id)
  edges := (workflow.edges.map fun edge => (edge.source, edge.target)).filter fun edge =>
    edge.1 ∈ workflow.nodes.map (·.id) ∧ edge.2 ∈ workflow.nodes.map (·.id)
  edges_mem := by
    intro edge hedge
    simpa using (List.mem_filter.mp hedge).2

/-- Every end of every edge is a node. -/
def ExecutionWorkflow.EdgesKnown (workflow : ExecutionWorkflow) : Prop :=
  ∀ edge ∈ workflow.edges,
    edge.source ∈ workflow.nodes.map (·.id) ∧ edge.target ∈ workflow.nodes.map (·.id)

instance (workflow : ExecutionWorkflow) : Decidable workflow.EdgesKnown := by
  unfold ExecutionWorkflow.EdgesKnown; infer_instance

@[simp] theorem WorkflowGraph.nodes_new (workflow : ExecutionWorkflow) :
    (WorkflowGraph.new workflow).nodes = workflow.nodes.map (·.id) := rfl

theorem WorkflowGraph.adj_new {workflow : ExecutionWorkflow} {a b : NodeId} :
    (WorkflowGraph.new workflow).Adj a b ↔
      (∃ edge ∈ workflow.edges, edge.source = a ∧ edge.target = b) ∧
        a ∈ workflow.nodes.map (·.id) ∧ b ∈ workflow.nodes.map (·.id) := by
  simp only [DirectedGraph.Adj, WorkflowGraph.new, List.mem_filter, List.mem_map, Prod.mk.injEq,
    decide_eq_true_eq]

/-- When every end is known, the graph's edges are the workflow's. -/
theorem WorkflowGraph.adj_iff {workflow : ExecutionWorkflow} (hknown : workflow.EdgesKnown)
    {a b : NodeId} : (WorkflowGraph.new workflow).Adj a b ↔
      ∃ edge ∈ workflow.edges, edge.source = a ∧ edge.target = b := by
  rw [WorkflowGraph.adj_new, and_iff_left_iff_imp]
  rintro ⟨edge, hedge, rfl, rfl⟩
  exact hknown edge hedge

end FineractReports.Workflow
