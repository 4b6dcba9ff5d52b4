import FineractReports.Workflow.SingleCapability

/-!
# The graph in front of a compiled query

The compiler names the nodes it puts in front of the query by a stem and the parameter.
The stems order the nodes, so the graph of one such front is a rooted one.
-/

namespace FineractReports.Workflow

/-- The stems of the compiler's node ids, in the order their nodes run. -/
def stems : List String :=
  ["resolve_", "branch_", "not_found_", "select_", "clarify_", "execute_query", "complete"]

/-- The first two characters of an id, which tell the stems apart. -/
def NodeId.initials (id : NodeId) : List Char := id.value.toList.take 2

def NodeId.stage (id : NodeId) : ℕ := (stems.map fun stem => stem.toList.take 2).idxOf id.initials

@[simp] theorem stage_executeId : executeId.stage = 5 := by decide

@[simp] theorem stage_completeId : completeId.stage = 6 := by decide

/-- The stage of an id is that of its stem. -/
theorem stage_of_stem {stem name : String} {id : NodeId}
    (h : NodeId.new (stem ++ name) = some id) (hstem : 2 ≤ stem.toList.length) :
    id.stage = (stems.map fun stem => stem.toList.take 2).idxOf (stem.toList.take 2) := by
  have hinitials : id.initials = stem.toList.take 2 := by
    rw [NodeId.initials, NodeId.new_eq_some.mp h, String.toList_append,
      List.take_append_of_le_length hstem]
  rw [NodeId.stage, hinitials]

/-- What one acquired parameter puts in front of the query. -/
inductive IsFront (name : String) : Acquired → Prop
  | direct {source : BindingSource} : IsFront name (bound source)
  | clarify {clarify : NodeId} (hclarify : NodeId.new ("clarify_" ++ name) = some clarify) :
      IsFront name (clarifyGraph clarify executeId)
  | probe {resolve branch notFound select : NodeId} {resolver : WorkflowNode} {slot : String}
      (hresolve : NodeId.new ("resolve_" ++ name) = some resolve)
      (hbranch : NodeId.new ("branch_" ++ name) = some branch)
      (hnotFound : NodeId.new ("not_found_" ++ name) = some notFound)
      (hselect : NodeId.new ("select_" ++ name) = some select) (hid : resolver.id = resolve) :
      IsFront name (probeGraph resolve branch notFound select executeId resolver slot)

/-- Whatever is acquired for a parameter is such a front. -/
theorem isFront_of_acquired {capability : CapabilityKnowledge} {policy : ParameterPolicy}
    {facts : AcquisitionFacts} {catalog : KnowledgeCatalog} {acquired : Acquired}
    (h : acquisitionSource capability policy facts executeId catalog = .ok acquired) :
    IsFront policy.name acquired := by
  obtain ⟨-, rfl⟩ | ⟨-, strategy, -, hacquired⟩ := acquisitionSource_spec h
  · exact .direct
  · cases hacquired with
    | probe _ hsource =>
      obtain ⟨_, _, _, _, resolve, branch, notFound, select, -, -, -, -, -, hresolve, hbranch,
        hnotFound, hselect, rfl⟩ := probeSource_graph hsource
      exact .probe hresolve hbranch hnotFound hselect rfl
    | clarify hsource =>
      obtain ⟨clarify, hclarify, rfl⟩ := clarifySource_graph hsource
      exact .clarify hclarify
    | _ => exact .direct

/-- The nodes of a front come before the query. -/
theorem IsFront.stage_lt {name : String} {front : Acquired} (h : IsFront name front) :
    ∀ node ∈ front.nodes, node.id.stage < executeId.stage := by
  cases h with
  | direct => simp [bound]
  | clarify hclarify =>
    have hstage := stage_of_stem hclarify (by decide)
    simp [clarifyGraph, controlNode, hstage]
    decide
  | probe hresolve hbranch hnotFound hselect hid =>
    have hresolveStage := stage_of_stem hresolve (by decide)
    have hbranchStage := stage_of_stem hbranch (by decide)
    have hnotFoundStage := stage_of_stem hnotFound (by decide)
    have hselectStage := stage_of_stem hselect (by decide)
    simp [probeGraph, controlNode, hid, hresolveStage, hbranchStage, hnotFoundStage, hselectStage]
    decide

/-- The edges of a front lead past the node it starts with. -/
theorem IsFront.target_stage {name : String} {front : Acquired} (h : IsFront name front) :
    ∀ edge ∈ front.edges, edge.target.stage ≠ 0 ∧ edge.target.stage ≠ 4 := by
  cases h with
  | direct => simp [bound]
  | clarify _ => simp [clarifyGraph]
  | probe _ hbranch hnotFound hselect _ =>
    have hbranchStage := stage_of_stem hbranch (by decide)
    have hnotFoundStage := stage_of_stem hnotFound (by decide)
    have hselectStage := stage_of_stem hselect (by decide)
    simp [probeGraph, hbranchStage, hnotFoundStage, hselectStage]
    decide

/-- A workflow is rooted when its first node is no target, every other one is, and all edges
lead to a later stage. -/
theorem isRooted_of_stages {workflow : ExecutionWorkflow} {root : NodeId} {rest : List NodeId}
    (hids : workflow.nodes.map (·.id) = root :: rest)
    (hstages : ((root :: rest).map NodeId.stage).Nodup)
    (hknown : ∀ edge ∈ workflow.edges, edge.source ∈ root :: rest ∧ edge.target ∈ rest)
    (hforward : ∀ edge ∈ workflow.edges, edge.source.stage < edge.target.stage)
    (hfed : ∀ id ∈ rest, ∃ edge ∈ workflow.edges, edge.target = id) :
    (workflow.nodes.map (·.id)).Nodup ∧ workflow.EdgesKnown ∧
      (WorkflowGraph.new workflow).IsRooted root NodeId.stage := by
  have hnodup : (root :: rest).Nodup := hstages.of_map NodeId.stage
  have hedges : workflow.EdgesKnown := by
    intro edge hedge
    rw [hids]
    exact ⟨(hknown edge hedge).1, List.mem_cons_of_mem root (hknown edge hedge).2⟩
  refine ⟨hids ▸ hnodup, hedges, ?_, ?_, ?_, ?_⟩
  · rw [WorkflowGraph.nodes_new, hids]
    exact List.mem_cons_self
  · intro id hadj
    obtain ⟨edge, hedge, -, htarget⟩ := (WorkflowGraph.adj_iff hedges).mp hadj
    exact (List.nodup_cons.mp hnodup).1 (htarget ▸ (hknown edge hedge).2)
  · intro a b hadj
    obtain ⟨edge, hedge, rfl, rfl⟩ := (WorkflowGraph.adj_iff hedges).mp hadj
    exact hforward edge hedge
  · intro id hid hne
    rw [WorkflowGraph.nodes_new, hids] at hid
    obtain ⟨edge, hedge, htarget⟩ := hfed id ((List.mem_cons.mp hid).resolve_left hne)
    exact ⟨edge.source, (WorkflowGraph.adj_iff hedges).mpr ⟨edge, hedge, rfl, htarget⟩⟩

theorem IsFront.rooted {workflow : ExecutionWorkflow} {name : String} {front : Acquired}
    {query : WorkflowNode} (h : IsFront name front) (hquery : query.id = executeId)
    (hnodes : workflow.nodes = front.nodes ++ [query, successNode])
    (hedges : workflow.edges = front.edges ++ [⟨executeId, completeId, .always⟩]) :
    (workflow.nodes.map (·.id)).Nodup ∧ workflow.EdgesKnown ∧
      ∃ root, (WorkflowGraph.new workflow).IsRooted root NodeId.stage := by
  cases h with
  | direct =>
    have hids : workflow.nodes.map (·.id) = [executeId, completeId] := by
      simp [hnodes, bound, hquery, successNode, controlNode]
    obtain ⟨hnodup, hknown, hrooted⟩ := isRooted_of_stages hids (by decide)
      (by simp [hedges, bound]) (by simp [hedges, bound]) (by simp [hedges, bound])
    exact ⟨hnodup, hknown, _, hrooted⟩
  | @clarify clarify hclarify =>
    have hstage : clarify.stage = 4 := stage_of_stem hclarify (by decide)
    have hids : workflow.nodes.map (·.id) = [clarify, executeId, completeId] := by
      simp [hnodes, clarifyGraph, hquery, successNode, controlNode]
    obtain ⟨hnodup, hknown, hrooted⟩ := isRooted_of_stages hids (by simp [hstage])
      (by simp [hedges, clarifyGraph]) (by simp [hedges, clarifyGraph, hstage])
      (by simp [hedges, clarifyGraph])
    exact ⟨hnodup, hknown, _, hrooted⟩
  | @probe resolve branch notFound select resolver slot hresolve hbranch hnotFound hselect hid =>
    have h0 : resolve.stage = 0 := stage_of_stem hresolve (by decide)
    have h1 : branch.stage = 1 := stage_of_stem hbranch (by decide)
    have h2 : notFound.stage = 2 := stage_of_stem hnotFound (by decide)
    have h3 : select.stage = 3 := stage_of_stem hselect (by decide)
    have hids : workflow.nodes.map (·.id) =
        [resolve, branch, notFound, select, executeId, completeId] := by
      simp [hnodes, probeGraph, hquery, successNode, controlNode, hid]
    obtain ⟨hnodup, hknown, hrooted⟩ := isRooted_of_stages hids (by simp [h0, h1, h2, h3])
      (by simp [hedges, probeGraph]) (by simp [hedges, probeGraph, h0, h1, h2, h3])
      (by simp [hedges, probeGraph])
    exact ⟨hnodup, hknown, _, hrooted⟩

end FineractReports.Workflow
