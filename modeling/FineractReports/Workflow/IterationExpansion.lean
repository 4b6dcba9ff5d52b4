import FineractReports.Library.Tokens
import FineractReports.Workflow.Compile

/-!
# Iterations are expanded into siblings

A query node that iterates becomes as many siblings as it may take, and every edge of the
node an edge of each sibling. Other references to the node are not rewritten, and a
sibling's name may be taken.
-/

namespace FineractReports.Workflow

open Text

/-! ### References -/

/-- Node ids a node's configuration names. -/
def NodeKind.mentions : NodeKind → List NodeId
  | .cardinalityBranch branch => [branch.source, branch.zero, branch.one, branch.many]
  | .clarificationInterrupt interrupt => [interrupt.optionSource, interrupt.resume]
  | .composeResult compose => compose.sources
  | _ => []

/-- Node ids named outside the edges: by the configuration and by the bindings. -/
def WorkflowNode.mentions (node : WorkflowNode) : List NodeId :=
  node.kind.mentions ++
    node.inputs.filterMap fun input => WorkflowNode.sourceProducer? input.source

/-- Ids are distinct and every id that is mentioned names a node. -/
structure IsClosed (workflow : ExecutionWorkflow) : Prop where
  ids_nodup : (workflow.nodes.map (·.id)).Nodup
  mentioned : ∀ node ∈ workflow.nodes, ∀ id ∈ node.mentions, id ∈ workflow.nodes.map (·.id)
  ends : ∀ edge ∈ workflow.edges, edge.source ∈ workflow.nodes.map (·.id) ∧
    edge.target ∈ workflow.nodes.map (·.id)

/-! ### Siblings -/

def WorkflowNode.iterateOver? (node : WorkflowNode) : Option IterateOver :=
  match node.kind with
  | .executeQuery execute => execute.iterateOver
  | _ => none

/-- The node under another id, and without its iteration. -/
def WorkflowNode.sibling (node : WorkflowNode) (id : NodeId) : WorkflowNode :=
  { node with
    id := id
    kind := match node.kind with
      | .executeQuery execute => .executeQuery { execute with iterateOver := none }
      | kind => kind }

/-- `{id}_iter_{index}` for every index below the maximum. -/
def WorkflowNode.siblingNames (node : WorkflowNode) : List String :=
  match node.iterateOver? with
  | some iterate =>
    (List.range iterate.max.toNat).map fun index => node.id.value ++ "_iter_" ++ toString index
  | none => []

/-- A name the expansion gives to some sibling. -/
def IsSiblingName (workflow : ExecutionWorkflow) (name : String) : Prop :=
  ∃ node ∈ workflow.nodes, name ∈ node.siblingNames

instance (workflow : ExecutionWorkflow) (name : String) :
    Decidable (IsSiblingName workflow name) := by
  unfold IsSiblingName; infer_instance

/-- Every node and every edge is replaced as the ids are: an iterated node by as many
siblings as it may take, another one by itself. -/
structure Replaces (copies : NodeId → List NodeId) (workflow expanded : ExecutionWorkflow) :
    Prop where
  copied : ∀ node ∈ workflow.nodes, ∀ iterate, node.iterateOver? = some iterate →
    (copies node.id).length = iterate.max.toNat
  kept : ∀ id, (∀ node ∈ workflow.nodes, node.id = id → node.iterateOver? = none) →
    copies id = [id]
  nodes : expanded.nodes = workflow.nodes.flatMap fun node =>
    if node.iterateOver?.isSome then (copies node.id).map node.sibling else [node]
  edges : ∀ edge, edge ∈ expanded.edges ↔ ∃ original ∈ workflow.edges,
    edge.source ∈ copies original.source ∧ edge.target ∈ copies original.target ∧
      edge.condition = original.condition

/-- The expansion is the workflow under a replacement of its nodes, and still closed. -/
def ExpansionPreserves (workflow expanded : ExecutionWorkflow) : Prop :=
  IsClosed expanded ∧ ∃ copies, Replaces copies workflow expanded

section Siblings

variable {node : WorkflowNode} {execute : ExecuteQueryNode} {iterate : IterateOver}
  {budgets : WorkflowBudgets} {catalog : KnowledgeCatalog} {id : NodeId}

theorem sibling_mentions : (node.sibling id).mentions = node.mentions := by
  unfold WorkflowNode.mentions WorkflowNode.sibling
  cases hkind : node.kind <;> rfl

theorem siblingIds_names {index count : ℕ} {siblings : List NodeId}
    (h : siblingIds id index count = .ok siblings) :
    siblings.map (·.value) =
      (List.range' index count).map fun index => id.value ++ "_iter_" ++ toString index := by
  induction count generalizing index siblings with
  | zero =>
    rw [siblingIds, Except.ok.injEq] at h
    subst h
    rfl
  | succ count ih =>
    simp only [siblingIds, bind_eq_ok_iff, okOr_eq_ok, pure_eq_ok, NodeId.new_eq_some] at h
    obtain ⟨sibling, hsibling, rest, hrest, rfl⟩ := h
    rw [List.range'_succ, List.map_cons, List.map_cons, hsibling, ih hrest]

theorem iterationSiblings_spec {siblings : List NodeId}
    (h : iterationSiblings node execute iterate budgets catalog = .ok siblings) :
    iterate.max ≠ 0 ∧ siblingIds node.id 0 iterate.max.toNat = .ok siblings := by
  simp only [iterationSiblings, bind_eq_ok_iff, exists_unit_iff, failIf_eq_ok, not_or] at h
  obtain ⟨⟨hmax, -⟩, _, -, _, -, _, -, -, -, hids⟩ := h
  exact ⟨hmax, hids⟩

/-- A node is replaced by its siblings, or stays as it is. -/
theorem expandNode_spec {nodes : List WorkflowNode} {siblings : Option (List NodeId)}
    (h : expandNode node budgets catalog = .ok (nodes, siblings)) :
    (node.iterateOver? = none ∧ siblings = none ∧ nodes = [node]) ∨
      ∃ iterate ids, node.iterateOver? = some iterate ∧ siblings = some ids ∧ ids ≠ [] ∧
        ids.map (·.value) = node.siblingNames ∧ nodes = ids.map node.sibling := by
  unfold expandNode at h
  split at h
  · rename_i execute hkind
    have hiterate : node.iterateOver? = execute.iterateOver := by
      simp [WorkflowNode.iterateOver?, hkind]
    split at h
    · rename_i hnone
      left
      simp only [Except.ok.injEq, Prod.mk.injEq] at h
      exact ⟨hiterate.trans hnone, h.2.symm, h.1.symm⟩
    · rename_i iterate hsome
      right
      simp only [bind_eq_ok_iff, pure_eq_ok, Prod.mk.injEq] at h
      obtain ⟨ids, hids, hnodes, hsiblings⟩ := h
      obtain ⟨hmax, hnames⟩ := iterationSiblings_spec hids
      have hvalues := siblingIds_names hnames
      rw [← List.range_eq_range'] at hvalues
      refine ⟨iterate, ids, hiterate.trans hsome, hsiblings.symm, ?_, ?_, ?_⟩
      · rintro rfl
        rw [List.map_nil, eq_comm, List.map_eq_nil_iff, List.range_eq_nil] at hvalues
        exact hmax (UInt8.toNat_inj.mp hvalues)
      · rw [hvalues, WorkflowNode.siblingNames, hiterate, hsome]
      · rw [← hnodes]
        apply List.map_congr_left
        intro sibling _
        simp [WorkflowNode.sibling, hkind]
  · rename_i hkind
    left
    simp only [Except.ok.injEq, Prod.mk.injEq] at h
    refine ⟨?_, h.2.symm, h.1.symm⟩
    unfold WorkflowNode.iterateOver?
    split
    · rename_i execute hquery
      exact absurd hquery (hkind execute)
    · rfl

/-- The expanded nodes, read off the final replacements; ids that are not iterated keep theirs. -/
theorem expandNodes_spec {nodes expanded : List WorkflowNode}
    {replacements all : List (NodeId × List NodeId)} (hids : (nodes.map (·.id)).Nodup)
    (h : expandNodes budgets catalog nodes replacements = .ok (expanded, all)) :
    (∀ id, (∀ node ∈ nodes, node.id = id → node.iterateOver? = none) →
        Assoc.get? all id = Assoc.get? replacements id) ∧
      (∀ node ∈ nodes, node.iterateOver?.isSome = true → ∃ ids, Assoc.get? all node.id = some ids ∧
        ids ≠ [] ∧ ids.map (·.value) = node.siblingNames) ∧
      expanded = nodes.flatMap fun node => if node.iterateOver?.isSome
        then ((Assoc.get? all node.id).getD [node.id]).map node.sibling else [node] := by
  induction nodes generalizing replacements expanded with
  | nil =>
    simp only [expandNodes, Except.ok.injEq, Prod.mk.injEq] at h
    obtain ⟨rfl, rfl⟩ := h
    simp
  | cons node rest ih =>
    simp only [expandNodes, bind_eq_ok_iff, pure_eq_ok, Prod.mk.injEq, Prod.exists] at h
    obtain ⟨heads, siblings, hhead, others, final, hrest, hexpanded, hfinal⟩ := h
    rw [List.map_cons, List.nodup_cons] at hids
    obtain ⟨hfresh, hids⟩ := hids
    subst hfinal
    obtain ⟨hkept, hcopied, hothers⟩ := ih hids hrest
    rw [List.flatMap_cons, ← hothers, ← hexpanded]
    have hown := hkept node.id fun other hother hid =>
      absurd (hid ▸ List.mem_map_of_mem hother) hfresh
    rcases expandNode_spec hhead with ⟨hnone, rfl, hheads⟩ | ⟨_, ids, hsome, rfl, hne,
      hnames, hheads⟩
    · refine ⟨?_, ?_, ?_⟩
      · intro id hid
        exact hkept id fun other hother => hid other (List.mem_cons_of_mem _ hother)
      · intro other hother hiterated
        rcases List.mem_cons.mp hother with rfl | hother
        · rw [hnone] at hiterated
          exact absurd hiterated (by simp)
        · exact hcopied other hother hiterated
      · rw [hnone, hheads]
        rfl
    · rw [Assoc.get?_insert_self] at hown
      refine ⟨?_, ?_, ?_⟩
      · intro id hid
        rw [hkept id fun other hother => hid other (List.mem_cons_of_mem _ hother)]
        apply Assoc.get?_insert_of_ne
        rintro rfl
        rw [hid node List.mem_cons_self rfl] at hsome
        exact absurd hsome (by simp)
      · intro other hother hiterated
        rcases List.mem_cons.mp hother with rfl | hother
        · exact ⟨ids, hown, hne, hnames⟩
        · exact hcopied other hother hiterated
      · rw [hsome, hown, hheads]
        rfl

end Siblings

/-! ### What the expansion does -/

/-- A replacement that names its siblings as the expansion does. -/
structure IsExpansion (copies : NodeId → List NodeId) (workflow expanded : ExecutionWorkflow) : Prop
    extends Replaces copies workflow expanded where
  names : ∀ node ∈ workflow.nodes, node.iterateOver?.isSome = true →
    (copies node.id).map (·.value) = node.siblingNames
  inhabited : ∀ node ∈ workflow.nodes, copies node.id ≠ []

section Expansion

variable {workflow expanded : ExecutionWorkflow} {catalog : KnowledgeCatalog}
  {copies : NodeId → List NodeId}

theorem siblingNames_length {node : WorkflowNode} {iterate : IterateOver}
    (h : node.iterateOver? = some iterate) : node.siblingNames.length = iterate.max.toNat := by
  rw [WorkflowNode.siblingNames, h]
  simp

theorem mem_redirect {replacements : List (NodeId × List NodeId)} {edge original : WorkflowEdge} :
    edge ∈ redirect replacements original ↔
      edge.source ∈ (Assoc.get? replacements original.source).getD [original.source] ∧
        edge.target ∈ (Assoc.get? replacements original.target).getD [original.target] ∧
        edge.condition = original.condition := by
  simp only [redirect, List.mem_flatMap, List.mem_map]
  constructor
  · rintro ⟨source, hsource, target, htarget, rfl⟩
    exact ⟨hsource, htarget, rfl⟩
  · rintro ⟨hsource, htarget, hcondition⟩
    exact ⟨edge.source, hsource, edge.target, htarget, by rw [← hcondition]⟩

/-- Whatever is referenced, the nodes and the edges are replaced together. -/
theorem expandIteration_isExpansion (hids : (workflow.nodes.map (·.id)).Nodup)
    (h : expandIteration workflow catalog = .ok expanded) :
    ∃ copies, IsExpansion copies workflow expanded := by
  simp only [expandIteration, bind_eq_ok_iff, Prod.exists] at h
  obtain ⟨nodes, all, hnodes, h⟩ := h
  obtain ⟨hkept, hcopied, hflat⟩ := expandNodes_spec hids hnodes
  have hkeeps : ∀ id, (∀ node ∈ workflow.nodes, node.id = id → node.iterateOver? = none) →
      (Assoc.get? all id).getD [id] = [id] := by
    intro id hid
    rw [hkept id hid]
    rfl
  have hresult : expanded.nodes = nodes ∧ ∀ edge, edge ∈ expanded.edges ↔
      ∃ original ∈ workflow.edges, edge ∈ redirect all original := by
    split_ifs at h with hall
    · subst hall
      obtain rfl := pure_eq_ok.mp h
      refine ⟨rfl, fun edge => ?_⟩
      simp only [mem_redirect, Assoc.get?_nil, Option.getD_none, List.mem_singleton]
      constructor
      · intro hedge
        exact ⟨edge, hedge, rfl, rfl, rfl⟩
      · rintro ⟨original, horiginal, hsource, htarget, hcondition⟩
        obtain rfl : edge = original := by
          cases edge; cases original; simp_all
        exact horiginal
    · simp only [bind_eq_ok_iff, exists_unit_iff, pure_eq_ok] at h
      obtain ⟨-, rfl⟩ := h
      exact ⟨rfl, fun edge => List.mem_flatMap⟩
  have hnames : ∀ node ∈ workflow.nodes, node.iterateOver?.isSome = true →
      ((Assoc.get? all node.id).getD [node.id]) ≠ [] ∧
        ((Assoc.get? all node.id).getD [node.id]).map (·.value) = node.siblingNames := by
    intro node hnode hiterated
    obtain ⟨ids, hget, hspec⟩ := hcopied node hnode hiterated
    rw [hget]
    exact hspec
  refine ⟨fun id => (Assoc.get? all id).getD [id], ⟨⟨?_, hkeeps, ?_, ?_⟩, ?_, ?_⟩⟩
  · intro node hnode iterate hiterate
    rw [← siblingNames_length hiterate, ← (hnames node hnode (by rw [hiterate]; rfl)).2,
      List.length_map]
  · rw [hresult.1, hflat]
  · intro edge
    simp only [hresult.2, mem_redirect]
  · exact fun node hnode hiterated => (hnames node hnode hiterated).2
  · intro node hnode
    by_cases hiterated : node.iterateOver?.isSome = true
    · exact (hnames node hnode hiterated).1
    · rw [hkeeps node.id]
      · simp
      · intro other hother hid
        obtain rfl := List.inj_on_of_nodup_map hids hother hnode hid
        simpa using hiterated

/-! ### When the expansion stays closed -/

theorem mem_siblingNames {node : WorkflowNode} {name : String} (h : name ∈ node.siblingNames) :
    node.iterateOver?.isSome = true ∧
      ∃ index : ℕ, name = node.id.value ++ "_iter_" ++ toString index := by
  unfold WorkflowNode.siblingNames at h
  split at h
  · rename_i iterate hsome
    obtain ⟨index, -, rfl⟩ := List.mem_map.mp h
    exact ⟨by rw [hsome]; rfl, index, rfl⟩
  · simp at h

theorem siblingName_inj {first second : String} {i j : ℕ}
    (h : first ++ "_iter_" ++ toString i = second ++ "_iter_" ++ toString j) :
    first = second ∧ i = j := by
  have hmark : ∀ n : ℕ, '_' ∉ (toString n).toList := by
    intro n hmem
    have hdigit := repr_isDigit hmem
    revert hdigit
    decide
  have hchars : (first.toList ++ "_iter".toList) ++ '_' :: (toString i).toList =
      (second.toList ++ "_iter".toList) ++ '_' :: (toString j).toList := by
    have htext := congrArg String.toList h
    simpa using htext
  obtain ⟨hfront, hindex⟩ := append_mark_inj (hmark i) (hmark j) hchars
  exact ⟨String.toList_inj.mp (List.append_cancel_right hfront), repr_injective hindex⟩

theorem siblingNames_nodup (node : WorkflowNode) : node.siblingNames.Nodup := by
  unfold WorkflowNode.siblingNames
  split
  · apply List.Nodup.map _ List.nodup_range
    intro i j h
    exact (siblingName_inj h).2
  · exact List.nodup_nil

namespace IsExpansion

variable (h : IsExpansion copies workflow expanded)
  (hids : (workflow.nodes.map (·.id)).Nodup)

include h hids

theorem copies_of_kept {node : WorkflowNode} (hnode : node ∈ workflow.nodes)
    (hkept : node.iterateOver? = none) : copies node.id = [node.id] := by
  apply h.kept
  intro other hother hid
  obtain rfl := List.inj_on_of_nodup_map hids hother hnode hid
  exact hkept

theorem ids_eq : expanded.nodes.map (·.id) = workflow.nodes.flatMap fun node => copies node.id := by
  rw [h.nodes, List.map_flatMap]
  apply List.flatMap_congr
  intro node hnode
  by_cases hiterated : node.iterateOver?.isSome = true
  · rw [if_pos hiterated, List.map_map]
    exact List.map_id _
  · rw [if_neg hiterated, h.copies_of_kept hids hnode (by simpa using hiterated)]
    rfl

theorem mem_ids {id : NodeId} :
    id ∈ expanded.nodes.map (·.id) ↔ ∃ node ∈ workflow.nodes, id ∈ copies node.id := by
  rw [h.ids_eq hids, List.mem_flatMap]

omit hids in
theorem mem_copies {node : WorkflowNode} (hnode : node ∈ workflow.nodes)
    (hiterated : node.iterateOver?.isSome = true) {id : NodeId} :
    id ∈ copies node.id ↔ id.value ∈ node.siblingNames := by
  rw [← h.names node hnode hiterated]
  constructor
  · exact List.mem_map_of_mem
  · intro hvalue
    obtain ⟨other, hother, heq⟩ := List.mem_map.mp hvalue
    rwa [← NodeId.ext heq]

theorem copies_nodup {node : WorkflowNode} (hnode : node ∈ workflow.nodes) :
    (copies node.id).Nodup := by
  by_cases hiterated : node.iterateOver?.isSome = true
  · apply List.Nodup.of_map NodeId.value
    rw [h.names node hnode hiterated]
    exact siblingNames_nodup node
  · rw [h.copies_of_kept hids hnode (by simpa using hiterated)]
    exact List.nodup_singleton _

/-- Two nodes share a copy only when a sibling takes the name of a node that is kept. -/
theorem copies_disjoint
    (hapart : ∀ node ∈ workflow.nodes, node.iterateOver? = none →
      ¬ IsSiblingName workflow node.id.value)
    {a b : WorkflowNode} (ha : a ∈ workflow.nodes) (hb : b ∈ workflow.nodes) (hne : a ≠ b) :
    List.Disjoint (copies a.id) (copies b.id) := by
  have hidne : a.id ≠ b.id := fun heq => hne (List.inj_on_of_nodup_map hids ha hb heq)
  intro id hina hinb
  by_cases hia : a.iterateOver?.isSome = true
  · rw [h.mem_copies ha hia] at hina
    by_cases hib : b.iterateOver?.isSome = true
    · rw [h.mem_copies hb hib] at hinb
      obtain ⟨-, i, hi⟩ := mem_siblingNames hina
      obtain ⟨-, j, hj⟩ := mem_siblingNames hinb
      exact hidne (NodeId.ext (siblingName_inj (hi.symm.trans hj)).1)
    · have hkept : b.iterateOver? = none := by simpa using hib
      rw [h.copies_of_kept hids hb hkept, List.mem_singleton] at hinb
      subst hinb
      exact hapart b hb hkept ⟨a, ha, hina⟩
  · have hkept : a.iterateOver? = none := by simpa using hia
    rw [h.copies_of_kept hids ha hkept, List.mem_singleton] at hina
    subst hina
    by_cases hib : b.iterateOver?.isSome = true
    · rw [h.mem_copies hb hib] at hinb
      exact hapart a ha hkept ⟨b, hb, hinb⟩
    · rw [h.copies_of_kept hids hb (by simpa using hib), List.mem_singleton] at hinb
      exact hidne hinb

theorem ids_nodup_iff : (expanded.nodes.map (·.id)).Nodup ↔
    ∀ node ∈ workflow.nodes, node.iterateOver? = none →
      ¬ IsSiblingName workflow node.id.value := by
  rw [h.ids_eq hids, List.nodup_flatMap]
  constructor
  · rintro ⟨-, hdisjoint⟩ node hnode hkept ⟨other, hother, hname⟩
    obtain ⟨hiterated, -⟩ := mem_siblingNames hname
    have hne : node ≠ other := by
      rintro rfl
      rw [hkept] at hiterated
      exact absurd hiterated (by simp)
    have hsymm : Std.Symm
      (Function.onFun List.Disjoint fun node : WorkflowNode => copies node.id) :=
      ⟨fun _ _ hab => List.Disjoint.symm hab⟩
    have hapart : List.Disjoint (copies node.id) (copies other.id) :=
      hdisjoint.forall hnode hother hne
    have hown : node.id ∈ copies node.id := by
      rw [h.copies_of_kept hids hnode hkept]
      exact List.mem_singleton_self _
    exact hapart hown ((h.mem_copies hother hiterated).mpr hname)
  · intro hapart
    refine ⟨fun node hnode => h.copies_nodup hids hnode, ?_⟩
    apply (List.Nodup.of_map _ hids).pairwise_of_forall_ne
    intro a ha b hb hne
    exact h.copies_disjoint hids hapart ha hb hne

/-- An id that named an iterated node names a node afterwards only as another node's sibling. -/
theorem mem_ids_of_iterated {node : WorkflowNode} (hnode : node ∈ workflow.nodes)
    (hiterated : node.iterateOver?.isSome = true) :
    node.id ∈ expanded.nodes.map (·.id) ↔ IsSiblingName workflow node.id.value := by
  rw [h.mem_ids hids]
  constructor
  · rintro ⟨other, hother, hmem⟩
    by_cases hother' : other.iterateOver?.isSome = true
    · exact ⟨other, hother, (h.mem_copies hother hother').mp hmem⟩
    · rw [h.copies_of_kept hids hother (by simpa using hother'), List.mem_singleton] at hmem
      obtain rfl := List.inj_on_of_nodup_map hids hnode hother hmem
      exact absurd hiterated hother'
  · rintro ⟨other, hother, hname⟩
    exact ⟨other, hother, (h.mem_copies hother (mem_siblingNames hname).1).mpr hname⟩

omit hids in
/-- The expanded nodes mention what the nodes they come from mention. -/
theorem mentioned_iff : (∀ node ∈ expanded.nodes, ∀ id ∈ node.mentions,
      id ∈ expanded.nodes.map (·.id)) ↔
    ∀ node ∈ workflow.nodes, ∀ id ∈ node.mentions, id ∈ expanded.nodes.map (·.id) := by
  constructor
  · intro hall node hnode id hid
    by_cases hiterated : node.iterateOver?.isSome = true
    · obtain ⟨copy, hcopy⟩ := List.exists_mem_of_ne_nil _ (h.inhabited node hnode)
      apply hall (node.sibling copy)
      · rw [h.nodes, List.mem_flatMap]
        exact ⟨node, hnode, by rw [if_pos hiterated]; exact List.mem_map_of_mem hcopy⟩
      · rwa [sibling_mentions]
    · apply hall node _ id hid
      rw [h.nodes, List.mem_flatMap]
      exact ⟨node, hnode, by rw [if_neg hiterated]; exact List.mem_singleton_self _⟩
  · intro hall node hnode id hid
    rw [h.nodes, List.mem_flatMap] at hnode
    obtain ⟨original, horiginal, hin⟩ := hnode
    apply hall original horiginal
    split_ifs at hin
    · obtain ⟨copy, -, rfl⟩ := List.mem_map.mp hin
      rwa [sibling_mentions] at hid
    · rwa [← List.mem_singleton.mp hin]

theorem ends (hends : ∀ edge ∈ workflow.edges, edge.source ∈ workflow.nodes.map (·.id) ∧
    edge.target ∈ workflow.nodes.map (·.id)) :
    ∀ edge ∈ expanded.edges, edge.source ∈ expanded.nodes.map (·.id) ∧
      edge.target ∈ expanded.nodes.map (·.id) := by
  intro edge hedge
  obtain ⟨original, horiginal, hsource, htarget, -⟩ := (h.edges edge).mp hedge
  obtain ⟨hfrom, hto⟩ := hends original horiginal
  obtain ⟨source, hsourceMem, hsourceId⟩ := List.mem_map.mp hfrom
  obtain ⟨target, htargetMem, htargetId⟩ := List.mem_map.mp hto
  rw [h.mem_ids hids, h.mem_ids hids]
  exact ⟨⟨source, hsourceMem, hsourceId ▸ hsource⟩, ⟨target, htargetMem, htargetId ▸ htarget⟩⟩

end IsExpansion

/-- The expansion preserves the graph exactly when no id named outside the edges is lost with
an iterated node, and no sibling takes the name of a node that is kept. -/
theorem expansion_preserves_iff (catalog : KnowledgeCatalog) (hclosed : IsClosed workflow)
    (hok : expandIteration workflow catalog = .ok expanded) :
    ExpansionPreserves workflow expanded ↔
      (∀ node ∈ workflow.nodes, ∀ id ∈ node.mentions, ∀ other ∈ workflow.nodes, other.id = id →
        other.iterateOver?.isSome = true → IsSiblingName workflow id.value) ∧
      ∀ node ∈ workflow.nodes, node.iterateOver? = none →
        ¬ IsSiblingName workflow node.id.value := by
  have hids := hclosed.ids_nodup
  obtain ⟨copies, h⟩ := expandIteration_isExpansion hids hok
  constructor
  · rintro ⟨hafter, -⟩
    refine ⟨?_, (h.ids_nodup_iff hids).mp hafter.ids_nodup⟩
    rintro node hnode id hid other hother rfl hiterated
    apply (h.mem_ids_of_iterated hids hother hiterated).mp
    exact h.mentioned_iff.mp hafter.mentioned node hnode _ hid
  · rintro ⟨hmentions, hapart⟩
    refine ⟨⟨(h.ids_nodup_iff hids).mpr hapart, ?_, h.ends hids hclosed.ends⟩, copies,
      h.toReplaces⟩
    rw [h.mentioned_iff]
    intro node hnode id hid
    obtain ⟨other, hother, rfl⟩ := List.mem_map.mp (hclosed.mentioned node hnode id hid)
    by_cases hiterated : other.iterateOver?.isSome = true
    · apply (h.mem_ids_of_iterated hids hother hiterated).mpr
      exact hmentions node hnode _ hid other hother rfl hiterated
    · rw [h.mem_ids hids]
      refine ⟨other, hother, ?_⟩
      rw [h.copies_of_kept hids hother (by simpa using hiterated)]
      exact List.mem_singleton_self _

end Expansion

namespace PerClient

/-! One query for each client that was found, and a result composed of them. -/

def clientsId : NodeId := ⟨"clients", by decide⟩
def perClientId : NodeId := ⟨"per_client", by decide⟩
def composeId : NodeId := ⟨"compose", NodeId.isValid_compose⟩
def doneId : NodeId := ⟨"complete", NodeId.isValid_complete⟩

def node (id : NodeId) (kind : NodeKind) (queryCost : UInt8) : WorkflowNode where
  id := id
  kind := kind
  inputs := []
  outputs := []
  policy := ⟨none, .authorizedIntersection, .publicBusiness, false⟩
  budget := ⟨1000, 10, queryCost⟩
  idempotency := .executeOnce
  retry := ⟨0⟩

def clients : WorkflowNode :=
  node clientsId (.executeQuery ⟨some "client_list", none, none, none, none⟩) 1

def perClient : WorkflowNode :=
  node perClientId (.executeQuery ⟨none, some "client.identity", some "identity_candidates", none,
    some ⟨clientsId, "client_id", 2⟩⟩) 1

def compose : WorkflowNode := node composeId (.composeResult ⟨[perClientId], .grouped⟩) 0

def done : WorkflowNode := node doneId (.complete ⟨.success⟩) 0

def workflow : ExecutionWorkflow where
  id := 7
  contractVersion := WORKFLOW_CONTRACT_VERSION
  catalogVersion := 0
  nodes := [clients, perClient, compose, done]
  edges := [⟨clientsId, perClientId, .always⟩, ⟨perClientId, composeId, .always⟩,
    ⟨composeId, doneId, .always⟩]
  budgets := ⟨30000, 1000, 3, 2, 2, 0⟩
  failPolicy := .failFast
  outputContract := ⟨.grouped, false, .publicBusiness⟩

def dataset : DatasetKnowledge where
  id := "client.identity"
  database := "fineract"
  sourceSql := "queries/datasets/client/identity.source.sql"
  tables := ["m_client"]
  filters := [⟨"client_id", "client_id", "integer", false, .ordinary, [.in]⟩]
  entity := none
  filtersExempt := []
  shapes := [⟨"identity_candidates", ⟨.lookup, .client, .none, .lookup, .clientIdentity⟩, .terminal,
    none, none, none, [], none, [], [], []⟩]
  orderBy := []
  outputFields := []
  parameters := []
  timeoutMs := none

def catalog : KnowledgeCatalog where
  queryPath := ["queries"]
  dataAreas := []
  domains := []
  schemas := []
  metrics := []
  capabilities := []
  queries := []
  policies := []
  responses := []
  parameterInputs := []
  parameterBindings := []
  classification := ⟨⟨0, "0"⟩, ⟨0, "0"⟩, "others", "Others"⟩
  datasets := [dataset]

def siblings : List NodeId :=
  [⟨"per_client_iter_0", by decide⟩, ⟨"per_client_iter_1", by decide⟩]

/-- The siblings stand for the iterated query; the composition still names it. -/
def expanded : ExecutionWorkflow :=
  { workflow with
    nodes := [clients] ++ siblings.map perClient.sibling ++ [compose, done]
    edges := workflow.edges.flatMap (redirect [(perClientId, siblings)]) }

/-- The same iteration without a composition of its results. -/
def listing : ExecutionWorkflow :=
  { workflow with
    nodes := [clients, perClient, done]
    edges := [⟨clientsId, perClientId, .always⟩, ⟨perClientId, doneId, .always⟩] }

def expandedListing : ExecutionWorkflow :=
  { listing with
    nodes := [clients] ++ siblings.map perClient.sibling ++ [done]
    edges := listing.edges.flatMap (redirect [(perClientId, siblings)]) }

end PerClient

theorem expansion_preserves_listing :
    ExpansionPreserves PerClient.listing PerClient.expandedListing :=
  (expansion_preserves_iff PerClient.catalog
    ⟨by decide, by decide, by decide⟩ (by decide +kernel)).mpr
    ⟨by decide, by decide +kernel⟩

/-- The composition of the sample names a query that is gone. -/
theorem composition_lost :
    IsClosed PerClient.workflow ∧
      expandIteration PerClient.workflow PerClient.catalog = .ok PerClient.expanded ∧
      ¬ ExpansionPreserves PerClient.workflow PerClient.expanded := by
  refine ⟨⟨by decide, by decide, by decide⟩, by decide +kernel, ?_⟩
  rintro ⟨hclosed, -⟩
  have hmention := hclosed.mentioned PerClient.compose (by decide) PerClient.perClientId
    (by decide)
  revert hmention
  decide

end FineractReports.Workflow
