import Mathlib.Logic.Relation
import Mathlib.Data.List.Perm.Basic
import Mathlib.Data.List.Dedup
import Mathlib.Data.Fintype.Basic
import Mathlib.Order.WellFounded
import Mathlib.Data.Fintype.EquivFin
import Mathlib.Tactic

/-!
# Finite directed graphs given by lists

Graphs are a list of nodes and a list of edges between them. Reachability is a
breadth-first search, cycles are found through it, and a topological order is
any function that meets the stated contract; source removal is one such
function. The last part is about schedulers that fire a node as soon as one of
its incoming edges is satisfied: what such a scheduler is certain to have fired
before a node are the nodes that strictly dominate it.
-/

namespace FineractReports

/-- Nodes and edges of a directed multigraph; both ends of an edge are nodes. -/
structure DirectedGraph (α : Type*) where
  nodes : List α
  edges : List (α × α)
  edges_mem : ∀ e ∈ edges, e.1 ∈ nodes ∧ e.2 ∈ nodes

namespace DirectedGraph

open Relation

variable {α : Type*} (g : DirectedGraph α)

def Adj (a b : α) : Prop := (a, b) ∈ g.edges

instance [DecidableEq α] : DecidableRel g.Adj :=
  fun _ _ => inferInstanceAs (Decidable (_ ∈ g.edges))

/-- A possibly empty edge path. -/
abbrev Path : α → α → Prop := ReflTransGen g.Adj

def Acyclic : Prop := ∀ a, ¬ TransGen g.Adj a a

def IsEntry (a : α) : Prop := a ∈ g.nodes ∧ ∀ b, ¬ g.Adj b a

variable {g}

theorem Adj.left_mem {a b : α} (h : g.Adj a b) : a ∈ g.nodes := (g.edges_mem _ h).1

theorem Adj.right_mem {a b : α} (h : g.Adj a b) : b ∈ g.nodes := (g.edges_mem _ h).2

theorem Path.mem {a b : α} (h : g.Path a b) (ha : a ∈ g.nodes) : b ∈ g.nodes := by
  cases h with
  | refl => exact ha
  | tail _ hbc => exact hbc.right_mem

/-- A nonempty part of an acyclic graph has a node without predecessor in it. -/
theorem Acyclic.exists_source (h : g.Acyclic) {part : List α} (hne : part ≠ []) :
    ∃ a ∈ part, ∀ b ∈ part, ¬ g.Adj b a := by
  let r : {a // a ∈ part} → {a // a ∈ part} → Prop := fun a b => TransGen g.Adj a.1 b.1
  have : IsTrans _ r := ⟨fun _ _ _ hab hbc => hab.trans hbc⟩
  have : Std.Irrefl r := ⟨fun a => h a.1⟩
  have : Finite {a // a ∈ part} := List.finite_toSet part
  have hwf : WellFounded r := Finite.wellFounded_of_trans_of_irrefl r
  obtain ⟨x, hx⟩ := List.exists_mem_of_ne_nil part hne
  obtain ⟨a, -, hmin⟩ := hwf.has_min Set.univ ⟨⟨x, hx⟩, trivial⟩
  exact ⟨a.1, a.2, fun b hb hadj => hmin ⟨b, hb⟩ trivial (.single hadj)⟩

section Search

variable [DecidableEq α] (g)

def successors (a : α) : List α := (g.edges.filter fun e => e.1 = a).map Prod.snd

def predecessors (a : α) : List α := (g.edges.filter fun e => e.2 = a).map Prod.fst

def entryNodes : List α := g.nodes.filter fun a => g.predecessors a = []

variable {g}

@[simp] theorem mem_successors {a b : α} : b ∈ g.successors a ↔ g.Adj a b := by
  simp [successors, Adj]

@[simp] theorem mem_predecessors {a b : α} : b ∈ g.predecessors a ↔ g.Adj b a := by
  simp [predecessors, Adj]

theorem predecessors_eq_nil {a : α} : g.predecessors a = [] ↔ ∀ b, ¬ g.Adj b a := by
  simp [List.eq_nil_iff_forall_not_mem]

theorem mem_entryNodes {a : α} : a ∈ g.entryNodes ↔ g.IsEntry a := by
  simp [entryNodes, IsEntry, predecessors_eq_nil]

variable (g)

/-- The breadth-first loop: pop a node, enqueue its successors not seen before. -/
def search : ℕ → List α → List α → List α
  | 0, _, seen => seen
  | _ + 1, [], seen => seen
  | fuel + 1, a :: queue, seen =>
    let fresh := (g.successors a).dedup.filter (· ∉ seen)
    search fuel (queue ++ fresh) (seen ++ fresh)

/-- Every node is enqueued once, so one unit of fuel a node is enough. -/
def reachableFrom (a : α) : List α :=
  if a ∈ g.nodes then g.search (g.nodes.length + 1) [a] [a] else []

/-- What the loop keeps: no node is seen twice, and a node whose successors have
not all been seen is still in the queue. -/
structure SearchInvariant (start : α) (queue seen : List α) : Prop where
  nodup : seen.Nodup
  reached : ∀ b ∈ seen, g.Path start b
  start_mem : start ∈ seen
  closed : ∀ b ∈ seen, b ∈ queue ∨ ∀ c, g.Adj b c → c ∈ seen

variable {g}

theorem SearchInvariant.pop {start a : α} {queue seen : List α}
    (h : g.SearchInvariant start (a :: queue) seen) (ha : a ∈ seen) :
    g.SearchInvariant start (queue ++ (g.successors a).dedup.filter (· ∉ seen))
      (seen ++ (g.successors a).dedup.filter (· ∉ seen)) where
  nodup := by
    refine List.nodup_append.mpr ⟨h.nodup, (List.nodup_dedup _).filter _, ?_⟩
    intro b hb c hc hbc
    subst hbc
    simp [hb] at hc
  reached := by
    intro b hb
    rcases List.mem_append.mp hb with hb | hb
    · exact h.reached b hb
    · have hab : g.Adj a b := by simpa using (List.mem_filter.mp hb).1
      exact (h.reached a ha).tail hab
  start_mem := List.mem_append_left _ h.start_mem
  closed := by
    intro b hb
    rcases List.mem_append.mp hb with hb | hb
    · rcases h.closed b hb with hq | hc
      · rcases List.mem_cons.mp hq with rfl | hq
        · right
          intro c hbc
          by_cases hc : c ∈ seen
          · exact List.mem_append_left _ hc
          · exact List.mem_append_right _ (by simp [hbc, hc])
        · exact Or.inl (List.mem_append_left _ hq)
      · exact Or.inr fun c hbc => List.mem_append_left _ (hc c hbc)
    · exact Or.inl (List.mem_append_right _ hb)

/-- With a unit of fuel for each node still to be popped, the loop ends on an
empty queue. -/
theorem search_spec {start : α} (hstart : start ∈ g.nodes) :
    ∀ (fuel : ℕ) (queue seen : List α), g.SearchInvariant start queue seen →
      queue ⊆ seen → queue.length + g.nodes.length < fuel + seen.length →
      g.SearchInvariant start [] (g.search fuel queue seen) := by
  intro fuel
  induction fuel with
  | zero =>
    intro queue seen h _ hfuel
    have hsub : seen ⊆ g.nodes := fun b hb => (h.reached b hb).mem hstart
    have hlen := (List.subperm_of_subset h.nodup hsub).length_le
    omega
  | succ fuel ih =>
    intro queue seen h hsub hfuel
    cases queue with
    | nil => simpa [search] using h
    | cons a queue =>
      have ha : a ∈ seen := hsub List.mem_cons_self
      refine ih _ _ (h.pop ha) ?_ ?_
      · intro b hb
        rcases List.mem_append.mp hb with hb | hb
        · exact List.mem_append_left _ (hsub (List.mem_cons_of_mem _ hb))
        · exact List.mem_append_right _ hb
      · simp only [List.length_append, List.length_cons] at hfuel ⊢
        omega

theorem reachableFrom_invariant {a : α} (ha : a ∈ g.nodes) :
    g.SearchInvariant a [] (g.reachableFrom a) := by
  rw [reachableFrom, if_pos ha]
  refine search_spec ha _ [a] [a] ⟨List.nodup_singleton a, ?_, List.mem_singleton_self a, ?_⟩
    (List.Subset.refl _) (by simp only [List.length_singleton]; omega)
  · intro b hb
    obtain rfl := List.mem_singleton.mp hb
    exact .refl
  · exact fun b hb => Or.inl hb

/-- The search finds exactly the nodes an edge path leads to. -/
theorem mem_reachableFrom {a b : α} (ha : a ∈ g.nodes) :
    b ∈ g.reachableFrom a ↔ g.Path a b := by
  have h := reachableFrom_invariant ha
  constructor
  · exact h.reached b
  · intro hp
    induction hp with
    | refl => exact h.start_mem
    | tail _ hbc ih =>
      rcases h.closed _ ih with hnil | hc
      · simp at hnil
      · exact hc _ hbc

theorem reachableFrom_nodup {a : α} : (g.reachableFrom a).Nodup := by
  by_cases ha : a ∈ g.nodes
  · exact (reachableFrom_invariant ha).nodup
  · simp [reachableFrom, ha]

theorem reachableFrom_subset {a : α} : g.reachableFrom a ⊆ g.nodes := by
  intro b hb
  by_cases ha : a ∈ g.nodes
  · exact ((mem_reachableFrom ha).mp hb).mem ha
  · simp [reachableFrom, ha] at hb

/-- As many nodes are found as there are exactly when every node is found. -/
theorem reachableFrom_length_eq {a : α} (hn : g.nodes.Nodup) :
    (g.reachableFrom a).length = g.nodes.length ↔ ∀ b ∈ g.nodes, b ∈ g.reachableFrom a := by
  constructor
  · intro hlen b hb
    have hsub := List.subperm_of_subset reachableFrom_nodup (reachableFrom_subset (g := g) (a := a))
    exact (hsub.perm_of_length_le hlen.ge).mem_iff.mpr hb
  · intro hall
    refine le_antisymm ?_ ?_
    · exact (List.subperm_of_subset reachableFrom_nodup reachableFrom_subset).length_le
    · exact (List.subperm_of_subset hn hall).length_le

variable (g)

/-- Some edge closes a path back to its own start. -/
def isCyclic : Bool :=
  g.edges.any fun e => e.1 ∈ g.reachableFrom e.2

variable {g}

theorem isCyclic_iff : g.isCyclic = true ↔ ¬ g.Acyclic := by
  unfold Acyclic
  push Not
  simp only [isCyclic, List.any_eq_true, decide_eq_true_eq]
  constructor
  · rintro ⟨⟨a, b⟩, hab, hba⟩
    have hadj : g.Adj a b := hab
    exact ⟨a, .head' hadj ((mem_reachableFrom hadj.right_mem).mp hba)⟩
  · rintro ⟨a, ha⟩
    obtain ⟨b, hab, hba⟩ := TransGen.head'_iff.mp ha
    exact ⟨(a, b), hab, (mem_reachableFrom hab.right_mem).mpr hba⟩

theorem isCyclic_eq_false : g.isCyclic = false ↔ g.Acyclic := by
  rw [← Bool.not_eq_true, isCyclic_iff, not_not]

end Search

section TopologicalOrder

variable [DecidableEq α]

/-- Every node once, every edge forwards. -/
structure IsTopological (g : DirectedGraph α) (order : List α) : Prop where
  perm : order.Perm g.nodes
  forward : ∀ a b, g.Adj a b → order.idxOf a < order.idxOf b

/-- The contract of a topological sort: on a graph with distinct nodes, what it
returns is a topological order and it returns one when there is no cycle. -/
structure TopologicalSort (α : Type*) [DecidableEq α] where
  sort : DirectedGraph α → Option (List α)
  topological : ∀ g order, g.nodes.Nodup → sort g = some order → g.IsTopological order
  total : ∀ g, g.nodes.Nodup → g.Acyclic → (sort g).isSome = true

theorem IsTopological.mem_iff {order : List α} (h : g.IsTopological order) {a : α} :
    a ∈ order ↔ a ∈ g.nodes := h.perm.mem_iff

theorem IsTopological.lt_of_transGen {order : List α} (h : g.IsTopological order) {a b : α}
    (hab : TransGen g.Adj a b) : order.idxOf a < order.idxOf b := by
  induction hab with
  | single hab => exact h.forward _ _ hab
  | tail _ hbc ih => exact ih.trans (h.forward _ _ hbc)

theorem IsTopological.acyclic {order : List α} (h : g.IsTopological order) : g.Acyclic :=
  fun _ ha => (h.lt_of_transGen ha).false

variable (g)

/-- Source removal: take the first remaining node without remaining predecessor. -/
def peel : ℕ → List α → Option (List α)
  | 0, remaining => if remaining = [] then some [] else none
  | fuel + 1, remaining =>
    match remaining.find? fun a => remaining.all fun b => ¬ g.Adj b a with
    | none => if remaining = [] then some [] else none
    | some a => (peel fuel (remaining.erase a)).map (a :: ·)

variable {g}

theorem peel_perm : ∀ (fuel : ℕ) (remaining order : List α),
    g.peel fuel remaining = some order → order.Perm remaining := by
  intro fuel
  induction fuel with
  | zero =>
    intro remaining order h
    simp only [peel] at h
    split_ifs at h with hnil
    obtain rfl := Option.some.inj h
    rw [hnil]
  | succ fuel ih =>
    intro remaining order h
    simp only [peel] at h
    split at h
    · split_ifs at h with hnil
      obtain rfl := Option.some.inj h
      rw [hnil]
    · rename_i a ha
      obtain ⟨rest, hrest, rfl⟩ := Option.map_eq_some_iff.mp h
      exact ((ih _ _ hrest).cons a).trans (List.perm_cons_erase (List.mem_of_find?_eq_some ha)).symm

theorem peel_forward : ∀ (fuel : ℕ) (remaining order : List α), remaining.Nodup →
    g.peel fuel remaining = some order → ∀ a ∈ remaining, ∀ b ∈ remaining,
      g.Adj a b → order.idxOf a < order.idxOf b := by
  intro fuel
  induction fuel with
  | zero =>
    intro remaining order _ h a ha
    simp only [peel] at h
    split_ifs at h with hnil
    simp [hnil] at ha
  | succ fuel ih =>
    intro remaining order hn h a ha b hb hab
    simp only [peel] at h
    split at h
    · split_ifs at h with hnil
      simp [hnil] at ha
    · rename_i c hc
      obtain ⟨rest, hrest, rfl⟩ := Option.map_eq_some_iff.mp h
      have hsource := List.find?_some hc
      simp only [List.all_eq_true, decide_eq_true_eq] at hsource
      have hbc : b ≠ c := fun hbc => hsource a ha (hbc ▸ hab)
      by_cases hac : a = c
      · simp [hac, List.idxOf_cons_ne _ hbc.symm]
      · have ha' : a ∈ remaining.erase c := (List.mem_erase_of_ne hac).mpr ha
        have hb' : b ∈ remaining.erase c := (List.mem_erase_of_ne hbc).mpr hb
        have hlt := ih _ _ (hn.erase c) hrest a ha' b hb' hab
        rw [List.idxOf_cons_ne _ (Ne.symm hac), List.idxOf_cons_ne _ hbc.symm]
        omega

theorem peel_total (hg : g.Acyclic) : ∀ (fuel : ℕ) (remaining : List α),
    remaining.length ≤ fuel → (g.peel fuel remaining).isSome = true := by
  intro fuel
  induction fuel with
  | zero =>
    intro remaining hlen
    simp [peel, List.length_eq_zero_iff.mp (Nat.le_zero.mp hlen)]
  | succ fuel ih =>
    intro remaining hlen
    simp only [peel]
    split
    · rename_i hnone
      by_cases hne : remaining = []
      · simp [hne]
      · obtain ⟨a, ha, hsource⟩ := hg.exists_source hne
        have := List.find?_eq_none.mp hnone a ha
        simp only [List.all_eq_true, decide_eq_true_eq, not_forall] at this
        obtain ⟨b, hb, hadj⟩ := this
        exact absurd (not_not.mp hadj) (hsource b hb)
    · rename_i a ha
      have hmem := List.mem_of_find?_eq_some ha
      have := ih (remaining.erase a) (by rw [List.length_erase_of_mem hmem]; omega)
      simpa using this

/-- Source removal meets the contract of a topological sort. -/
def sourceRemoval : TopologicalSort α where
  sort g := g.peel g.nodes.length g.nodes
  topological := by
    intro g order hn h
    exact ⟨peel_perm _ _ _ h, fun a b hab =>
      peel_forward _ _ _ hn h a hab.left_mem b hab.right_mem hab⟩
  total := fun g _ hg => peel_total hg _ _ le_rfl

end TopologicalOrder

section Rooted

/-- Edges lead upwards from the root, and every other node has one leading to it. -/
structure IsRooted (g : DirectedGraph α) (root : α) (rank : α → ℕ) : Prop where
  root_mem : root ∈ g.nodes
  root_first : ∀ a, ¬ g.Adj a root
  forward : ∀ a b, g.Adj a b → rank a < rank b
  fed : ∀ b ∈ g.nodes, b ≠ root → ∃ a, g.Adj a b

variable {root : α} {rank : α → ℕ}

theorem IsRooted.rank_lt (h : g.IsRooted root rank) {a b : α} (hab : TransGen g.Adj a b) :
    rank a < rank b := by
  induction hab with
  | single hab => exact h.forward _ _ hab
  | tail _ hbc ih => exact ih.trans (h.forward _ _ hbc)

theorem IsRooted.acyclic (h : g.IsRooted root rank) : g.Acyclic :=
  fun _ ha => (h.rank_lt ha).false

/-- Following predecessors downwards ends at the root. -/
theorem IsRooted.path (h : g.IsRooted root rank) {b : α} (hb : b ∈ g.nodes) : g.Path root b := by
  induction hrank : rank b using Nat.strong_induction_on generalizing b with
  | _ n ih =>
    by_cases hroot : b = root
    · rw [hroot]
    · obtain ⟨a, hab⟩ := h.fed b hb hroot
      have hlt : rank a < n := hrank ▸ h.forward a b hab
      exact (ih (rank a) hlt hab.left_mem rfl).tail hab

theorem IsRooted.isEntry_iff (h : g.IsRooted root rank) {a : α} : g.IsEntry a ↔ a = root := by
  constructor
  · rintro ⟨hmem, hnone⟩
    by_contra hne
    obtain ⟨b, hba⟩ := h.fed a hmem hne
    exact hnone b hba
  · rintro rfl
    exact ⟨h.root_mem, h.root_first⟩

theorem IsRooted.entryNodes [DecidableEq α] (h : g.IsRooted root rank) (hn : g.nodes.Nodup) :
    g.entryNodes = [root] := by
  have hnodup : g.entryNodes.Nodup := hn.filter _
  have hperm : g.entryNodes.Perm [root] := by
    apply (List.perm_ext_iff_of_nodup hnodup (List.nodup_singleton root)).mpr
    intro a
    rw [mem_entryNodes, h.isEntry_iff, List.mem_singleton]
  exact List.perm_singleton.mp hperm

end Rooted

section Waves

variable [DecidableEq α] (g)

/-- Nodes not done yet whose predecessors are all done. -/
def ready (done : List α) : List α :=
  g.nodes.filter fun a => a ∉ done ∧ (g.predecessors a).all (· ∈ done)

/-- Widest wave when every ready node is done at once, wave after wave. -/
def widest : ℕ → List α → ℕ → ℕ
  | 0, _, width => width
  | fuel + 1, done, width =>
    match g.ready done with
    | [] => width
    | wave => widest fuel (done ++ wave) (max width wave.length)

def maxReadyWidth : ℕ := g.widest (g.nodes.length + 1) [] 0

variable {g}

theorem mem_ready {done : List α} {a : α} :
    a ∈ g.ready done ↔ a ∈ g.nodes ∧ a ∉ done ∧ ∀ b, g.Adj b a → b ∈ done := by
  simp [ready]

theorem le_widest (fuel : ℕ) (done : List α) (width : ℕ) : width ≤ g.widest fuel done width := by
  induction fuel generalizing done width with
  | zero => exact le_refl width
  | succ fuel ih =>
    unfold widest
    split
    · exact le_refl width
    · exact (le_max_left _ _).trans (ih _ _)

/-- The first wave of an acyclic graph has a node. -/
theorem Acyclic.maxReadyWidth_pos (h : g.Acyclic) (hne : g.nodes ≠ []) : 0 < g.maxReadyWidth := by
  obtain ⟨source, hsource, hnone⟩ := h.exists_source hne
  have hready : source ∈ g.ready [] :=
    mem_ready.mpr ⟨hsource, List.not_mem_nil, fun b hb => absurd hb (hnone b hb.left_mem)⟩
  unfold maxReadyWidth widest
  split
  · next hnil =>
    rw [hnil] at hready
    cases hready
  · next wave hwave _ =>
    have hlength := List.length_pos_of_mem hready
    exact hlength.trans_le ((le_max_right _ _).trans (le_widest _ _ _))

end Waves

section Domination

variable (g)

/-- Nodes that can be fired from an entry along edges, one satisfied edge being
enough, without ever firing `r`. -/
inductive ReachesAvoiding (r : α) : α → Prop
  | entry {a} : g.IsEntry a → a ≠ r → ReachesAvoiding r a
  | step {a b} : ReachesAvoiding r a → g.Adj a b → b ≠ r → ReachesAvoiding r b

/-- `r` lies strictly before `a` on every edge path from an entry to `a`. -/
def StrictlyDominates (r a : α) : Prop :=
  ¬ g.IsEntry a ∧ ∀ b, g.Adj b a → ¬ g.ReachesAvoiding r b

variable {g}

/-- One node fired by an any-edge scheduler: it is an entry or one of its
predecessors was fired before. -/
def FiredBy (g : DirectedGraph α) (fired : α → Prop) (a : α) : Prop :=
  g.IsEntry a ∨ ∃ b, g.Adj b a ∧ fired b

/-- A set of fired nodes that only grows by the any-edge rule reaches each of its
members while avoiding any node outside of it. -/
theorem ReachesAvoiding.of_firedBy {fired : α → Prop} {a r : α}
    (hfired : ∀ b, fired b → g.ReachesAvoiding r b) (h : FiredBy g fired a) (hr : a ≠ r) :
    g.ReachesAvoiding r a := by
  rcases h with h | ⟨b, hba, hb⟩
  · exact .entry h hr
  · exact .step (hfired b hb) hba hr

theorem ReachesAvoiding.ne {r a : α} (h : g.ReachesAvoiding r a) : a ≠ r := by
  cases h with
  | entry _ hr => exact hr
  | step _ _ hr => exact hr

/-- The only predecessor of a node strictly dominates it. -/
theorem strictlyDominates_of_sole_predecessor [DecidableEq α] {r a : α}
    (h : g.predecessors a = [r]) : g.StrictlyDominates r a := by
  have hadj : ∀ b, g.Adj b a ↔ b = r := fun b => by
    rw [← mem_predecessors, h, List.mem_singleton]
  refine ⟨fun hentry => hentry.2 r ((hadj r).mpr rfl), fun b hb havoid => ?_⟩
  exact havoid.ne ((hadj b).mp hb)

/-- A strict dominator was fired before any node the rule fires. -/
theorem StrictlyDominates.fired {fired : α → Prop} {a r : α} (hd : g.StrictlyDominates r a)
    (hfired : ¬ fired r → ∀ b, fired b → g.ReachesAvoiding r b) (h : FiredBy g fired a) :
    fired r := by
  by_contra hr
  rcases h with h | ⟨b, hba, hb⟩
  · exact hd.1 h
  · exact hd.2 b hba (hfired hr b hb)

end Domination

end DirectedGraph

end FineractReports
