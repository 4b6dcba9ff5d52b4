import FineractReports.Library.Assoc
import FineractReports.Library.BestByKey
import FineractReports.Retrieval.Sufficiency

/-!
# Merging evidence

The searches of a turn return overlapping evidence. The merge keeps one item of each
capability and ranks them; the scores are any total order.
-/

namespace FineractReports.Retrieval

structure ScoredEvidence (Score : Type*) extends Evidence where
  score : Score
  sourceType : String
  conflicting : Bool

section Merge

variable {Score : Type*} [LinearOrder Score]

/-- The ids in the order in which they were first seen, and the best item of each. -/
abbrev BestSeen (Score : Type*) := List String × List (String × ScoredEvidence Score)

def seeItem (seen : BestSeen Score) (item : ScoredEvidence Score) : BestSeen Score :=
  match Assoc.get? seen.2 item.capabilityId with
  | none => (seen.1 ++ [item.capabilityId], Assoc.insert seen.2 item.capabilityId item)
  | some old =>
    if old.score < item.score then (seen.1, Assoc.insert seen.2 item.capabilityId item) else seen

/-- Each item is removed from the map as it is taken. -/
def takeInOrder : List String → List (String × ScoredEvidence Score) →
    List (ScoredEvidence Score)
  | [], _ => []
  | id :: order, best =>
    match Assoc.get? best id with
    | some item => item :: takeInOrder order (Assoc.erase best id)
    | none => takeInOrder order best

def merge (items : List (ScoredEvidence Score)) : List (ScoredEvidence Score) :=
  let seen := items.foldl seeItem ([], [])
  sortByKey (fun item => OrderDual.toDual item.score) (takeInOrder seen.1 seen.2)

/-- What the order and the map hold after a list of items. -/
structure Gathered (items : List (ScoredEvidence Score)) (seen : BestSeen Score) : Prop where
  keys : ∀ id, id ∈ seen.1 ↔ id ∈ items.map (·.capabilityId)
  order : seen.1.Pairwise fun id other =>
    (items.map (·.capabilityId)).idxOf id < (items.map (·.capabilityId)).idxOf other
  held : ∀ id ∈ seen.1, ∃ item, Assoc.get? seen.2 id = some item
  only : ∀ id, ∀ item, Assoc.get? seen.2 id = some item →
    item.capabilityId = id ∧ FirstBest (·.capabilityId) (·.score) items item

variable {items more : List (ScoredEvidence Score)} {item : ScoredEvidence Score}
  {seen : BestSeen Score}

/-- The places of the ids seen so far do not move. -/
theorem Gathered.order_snoc (h : Gathered items seen) :
    seen.1.Pairwise fun id other =>
      ((items ++ [item]).map (·.capabilityId)).idxOf id <
        ((items ++ [item]).map (·.capabilityId)).idxOf other := by
  apply h.order.imp_of_mem
  intro id other hid hother hlt
  rw [List.map_append, List.idxOf_append_of_mem ((h.keys id).mp hid),
    List.idxOf_append_of_mem ((h.keys other).mp hother)]
  exact hlt

theorem Gathered.get?_eq_none_iff (h : Gathered items seen) {id : String} :
    Assoc.get? seen.2 id = none ↔ id ∉ items.map (·.capabilityId) := by
  rw [← h.keys]
  constructor
  · intro hnone hmem
    obtain ⟨held, hheld⟩ := h.held id hmem
    simp [hnone] at hheld
  · intro hnot
    rw [Option.eq_none_iff_forall_ne_some]
    intro held hheld
    obtain ⟨rfl, hbest⟩ := h.only id held hheld
    exact hnot ((h.keys _).mpr (List.mem_map_of_mem hbest.mem))

theorem Gathered.keys_snoc (h : Gathered items seen) {old : ScoredEvidence Score}
    (hold : Assoc.get? seen.2 item.capabilityId = some old) (id : String) :
    id ∈ seen.1 ↔ id ∈ (items ++ [item]).map (·.capabilityId) := by
  obtain ⟨hsame, hbest⟩ := h.only _ old hold
  have hmem : item.capabilityId ∈ items.map (·.capabilityId) :=
    hsame ▸ List.mem_map_of_mem hbest.mem
  rw [h.keys, List.map_append, List.mem_append, List.map_singleton, List.mem_singleton]
  exact ⟨Or.inl, fun hid => hid.elim (fun hid => hid) fun hid => hid ▸ hmem⟩

/-- An item of a new id is the best of it, and its id comes last. -/
theorem Gathered.see_new (h : Gathered items seen)
    (hnew : Assoc.get? seen.2 item.capabilityId = none) :
    Gathered (items ++ [item])
      (seen.1 ++ [item.capabilityId], Assoc.insert seen.2 item.capabilityId item) := by
  have hfresh := h.get?_eq_none_iff.mp hnew
  refine ⟨fun id => ?_, ?_, ?_, ?_⟩
  · simp only [List.map_append, List.mem_append, List.map_cons, List.map_nil, h.keys]
  · rw [List.pairwise_append]
    refine ⟨h.order_snoc, List.pairwise_singleton _ _, ?_⟩
    intro id hid other hother
    obtain rfl := List.mem_singleton.mp hother
    have hmem := (h.keys id).mp hid
    rw [List.map_append, List.idxOf_append_of_mem hmem, List.idxOf_append_of_notMem hfresh]
    exact (List.idxOf_lt_length_of_mem hmem).trans_le (Nat.le_add_right _ _)
  · intro id hid
    rw [Assoc.get?_insert]
    split_ifs with heq
    · exact ⟨item, rfl⟩
    · rcases List.mem_append.mp hid with hid | hid
      · exact h.held id hid
      · exact absurd (List.mem_singleton.mp hid).symm heq
  · intro id held hheld
    rw [Assoc.get?_insert] at hheld
    split_ifs at hheld with heq
    · obtain rfl := Option.some.inj hheld
      refine ⟨heq, FirstBest.of_greater fun other hother hkey => ?_⟩
      exact absurd (List.mem_map.mpr ⟨other, hother, hkey⟩) hfresh
    · obtain ⟨hid, hbest⟩ := h.only id held hheld
      refine ⟨hid, hbest.snoc fun hkey => ?_⟩
      exact absurd (hkey.trans hid) heq

/-- A better item takes the place of the one that is held. -/
theorem Gathered.see_better (h : Gathered items seen) {old : ScoredEvidence Score}
    (hold : Assoc.get? seen.2 item.capabilityId = some old) (hlt : old.score < item.score) :
    Gathered (items ++ [item]) (seen.1, Assoc.insert seen.2 item.capabilityId item) := by
  obtain ⟨hsame, hbest⟩ := h.only _ old hold
  refine ⟨h.keys_snoc hold, h.order_snoc, ?_, ?_⟩
  · intro id hid
    rw [Assoc.get?_insert]
    split_ifs
    · exact ⟨item, rfl⟩
    · exact h.held id hid
  · intro id held hheld
    rw [Assoc.get?_insert] at hheld
    split_ifs at hheld with heq
    · obtain rfl := Option.some.inj hheld
      refine ⟨heq, FirstBest.of_greater fun other hother hkey => ?_⟩
      exact (hbest.le hother (hkey.trans hsame.symm)).trans_lt hlt
    · obtain ⟨hid, hkept⟩ := h.only id held hheld
      refine ⟨hid, hkept.snoc fun hkey => ?_⟩
      exact absurd (hkey.trans hid) heq

/-- An item that is not better changes nothing. -/
theorem Gathered.see_worse (h : Gathered items seen) {old : ScoredEvidence Score}
    (hold : Assoc.get? seen.2 item.capabilityId = some old) (hle : item.score ≤ old.score) :
    Gathered (items ++ [item]) seen := by
  refine ⟨h.keys_snoc hold, h.order_snoc, h.held, fun id held hheld => ?_⟩
  obtain ⟨hid, hkept⟩ := h.only id held hheld
  refine ⟨hid, hkept.snoc fun hkey => ?_⟩
  rw [hkey, hid, hheld] at hold
  obtain rfl := Option.some.inj hold
  exact hle

theorem Gathered.seeItem (h : Gathered items seen) (item : ScoredEvidence Score) :
    Gathered (items ++ [item]) (Retrieval.seeItem seen item) := by
  unfold Retrieval.seeItem
  cases hget : Assoc.get? seen.2 item.capabilityId with
  | none => exact h.see_new hget
  | some old =>
    by_cases hlt : old.score < item.score
    · simpa only [if_pos hlt] using h.see_better hget hlt
    · simpa only [if_neg hlt] using h.see_worse hget (not_lt.mp hlt)

theorem gathered_foldl (items : List (ScoredEvidence Score)) :
    Gathered items (items.foldl seeItem ([], [])) := by
  induction items using List.reverseRecOn with
  | nil =>
    refine ⟨fun id => Iff.rfl, List.Pairwise.nil, fun id hid => absurd hid List.not_mem_nil, ?_⟩
    intro id item hitem
    cases hitem
  | append_singleton items item ih =>
    rw [List.foldl_append, List.foldl_cons, List.foldl_nil]
    exact ih.seeItem item

theorem Gathered.nodup (h : Gathered items seen) : seen.1.Nodup := by
  apply h.order.imp
  rintro id other hlt rfl
  exact absurd hlt (lt_irrefl _)

omit [LinearOrder Score] in
/-- Removing what was taken does not hide what is still to come. -/
theorem takeInOrder_eq {order : List String} {best : List (String × ScoredEvidence Score)}
    (h : order.Nodup) : takeInOrder order best = order.filterMap (Assoc.get? best) := by
  induction order generalizing best with
  | nil => rfl
  | cons id order ih =>
    rw [List.nodup_cons] at h
    have hrest : order.filterMap (Assoc.get? (Assoc.erase best id)) =
        order.filterMap (Assoc.get? best) := by
      apply List.filterMap_congr
      intro other hother
      have hne : id ≠ other := fun heq => h.1 (heq ▸ hother)
      rw [Assoc.get?_erase, if_neg hne]
    rw [takeInOrder]
    cases hget : Assoc.get? best id with
    | none =>
      rw [List.filterMap_cons_none hget]
      exact ih h.2
    | some item =>
      rw [List.filterMap_cons_some hget, ← hrest]
      exact congrArg _ (ih h.2)

/-- The items that are taken have the ids of the order. -/
theorem Gathered.map_takeInOrder (h : Gathered items seen) :
    (takeInOrder seen.1 seen.2).map (·.capabilityId) = seen.1 := by
  rw [takeInOrder_eq h.nodup, List.map_filterMap]
  apply (List.filterMap_congr fun id hid => ?_).trans List.filterMap_some
  obtain ⟨item, hitem⟩ := h.held id hid
  rw [hitem, Option.map_some, (h.only id item hitem).1]

theorem Gathered.best_of_taken (h : Gathered items seen)
    (hitem : item ∈ takeInOrder seen.1 seen.2) :
    FirstBest (·.capabilityId) (·.score) items item := by
  rw [takeInOrder_eq h.nodup, List.mem_filterMap] at hitem
  obtain ⟨id, -, hget⟩ := hitem
  exact (h.only id item hget).2

theorem merge_isRanking (items : List (ScoredEvidence Score)) :
    IsRanking (·.capabilityId) (·.score) items (merge items) := by
  have h := gathered_foldl items
  have hids := h.map_takeInOrder
  have hperm : (merge items).Perm (takeInOrder _ _) := sortByKey_perm
  refine ⟨?_, fun id => ?_, fun item hitem => h.best_of_taken (hperm.subset hitem), ?_⟩
  · rw [(hperm.map _).nodup_iff, hids]
    exact h.nodup
  · rw [(hperm.map _).mem_iff, hids, h.keys]
  · have hplaces := h.order
    rw [← hids, List.pairwise_map] at hplaces
    apply (sortByKey_stable hplaces).imp
    rintro a b (hlt | ⟨heq, hplace⟩)
    · exact Or.inl hlt
    · exact Or.inr ⟨heq, hplace⟩

theorem merge_keeps_best (items : List (ScoredEvidence Score)) :
    IsRanking (·.capabilityId) (·.score) items (merge items) ∧ merge (merge items) = merge items ∧
      ∀ more, ∀ item ∈ merge items, ∃ later ∈ merge (items ++ more),
        later.capabilityId = item.capabilityId ∧ item.score ≤ later.score := by
  refine ⟨merge_isRanking items, ?_, fun more item hitem => ?_⟩
  · exact (merge_isRanking (merge items)).unique (merge_isRanking items).self
  · exact (merge_isRanking items).le_of_append (merge_isRanking (items ++ more)) hitem

end Merge

end FineractReports.Retrieval
