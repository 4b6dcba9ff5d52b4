import FineractReports.Library.KeyedLists
import Mathlib.Data.List.Infix

/-!
# The best element of each key

A ranking of a list holds one element of each key, the first of greatest score, the best
scores first and equal scores in the order in which their keys occur. There is one ranking
of a list, and a ranking is its own ranking.
-/

namespace FineractReports

variable {α κ σ : Type*}

/-- Equal keys keep whatever order the elements had. -/
theorem sortByKey_stable [LinearOrder κ] {key : α → κ} {items : List α} {r : α → α → Prop}
    (h : items.Pairwise r) :
    (sortByKey key items).Pairwise fun a b => key a < key b ∨ key a = key b ∧ r a b := by
  have htotal : Std.Total fun a b => key a ≤ key b := ⟨fun a b => le_total _ _⟩
  have htrans : IsTrans α fun a b => key a ≤ key b := ⟨fun a b c => le_trans⟩
  have hfilter (k : κ) : (items.filter fun a => key a = k) =
      (sortByKey key items).filter fun a => key a = k := by
    have hequal : (items.filter fun a => key a = k).Pairwise fun a b => key a ≤ key b := by
      apply List.pairwise_of_forall_mem_list
      intro a ha b hb
      simp only [List.mem_filter, decide_eq_true_eq] at ha hb
      rw [ha.2, hb.2]
    have hkept := List.sublist_insertionSort hequal List.filter_sublist
    have hsub := hkept.filter fun a => decide (key a = k)
    simp only [List.filter_filter, Bool.and_self] at hsub
    exact hsub.eq_of_length (sortByKey_perm.filter _).symm.length_eq
  rw [List.pairwise_iff_forall_sublist]
  intro a b hsub
  have hle : key a ≤ key b := List.pairwise_iff_forall_sublist.mp sortByKey_pairwise hsub
  rcases hle.lt_or_eq with hlt | heq
  · exact Or.inl hlt
  · refine Or.inr ⟨heq, List.pairwise_iff_forall_sublist.mp h ?_⟩
    have hboth := hsub.filter fun c => decide (key c = key b)
    rw [← hfilter, List.filter_cons_of_pos (by simpa using heq),
      List.filter_cons_of_pos (by simp), List.filter_nil] at hboth
    exact hboth.trans List.filter_sublist

section Best

variable [LinearOrder σ] (key : α → κ) (score : α → σ)

/-- The first element of greatest score among those of its key. -/
def FirstBest (items : List α) (a : α) : Prop :=
  ∃ before after, items = before ++ a :: after ∧
    (∀ b ∈ before, key b = key a → score b < score a) ∧
    ∀ b ∈ after, key b = key a → score b ≤ score a

variable {key score} {items more : List α} {a b : α}

theorem FirstBest.mem (h : FirstBest key score items a) : a ∈ items := by
  obtain ⟨before, after, rfl, -⟩ := h
  exact List.mem_append_right _ List.mem_cons_self

theorem FirstBest.le (h : FirstBest key score items a) (hb : b ∈ items)
    (hkey : key b = key a) : score b ≤ score a := by
  obtain ⟨before, after, rfl, hbefore, hafter⟩ := h
  rcases List.mem_append.mp hb with hb | hb
  · exact (hbefore b hb hkey).le
  · rcases List.mem_cons.mp hb with rfl | hb
    · exact le_rfl
    · exact hafter b hb hkey

/-- The first of two best elements would be beaten by the second and not be beaten by it. -/
theorem FirstBest.unique (ha : FirstBest key score items a) (hb : FirstBest key score items b)
    (hkey : key a = key b) : a = b := by
  obtain ⟨before, after, rfl, hbefore, hafter⟩ := ha
  obtain ⟨before', after', hsplit, hbefore', hafter'⟩ := hb
  rcases List.append_eq_append_iff.mp hsplit with ⟨between, rfl, hrest⟩ | ⟨between, rfl, hrest⟩
  · rcases between with - | ⟨c, between⟩
    · exact (List.cons.inj hrest).1
    · obtain ⟨rfl, rfl⟩ := List.cons.inj hrest
      have hlt : score a < score b :=
        hbefore' a (List.mem_append_right _ List.mem_cons_self) hkey
      have hle : score b ≤ score a :=
        hafter b (List.mem_append_right _ List.mem_cons_self) hkey.symm
      exact absurd hlt hle.not_gt
  · rcases between with - | ⟨c, between⟩
    · exact (List.cons.inj hrest).1.symm
    · obtain ⟨rfl, rfl⟩ := List.cons.inj hrest
      have hlt : score b < score a :=
        hbefore b (List.mem_append_right _ List.mem_cons_self) hkey.symm
      have hle : score a ≤ score b :=
        hafter' a (List.mem_append_right _ List.mem_cons_self) hkey
      exact absurd hlt hle.not_gt

/-- An element that is not better does not displace the best. -/
theorem FirstBest.snoc (h : FirstBest key score items a)
    (hb : key b = key a → score b ≤ score a) : FirstBest key score (items ++ [b]) a := by
  obtain ⟨before, after, rfl, hbefore, hafter⟩ := h
  refine ⟨before, after ++ [b], by simp, hbefore, ?_⟩
  intro c hc hkey
  rcases List.mem_append.mp hc with hc | hc
  · exact hafter c hc hkey
  · obtain rfl := List.mem_singleton.mp hc
    exact hb hkey

/-- An element that is better than all before it is the best. -/
theorem FirstBest.of_greater (h : ∀ c ∈ items, key c = key b → score c < score b) :
    FirstBest key score (items ++ [b]) b :=
  ⟨items, [], rfl, h, fun _ hc => absurd hc List.not_mem_nil⟩

/-- With distinct keys every element is the best of its key. -/
theorem FirstBest.of_nodup (h : (items.map key).Nodup) (ha : a ∈ items) :
    FirstBest key score items a := by
  obtain ⟨before, after, rfl⟩ := List.append_of_mem ha
  rw [List.map_append, List.map_cons, List.nodup_append] at h
  obtain ⟨-, hrest, hapart⟩ := h
  refine ⟨before, after, rfl, fun b hb hkey => ?_, fun b hb hkey => ?_⟩
  · exact absurd hkey (hapart _ (List.mem_map_of_mem hb) _ List.mem_cons_self)
  · exact absurd (hkey ▸ List.mem_map_of_mem hb) (List.nodup_cons.mp hrest).1

variable [DecidableEq κ] (key score) in
/-- Better scores first, equal scores in the order in which the keys occur. -/
def Ranked (items ranked : List α) : Prop :=
  ranked.Pairwise fun a b => score b < score a ∨
    score a = score b ∧ (items.map key).idxOf (key a) < (items.map key).idxOf (key b)

variable [DecidableEq κ] (key score) in
structure IsRanking (items ranked : List α) : Prop where
  once : (ranked.map key).Nodup
  keys : ∀ k, k ∈ ranked.map key ↔ k ∈ items.map key
  best : ∀ a ∈ ranked, FirstBest key score items a
  ranked : Ranked key score items ranked

variable [DecidableEq κ] {ranked others longer : List α}

namespace IsRanking

theorem exists_mem (h : IsRanking key score items ranked) (ha : a ∈ items) :
    ∃ b ∈ ranked, key b = key a := by
  obtain ⟨b, hb, hkey⟩ := List.mem_map.mp ((h.keys (key a)).mpr (List.mem_map_of_mem ha))
  exact ⟨b, hb, hkey⟩

/-- The members are the best elements of the keys. -/
theorem mem_iff (h : IsRanking key score items ranked) :
    a ∈ ranked ↔ FirstBest key score items a := by
  refine ⟨h.best a, fun hbest => ?_⟩
  obtain ⟨b, hb, hkey⟩ := h.exists_mem hbest.mem
  rwa [hbest.unique (h.best b hb) hkey.symm]

theorem unique (h : IsRanking key score items ranked) (h' : IsRanking key score items others) :
    ranked = others := by
  have hperm : ranked.Perm others := by
    apply (List.perm_ext_iff_of_nodup (List.Nodup.of_map key h.once)
      (List.Nodup.of_map key h'.once)).mpr
    intro a
    rw [h.mem_iff, h'.mem_iff]
  apply List.Perm.eq_of_pairwise _ h.ranked h'.ranked hperm
  rintro a b - - (hlt | ⟨heq, hplace⟩) (hlt' | ⟨heq', hplace'⟩)
  · exact absurd hlt hlt'.not_gt
  · exact absurd heq' hlt.ne
  · exact absurd heq hlt'.ne
  · exact absurd hplace hplace'.not_gt

/-- A list with distinct keys in the order of the scores is its own ranking. -/
theorem self (h : IsRanking key score items ranked) : IsRanking key score ranked ranked := by
  refine ⟨h.once, fun _ => Iff.rfl, fun a ha => FirstBest.of_nodup h.once ha, ?_⟩
  rw [Ranked, List.pairwise_iff_getElem]
  intro i j hi hj hij
  have hplace (n : ℕ) (hn : n < ranked.length) :
      (ranked.map key).idxOf (key ranked[n]) = n := by
    have := h.once.idxOf_getElem n (by simpa using hn)
    rwa [List.getElem_map] at this
  have hle : score ranked[j] ≤ score ranked[i] := by
    rcases List.pairwise_iff_getElem.mp h.ranked i j hi hj hij with hlt | ⟨heq, -⟩
    · exact hlt.le
    · exact heq.ge
  rcases hle.lt_or_eq with hlt | heq
  · exact Or.inl hlt
  · rw [hplace i hi, hplace j hj]
    exact Or.inr ⟨heq.symm, hij⟩

/-- More elements remove no key and lower no score. -/
theorem le_of_append (h : IsRanking key score items ranked)
    (hlonger : IsRanking key score (items ++ more) longer) (ha : a ∈ ranked) :
    ∃ b ∈ longer, key b = key a ∧ score a ≤ score b := by
  have hmem : a ∈ items ++ more := List.mem_append_left _ (h.best a ha).mem
  obtain ⟨b, hb, hkey⟩ := hlonger.exists_mem hmem
  exact ⟨b, hb, hkey, (hlonger.best b hb).le hmem hkey.symm⟩

end IsRanking

end Best

end FineractReports
