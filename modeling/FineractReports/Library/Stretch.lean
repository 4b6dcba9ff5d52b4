import FineractReports.Library.Text
import Mathlib.Data.List.DropRight

/-!
# Stretches of a list

A stretch is read from the first element where one may start as far as its elements go on. What
is read is as long as it can be, and no stretch from before it runs into it.
-/

namespace FineractReports.Stretch

section Read

variable {α : Type*} (first member : α → Bool)

/-- The elements from the first one where a stretch may start, as far as they belong to it. -/
def firstStretch (text : List α) : List α :=
  (text.dropWhile fun c => !first c).takeWhile member

/-- The members directly before a stretch are none where one may start, and no member is
directly behind it. -/
structure IsStretch (before stretch after : List α) : Prop where
  starts : ∃ c ∈ stretch.head?, first c = true
  members : ∀ c ∈ stretch, member c = true
  ends : ∀ c ∈ after.head?, member c = false
  apart : ∀ c ∈ before.rtakeWhile member, first c = false

variable {first member} {text before : List α}

theorem firstStretch_split : text = text.takeWhile (fun c => !first c) ++
    firstStretch first member text ++ (text.dropWhile fun c => !first c).dropWhile member := by
  rw [firstStretch, List.append_assoc, List.takeWhile_append_dropWhile,
    List.takeWhile_append_dropWhile]

theorem mem_rtakeWhile_append {front back : List α} {c : α}
    (h : c ∈ (front ++ back).rtakeWhile member) :
    c ∈ back ∨ c ∈ front.rtakeWhile member := by
  induction back using List.reverseRecOn generalizing c with
  | nil =>
    rw [List.append_nil] at h
    exact .inr h
  | append_singleton back last ih =>
    rw [← List.append_assoc] at h
    by_cases hlast : member last = true
    · rw [List.rtakeWhile_concat_pos _ _ _ hlast, List.mem_append, List.mem_singleton] at h
      rcases h with h | rfl
      · exact (ih h).imp_left fun hmem => List.mem_append_left _ hmem
      · exact .inl (List.mem_append_right _ (List.mem_singleton_self _))
    · rw [List.rtakeWhile_concat_neg _ _ _ hlast] at h
      exact absurd h List.not_mem_nil

/-- What is read behind an element that is no member is a stretch. -/
theorem isStretch_firstStretch (hfirst : ∀ c, first c = true → member c = true)
    (hbefore : ∀ c ∈ before.getLast?, member c = false)
    (hne : firstStretch first member text ≠ []) :
    IsStretch first member (before ++ text.takeWhile fun c => !first c)
      (firstStretch first member text)
      ((text.dropWhile fun c => !first c).dropWhile member) where
  starts := by
    unfold firstStretch at hne ⊢
    cases hdrop : text.dropWhile fun c => !first c with
    | nil => rw [hdrop] at hne; exact absurd rfl hne
    | cons c rest =>
      have hhead := List.head?_dropWhile_not (fun c => !first c) text
      rw [hdrop, List.head?_cons] at hhead
      have hc : first c = true := by simpa using hhead
      exact ⟨c, by rw [List.takeWhile_cons_of_pos (hfirst c hc), List.head?_cons]; rfl, hc⟩
  members c hc := List.mem_takeWhile_imp hc
  ends c hc := by
    have hhead := List.head?_dropWhile_not member (text.dropWhile fun c => !first c)
    rw [Option.mem_def.mp hc] at hhead
    exact hhead
  apart c hc := by
    rcases mem_rtakeWhile_append hc with hskip | hfront
    · simpa using List.mem_takeWhile_imp hskip
    · have hnil : before.rtakeWhile member = [] := by
        rw [List.rtakeWhile_eq_nil_iff]
        intro hne hlast
        rw [hbefore _ (List.getLast?_eq_some_getLast hne)] at hlast
        exact Bool.false_ne_true hlast
      rw [hnil] at hfront
      exact absurd hfront List.not_mem_nil

end Read

/-- The first occurrence of a pattern is behind some front of the text. -/
theorem afterFirst_split {pattern : List Char} : ∀ {text rest : List Char},
    Text.afterFirst pattern text = some rest → ∃ front, text = front ++ pattern ++ rest := by
  intro text
  induction text with
  | nil =>
    intro rest h
    rw [Text.afterFirst] at h
    split_ifs at h with hpattern
    exact ⟨[], by rw [hpattern, ← Option.some.inj h]; rfl⟩
  | cons c text ih =>
    intro rest h
    rw [Text.afterFirst] at h
    split_ifs at h with hprefix
    · obtain ⟨behind, hbehind⟩ := List.isPrefixOf_iff_prefix.mp hprefix
      refine ⟨[], ?_⟩
      rw [← Option.some.inj h, ← hbehind, List.drop_left, List.nil_append]
    · obtain ⟨front, hfront⟩ := ih h
      exact ⟨c :: front, by rw [hfront]; rfl⟩

end FineractReports.Stretch
