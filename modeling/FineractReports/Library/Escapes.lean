import FineractReports.Library.Text
import Mathlib.Data.List.Basic

/-!
# Delimiters behind escapes

A scan counts the delimiters of a text that no escape sign makes plain; an escape sign
that is escaped itself makes nothing plain. Putting an escape sign before each delimiter
hides exactly those that are not escaped already.
-/

namespace FineractReports.Escapes

section Scan

variable {α : Type*} [DecidableEq α] (esc bar : α)

/-- The delimiters that count; `true` when the sign before the text is an escape sign that
is not escaped. -/
def bars : Bool → List α → ℕ
  | _, [] => 0
  | true, _ :: rest => bars false rest
  | false, a :: rest => bars (a = esc) rest + if a = bar then 1 else 0

/-- Whether the text leaves an escape sign open. -/
def pending : Bool → List α → Bool
  | escaped, [] => escaped
  | true, _ :: rest => pending false rest
  | false, a :: rest => pending (a = esc) rest

/-- The delimiters that do not count: each stands behind an open escape sign. -/
def plainBars : Bool → List α → ℕ
  | _, [] => 0
  | true, a :: rest => plainBars false rest + if a = bar then 1 else 0
  | false, a :: rest => plainBars (a = esc) rest

variable {esc bar} {escaped : Bool} {text more : List α}

theorem bars_append :
    bars esc bar escaped (text ++ more) =
      bars esc bar escaped text + bars esc bar (pending esc escaped text) more := by
  induction text generalizing escaped with
  | nil => simp [bars, pending]
  | cons a rest ih =>
    cases escaped with
    | true =>
      simp only [List.cons_append, bars, pending]
      exact ih
    | false =>
      simp only [List.cons_append, bars, pending, ih]
      omega

theorem pending_append :
    pending esc escaped (text ++ more) = pending esc (pending esc escaped text) more := by
  induction text generalizing escaped with
  | nil => cases escaped <;> rfl
  | cons a rest ih =>
    cases escaped with
    | true => exact ih
    | false => exact ih

theorem plainBars_append :
    plainBars esc bar escaped (text ++ more) =
      plainBars esc bar escaped text + plainBars esc bar (pending esc escaped text) more := by
  induction text generalizing escaped with
  | nil => simp [plainBars, pending]
  | cons a rest ih =>
    cases escaped with
    | true =>
      simp only [List.cons_append, plainBars, pending, ih]
      omega
    | false =>
      simp only [List.cons_append, plainBars, pending]
      exact ih

theorem plainBars_of_notMem (h : bar ∉ text) : plainBars esc bar escaped text = 0 := by
  induction text generalizing escaped with
  | nil => cases escaped <;> rfl
  | cons a rest ih =>
    rw [List.mem_cons, not_or] at h
    cases escaped with
    | true => rw [plainBars, ih h.2, if_neg (Ne.symm h.1)]
    | false => exact ih h.2

/-- A text without escape signs leaves none open. -/
theorem pending_of_notMem (h : esc ∉ text) (hne : text ≠ []) :
    pending esc escaped text = false := by
  induction text generalizing escaped with
  | nil => exact absurd rfl hne
  | cons a rest ih =>
    rw [List.mem_cons, not_or] at h
    have hsign : decide (a = esc) = false := by simpa using Ne.symm h.1
    have hhead : pending esc escaped (a :: rest) = pending esc false rest := by
      cases escaped with
      | true => rfl
      | false => rw [pending, hsign]
    rw [hhead]
    cases rest with
    | nil => rfl
    | cons b rest => exact ih h.2 (List.cons_ne_nil _ _)

end Scan

section Cells

variable {α : Type*} [DecidableEq α] (esc bar : α)

/-- The cells between delimiters. -/
def tableLine (cells : List (List α)) : List α :=
  bar :: cells.flatMap fun cell => cell ++ [bar]

/-- As many delimiters inside the cells as cells that escape the delimiter behind them. -/
def BarsBalanced (cells : List (List α)) : Prop :=
  (cells.map (bars esc bar false)).sum = cells.countP (pending esc false)

variable {esc bar} {cells : List (List α)}

theorem bars_cells (hne : bar ≠ esc) :
    bars esc bar false (cells.flatMap fun cell => cell ++ [bar]) +
        cells.countP (pending esc false) =
      cells.length + (cells.map (bars esc bar false)).sum ∧
    pending esc false (cells.flatMap fun cell => cell ++ [bar]) = false := by
  induction cells with
  | nil => exact ⟨rfl, rfl⟩
  | cons cell rest ih =>
    obtain ⟨hcount, hclosed⟩ := ih
    have hbar : decide (bar = esc) = false := by simpa using hne
    have hafter : pending esc false (cell ++ [bar]) = false := by
      rw [pending_append]
      cases pending esc false cell with
      | true => rfl
      | false => exact hbar
    have hcell : bars esc bar false (cell ++ [bar]) + (if pending esc false cell then 1 else 0) =
        bars esc bar false cell + 1 := by
      rw [bars_append]
      cases pending esc false cell with
      | true => simp [bars]
      | false => simp [bars]
    rw [List.flatMap_cons, @bars_append _ _ esc bar false (cell ++ [bar]),
      @pending_append _ _ esc false (cell ++ [bar]), hafter, List.map_cons, List.sum_cons,
      List.countP_cons, List.length_cons]
    refine ⟨?_, hclosed⟩
    omega

/-- A line has a delimiter more than cells exactly when the cells are balanced. -/
theorem bars_tableLine_iff (hne : bar ≠ esc) :
    bars esc bar false (tableLine bar cells) = cells.length + 1 ↔ BarsBalanced esc bar cells := by
  have hbar : decide (bar = esc) = false := by simpa using hne
  have hcount := (@bars_cells _ _ _ _ cells hne).1
  rw [tableLine, bars, hbar, if_pos rfl, BarsBalanced]
  omega

end Cells

section Escaping

variable {α : Type*} [DecidableEq α] (esc bar : α)

/-- Every delimiter behind an escape sign of its own. -/
def escapeBars (text : List α) : List α :=
  text.flatMap fun a => if a = bar then [esc, bar] else [a]

variable {esc bar} {escaped : Bool} {text : List α}

theorem escapeBars_bar :
    escapeBars esc bar (bar :: text) = esc :: bar :: escapeBars esc bar text := by
  rw [escapeBars, List.flatMap_cons, ← escapeBars, if_pos rfl, List.cons_append,
    List.singleton_append]

theorem escapeBars_of_ne {a : α} (ha : a ≠ bar) :
    escapeBars esc bar (a :: text) = a :: escapeBars esc bar text := by
  rw [escapeBars, List.flatMap_cons, ← escapeBars, if_neg ha, List.singleton_append]

/-- Escaping hides the delimiters that count, and bares those that did not. -/
theorem bars_escapeBars (hne : bar ≠ esc) :
    bars esc bar escaped (escapeBars esc bar text) = plainBars esc bar escaped text := by
  have hbar : decide (bar = esc) = false := by simpa using hne
  induction text generalizing escaped with
  | nil => cases escaped <;> rfl
  | cons a rest ih =>
    by_cases ha : a = bar
    · subst ha
      rw [escapeBars_bar]
      cases escaped with
      | true => simp [bars, plainBars, hbar, ih]
      | false => simp [bars, plainBars, hbar, ih, hne.symm]
    · rw [escapeBars_of_ne ha]
      cases escaped with
      | true => simp [bars, plainBars, ih, ha]
      | false => simp [bars, plainBars, ih, ha]

theorem pending_escapeBars (hne : bar ≠ esc) :
    pending esc escaped (escapeBars esc bar text) = pending esc escaped text := by
  have hbar : decide (bar = esc) = false := by simpa using hne
  induction text generalizing escaped with
  | nil => cases escaped <;> rfl
  | cons a rest ih =>
    by_cases ha : a = bar
    · subst ha
      rw [escapeBars_bar]
      cases escaped with
      | true => simp [pending, hbar, ih]
      | false => simp [pending, hbar, ih]
    · rw [escapeBars_of_ne ha]
      cases escaped with
      | true => simp [pending, ih]
      | false => simp [pending, ih]

section Replacing

/-- What a replacement leaves stood in the text and is not the sign, or is new. -/
theorem mem_replace {a sign : α} {signs : List α}
    (h : a ∈ text.flatMap fun b => if b = sign then signs else [b]) :
    a ∈ signs ∨ a ∈ text ∧ a ≠ sign := by
  obtain ⟨b, hb, hin⟩ := List.mem_flatMap.mp h
  split_ifs at hin with hsign
  · exact Or.inl hin
  · obtain rfl := List.mem_singleton.mp hin
    exact Or.inr ⟨hb, hsign⟩

variable {sign : α} {signs : List α} (hbar : sign ≠ bar ∧ bar ∉ signs)
  (hesc : sign ≠ esc ∧ esc ∉ signs) (hne : signs ≠ [])

include hesc hne

theorem pending_replace :
    pending esc escaped (text.flatMap fun a => if a = sign then signs else [a]) =
      pending esc escaped text := by
  induction text generalizing escaped with
  | nil => cases escaped <;> rfl
  | cons a rest ih =>
    have hcons : a :: rest = [a] ++ rest := rfl
    rw [List.flatMap_cons, pending_append, ih, hcons, pending_append]
    split_ifs with ha
    · subst ha
      rw [pending_of_notMem hesc.2 hne,
        pending_of_notMem (by simpa using hesc.1.symm) (List.cons_ne_nil _ _)]
    · rfl

include hbar

/-- Ordinary signs in the place of an ordinary sign change nothing the scan sees. -/
theorem plainBars_replace :
    plainBars esc bar escaped (text.flatMap fun a => if a = sign then signs else [a]) =
      plainBars esc bar escaped text := by
  induction text generalizing escaped with
  | nil => cases escaped <;> rfl
  | cons a rest ih =>
    have hcons : a :: rest = [a] ++ rest := rfl
    rw [List.flatMap_cons, plainBars_append, ih, hcons, plainBars_append]
    split_ifs with ha
    · subst ha
      rw [pending_of_notMem hesc.2 hne, plainBars_of_notMem hbar.2,
        pending_of_notMem (by simpa using hesc.1.symm) (List.cons_ne_nil _ _),
        @plainBars_of_notMem _ _ esc bar escaped [a] (by simpa using hbar.1.symm)]
    · rfl

end Replacing

end Escaping

section Lines

variable {α : Type*} [DecidableEq α] {stop : α} {line : List α} {lines others : List (List α)}

/-- A line ends at the first stop sign behind it. -/
theorem takeWhile_line (h : stop ∉ line) :
    (line ++ lines.flatMap fun line => stop :: line).takeWhile (· ≠ stop) = line := by
  have hline : ∀ a ∈ line, decide (a ≠ stop) = true := by
    intro a ha
    exact decide_eq_true fun heq => h (heq ▸ ha)
  rw [List.takeWhile_append_of_pos hline]
  cases lines with
  | nil => simp
  | cons next rest => simp

/-- Lines behind a stop sign each are told apart when they do not hold the sign. -/
theorem flatMap_stop_injective (hlines : ∀ line ∈ lines, stop ∉ line)
    (hothers : ∀ line ∈ others, stop ∉ line)
    (h : (lines.flatMap fun line => stop :: line) = others.flatMap fun line => stop :: line) :
    lines = others := by
  induction lines generalizing others with
  | nil =>
    cases others with
    | nil => rfl
    | cons other rest => simp at h
  | cons line rest ih =>
    cases others with
    | nil => simp at h
    | cons other rest' =>
      rw [List.flatMap_cons, List.flatMap_cons, List.cons_append, List.cons_append,
        List.cons.injEq] at h
      obtain ⟨-, htail⟩ := h
      obtain ⟨hline, hrest⟩ := List.forall_mem_cons.mp hlines
      obtain ⟨hother, hrest'⟩ := List.forall_mem_cons.mp hothers
      have hsame : line = other := by
        rw [← takeWhile_line hline, htail, takeWhile_line hother]
      subst hsame
      rw [ih hrest hrest' (List.append_cancel_left htail)]

theorem count_flatMap_stop : (lines.flatMap fun line => stop :: line).count stop =
    lines.length + (lines.map (List.count stop)).sum := by
  induction lines with
  | nil => rfl
  | cons line rest ih =>
    rw [List.flatMap_cons, List.cons_append, List.count_cons_self, List.count_append, ih,
      List.length_cons, List.map_cons, List.sum_cons]
    omega

/-- As many lines as lines without the sign are those lines. -/
theorem eq_of_flatMap_stop (hothers : ∀ line ∈ others, stop ∉ line)
    (hlength : lines.length = others.length)
    (h : (lines.flatMap fun line => stop :: line) = others.flatMap fun line => stop :: line) :
    lines = others := by
  have hzero : (others.map (List.count stop)).sum = 0 := by
    apply List.sum_eq_zero
    intro n hn
    obtain ⟨line, hline, rfl⟩ := List.mem_map.mp hn
    exact List.count_eq_zero.mpr (hothers line hline)
  have hcount := congrArg (List.count stop) h
  rw [count_flatMap_stop, count_flatMap_stop, hlength, hzero] at hcount
  refine flatMap_stop_injective (fun line hline => ?_) hothers h
  apply List.count_eq_zero.mp
  have hle : line.count stop ≤ (lines.map (List.count stop)).sum :=
    List.single_le_sum (fun _ _ => Nat.zero_le _) _ (List.mem_map_of_mem hline)
  omega

end Lines

end FineractReports.Escapes
