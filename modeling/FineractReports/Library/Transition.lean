import Mathlib.Logic.Relation

/-!
# Executable transition systems

A machine is a set of initial states and a partial step function. Runs are
lists of actions, so a concrete run can be evaluated; reachable states and the
invariant rules speak about all of them. A run may also be restricted to steps
that meet a condition on the state before the step and the action taken.
-/

namespace FineractReports

/-- Initial states and the partial effect of each action. -/
structure Machine (σ : Type*) (α : Type*) where
  init : σ → Prop
  step : σ → α → Option σ

namespace Machine

variable {σ α : Type*} (m : Machine σ α)

/-- States reached by steps that all meet `cond` before they are taken. -/
inductive ReachableVia (cond : σ → α → Prop) : σ → Prop
  | init {s} : m.init s → ReachableVia cond s
  | step {s a s'} : ReachableVia cond s → cond s a → m.step s a = some s' →
      ReachableVia cond s'

/-- States reached by any steps. -/
abbrev Reachable : σ → Prop := m.ReachableVia fun _ _ => True

/-- The state after a list of actions, when every one of them is enabled. -/
def run (s : σ) : List α → Option σ
  | [] => some s
  | a :: as => (m.step s a).bind fun s' => run s' as

@[simp] theorem run_nil (s : σ) : m.run s [] = some s := rfl

theorem run_cons (s : σ) (a : α) (as : List α) :
    m.run s (a :: as) = (m.step s a).bind fun s' => m.run s' as := rfl

/-- The state after a list of actions that are all enabled and all meet `cond`. -/
def runVia (cond : σ → α → Prop) [∀ s a, Decidable (cond s a)] (s : σ) : List α → Option σ
  | [] => some s
  | a :: as => if cond s a then (m.step s a).bind fun s' => runVia cond s' as else none

/-- Every step taken along a list of actions meets `P` before it is taken. -/
def Along (P : σ → α → Prop) (s : σ) : List α → Prop
  | [] => True
  | a :: as => ∀ s', m.step s a = some s' → P s a ∧ Along P s' as

variable {m} {cond : σ → α → Prop}

theorem along_congr {P Q : σ → α → Prop}
    (h : ∀ s a s', m.step s a = some s' → (P s a ↔ Q s a)) (s : σ) (as : List α) :
    m.Along P s as ↔ m.Along Q s as := by
  induction as generalizing s with
  | nil => exact Iff.rfl
  | cons a as ih =>
    simp only [Along]
    exact forall₂_congr fun s' hs => and_congr (h s a s' hs) (ih s')

theorem ReachableVia.mono {cond' : σ → α → Prop} {s : σ}
    (hcond : ∀ s a, cond s a → cond' s a) (h : m.ReachableVia cond s) :
    m.ReachableVia cond' s := by
  induction h with
  | init h => exact .init h
  | step _ hc hs ih => exact .step ih (hcond _ _ hc) hs

theorem ReachableVia.reachable {s : σ} (h : m.ReachableVia cond s) : m.Reachable s :=
  h.mono fun _ _ _ => trivial

theorem ReachableVia.runVia [∀ s a, Decidable (cond s a)] {s s' : σ} {as : List α}
    (h : m.ReachableVia cond s) (hr : m.runVia cond s as = some s') : m.ReachableVia cond s' := by
  induction as generalizing s with
  | nil =>
    obtain rfl : s = s' := by simpa [Machine.runVia] using hr
    exact h
  | cons a as ih =>
    rw [Machine.runVia] at hr
    split at hr
    · rename_i hc
      obtain ⟨t, ht, hr⟩ := Option.bind_eq_some_iff.mp hr
      exact ih (h.step hc ht) hr
    · cases hr

/-- A test passed after a run whose actions meet `cond`. -/
theorem ReachableVia.exists_of_runVia [∀ s a, Decidable (cond s a)] {s : σ} {as : List α}
    {test : σ → Bool} (h : m.ReachableVia cond s) (hr : (m.runVia cond s as).any test = true) :
    ∃ s', m.ReachableVia cond s' ∧ test s' = true := by
  obtain ⟨s', hrun, htest⟩ := (Option.any_eq_true _ _).mp hr
  exact ⟨s', h.runVia hrun, htest⟩

/-- What every step keeps is kept by every run. -/
theorem run_keeps {P : σ → Prop} (hstep : ∀ s a s', P s → m.step s a = some s' → P s')
    {s s' : σ} {as : List α} (h : P s) (hr : m.run s as = some s') : P s' := by
  induction as generalizing s with
  | nil =>
    obtain rfl : s = s' := by simpa using hr
    exact h
  | cons a as ih =>
    rw [run_cons] at hr
    obtain ⟨t, ht, hr⟩ := Option.bind_eq_some_iff.mp hr
    exact ih (hstep s a t h ht) hr

/-- Running enabled actions from a reachable state stays in the reachable states. -/
theorem Reachable.run {s s' : σ} {as : List α} (h : m.Reachable s)
    (hr : m.run s as = some s') : m.Reachable s' :=
  run_keeps (fun _ _ _ hreach hstep => hreach.step trivial hstep) h hr

/-- A test passed after a run of enabled actions is passed in some reachable state. -/
theorem Reachable.exists_of_run {s : σ} {as : List α} {test : σ → Bool} (h : m.Reachable s)
    (hr : (m.run s as).any test = true) : ∃ s', m.Reachable s' ∧ test s' = true := by
  obtain ⟨s', hrun, htest⟩ := (Option.any_eq_true _ _).mp hr
  exact ⟨s', h.run hrun, htest⟩

/-- What holds initially and is kept by every step that meets `cond` holds along
every such run. -/
theorem ReachableVia.invariant {P : σ → Prop} (hinit : ∀ s, m.init s → P s)
    (hstep : ∀ s a s', P s → cond s a → m.step s a = some s' → P s')
    {s : σ} (h : m.ReachableVia cond s) : P s := by
  induction h with
  | init h => exact hinit _ h
  | step _ hc hs ih => exact hstep _ _ _ ih hc hs

/-- Where a step that misses `cond` spoils the state for good, a run has kept the good states
exactly when all its steps met `cond`. -/
theorem run_kept_or_spoiled {Inv Good Bad : σ → Prop}
    (hinv : ∀ s a s', Inv s → m.step s a = some s' → Inv s')
    (hgood : ∀ s a s', Inv s → Good s → cond s a → m.step s a = some s' → Good s')
    (hslip : ∀ s a s', Inv s → ¬ cond s a → m.step s a = some s' → Bad s')
    (hbad : ∀ s a s', Inv s → Bad s → m.step s a = some s' → Bad s')
    {s s' : σ} {as : List α} (hs : Inv s) (h : Good s) (hr : m.run s as = some s') :
    (m.Along cond s as ∧ Inv s' ∧ Good s') ∨ (¬ m.Along cond s as ∧ Inv s' ∧ Bad s') := by
  induction as generalizing s with
  | nil =>
    obtain rfl : s = s' := by simpa using hr
    exact .inl ⟨trivial, hs, h⟩
  | cons a as ih =>
    rw [run_cons] at hr
    obtain ⟨t, ht, hr⟩ := Option.bind_eq_some_iff.mp hr
    by_cases hc : cond s a
    · rcases ih (hinv s a t hs ht) (hgood s a t hs h hc ht) hr with ⟨halong, hend⟩ | ⟨hnot, hend⟩
      · refine .inl ⟨fun u hu => ?_, hend⟩
        obtain rfl : t = u := Option.some.inj (ht.symm.trans hu)
        exact ⟨hc, halong⟩
      · exact .inr ⟨fun halong => hnot (halong t ht).2, hend⟩
    · have hspoiled : ∀ u b v, Inv u ∧ Bad u → m.step u b = some v → Inv v ∧ Bad v :=
        fun u b v hu hv => ⟨hinv u b v hu.1 hv, hbad u b v hu.1 hu.2 hv⟩
      exact .inr ⟨fun halong => hc (halong t ht).1,
        run_keeps hspoiled ⟨hinv s a t hs ht, hslip s a t hs hc ht⟩ hr⟩

/-- The invariant rule for unrestricted runs, relative to an invariant already known. -/
theorem ReachableVia.invariant_under {P Q : σ → Prop}
    (hP : ∀ {s}, m.ReachableVia cond s → P s) (hinit : ∀ s, m.init s → Q s)
    (hstep : ∀ s a s', P s → Q s → cond s a → m.step s a = some s' → Q s')
    {s : σ} (h : m.ReachableVia cond s) : Q s := by
  induction h with
  | init h => exact hinit _ h
  | step hr hc hs ih => exact hstep _ _ _ (hP hr) ih hc hs

end Machine

end FineractReports
