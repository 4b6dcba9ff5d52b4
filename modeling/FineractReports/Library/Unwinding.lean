import FineractReports.Library.Transition

/-!
# Actions that do not show

A relation between a run and the run of some of its actions: a shown action is enabled in both
states and leads to related ones, any other action is taken on the left only. Then the shown
actions of a run can be taken without the others, and end in a related state. The actions of the
run may be restricted to allowed ones.
-/

namespace FineractReports.Machine

variable {σ α : Type*} {m : Machine σ α}

/-- What makes `R` a relation between a run and its shown actions. -/
structure Unwinding (m : Machine σ α) (allowed : α → Prop) (shown : α → Bool)
    (R : σ → σ → Prop) : Prop where
  shown_step : ∀ s t a s', R s t → allowed a → shown a = true → m.step s a = some s' →
    ∃ t', m.step t a = some t' ∧ R s' t'
  hidden_step : ∀ s t a s', R s t → allowed a → shown a = false → m.step s a = some s' → R s' t

variable {allowed : α → Prop} {shown : α → Bool} {R : σ → σ → Prop} {s t s' : σ}
  {actions : List α}

/-- The shown actions of a run, without the others. -/
theorem Unwinding.run_shown (h : m.Unwinding allowed shown R) (hrel : R s t)
    (hallowed : ∀ a ∈ actions, allowed a) (hrun : m.run s actions = some s') :
    ∃ t', m.run t (actions.filter shown) = some t' ∧ R s' t' := by
  induction actions generalizing s t with
  | nil =>
    obtain rfl := Option.some.inj hrun
    exact ⟨t, rfl, hrel⟩
  | cons a rest ih =>
    have hfirst := hallowed a List.mem_cons_self
    have hrestAllowed : ∀ b ∈ rest, allowed b := fun b hb => hallowed b (List.mem_cons_of_mem _ hb)
    rw [run_cons] at hrun
    obtain ⟨next, hstep, hrest⟩ := Option.bind_eq_some_iff.mp hrun
    cases hshown : shown a with
    | true =>
      obtain ⟨after, hafter, hnext⟩ := h.shown_step s t a next hrel hfirst hshown hstep
      obtain ⟨final, hfinal, hlast⟩ := ih hnext hrestAllowed hrest
      refine ⟨final, ?_, hlast⟩
      rw [List.filter_cons_of_pos hshown, run_cons, hafter]
      exact hfinal
    | false =>
      rw [List.filter_cons_of_neg (by simp [hshown])]
      exact ih (h.hidden_step s t a next hrel hfirst hshown hstep) hrestAllowed hrest

end FineractReports.Machine
