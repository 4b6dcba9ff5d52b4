import FineractReports.Execution.Binds
import FineractReports.Knowledge.ComposedStatement

/-!
# Positions of the bound values

The composer numbers the placeholders of the filters after those of the declared
parameters; the executor appends the values of the filters to those of the parameters.
Both go through the slots and their operators in order, so every value lands on the
placeholder reserved for it.
-/

namespace FineractReports.Execution

open Dataset

/-! ### Values in place -/

/-- The values stand in the list from the offset on. -/
def StandsAt {α : Type} (out : List α) (offset : ℕ) (own : List α) : Prop :=
  ∀ (index : ℕ) (value : α), own[index]? = some value → out[offset + index]? = some value

section Placement

variable {α : Type} {out own : List α} {offset : ℕ}

theorem standsAt_self (front own back : List α) :
    StandsAt (front ++ own ++ back) front.length own := by
  intro index value hvalue
  have hlt := (List.getElem?_eq_some_iff.mp hvalue).1
  rw [List.append_assoc, List.getElem?_append_right (by omega),
    List.getElem?_append_left (by omega)]
  rw [← hvalue]
  congr 1
  omega

theorem StandsAt.append_right (h : StandsAt out offset own) (back : List α) :
    StandsAt (out ++ back) offset own := by
  intro index value hvalue
  have hout := h index value hvalue
  rw [List.getElem?_append_left (List.getElem?_eq_some_iff.mp hout).1]
  exact hout

theorem StandsAt.append_left (h : StandsAt out offset own) (front : List α) :
    StandsAt (front ++ out) (front.length + offset) own := by
  intro index value hvalue
  rw [List.getElem?_append_right (by omega), ← h index value hvalue]
  congr 1
  omega

end Placement

/-! ### Declared parameters -/

section Parameters

variable {Number : Type} {parseDate : String → Except String NaiveDate}
  {parseDecimal : String → Except String Number} {plan : ExecutionPlan} {policy : PolicyDecision}
  {limit : Option String} {fetch : Option ℤ} {parameters : List QueryParameter}
  {values : List (BindValue Number)}

/-- Without sensitive parameters every one is bound in its place. -/
theorem bindParameters_positions (h : bindParameters parseDate parseDecimal plan policy limit fetch
    parameters = .ok values) (hplain : ∀ parameter ∈ parameters, isTransient parameter = false) :
    values.length = parameters.length ∧
      ∀ (index : ℕ) (parameter : QueryParameter), parameters[index]? = some parameter →
        ∃ value, parameterBind parseDate parseDecimal plan policy limit fetch parameter =
          .ok value ∧ values[index]? = some value := by
  have hsame : bindParameters parseDate parseDecimal plan policy limit fetch parameters =
      collectAll parameters fun parameter =>
        (parameterBind parseDate parseDecimal plan policy limit fetch parameter).map
          fun value => [value] := by
    unfold bindParameters
    exact collectAll_congr fun parameter hparameter => by
      rw [if_neg (by simp [hplain parameter hparameter])]
  rw [hsame] at h
  exact collectAll_single h

/-- A sensitive parameter leaves the list of values short. -/
theorem bindParameters_short (h : bindParameters parseDate parseDecimal plan policy limit fetch
    parameters = .ok values) {parameter : QueryParameter} (hmem : parameter ∈ parameters)
    (htransient : isTransient parameter = true) : values.length < parameters.length := by
  have hle : ∀ (items : List QueryParameter) (out : List (BindValue Number)),
      bindParameters parseDate parseDecimal plan policy limit fetch items = .ok out →
        out.length ≤ items.length ∧ (parameter ∈ items → out.length < items.length) := by
    intro items
    induction items with
    | nil =>
      intro out hout
      cases hout
      simp
    | cons item rest ih =>
      intro out hout
      obtain ⟨first, others, hfirst, hothers, rfl⟩ := collectAll_cons.mp hout
      obtain ⟨hrest, hshort⟩ := ih others hothers
      have hone : first.length ≤ 1 ∧ (isTransient item = true → first.length = 0) := by
        split_ifs at hfirst with hitem
        · obtain rfl : [] = first := Except.ok.inj hfirst
          simp
        · cases hvalue : parameterBind parseDate parseDecimal plan policy limit fetch item with
          | error e =>
            rw [hvalue] at hfirst
            cases hfirst
          | ok value =>
            rw [hvalue] at hfirst
            obtain rfl : [value] = first := Except.ok.inj hfirst
            simp [hitem]
      rw [List.length_append, List.length_cons]
      refine ⟨by omega, fun hin => ?_⟩
      obtain rfl | hin := List.mem_cons.mp hin
      · have hzero := hone.2 htransient
        omega
      · have hlt := hshort hin
        omega
  exact (hle parameters values h).2 hmem

end Parameters

/-! ### Filters -/

section Filters

variable {dataset : DatasetKnowledge} {shape : ShapeOption} {selection : DatasetSelection}
  {sensitiveIdentifier : Option String} {taken last : ℕ} {text : String}
  {reserved : List FilterBind} {values : List DatasetBindValue}

theorem operatorBinds_length {slot : FilterSlot} {operator : FilterOperator}
    (h : operatorBinds selection sensitiveIdentifier slot operator = .ok values) :
    values.length = operator.placeholders := by
  simp only [operatorBinds, bind_eq_ok_iff, exists_unit_iff] at h
  obtain ⟨-, h⟩ := h
  cases operator <;> obtain rfl := pure_eq_ok.mp h <;> rfl

/-- A reserved placeholder and the values that stand there, after those already taken. -/
def BoundInPlace (selection : DatasetSelection) (sensitiveIdentifier : Option String) (taken : ℕ)
    (values : List DatasetBindValue) (slot : FilterSlot) (bind : FilterBind) : Prop :=
  ∃ offset own, bind.placeholder = taken + offset + 1 ∧
    operatorBinds selection sensitiveIdentifier slot bind.operator = .ok own ∧
    StandsAt values offset own

theorem BoundInPlace.append_right {slot : FilterSlot} {bind : FilterBind}
    (h : BoundInPlace selection sensitiveIdentifier taken values slot bind)
    (back : List DatasetBindValue) :
    BoundInPlace selection sensitiveIdentifier taken (values ++ back) slot bind := by
  obtain ⟨offset, own, hplace, hown, hstands⟩ := h
  exact ⟨offset, own, hplace, hown, hstands.append_right back⟩

theorem BoundInPlace.append_left {slot : FilterSlot} {bind : FilterBind}
    {front : List DatasetBindValue}
    (h : BoundInPlace selection sensitiveIdentifier (taken + front.length) values slot bind) :
    BoundInPlace selection sensitiveIdentifier taken (front ++ values) slot bind := by
  obtain ⟨offset, own, hplace, hown, hstands⟩ := h
  exact ⟨front.length + offset, own, by omega, hown, hstands.append_left front⟩

/-- The operators of one slot, reserved and bound side by side. -/
theorem composeOperators_places {slot : FilterSlot} {operators : List FilterOperator}
    (hcompose : composeOperators shape slot taken operators = .ok (last, text, reserved))
    (hbinds : collectAll operators (operatorBinds selection sensitiveIdentifier slot)
    = .ok values) :
    last = taken + values.length ∧
      (∀ bind ∈ reserved, bind.filterId = slot.id ∧ bind.operator ∈ operators ∧
        BoundInPlace selection sensitiveIdentifier taken values slot bind) ∧
      ∀ operator ∈ operators, ∃ bind ∈ reserved, bind.operator = operator := by
  induction operators generalizing taken last text reserved values with
  | nil =>
    cases hcompose
    cases hbinds
    simp
  | cons operator rest ih =>
    simp only [composeOperators, bind_eq_ok_iff, pure_eq_ok, Prod.exists, Prod.mk.injEq] at hcompose
    obtain ⟨-, -, final, texts, others, hrest, rfl, -, rfl⟩ := hcompose
    obtain ⟨first, more, hfirst, hmore, rfl⟩ := collectAll_cons.mp hbinds
    have hlength := operatorBinds_length hfirst
    obtain ⟨hlast, hplaces, hall⟩ := ih hrest hmore
    refine ⟨by rw [List.length_append]; omega, ?_, ?_⟩
    · intro bind hbind
      obtain rfl | hin := List.mem_cons.mp hbind
      · refine ⟨rfl, List.mem_cons_self, 0, first, rfl, hfirst, ?_⟩
        have hself := standsAt_self [] first more
        simpa using hself
      · obtain ⟨hid, hoperator, hplace⟩ := hplaces bind hin
        rw [← hlength] at hplace
        exact ⟨hid, List.mem_cons_of_mem _ hoperator, hplace.append_left⟩
    · intro other hother
      obtain rfl | hin := List.mem_cons.mp hother
      · exact ⟨_, List.mem_cons_self, rfl⟩
      · obtain ⟨bind, hbind, hoperator⟩ := hall other hin
        exact ⟨bind, List.mem_cons_of_mem _ hbind, hoperator⟩

/-- The slots of a dataset, reserved and bound side by side. -/
theorem composeFilters_places {filters : List FilterSlot}
    (hcompose : composeFilters dataset shape taken filters = .ok (last, text, reserved))
    (hbinds : collectAll filters (fun slot =>
      collectAll slot.operators (operatorBinds selection sensitiveIdentifier slot)) = .ok values) :
    last = taken + values.length ∧
      (∀ bind ∈ reserved, ∃ slot ∈ filters, bind.filterId = slot.id ∧
        bind.operator ∈ slot.operators ∧
        BoundInPlace selection sensitiveIdentifier taken values slot bind) ∧
      ∀ slot ∈ filters, ∀ operator ∈ slot.operators, ∃ bind ∈ reserved,
        bind.filterId = slot.id ∧ bind.operator = operator := by
  induction filters generalizing taken last text reserved values with
  | nil =>
    cases hcompose
    cases hbinds
    simp
  | cons slot rest ih =>
    simp only [composeFilters, bind_eq_ok_iff, exists_unit_iff, mapError_eq_ok, pure_eq_ok,
      Prod.exists, Prod.mk.injEq] at hcompose
    obtain ⟨-, middle, first, some, hfirst, final, texts, others, hrest, rfl, -, rfl⟩ := hcompose
    obtain ⟨own, more, hown, hmore, rfl⟩ := collectAll_cons.mp hbinds
    obtain ⟨hmiddle, hplaces, hall⟩ := composeOperators_places hfirst hown
    obtain ⟨hlast, hplaces', hall'⟩ := ih hrest hmore
    refine ⟨by rw [List.length_append]; omega, ?_, ?_⟩
    · intro bind hbind
      obtain hin | hin := List.mem_append.mp hbind
      · obtain ⟨hid, hoperator, hplace⟩ := hplaces bind hin
        exact ⟨slot, List.mem_cons_self, hid, hoperator, hplace.append_right more⟩
      · obtain ⟨other, hother, hid, hoperator, hplace⟩ := hplaces' bind hin
        rw [hmiddle] at hplace
        exact ⟨other, List.mem_cons_of_mem _ hother, hid, hoperator, hplace.append_left⟩
    · intro other hother operator hoperator
      obtain rfl | hin := List.mem_cons.mp hother
      · obtain ⟨bind, hbind, hop⟩ := hall operator hoperator
        exact ⟨bind, List.mem_append_left _ hbind, (hplaces bind hbind).1, hop⟩
      · obtain ⟨bind, hbind, hid, hop⟩ := hall' other hin operator hoperator
        exact ⟨bind, List.mem_append_right _ hbind, hid, hop⟩

/-- The placeholders the slots of a dataset take. -/
def reservedCount (filters : List FilterSlot) : ℕ :=
  (filters.map fun slot => (slot.operators.map FilterOperator.placeholders).sum).sum

theorem composeOperators_last {slot : FilterSlot} {operators : List FilterOperator}
    (h : composeOperators shape slot taken operators = .ok (last, text, reserved)) :
    last = taken + (operators.map FilterOperator.placeholders).sum := by
  induction operators generalizing taken last text reserved with
  | nil =>
    cases h
    rfl
  | cons operator rest ih =>
    simp only [composeOperators, bind_eq_ok_iff, pure_eq_ok, Prod.exists, Prod.mk.injEq] at h
    obtain ⟨-, -, final, texts, others, hrest, rfl, -, -⟩ := h
    have hlast := ih hrest
    rw [List.map_cons, List.sum_cons]
    omega

theorem composeFilters_last {filters : List FilterSlot}
    (h : composeFilters dataset shape taken filters = .ok (last, text, reserved)) :
    last = taken + reservedCount filters := by
  induction filters generalizing taken last text reserved with
  | nil =>
    cases h
    rfl
  | cons slot rest ih =>
    simp only [composeFilters, bind_eq_ok_iff, exists_unit_iff, mapError_eq_ok, pure_eq_ok,
      Prod.exists, Prod.mk.injEq] at h
    obtain ⟨-, middle, first, some, hfirst, final, texts, others, hrest, rfl, -, -⟩ := h
    have hmiddle := composeOperators_last hfirst
    have hlast := ih hrest
    unfold reservedCount at hlast ⊢
    rw [List.map_cons, List.sum_cons]
    omega

end Filters

end FineractReports.Execution
