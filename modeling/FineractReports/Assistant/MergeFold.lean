import FineractReports.Assistant.FactMerge

/-!
# The merge is a fold

What the merge accepts is a condition on the set of observations. What it returns is the
fold over the trusted ones, thinned to the first word of a source about a field.
-/

namespace FineractReports.CanonicalState

section Fold

variable {jobId : Uuid} {revision : ℤ} {contracts : ConstraintContracts}
  {state after final : MergeState} {o : FactObservation}
  {observations others rest : List FactObservation}

/-- Everything but advice of the language model. -/
def FactObservation.trusted (o : FactObservation) : Bool := o.sourceKind ≠ .llmAdvisory

/-- A source says the same whenever it speaks about a field. -/
def Consistent (observations : List FactObservation) : Prop :=
  ∀ a ∈ observations, ∀ b ∈ observations, a.key = b.key → a.typedValue = b.typedValue

/-! ### Acceptance -/

theorem MergeEffect.seen_eq (h : MergeEffect state o after) :
    after.seen = Assoc.insert state.seen o.key o.typedValue := by
  cases h <;> rfl

theorem exists_mergeEffect : (∃ after, MergeEffect state o after) ↔
    ∀ value, Assoc.get? state.seen o.key = some value → value = o.typedValue := by
  constructor
  · rintro ⟨after, h⟩ value hvalue
    cases h with
    | replayed hseen => exact Option.some.inj (hvalue.symm.trans hseen)
    | advised hnew _ => simp [hvalue] at hnew
    | recorded hnew _ => simp [hvalue] at hnew
  · intro h
    cases hseen : Assoc.get? state.seen o.key with
    | some value =>
      rw [h value hseen] at hseen
      exact ⟨_, .replayed hseen⟩
    | none =>
      by_cases hadvice : o.sourceKind = .llmAdvisory
      · exact ⟨_, .advised hseen hadvice⟩
      · exact ⟨_, .recorded hseen hadvice⟩

/-- The loop accepts what is admissible and agrees with itself and with what was seen. -/
theorem exists_mergeLoop : (∃ final, mergeLoop jobId contracts state rest = .ok final) ↔
    (∀ o ∈ rest, Admissible jobId contracts o) ∧
      (∀ o ∈ rest, ∀ value, Assoc.get? state.seen o.key = some value → value = o.typedValue) ∧
      Consistent rest := by
  induction rest generalizing state with
  | nil => simp [mergeLoop, Consistent]
  | cons o rest ih =>
    simp only [mergeLoop, bind_eq_ok_iff, mergeStep_eq_ok]
    constructor
    · rintro ⟨final, after, ⟨hadmissible, heffect⟩, hrest⟩
      obtain ⟨hall, hseen, hconsistent⟩ := ih.mp ⟨final, hrest⟩
      rw [heffect.seen_eq] at hseen
      have hhead := exists_mergeEffect.mp ⟨after, heffect⟩
      have hagrees : ∀ b ∈ rest, o.key = b.key → o.typedValue = b.typedValue := by
        intro b hb hkey
        apply hseen b hb
        rw [← hkey, Assoc.get?_insert_self]
      refine ⟨?_, ?_, ?_⟩
      · exact List.forall_mem_cons.mpr ⟨hadmissible, hall⟩
      · refine List.forall_mem_cons.mpr ⟨hhead, ?_⟩
        intro b hb value hvalue
        by_cases hkey : o.key = b.key
        · rw [← hagrees b hb hkey]
          exact hhead value (hkey ▸ hvalue)
        · apply hseen b hb
          rwa [Assoc.get?_insert_of_ne _ _ hkey]
      · intro a ha b hb hkey
        rcases List.mem_cons.mp ha with rfl | hina
        · rcases List.mem_cons.mp hb with rfl | hinb
          · rfl
          · exact hagrees b hinb hkey
        · rcases List.mem_cons.mp hb with rfl | hinb
          · exact (hagrees a hina hkey.symm).symm
          · exact hconsistent a hina b hinb hkey
    · rintro ⟨hall, hseen, hconsistent⟩
      obtain ⟨after, heffect⟩ := exists_mergeEffect.mpr (hseen o List.mem_cons_self)
      have hrest : ∃ final, mergeLoop jobId contracts after rest = .ok final := by
        refine ih.mpr ⟨?_, ?_, ?_⟩
        · exact fun b hb => hall b (List.mem_cons_of_mem _ hb)
        · intro b hb value hvalue
          rw [heffect.seen_eq, Assoc.get?_insert] at hvalue
          split_ifs at hvalue with hkey
          · obtain rfl := Option.some.inj hvalue
            exact hconsistent o List.mem_cons_self b (List.mem_cons_of_mem _ hb) hkey
          · exact hseen b (List.mem_cons_of_mem _ hb) value hvalue
        · intro a ha b hb
          exact hconsistent a (List.mem_cons_of_mem _ ha) b (List.mem_cons_of_mem _ hb)
      obtain ⟨final, hfinal⟩ := hrest
      exact ⟨final, after, ⟨hall o List.mem_cons_self, heffect⟩, hfinal⟩

/-- The merge accepts a list when every observation is admissible and no source
contradicts itself, in whatever order they come. -/
theorem exists_mergeObservations :
    (∃ result, mergeObservations jobId revision observations contracts = .ok result) ↔
      (∀ o ∈ observations, Admissible jobId contracts o) ∧ Consistent observations := by
  have hmerge : (∃ result, mergeObservations jobId revision observations contracts = .ok result) ↔
      ∃ final, mergeLoop jobId contracts .empty
        (sortByKey FactObservation.order observations) = .ok final := by
    simp only [mergeObservations, bind_eq_ok_iff, pure_eq_ok]
    constructor
    · rintro ⟨_, final, hfinal, -⟩
      exact ⟨final, hfinal⟩
    · rintro ⟨final, hfinal⟩
      exact ⟨_, final, hfinal, rfl⟩
  rw [hmerge, exists_mergeLoop]
  simp [Consistent, MergeState.empty]

/-! ### The fold -/

/-- The observations the loop records: the first word of each source about a field. -/
def recorded (seen : List FactKey) (rest : List FactObservation) : List FactObservation :=
  (firstsFrom FactObservation.key seen rest).filter FactObservation.trusted

theorem mergeLoop_folds (h : mergeLoop jobId contracts state rest = .ok final) :
    final.values = (recorded (Assoc.keys state.seen) rest).foldl
        (fun values o => apply values o.fieldPath o.typedValue) state.values ∧
      final.winners = (recorded (Assoc.keys state.seen) rest).foldl
        (fun winners o => Assoc.insert winners o.fieldPath o.id) state.winners := by
  induction rest generalizing state with
  | nil =>
    rw [mergeLoop, Except.ok.injEq] at h
    subst h
    exact ⟨rfl, rfl⟩
  | cons o rest ih =>
    simp only [mergeLoop, bind_eq_ok_iff, mergeStep_eq_ok] at h
    obtain ⟨after, ⟨-, heffect⟩, h⟩ := h
    have hrest := ih h
    have hkeys : recorded (Assoc.keys after.seen) rest =
        recorded (o.key :: Assoc.keys state.seen) rest := by
      unfold recorded
      congr 1
      apply firstsFrom_congr
      intro b _
      rw [heffect.seen_eq, Assoc.mem_keys_insert, List.mem_cons]
    rw [hkeys] at hrest
    have hhead : recorded (Assoc.keys state.seen) (o :: rest) =
        if o.key ∈ Assoc.keys state.seen then recorded (Assoc.keys state.seen) rest
        else if o.trusted then o :: recorded (o.key :: Assoc.keys state.seen) rest
        else recorded (o.key :: Assoc.keys state.seen) rest := by
      unfold recorded
      rw [firstsFrom]
      split_ifs with hseen htrusted
      · rfl
      · rw [List.filter_cons_of_pos htrusted]
      · rw [List.filter_cons_of_neg htrusted]
    cases heffect with
    | replayed hseen =>
      have hmem : o.key ∈ Assoc.keys state.seen :=
        Assoc.get?_isSome_iff.mp (by rw [hseen]; rfl)
      have hsame : recorded (o.key :: Assoc.keys state.seen) rest =
          recorded (Assoc.keys state.seen) rest := by
        unfold recorded
        congr 1
        apply firstsFrom_congr
        intro b _
        rw [List.mem_cons, or_iff_right_of_imp]
        exact fun heq => heq ▸ hmem
      rw [hhead, if_pos hmem, ← hsame]
      exact hrest
    | advised hnew hadvice =>
      have hmem := Assoc.get?_eq_none_iff.mp hnew
      rw [hhead, if_neg hmem, if_neg (by simp [FactObservation.trusted, hadvice])]
      exact hrest
    | recorded hnew htrusted =>
      have hmem := Assoc.get?_eq_none_iff.mp hnew
      rw [hhead, if_neg hmem, if_pos (by simp [FactObservation.trusted, htrusted])]
      exact hrest

theorem mergeObservations_folds {result : EffectiveConstraints}
    (h : mergeObservations jobId revision observations contracts = .ok result) :
    result.values = (recorded [] (sortByKey FactObservation.order observations)).foldl
        (fun values o => apply values o.fieldPath o.typedValue) [] ∧
      result.winningObservationIds =
        (recorded [] (sortByKey FactObservation.order observations)).foldl
          (fun winners o => Assoc.insert winners o.fieldPath o.id) [] := by
  simp only [mergeObservations, bind_eq_ok_iff, pure_eq_ok] at h
  obtain ⟨final, hfinal, rfl⟩ := h
  exact mergeLoop_folds hfinal

theorem order_nodup (hids : (observations.map (·.id)).Nodup) :
    (observations.map FactObservation.order).Nodup := by
  apply List.Nodup.of_map (fun order => (ofLex (ofLex order).2).2)
  rw [List.map_map]
  exact hids

/-- Whether an observation is trusted is told by its key. -/
theorem recorded_filter : recorded [] (rest.filter FactObservation.trusted) = recorded [] rest := by
  unfold recorded
  rw [firstsFrom_filter, List.filter_filter]
  · simp
  · intro a b hkey
    have hkind : a.sourceKind = b.sourceKind := congrArg Prod.fst hkey
    rw [FactObservation.trusted, FactObservation.trusted, hkind]

/-- Advice of the language model changes neither the values nor their winners. -/
theorem merge_without_advice (hids : (observations.map (·.id)).Nodup)
    {result : EffectiveConstraints}
    (h : mergeObservations jobId revision observations contracts = .ok result) :
    ∃ advised, mergeObservations jobId revision (observations.filter FactObservation.trusted)
        contracts = .ok advised ∧ advised.values = result.values ∧
      advised.winningObservationIds = result.winningObservationIds := by
  obtain ⟨hall, hconsistent⟩ := exists_mergeObservations.mp ⟨result, h⟩
  have haccepts : ∃ advised, mergeObservations jobId revision
      (observations.filter FactObservation.trusted) contracts = .ok advised := by
    refine exists_mergeObservations.mpr ⟨?_, ?_⟩
    · exact fun o ho => hall o (List.mem_of_mem_filter ho)
    · intro a ha b hb
      exact hconsistent a (List.mem_of_mem_filter ha) b (List.mem_of_mem_filter hb)
  obtain ⟨advised, hadvised⟩ := haccepts
  obtain ⟨hvalues, hwinners⟩ := mergeObservations_folds h
  obtain ⟨hvalues', hwinners'⟩ := mergeObservations_folds hadvised
  rw [sortByKey_filter (order_nodup hids), recorded_filter] at hvalues' hwinners'
  exact ⟨advised, hadvised, hvalues'.trans hvalues.symm, hwinners'.trans hwinners.symm⟩

/-! ### Winners -/

theorem get?_apply_of_ne {values : List (ConstraintField × TypedFactValue)}
    {field other : ConstraintField} (value : TypedFactValue) (hne : field ≠ other) :
    Assoc.get? (apply values field value) other = Assoc.get? values other := by
  unfold apply
  split
  · rw [Assoc.get?_erase, if_neg hne]
  · exact Assoc.get?_insert_of_ne _ _ hne
  · exact Assoc.get?_insert_of_ne _ _ hne

/-- A field holds the last value, none after a clear, and some list after a patch. -/
theorem get?_apply_self (values : List (ConstraintField × TypedFactValue))
    (field : ConstraintField) (value : TypedFactValue) :
    (Assoc.get? (apply values field value) field = none → value = .clear) ∧
      ∀ held, Assoc.get? (apply values field value) field = some held →
        TypedFactValue.isIdList held = false → held = value := by
  unfold apply
  split
  · simp [Assoc.get?_erase]
  · simp only [Assoc.get?_insert_self, reduceCtorEq, false_imp_iff, Option.some.injEq, true_and]
    rintro _ rfl hplain
    cases hplain
  · simp only [Assoc.get?_insert_self, reduceCtorEq, false_imp_iff, Option.some.injEq, true_and]
    rintro _ rfl -
    rfl

/-- What ties the values to the winners. -/
structure WinnersHold (observations : List FactObservation)
    (values : List (ConstraintField × TypedFactValue)) (winners : List (ConstraintField × Uuid)) :
    Prop where
  unwon : ∀ field, Assoc.get? winners field = none → Assoc.get? values field = none
  won : ∀ field id, Assoc.get? winners field = some id → ∃ o ∈ observations, o.id = id ∧
    o.fieldPath = field ∧ (Assoc.get? values field = none → o.typedValue = .clear) ∧
      ∀ held, Assoc.get? values field = some held → TypedFactValue.isIdList held = false →
        held = o.typedValue

theorem WinnersHold.recorded {values : List (ConstraintField × TypedFactValue)}
    {winners : List (ConstraintField × Uuid)} (h : WinnersHold observations values winners)
    (ho : o ∈ observations) : WinnersHold observations (apply values o.fieldPath o.typedValue)
      (Assoc.insert winners o.fieldPath o.id) where
  unwon field hnone := by
    rw [Assoc.get?_insert] at hnone
    split_ifs at hnone with hfield
    rw [get?_apply_of_ne _ hfield]
    exact h.unwon field hnone
  won field id hwinner := by
    rw [Assoc.get?_insert] at hwinner
    split_ifs at hwinner with hfield
    · subst hfield
      exact ⟨o, ho, Option.some.inj hwinner, rfl, get?_apply_self _ _ _⟩
    · rw [get?_apply_of_ne _ hfield]
      exact h.won field id hwinner

theorem WinnersHold.folded {values : List (ConstraintField × TypedFactValue)}
    {winners : List (ConstraintField × Uuid)} (h : WinnersHold observations values winners)
    (hrest : ∀ o ∈ rest, o ∈ observations) : WinnersHold observations
      (rest.foldl (fun values o => apply values o.fieldPath o.typedValue) values)
      (rest.foldl (fun winners o => Assoc.insert winners o.fieldPath o.id) winners) := by
  induction rest generalizing values winners with
  | nil => exact h
  | cons o rest ih =>
    apply ih
    · exact h.recorded (hrest o List.mem_cons_self)
    · exact fun b hb => hrest b (List.mem_cons_of_mem _ hb)

theorem mergeObservations_winners {result : EffectiveConstraints}
    (h : mergeObservations jobId revision observations contracts = .ok result) :
    WinnersHold observations result.values result.winningObservationIds := by
  obtain ⟨hvalues, hwinners⟩ := mergeObservations_folds h
  rw [hvalues, hwinners]
  apply WinnersHold.folded
  · exact ⟨fun _ _ => rfl, fun field id hnone => by cases hnone⟩
  · intro o ho
    exact mem_sortByKey.mp (mem_of_mem_firstsFrom (List.mem_of_mem_filter ho))

/-- The merge does not depend on the order of the observations, it is the fold over the
trusted ones thinned by key and taken in order, advice changes nothing, and every value
that is not a list is its winner's. -/
theorem merge_is_ordered_fold (jobId : Uuid) (revision : ℤ) (contracts : ConstraintContracts)
    (hids : (observations.map (·.id)).Nodup) :
    (∀ others, observations.Perm others →
      mergeObservations jobId revision others contracts =
        mergeObservations jobId revision observations contracts) ∧
    ∀ result, mergeObservations jobId revision observations contracts = .ok result →
      result.values = (firstsBy FactObservation.key ((sortByKey FactObservation.order
          observations).filter FactObservation.trusted)).foldl
            (fun values o => apply values o.fieldPath o.typedValue) [] ∧
      (∃ advised, mergeObservations jobId revision (observations.filter FactObservation.trusted)
          contracts = .ok advised ∧ advised.values = result.values ∧
        advised.winningObservationIds = result.winningObservationIds) ∧
      (∀ field value, Assoc.get? result.values field = some value →
        TypedFactValue.isIdList value = false → ∃ o ∈ observations,
          Assoc.get? result.winningObservationIds field = some o.id ∧ o.fieldPath = field ∧
            o.typedValue = value) ∧
      ∀ field id, Assoc.get? result.winningObservationIds field = some id →
        Assoc.get? result.values field = none → ∃ o ∈ observations, o.id = id ∧
          o.fieldPath = field ∧ o.typedValue = .clear := by
  refine ⟨?_, ?_⟩
  · intro others hperm
    rw [mergeObservations, mergeObservations, sortByKey_eq_of_perm (order_nodup hids) hperm]
  · intro result h
    have hwinners := mergeObservations_winners h
    refine ⟨?_, merge_without_advice hids h, ?_, ?_⟩
    · rw [(mergeObservations_folds h).1, ← recorded_filter, recorded, firstsBy,
        List.filter_eq_self.mpr]
      intro o ho
      exact (List.mem_filter.mp (mem_of_mem_firstsFrom ho)).2
    · intro field value hvalue hplain
      cases hwinner : Assoc.get? result.winningObservationIds field with
      | none =>
        rw [hwinners.unwon field hwinner] at hvalue
        cases hvalue
      | some id =>
        obtain ⟨o, ho, rfl, hfield, -, hheld⟩ := hwinners.won field id hwinner
        exact ⟨o, ho, rfl, hfield, (hheld value hvalue hplain).symm⟩
    · intro field id hwinner hnone
      obtain ⟨o, ho, hid, hfield, hclear, -⟩ := hwinners.won field id hwinner
      exact ⟨o, ho, hid, hfield, hclear hnone⟩

end Fold

namespace RevisedMetric

/-! A metric the user revises twice, and an advice about it. -/

def observation (id : Uuid) (sourceKind : FactSourceKind) (sourceId metric : String) :
    FactObservation where
  id := id
  jobId := 1
  sequence := id
  sourceKind := sourceKind
  sourceId := sourceId
  fieldPath := .metric
  typedValue := .metric metric
  confidence := none
  extractorVersion := "test"
  observedAt := 0

def observations : List FactObservation :=
  [observation 4 .llmAdvisory "advice" "average", observation 3 .clarification "answer" "count",
   observation 2 .originalRequest "request" "sum", observation 1 .approvedDefault "default"
     "balance"]

end RevisedMetric

theorem merge_is_ordered_fold_reversed :
    mergeObservations 1 1 RevisedMetric.observations.reverse executableConstraintContracts =
      mergeObservations 1 1 RevisedMetric.observations executableConstraintContracts :=
  (merge_is_ordered_fold 1 1 executableConstraintContracts (by decide)).1 _
    (List.reverse_perm _).symm

example : (mergeObservations 1 1 RevisedMetric.observations executableConstraintContracts).map
    (fun result => (result.values, result.winningObservationIds)) =
      .ok ([(.metric, .metric "count")], [(.metric, 3)]) := by decide

end FineractReports.CanonicalState
