import FineractReports.Assistant.CanonicalStore

/-!
# The store is immutable and safe to replay

Rows are only ever added. A call that succeeded finds its values again, whatever was stored in
between; one that disagrees with a stored row fails; and one that fails leaves the tables as
they were, if what it would have written is read back as it is. Only the calls that run outside
of a transaction depend on that.
-/

namespace FineractReports.CanonicalState

section Store

variable {jsonb : Json → Json} {references : References} {choice : ℕ} {choices : ℕ → ℕ}
  {tables after : CanonicalTables} {call : CanonicalCall} {saved : Saved} {e : RepositoryError}

/-- Every stored row is still there. -/
structure Kept (before after : CanonicalTables) : Prop where
  originals : before.originals <+: after.originals
  observations : before.observations <+: after.observations
  effective : before.effective <+: after.effective
  planners : before.planners <+: after.planners

structure TablesSound (jsonb : Json → Json) (tables : CanonicalTables) : Prop where
  originals : originalIntents.Sound tables.originals
  observations : factObservations.Sound tables.observations
  effective : effectiveConstraints.Sound tables.effective
  planners : (plannerSnapshots jsonb).Sound tables.planners

/-- What every part of a call does to the tables. -/
structure Extends (jsonb : Json → Json) (before after : CanonicalTables) : Prop where
  kept : Kept before after
  sound : TablesSound jsonb before → TablesSound jsonb after

theorem Kept.refl (tables : CanonicalTables) : Kept tables tables :=
  ⟨List.prefix_refl _, List.prefix_refl _, List.prefix_refl _, List.prefix_refl _⟩

theorem Kept.trans {first second third : CanonicalTables} (h : Kept first second)
    (h' : Kept second third) : Kept first third :=
  ⟨h.originals.trans h'.originals, h.observations.trans h'.observations,
    h.effective.trans h'.effective, h.planners.trans h'.planners⟩

theorem Extends.refl (tables : CanonicalTables) : Extends jsonb tables tables :=
  ⟨.refl tables, id⟩

theorem Extends.trans {first second third : CanonicalTables} (h : Extends jsonb first second)
    (h' : Extends jsonb second third) : Extends jsonb first third :=
  ⟨h.kept.trans h'.kept, fun hsound => h'.sound (h.sound hsound)⟩

/-! ### The parts of a call -/

theorem insertOriginal_extends (value : OriginalIntent) :
    Extends jsonb tables (insertOriginal references choice tables value).1 where
  kept := ⟨originalIntents.insert_extends _ _ _ _, List.prefix_refl _, List.prefix_refl _,
    List.prefix_refl _⟩
  sound h := ⟨h.originals.insert _ _ _, h.observations, h.effective, h.planners⟩

theorem insertObservations_extends (values : List FactObservation) :
    Extends jsonb tables (insertObservations references choices tables values).1 where
  kept := ⟨List.prefix_refl _, factObservations.insertAll_prefix _ _ _ _, List.prefix_refl _,
    List.prefix_refl _⟩
  sound h := ⟨h.originals, h.observations.insertAll _ _ _, h.effective, h.planners⟩

theorem insertEffective_extends (value : EffectiveConstraints) :
    Extends jsonb tables (insertEffective references choice tables value).1 where
  kept := ⟨List.prefix_refl _, List.prefix_refl _, effectiveConstraints.insert_extends _ _ _ _,
    List.prefix_refl _⟩
  sound h := ⟨h.originals, h.observations, h.effective.insert _ _ _, h.planners⟩

theorem insertPlanner_extends (value : PlannerInputSnapshot) :
    Extends jsonb tables (insertPlanner jsonb references choice tables value).1 where
  kept := ⟨List.prefix_refl _, List.prefix_refl _, List.prefix_refl _,
    (plannerSnapshots jsonb).insert_extends _ _ _ _⟩
  sound h := ⟨h.originals, h.observations, h.effective, h.planners.insert _ _ _⟩

theorem andThen_extends {α β : Type} {first : Outcome α} {next : CanonicalTables → α → Outcome β}
    (hfirst : Extends jsonb tables first.1)
    (hnext : ∀ mid value, Extends jsonb mid (next mid value).1) :
    Extends jsonb tables (first.andThen next).1 := by
  obtain ⟨mid, e | value⟩ := first
  · exact hfirst
  · exact hfirst.trans (hnext mid value)

theorem transaction_extends {α : Type} {done : Outcome α} (h : Extends jsonb tables done.1) :
    Extends jsonb tables (transaction tables done).1 := by
  obtain ⟨after, e | value⟩ := done
  · exact .refl tables
  · exact h

theorem andThen_eq_ok {α β : Type} {first : Outcome α} {next : CanonicalTables → α → Outcome β}
    {value : β} : (first.andThen next).2 = .ok value ↔
      ∃ mid a, first = (mid, .ok a) ∧ (next mid a).2 = .ok value := by
  obtain ⟨mid, e | a⟩ := first
  · simp [Outcome.andThen]
  · simp [Outcome.andThen]

theorem transaction_error {α : Type} {done : Outcome α}
    (h : (transaction tables done).2 = .error e) : (transaction tables done).1 = tables := by
  obtain ⟨after, e | value⟩ := done
  · rfl
  · cases h

theorem transaction_eq_ok {α : Type} {done : Outcome α} {value : α}
    (h : (transaction tables done).2 = .ok value) : transaction tables done = done := by
  obtain ⟨after, e | value⟩ := done
  · cases h
  · rfl

theorem run_extends (jsonb : Json → Json) (references : References) (choices : ℕ → ℕ)
    (tables : CanonicalTables) (call : CanonicalCall) :
    Extends jsonb tables (call.run jsonb references choices tables).1 := by
  cases call with
  | insertOriginalIntent value =>
    exact andThen_extends (insertOriginal_extends value) fun _ _ => .refl _
  | appendObservations jobId values =>
    apply andThen_extends _ fun _ _ => .refl _
    unfold appendObservations
    split_ifs
    · exact .refl tables
    · exact transaction_extends (insertObservations_extends values)
  | insertEffectiveConstraints value =>
    exact andThen_extends (insertEffective_extends value) fun _ _ => .refl _
  | insertPlannerSnapshot value =>
    exact andThen_extends (insertPlanner_extends value) fun _ _ => .refl _
  | insertInitialState intent observations effective =>
    apply andThen_extends _ fun _ _ => .refl _
    unfold insertInitialState
    split_ifs
    · exact .refl tables
    · apply transaction_extends
      apply andThen_extends (insertOriginal_extends intent)
      intro _ _
      apply andThen_extends (insertObservations_extends observations)
      intro _ _
      exact andThen_extends (insertEffective_extends effective) fun _ _ => .refl _

theorem tablesSound_of_reachable (h : (canonicalMachine jsonb).Reachable tables) :
    TablesSound jsonb tables := by
  apply h.invariant
  · rintro start rfl
    exact ⟨ImmutableTable.sound_nil, ImmutableTable.sound_nil, ImmutableTable.sound_nil,
      ImmutableTable.sound_nil⟩
  · intro start action next hsound _ hstep
    cases hstep
    exact (run_extends jsonb action.references action.choices start action.call).sound hsound

/-! ### Calls -/

/-- The tables hold what the call writes; the call returns `saved`. -/
def CanonicalCall.Holds (jsonb : Json → Json) (tables : CanonicalTables) :
    CanonicalCall → Saved → Prop
  | insertOriginalIntent value, saved => ∃ stored,
    originalIntents.Holds tables.originals value stored ∧ saved = ⟨some stored, [], none, none⟩
  | appendObservations jobId values, saved => (∀ value ∈ values, value.jobId = jobId) ∧
    ∃ stored, List.Forall₂ (factObservations.Holds tables.observations) values stored ∧
      saved = ⟨none, stored, none, none⟩
  | insertEffectiveConstraints value, saved => ∃ stored,
    effectiveConstraints.Holds tables.effective value stored ∧
      saved = ⟨none, [], some stored, none⟩
  | insertPlannerSnapshot value, saved => ∃ stored,
    (plannerSnapshots jsonb).Holds tables.planners value stored ∧
      saved = ⟨none, [], none, some stored⟩
  | insertInitialState intent observations effective, saved =>
    (∀ item ∈ observations, item.jobId = intent.jobId) ∧ effective.jobId = intent.jobId ∧
    ∃ original stored constraints,
      originalIntents.Holds tables.originals intent original ∧
      List.Forall₂ (factObservations.Holds tables.observations) observations stored ∧
      effectiveConstraints.Holds tables.effective effective constraints ∧
      saved = ⟨some original, stored, some constraints, none⟩

/-- A value of the call shares a unique key with a stored row and is not that row's value. -/
def CanonicalCall.Disagrees (jsonb : Json → Json) (tables : CanonicalTables) :
    CanonicalCall → Prop
  | insertOriginalIntent value => originalIntents.Disagrees tables.originals value
  | appendObservations _ values =>
    ∃ value ∈ values, factObservations.Disagrees tables.observations value
  | insertEffectiveConstraints value => effectiveConstraints.Disagrees tables.effective value
  | insertPlannerSnapshot value => (plannerSnapshots jsonb).Disagrees tables.planners value
  | insertInitialState intent observations effective =>
    originalIntents.Disagrees tables.originals intent ∨
      (∃ item ∈ observations, factObservations.Disagrees tables.observations item) ∨
      effectiveConstraints.Disagrees tables.effective effective

/-- What a call outside of a transaction writes to JSON columns is given back as it is: the
confidences of an intent are finite, the parameters of a planner snapshot are kept. -/
def CanonicalCall.ReadsBack (jsonb : Json → Json) : CanonicalCall → Prop
  | insertOriginalIntent value => ∀ entity ∈ value.entities,
    ∀ confidence ∈ entity.confidence, confidence.isFinite = true
  | insertPlannerSnapshot value => jsonb value.normalizedParameters = value.normalizedParameters
  | appendObservations _ _ | insertEffectiveConstraints _ | insertInitialState _ _ _ => True

theorem CanonicalCall.Holds.mono (h : call.Holds jsonb tables saved) (hkept : Kept tables after) :
    call.Holds jsonb after saved := by
  cases call with
  | insertOriginalIntent value =>
    obtain ⟨stored, hholds, hsaved⟩ := h
    exact ⟨stored, hholds.mono hkept.originals, hsaved⟩
  | appendObservations jobId values =>
    obtain ⟨hjob, stored, hholds, hsaved⟩ := h
    exact ⟨hjob, stored, hholds.imp fun _ _ held => held.mono hkept.observations, hsaved⟩
  | insertEffectiveConstraints value =>
    obtain ⟨stored, hholds, hsaved⟩ := h
    exact ⟨stored, hholds.mono hkept.effective, hsaved⟩
  | insertPlannerSnapshot value =>
    obtain ⟨stored, hholds, hsaved⟩ := h
    exact ⟨stored, hholds.mono hkept.planners, hsaved⟩
  | insertInitialState intent observations effective =>
    obtain ⟨hjobs, hjob, original, stored, constraints, hintent, hholds, heffective, hsaved⟩ := h
    exact ⟨hjobs, hjob, original, stored, constraints, hintent.mono hkept.originals,
      hholds.imp fun _ _ held => held.mono hkept.observations,
      heffective.mono hkept.effective, hsaved⟩

theorem CanonicalCall.Disagrees.mono (h : call.Disagrees jsonb tables)
    (hkept : Kept tables after) : call.Disagrees jsonb after := by
  cases call with
  | insertOriginalIntent value => exact ImmutableTable.Disagrees.mono h hkept.originals
  | appendObservations jobId values =>
    obtain ⟨value, hvalue, hclash⟩ := h
    exact ⟨value, hvalue, hclash.mono hkept.observations⟩
  | insertEffectiveConstraints value => exact ImmutableTable.Disagrees.mono h hkept.effective
  | insertPlannerSnapshot value => exact ImmutableTable.Disagrees.mono h hkept.planners
  | insertInitialState intent observations effective =>
    rcases h with hintent | ⟨item, hitem, hclash⟩ | heffective
    · exact Or.inl (hintent.mono hkept.originals)
    · exact Or.inr (Or.inl ⟨item, hitem, hclash.mono hkept.observations⟩)
    · exact Or.inr (Or.inr (heffective.mono hkept.effective))

theorem not_disagrees_of_holds (hsound : TablesSound jsonb tables)
    (h : call.Holds jsonb tables saved) : ¬ call.Disagrees jsonb tables := by
  have hitems : ∀ {values stored : List FactObservation},
      List.Forall₂ (factObservations.Holds tables.observations) values stored →
        ¬ ∃ value ∈ values, factObservations.Disagrees tables.observations value := by
    intro values stored hholds
    induction hholds with
    | nil => simp
    | cons hfirst _ ih =>
      rintro ⟨value, hvalue, hclash⟩
      rcases List.mem_cons.mp hvalue with rfl | hrest
      · exact hsound.observations.not_disagrees hfirst hclash
      · exact ih ⟨value, hrest, hclash⟩
  cases call with
  | insertOriginalIntent value =>
    obtain ⟨stored, hholds, -⟩ := h
    exact hsound.originals.not_disagrees hholds
  | appendObservations jobId values =>
    obtain ⟨-, stored, hholds, -⟩ := h
    exact hitems hholds
  | insertEffectiveConstraints value =>
    obtain ⟨stored, hholds, -⟩ := h
    exact hsound.effective.not_disagrees hholds
  | insertPlannerSnapshot value =>
    obtain ⟨stored, hholds, -⟩ := h
    exact hsound.planners.not_disagrees hholds
  | insertInitialState intent observations effective =>
    obtain ⟨-, -, original, stored, constraints, hintent, hholds, heffective, -⟩ := h
    rintro (hclash | hclash | hclash)
    · exact hsound.originals.not_disagrees hintent hclash
    · exact hitems hholds hclash
    · exact hsound.effective.not_disagrees heffective hclash

theorem insertOriginal_holds {value stored : OriginalIntent} {mid : CanonicalTables}
    (h : insertOriginal references choice tables value = (mid, .ok stored)) :
    originalIntents.Holds mid.originals value stored := by
  simp only [insertOriginal, Prod.mk.injEq] at h
  obtain ⟨rfl, hok⟩ := h
  exact ImmutableTable.holds_of_insert hok

theorem insertObservations_holds {values stored : List FactObservation} {mid : CanonicalTables}
    (h : insertObservations references choices tables values = (mid, .ok stored)) :
    List.Forall₂ (factObservations.Holds mid.observations) values stored := by
  simp only [insertObservations, Prod.mk.injEq] at h
  obtain ⟨rfl, hok⟩ := h
  exact ImmutableTable.holds_of_insertAll hok

theorem insertEffective_holds {value stored : EffectiveConstraints} {mid : CanonicalTables}
    (h : insertEffective references choice tables value = (mid, .ok stored)) :
    effectiveConstraints.Holds mid.effective value stored := by
  simp only [insertEffective, Prod.mk.injEq] at h
  obtain ⟨rfl, hok⟩ := h
  exact ImmutableTable.holds_of_insert hok

theorem insertPlanner_holds {value stored : PlannerInputSnapshot} {mid : CanonicalTables}
    (h : insertPlanner jsonb references choice tables value = (mid, .ok stored)) :
    (plannerSnapshots jsonb).Holds mid.planners value stored := by
  simp only [insertPlanner, Prod.mk.injEq] at h
  obtain ⟨rfl, hok⟩ := h
  exact ImmutableTable.holds_of_insert hok

theorem insertInitialState_holds {intent : OriginalIntent} {observations : List FactObservation}
    {effective : EffectiveConstraints} {mid : CanonicalTables}
    {result : OriginalIntent × List FactObservation × EffectiveConstraints}
    (h : insertInitialState references choices tables intent observations effective =
      (mid, .ok result)) :
    (∀ item ∈ observations, item.jobId = intent.jobId) ∧ effective.jobId = intent.jobId ∧
      originalIntents.Holds mid.originals intent result.1 ∧
      List.Forall₂ (factObservations.Holds mid.observations) observations result.2.1 ∧
      effectiveConstraints.Holds mid.effective effective result.2.2 := by
  unfold insertInitialState at h
  split_ifs at h with hjobs
  · cases h
  · rw [transaction_eq_ok (congrArg Prod.snd h)] at h
    obtain ⟨first, original, horiginal, hrest⟩ := andThen_eq_ok.mp (congrArg Prod.snd h)
    obtain ⟨second, stored, hstored, hrest⟩ := andThen_eq_ok.mp hrest
    obtain ⟨third, constraints, hconstraints, hrest⟩ := andThen_eq_ok.mp hrest
    simp only [horiginal, hstored, hconstraints, Outcome.andThen, Prod.mk.injEq,
      Except.ok.injEq] at h
    obtain ⟨rfl, rfl⟩ := h
    have hkept₁ : Kept first second := by
      have hextends : Extends id first
          (insertObservations references (fun i => choices (i + 2)) first observations).1 :=
        insertObservations_extends observations
      rw [hstored] at hextends
      exact hextends.kept
    have hkept₂ : Kept second third := by
      have hextends : Extends id second
          (insertEffective references (choices 1) second effective).1 :=
        insertEffective_extends effective
      rw [hconstraints] at hextends
      exact hextends.kept
    obtain ⟨hnone, hjob⟩ := not_or.mp hjobs
    refine ⟨?_, not_not.mp hjob, ?_, ?_, insertEffective_holds hconstraints⟩
    · simpa using hnone
    · exact (insertOriginal_holds horiginal).mono (hkept₁.trans hkept₂).originals
    · exact (insertObservations_holds hstored).imp fun _ _ held => held.mono hkept₂.observations

/-- A call that succeeds leaves its values in the tables. -/
theorem holds_of_run (h : (call.run jsonb references choices tables).2 = .ok saved) :
    call.Holds jsonb (call.run jsonb references choices tables).1 saved := by
  cases call with
  | insertOriginalIntent value =>
    obtain ⟨mid, stored, hstored, hsaved⟩ := andThen_eq_ok.mp h
    simp only [CanonicalCall.run, hstored, Outcome.andThen]
    exact ⟨stored, insertOriginal_holds hstored, (Except.ok.inj hsaved).symm⟩
  | appendObservations jobId values =>
    obtain ⟨mid, stored, hstored, hsaved⟩ := andThen_eq_ok.mp h
    simp only [CanonicalCall.run, hstored, Outcome.andThen]
    unfold appendObservations at hstored
    split_ifs at hstored with hjob
    · cases hstored
    · rw [transaction_eq_ok (congrArg Prod.snd hstored)] at hstored
      exact ⟨by simpa using hjob, stored, insertObservations_holds hstored,
        (Except.ok.inj hsaved).symm⟩
  | insertEffectiveConstraints value =>
    obtain ⟨mid, stored, hstored, hsaved⟩ := andThen_eq_ok.mp h
    simp only [CanonicalCall.run, hstored, Outcome.andThen]
    exact ⟨stored, insertEffective_holds hstored, (Except.ok.inj hsaved).symm⟩
  | insertPlannerSnapshot value =>
    obtain ⟨mid, stored, hstored, hsaved⟩ := andThen_eq_ok.mp h
    simp only [CanonicalCall.run, hstored, Outcome.andThen]
    exact ⟨stored, insertPlanner_holds hstored, (Except.ok.inj hsaved).symm⟩
  | insertInitialState intent observations effective =>
    obtain ⟨mid, result, hresult, hsaved⟩ := andThen_eq_ok.mp h
    simp only [CanonicalCall.run, hresult, Outcome.andThen]
    obtain ⟨hjobs, hjob, horiginal, hstored, hconstraints⟩ := insertInitialState_holds hresult
    exact ⟨hjobs, hjob, result.1, result.2.1, result.2.2, horiginal, hstored, hconstraints,
      (Except.ok.inj hsaved).symm⟩

/-- A call whose values the tables hold changes nothing and returns them. -/
theorem run_of_holds (hsound : TablesSound jsonb tables) (h : call.Holds jsonb tables saved) :
    call.run jsonb references choices tables = (tables, .ok saved) := by
  cases call with
  | insertOriginalIntent value =>
    obtain ⟨stored, hholds, rfl⟩ := h
    simp [CanonicalCall.run, insertOriginal, Outcome.andThen, hsound.originals.insert_holds hholds]
  | appendObservations jobId values =>
    obtain ⟨hjob, stored, hholds, rfl⟩ := h
    have hnone : ¬ values.any (fun value => value.jobId ≠ jobId) = true := by simpa using hjob
    simp only [CanonicalCall.run, appendObservations, if_neg hnone, insertObservations,
      hsound.observations.insertAll_holds hholds, transaction, Outcome.andThen]
  | insertEffectiveConstraints value =>
    obtain ⟨stored, hholds, rfl⟩ := h
    simp [CanonicalCall.run, insertEffective, Outcome.andThen,
      hsound.effective.insert_holds hholds]
  | insertPlannerSnapshot value =>
    obtain ⟨stored, hholds, rfl⟩ := h
    simp [CanonicalCall.run, insertPlanner, Outcome.andThen, hsound.planners.insert_holds hholds]
  | insertInitialState intent observations effective =>
    obtain ⟨hjobs, hjob, original, stored, constraints, hintent, hholds, heffective, rfl⟩ := h
    have hnone : ¬ (observations.any (fun item => item.jobId ≠ intent.jobId) = true ∨
        effective.jobId ≠ intent.jobId) := by
      simpa [hjob] using hjobs
    simp only [CanonicalCall.run, insertInitialState, if_neg hnone, insertOriginal,
      hsound.originals.insert_holds hintent, insertObservations,
      hsound.observations.insertAll_holds hholds, insertEffective,
      hsound.effective.insert_holds heffective, transaction, Outcome.andThen]

theorem run_of_disagrees (hsound : TablesSound jsonb tables)
    (h : call.Disagrees jsonb tables) :
    ∃ e, (call.run jsonb references choices tables).2 = .error e := by
  have hextends := run_extends jsonb references choices tables call
  cases hresult : (call.run jsonb references choices tables).2 with
  | error e => exact ⟨e, rfl⟩
  | ok saved =>
    exact absurd (h.mono hextends.kept)
      (not_disagrees_of_holds (hextends.sound hsound) (holds_of_run hresult))

/-! ### Failures -/

theorem F32.eq_self {value : F32} (h : value.isFinite = true) : F32.eq value value = true := by
  simp [F32.eq, F32.isNan, h]

theorem F32.fromJson_spec {value : F32} (h : value.isFinite = true) :
    ∃ kept, value.fromJson = some kept ∧ kept.isFinite = true ∧ F32.eq kept value = true := by
  by_cases hzero : value.isZero = true
  · have hkept : (⟨0⟩ : F32).isFinite = true := by decide
    refine ⟨⟨0⟩, by simp [F32.fromJson, h, hzero], hkept, ?_⟩
    have hzero' : (⟨0⟩ : F32).isZero = true := by decide
    simp [F32.eq, F32.isNan, h, hkept, hzero, hzero']
  · exact ⟨value, by simp [F32.fromJson, h, hzero], h, F32.eq_self h⟩

/-- The entities of a document and those it was written from. -/
theorem sameEntities_document {entities : List RecordedEntity}
    (h : ∀ entity ∈ entities, ∀ confidence ∈ entity.confidence, confidence.isFinite = true) :
    let written := entities.map fun entity =>
      { entity with confidence := entity.confidence.bind F32.fromJson }
    sameEntities written entities = true ∧ sameEntities written written = true := by
  induction entities with
  | nil => exact ⟨rfl, rfl⟩
  | cons entity rest ih =>
    obtain ⟨hrest, hself⟩ := ih fun other hother => h other (List.mem_cons_of_mem _ hother)
    have hfinite := h entity List.mem_cons_self
    simp only [List.map_cons, sameEntities, hrest, hself, decide_true, Bool.true_and,
      Bool.and_true]
    cases hconfidence : entity.confidence with
    | none => exact ⟨rfl, rfl⟩
    | some confidence =>
      obtain ⟨kept, hkept, hkeptFinite, heq⟩ := F32.fromJson_spec (hfinite confidence hconfidence)
      simp only [Option.bind_some, hkept, sameConfidence]
      exact ⟨heq, F32.eq_self hkeptFinite⟩

/-- An intent with finite confidences is what its row reads as. -/
theorem originalIntents_readsBack {value : OriginalIntent}
    (h : ∀ entity ∈ value.entities, ∀ confidence ∈ entity.confidence,
      confidence.isFinite = true) : originalIntents.ReadsBack value := by
  intro prepared hprepared _
  simp only [originalIntents, prepareOriginal, bind_eq_ok_iff, exists_unit_iff,
    pure_eq_ok] at hprepared
  obtain ⟨hschema, rfl⟩ := hprepared
  obtain ⟨hwritten, hself⟩ := sameEntities_document h
  refine ⟨OriginalIntent.document { value with createdAt := postgresTime value.createdAt }, ?_,
    ?_⟩
  · simp only [originalIntents, originalFromRow, bind_eq_ok_iff, exists_unit_iff, failIf_eq_ok,
      not_not, pure_eq_ok]
    refine ⟨hschema, ?_, rfl⟩
    simp only [OriginalIntent.same, Bool.and_eq_true, decide_eq_true_eq]
    exact ⟨rfl, hself⟩
  · simp only [originalIntents, OriginalIntent.same, Bool.and_eq_true, decide_eq_true_eq]
    exact ⟨rfl, hwritten⟩

theorem effectiveConstraints_readsBack (value : EffectiveConstraints) :
    effectiveConstraints.ReadsBack value := by
  intro prepared hprepared _
  simp only [effectiveConstraints, prepareEffective, bind_eq_ok_iff, exists_unit_iff,
    pure_eq_ok] at hprepared
  obtain ⟨hschema, rfl⟩ := hprepared
  refine ⟨{ value with createdAt := postgresTime value.createdAt }, ?_, by
    simp [effectiveConstraints]⟩
  simp only [effectiveConstraints, effectiveFromRow, bind_eq_ok_iff, exists_unit_iff, pure_eq_ok]
  exact ⟨hschema, trivial⟩

theorem plannerSnapshots_readsBack {value : PlannerInputSnapshot}
    (h : jsonb value.normalizedParameters = value.normalizedParameters) :
    (plannerSnapshots jsonb).ReadsBack value := by
  intro prepared hprepared _
  obtain rfl := Except.ok.inj hprepared
  exact ⟨_, rfl, by simp [plannerSnapshots, preparePlanner, h]⟩

theorem andThen_error {α : Type} {first : Outcome α} {next : CanonicalTables → α → Saved}
    (h : (first.andThen fun tables value => (tables, .ok (next tables value))).2 = .error e) :
    first.2 = .error e ∧
      (first.andThen fun tables value => (tables, .ok (next tables value))).1 = first.1 := by
  obtain ⟨mid, other | value⟩ := first
  · obtain rfl : other = e := Except.error.inj h
    exact ⟨rfl, rfl⟩
  · cases h

/-- A call that fails leaves the tables as they were. -/
theorem run_error (hsound : TablesSound jsonb tables) (hback : call.ReadsBack jsonb)
    (h : (call.run jsonb references choices tables).2 = .error e) :
    (call.run jsonb references choices tables).1 = tables := by
  cases call with
  | insertOriginalIntent value =>
    obtain ⟨herror, hsame⟩ := andThen_error h
    have hunchanged := hsound.originals.insert_error (originalIntents_readsBack hback) herror
    rw [CanonicalCall.run, hsame, insertOriginal, hunchanged]
  | appendObservations jobId values =>
    obtain ⟨herror, hsame⟩ := andThen_error h
    rw [CanonicalCall.run, hsame]
    unfold appendObservations at herror ⊢
    split_ifs at herror ⊢
    · rfl
    · exact transaction_error herror
  | insertEffectiveConstraints value =>
    obtain ⟨herror, hsame⟩ := andThen_error h
    have hunchanged := hsound.effective.insert_error (effectiveConstraints_readsBack value) herror
    rw [CanonicalCall.run, hsame, insertEffective, hunchanged]
  | insertPlannerSnapshot value =>
    obtain ⟨herror, hsame⟩ := andThen_error h
    have hunchanged := hsound.planners.insert_error (plannerSnapshots_readsBack hback) herror
    rw [CanonicalCall.run, hsame, insertPlanner, hunchanged]
  | insertInitialState intent observations effective =>
    obtain ⟨herror, hsame⟩ := andThen_error h
    rw [CanonicalCall.run, hsame]
    unfold insertInitialState at herror ⊢
    split_ifs at herror ⊢
    · rfl
    · exact transaction_error herror

/-- In every state the calls reach: stored rows stay as they are; a call that succeeds returns
the same and changes nothing whenever it is repeated; a call that disagrees with a stored row
fails; a call whose values are read back as they are leaves the tables alone when it fails. -/
theorem canonical_store_replay_safe (h : (canonicalMachine jsonb).Reachable tables)
    (action : CanonicalAction) (hback : action.call.ReadsBack jsonb) :
    let done := action.call.run jsonb action.references action.choices tables
    Kept tables done.1 ∧
      (∀ saved, done.2 = .ok saved → ∀ actions later,
        (canonicalMachine jsonb).run done.1 actions = some later → ∀ references choices,
          action.call.run jsonb references choices later = (later, .ok saved)) ∧
      (action.call.Disagrees jsonb tables → ∃ e, done.2 = .error e) ∧
      ∀ e, done.2 = .error e → done.1 = tables := by
  intro done
  have hsound := tablesSound_of_reachable h
  have hextends := run_extends jsonb action.references action.choices tables action.call
  refine ⟨hextends.kept, ?_, run_of_disagrees hsound, fun e => run_error hsound hback⟩
  intro saved hsaved actions later hrun references choices
  have hkeeps : Extends jsonb done.1 later := by
    apply Machine.run_keeps (P := fun state => Extends jsonb done.1 state) _ (.refl done.1) hrun
    intro state next after hstate hstep
    cases hstep
    exact hstate.trans (run_extends _ _ _ _ _)
  exact run_of_holds (hkeeps.sound (hextends.sound hsound)) ((holds_of_run hsaved).mono hkeeps.kept)

end Store

namespace LargeAmount

/-- A JSON column keeps a number as a decimal, so a large float comes back as an integer. -/
def jsonb (value : Json) : Json :=
  if value = .obj [("amount", .float "1e16")] then .obj [("amount", .int 10000000000000000)]
  else value

def references : References := ⟨fun _ => true, fun _ _ => true, fun _ => true⟩

def intent : OriginalIntent where
  id := 10
  jobId := 1
  schemaVersion := 1
  rawMessageId := 2
  locale := .en
  action := .reportRequest
  entities := []
  metrics := ["balance"]
  groupings := []
  output := none
  parameters := []
  piiRequest := false
  extractionProvenance := []
  createdAt := 0

def effective : EffectiveConstraints := ⟨11, 1, 0, 1, [], [], 0⟩

def planner (parameters : Json) : PlannerInputSnapshot where
  id := 12
  jobId := 1
  revision := 0
  originalIntentId := 10
  effectiveConstraintsId := 11
  capabilityCatalogVersion := 13
  principalProjection := ⟨7, "admin", ["savings_deposit_total"], [1], false, none⟩
  referenceInstant := 0
  timezone := "UTC"
  selectedCapabilityId := "savings_deposit_total"
  normalizedParameters := parameters
  createdAt := 0

def start : CanonicalTables := ⟨[], [], [], []⟩

/-- The state the planner snapshot is inserted in. -/
def prepared : CanonicalTables :=
  (CanonicalCall.run jsonb references id start (.insertInitialState intent [] effective)).1

theorem prepared_reachable : (canonicalMachine jsonb).Reachable prepared :=
  .step (a := ⟨references, id, .insertInitialState intent [] effective⟩) (.init rfl) trivial rfl

def kept : CanonicalAction :=
  ⟨references, id, .insertPlannerSnapshot (planner (.obj [("amount", .int 5)]))⟩

/-- A snapshot with a small amount is stored and found again. -/
theorem canonical_store_replay_safe_kept :
    kept.call.run jsonb references id (kept.call.run jsonb references id prepared).1 =
      ((kept.call.run jsonb references id prepared).1,
        .ok ⟨none, [], none, some (planner (.obj [("amount", .int 5)]))⟩) :=
  (canonical_store_replay_safe prepared_reachable kept rfl).2.1 _ (by decide) [] _ rfl
    references id

/-- The snapshot is stored and the call says that it conflicts. -/
theorem failed_snapshot_stored :
    let done := CanonicalCall.run jsonb references id prepared
      (.insertPlannerSnapshot (planner (.obj [("amount", .float "1e16")])))
    done.2 = .error (.conflict "planner snapshot") ∧ done.1.planners ≠ prepared.planners := by
  decide

end LargeAmount

end FineractReports.CanonicalState
