import FineractReports.Assistant.FactMerge
import FineractReports.Library.ImmutableTable
import FineractReports.Library.Transition

/-!
# The store of the canonical state

The original intent of a job, its fact observations, effective constraints and planner
snapshots. Rows are inserted unless a unique key is taken and read back by their keys. Times
are in nanoseconds. JSON documents and maps are in key order; `jsonb` stands for what a JSON
column gives back, the other values come back as they were written.
-/

namespace FineractReports.CanonicalState

def SCHEMA_VERSION : ℤ := 1

inductive AssistantLanguage where
  | en | id
deriving DecidableEq, Repr

/-- An entity with the confidence it was read with. -/
structure RecordedEntity extends AssistantEntity where
  confidence : Option F32
deriving DecidableEq

structure ExtractionProvenance where
  extractor : String
  version : String
  sourceIdentifiers : List String
  sourceSpans : List (ℕ × ℕ)
  rule : Option String
  referenceInstant : Option ℤ
  timezone : Option String
deriving DecidableEq

structure OriginalIntent where
  id : Uuid
  jobId : Uuid
  schemaVersion : ℤ
  rawMessageId : Uuid
  locale : AssistantLanguage
  action : AssistantIntentKind
  entities : List RecordedEntity
  metrics : List String
  groupings : List String
  output : Option String
  parameters : List (String × TypedFactValue)
  piiRequest : Bool
  extractionProvenance : List ExtractionProvenance
  createdAt : ℤ
deriving DecidableEq

structure PrincipalProjection where
  userId : Uuid
  role : String
  capabilityIds : List String
  officeIds : List ℤ
  canViewPii : Bool
  legacyApiKeyId : Option Uuid
deriving DecidableEq

structure PlannerInputSnapshot where
  id : Uuid
  jobId : Uuid
  revision : ℤ
  originalIntentId : Uuid
  effectiveConstraintsId : Uuid
  capabilityCatalogVersion : Uuid
  principalProjection : PrincipalProjection
  referenceInstant : ℤ
  timezone : String
  selectedCapabilityId : String
  normalizedParameters : Json
  createdAt : ℤ
deriving DecidableEq

inductive RepositoryError where
  | conflict (kind : String)
  | invalidSchemaVersion (version : ℤ)
  | database
deriving DecidableEq

/-! ### Equality of floats -/

namespace F32

def isFinite (value : F32) : Bool := value.bits &&& 0x7F800000 ≠ 0x7F800000
def isNan (value : F32) : Bool := value.isFinite = false ∧ value.bits &&& 0x007FFFFF ≠ 0
def isZero (value : F32) : Bool := value.bits = 0 ∨ value.bits = 0x80000000

/-- The `==` of floats: the zeros are equal, a NaN equals nothing. -/
def eq (a b : F32) : Bool := a.isNan = false ∧ b.isNan = false ∧
  (a = b ∨ (a.isZero = true ∧ b.isZero = true))

/-- A float written to a JSON column: `null` unless it is finite, without the sign of zero. -/
def fromJson (value : F32) : Option F32 :=
  if value.isFinite = false then none else if value.isZero then some ⟨0⟩ else some value

end F32

def sameConfidence : Option F32 → Option F32 → Bool
  | none, none => true
  | some a, some b => F32.eq a b
  | _, _ => false

def sameEntities : List RecordedEntity → List RecordedEntity → Bool
  | [], [] => true
  | a :: as, b :: bs => a.toAssistantEntity = b.toAssistantEntity &&
    sameConfidence a.confidence b.confidence && sameEntities as bs
  | _, _ => false

def OriginalIntent.same (a b : OriginalIntent) : Bool :=
  { a with entities := [] } = { b with entities := [] } && sameEntities a.entities b.entities

def FactObservation.same (a b : FactObservation) : Bool :=
  { a with confidence := none } = { b with confidence := none } &&
    sameConfidence a.confidence b.confidence

/-! ### Rows -/

/-- A time as the database keeps it. -/
def postgresTime (nanoseconds : ℤ) : ℤ := nanoseconds / 1000 * 1000

def schema (version : ℤ) : Except RepositoryError Unit :=
  failIf (version ≠ SCHEMA_VERSION) (.invalidSchemaVersion version)

/-- The `length(trim(..)) > 0` of a column. -/
def hasText (text : String) : Bool := text.toList.any fun c => c ≠ ' '

structure OriginalRow where
  id : Uuid
  jobId : Uuid
  schemaVersion : ℤ
  rawMessageId : Uuid
  document : OriginalIntent
  extractionProvenance : List ExtractionProvenance
  createdAt : ℤ
deriving DecidableEq

/-- The document of an intent as the JSON column gives it back. -/
def OriginalIntent.document (intent : OriginalIntent) : OriginalIntent :=
  { intent with
    entities := intent.entities.map fun entity =>
      { entity with confidence := entity.confidence.bind F32.fromJson } }

def OriginalIntent.row (intent : OriginalIntent) : OriginalRow where
  id := intent.id
  jobId := intent.jobId
  schemaVersion := intent.schemaVersion
  rawMessageId := intent.rawMessageId
  document := intent.document
  extractionProvenance := intent.extractionProvenance
  createdAt := intent.createdAt

/-- The document with the columns of its row. -/
def OriginalRow.value (row : OriginalRow) : OriginalIntent :=
  { row.document with
    id := row.id
    jobId := row.jobId
    schemaVersion := row.schemaVersion
    rawMessageId := row.rawMessageId
    extractionProvenance := row.extractionProvenance
    createdAt := row.createdAt }

def originalFromRow (row : OriginalRow) : Except RepositoryError OriginalIntent := do
  schema row.schemaVersion
  failIf (¬ OriginalIntent.same row.value row.document = true) (.conflict "original intent row")
  return row.value

def effectiveFromRow (row : EffectiveConstraints) : Except RepositoryError EffectiveConstraints :=
  do
  schema row.schemaVersion
  return row

/-! ### The tables -/

def prepareOriginal (value : OriginalIntent) : Except RepositoryError OriginalIntent := do
  let value := { value with createdAt := postgresTime value.createdAt }
  schema value.schemaVersion
  return value

def prepareEffective (value : EffectiveConstraints) :
    Except RepositoryError EffectiveConstraints := do
  let value := { value with createdAt := postgresTime value.createdAt }
  schema value.schemaVersion
  return value

theorem OriginalIntent.same_keys {a b : OriginalIntent} (h : OriginalIntent.same a b = true) :
    a.id = b.id ∧ a.jobId = b.jobId ∧ a.schemaVersion = b.schemaVersion := by
  simp only [OriginalIntent.same, Bool.and_eq_true, decide_eq_true_eq,
    OriginalIntent.mk.injEq] at h
  exact ⟨h.1.1, h.1.2.1, h.1.2.2.1⟩

theorem originalFromRow_eq {row : OriginalRow} {stored : OriginalIntent}
    (h : originalFromRow row = .ok stored) : stored = row.value := by
  simp only [originalFromRow, bind_eq_ok_iff, exists_unit_iff, pure_eq_ok] at h
  exact h.2.2.symm

/-- `assistant_original_intents`: one intent for a job. -/
def originalIntents : ImmutableTable OriginalRow OriginalIntent RepositoryError where
  prepare := prepareOriginal
  encode := OriginalIntent.row
  read := originalFromRow
  same := OriginalIntent.same
  clashes a b := a.id = b.id || a.jobId = b.jobId || (a.jobId = b.jobId && a.id = b.id)
  selects value row := row.id = value.id || row.jobId = value.jobId
  check row := row.schemaVersion > 0
  rejected := .database
  missing := .database
  conflict := .conflict "original intent"
  clashes_self row := by simp
  clashes_symm a b h := by
    simp only [Bool.or_eq_true, Bool.and_eq_true, decide_eq_true_eq] at h ⊢
    tauto
  selects_eq value row := by
    by_cases hid : row.id = value.id
    · simp [OriginalIntent.row, hid]
    by_cases hjob : row.jobId = value.jobId
    · simp [OriginalIntent.row, hjob]
    · simp [OriginalIntent.row, hid, Ne.symm hid, hjob, Ne.symm hjob]
  same_clashes row value stored hread hsame other := by
    rw [originalFromRow_eq hread] at hsame
    obtain ⟨hid, hjob, -⟩ := OriginalIntent.same_keys hsame
    simp only [OriginalIntent.row, ← hid, ← hjob, OriginalRow.value]
  same_check row value stored hread hsame hcheck := by
    rw [originalFromRow_eq hread] at hsame
    obtain ⟨-, -, hversion⟩ := OriginalIntent.same_keys hsame
    simp only [OriginalIntent.row, ← hversion]
    exact hcheck

/-- Observations that are the same differ at most in the sign of a zero. -/
theorem FactObservation.same_fields {a b : FactObservation}
    (h : FactObservation.same a b = true) :
    { a with confidence := none } = { b with confidence := none } ∧
      sameConfidence a.confidence b.confidence = true := by
  simpa [FactObservation.same] using h

theorem F32.isConfidence_of_eq {a b : F32} (h : F32.eq a b = true)
    (ha : a.isConfidence = true) : b.isConfidence = true := by
  simp only [F32.eq, decide_eq_true_eq] at h
  rcases h.2.2 with rfl | ⟨-, hzero⟩
  · exact ha
  · simp only [F32.isZero, decide_eq_true_eq] at hzero
    rcases hzero with hzero | hzero
    · simp [F32.isConfidence, hzero]
    · simp [F32.isConfidence, hzero]

theorem sameConfidence_check {a b : Option F32} (h : sameConfidence a b = true)
    (ha : a.all F32.isConfidence = true) : b.all F32.isConfidence = true := by
  cases a with
  | none =>
    cases b with
    | none => rfl
    | some b => cases h
  | some a =>
    cases b with
    | none => cases h
    | some b => exact F32.isConfidence_of_eq h ha

/-- `assistant_fact_observations`. -/
def factObservations : ImmutableTable FactObservation FactObservation RepositoryError where
  prepare value := .ok { value with observedAt := postgresTime value.observedAt }
  encode value := value
  read row := .ok row
  same := FactObservation.same
  clashes a b := a.id = b.id || (a.jobId = b.jobId && a.sequence = b.sequence) ||
    (a.jobId = b.jobId && a.key = b.key)
  selects value row := row.id = value.id || (row.jobId = value.jobId &&
    row.sequence = value.sequence) || (row.jobId = value.jobId && row.key = value.key)
  check row := row.sequence > 0 && hasText row.sourceId &&
    row.confidence.all F32.isConfidence && hasText row.extractorVersion
  rejected := .database
  missing := .database
  conflict := .conflict "fact observation"
  clashes_self row := by simp
  clashes_symm a b h := by
    simp only [Bool.or_eq_true, Bool.and_eq_true, decide_eq_true_eq] at h ⊢
    tauto
  selects_eq value row := by
    rw [Bool.eq_iff_iff]
    simp only [Bool.or_eq_true, Bool.and_eq_true, decide_eq_true_eq]
    tauto
  same_clashes row value stored hread hsame other := by
    obtain rfl := Except.ok.inj hread
    obtain ⟨hfields, -⟩ := FactObservation.same_fields hsame
    simp only [FactObservation.mk.injEq] at hfields
    obtain ⟨hid, hjob, hsequence, hkind, hsource, hpath, -⟩ := hfields
    have hkey : row.key = value.key := by
      rw [FactObservation.key, hkind, hsource, hpath]
      rfl
    simp only [hid, hjob, hsequence, hkey]
  same_check row value stored hread hsame hcheck := by
    obtain rfl := Except.ok.inj hread
    obtain ⟨hfields, hconfidence⟩ := FactObservation.same_fields hsame
    simp only [FactObservation.mk.injEq] at hfields
    obtain ⟨-, -, hsequence, -, hsource, -, -, -, hversion, -⟩ := hfields
    simp only [Bool.and_eq_true, ← hsequence, ← hsource, ← hversion] at hcheck ⊢
    exact ⟨⟨hcheck.1.1, sameConfidence_check hconfidence hcheck.1.2⟩, hcheck.2⟩

theorem effectiveFromRow_eq {row stored : EffectiveConstraints}
    (h : effectiveFromRow row = .ok stored) : stored = row := by
  simp only [effectiveFromRow, bind_eq_ok_iff, exists_unit_iff, pure_eq_ok] at h
  exact h.2.symm

/-- `assistant_effective_constraints`. -/
def effectiveConstraints :
    ImmutableTable EffectiveConstraints EffectiveConstraints RepositoryError where
  prepare := prepareEffective
  encode value := value
  read := effectiveFromRow
  same a b := a = b
  clashes a b := a.id = b.id || (a.jobId = b.jobId && a.revision = b.revision) ||
    (a.jobId = b.jobId && a.id = b.id)
  selects value row := row.id = value.id ||
    (row.jobId = value.jobId && row.revision = value.revision)
  check row := row.revision ≥ 0 && row.schemaVersion > 0
  rejected := .database
  missing := .database
  conflict := .conflict "effective constraints"
  clashes_self row := by simp
  clashes_symm a b h := by
    simp only [Bool.or_eq_true, Bool.and_eq_true, decide_eq_true_eq] at h ⊢
    tauto
  selects_eq value row := by
    rw [Bool.eq_iff_iff]
    simp only [Bool.or_eq_true, Bool.and_eq_true, decide_eq_true_eq]
    tauto
  same_clashes row value stored hread hsame other := by
    rw [← effectiveFromRow_eq hread, of_decide_eq_true hsame]
  same_check row value stored hread hsame hcheck := by
    rw [← of_decide_eq_true hsame, effectiveFromRow_eq hread]
    exact hcheck

def preparePlanner (value : PlannerInputSnapshot) : PlannerInputSnapshot :=
  { value with
    referenceInstant := postgresTime value.referenceInstant
    createdAt := postgresTime value.createdAt }

/-- `assistant_planner_input_snapshots`. -/
def plannerSnapshots (jsonb : Json → Json) :
    ImmutableTable PlannerInputSnapshot PlannerInputSnapshot RepositoryError where
  prepare value := .ok (preparePlanner value)
  encode value := { value with normalizedParameters := jsonb value.normalizedParameters }
  read row := .ok row
  same a b := a = b
  clashes a b := a.id = b.id || (a.jobId = b.jobId && a.revision = b.revision)
  selects value row := row.id = value.id ||
    (row.jobId = value.jobId && row.revision = value.revision)
  check row := row.revision ≥ 0 && hasText row.timezone && hasText row.selectedCapabilityId
  rejected := .database
  missing := .database
  conflict := .conflict "planner snapshot"
  clashes_self row := by simp
  clashes_symm a b h := by
    simp only [Bool.or_eq_true, Bool.and_eq_true, decide_eq_true_eq] at h ⊢
    tauto
  selects_eq value row := by
    rw [Bool.eq_iff_iff]
    simp only [Bool.or_eq_true, Bool.and_eq_true, decide_eq_true_eq]
    tauto
  same_clashes row value stored hread hsame other := by
    obtain rfl := Except.ok.inj hread
    obtain rfl := of_decide_eq_true hsame
    rfl
  same_check row value stored hread hsame hcheck := by
    obtain rfl := Except.ok.inj hread
    obtain rfl := of_decide_eq_true hsame
    exact hcheck

/-! ### The repository -/

structure CanonicalTables where
  originals : List OriginalRow
  observations : List FactObservation
  effective : List EffectiveConstraints
  planners : List PlannerInputSnapshot

/-- The rows of other tables that are referred to. -/
structure References where
  jobs : Uuid → Bool
  messages : Uuid → Uuid → Bool
  catalogs : Uuid → Bool

/-- What a statement or a transaction does to the tables, and its result. -/
abbrev Outcome (α : Type) := CanonicalTables × Except RepositoryError α

/-- Goes on when the first part succeeded. -/
def Outcome.andThen {α β : Type} (first : Outcome α) (next : CanonicalTables → α → Outcome β) :
    Outcome β :=
  match first with
  | (tables, .error e) => (tables, .error e)
  | (tables, .ok value) => next tables value

/-- A transaction that fails leaves the tables as they were. -/
def transaction {α : Type} (tables : CanonicalTables) (done : Outcome α) : Outcome α :=
  match done with
  | (_, .error e) => (tables, .error e)
  | (after, .ok value) => (after, .ok value)

section Repository

variable (jsonb : Json → Json) (references : References) (choice : ℕ) (choices : ℕ → ℕ)
  (tables : CanonicalTables)

def insertOriginal (value : OriginalIntent) : Outcome OriginalIntent :=
  let done := originalIntents.insert
    (fun row => references.jobs row.jobId && references.messages row.jobId row.rawMessageId)
    choice tables.originals value
  ({ tables with originals := done.1 }, done.2)

def insertObservations (values : List FactObservation) : Outcome (List FactObservation) :=
  let done := factObservations.insertAll (fun row => references.jobs row.jobId) choices
    tables.observations values
  ({ tables with observations := done.1 }, done.2)

def insertEffective (value : EffectiveConstraints) : Outcome EffectiveConstraints :=
  let done := effectiveConstraints.insert (fun row => references.jobs row.jobId) choice
    tables.effective value
  ({ tables with effective := done.1 }, done.2)

def insertPlanner (value : PlannerInputSnapshot) : Outcome PlannerInputSnapshot :=
  let done := (plannerSnapshots jsonb).insert
    (fun row => references.jobs row.jobId && references.catalogs row.capabilityCatalogVersion &&
      tables.originals.any (fun original =>
        original.jobId = row.jobId && original.id = row.originalIntentId) &&
      tables.effective.any fun effective =>
        effective.jobId = row.jobId && effective.id = row.effectiveConstraintsId)
    choice tables.planners value
  ({ tables with planners := done.1 }, done.2)

def appendObservations (jobId : Uuid) (values : List FactObservation) :
    Outcome (List FactObservation) :=
  if values.any (fun value => value.jobId ≠ jobId) then
    (tables, .error (.conflict "observation job"))
  else transaction tables (insertObservations references choices tables values)

def insertInitialState (intent : OriginalIntent) (observations : List FactObservation)
    (effective : EffectiveConstraints) :
    Outcome (OriginalIntent × List FactObservation × EffectiveConstraints) :=
  if observations.any (fun item => item.jobId ≠ intent.jobId) ∨ effective.jobId ≠ intent.jobId then
    (tables, .error (.conflict "initial state job"))
  else transaction tables <|
    (insertOriginal references (choices 0) tables intent).andThen fun tables savedIntent =>
    (insertObservations references (fun i => choices (i + 2)) tables observations).andThen
      fun tables savedObservations =>
    (insertEffective references (choices 1) tables effective).andThen fun tables savedEffective =>
    (tables, .ok (savedIntent, savedObservations, savedEffective))

end Repository

inductive CanonicalCall where
  | insertOriginalIntent (value : OriginalIntent)
  | appendObservations (jobId : Uuid) (values : List FactObservation)
  | insertEffectiveConstraints (value : EffectiveConstraints)
  | insertPlannerSnapshot (value : PlannerInputSnapshot)
  | insertInitialState (intent : OriginalIntent) (observations : List FactObservation)
    (effective : EffectiveConstraints)

/-- The stored values a call returns. -/
structure Saved where
  original : Option OriginalIntent
  observations : List FactObservation
  effective : Option EffectiveConstraints
  planner : Option PlannerInputSnapshot
deriving DecidableEq

def CanonicalCall.run (jsonb : Json → Json) (references : References) (choices : ℕ → ℕ)
    (tables : CanonicalTables) : CanonicalCall → Outcome Saved
  | insertOriginalIntent value =>
    (insertOriginal references (choices 0) tables value).andThen fun tables saved =>
      (tables, .ok ⟨some saved, [], none, none⟩)
  | appendObservations jobId values =>
    (CanonicalState.appendObservations references choices tables jobId values).andThen
      fun tables saved => (tables, .ok ⟨none, saved, none, none⟩)
  | insertEffectiveConstraints value =>
    (insertEffective references (choices 0) tables value).andThen fun tables saved =>
      (tables, .ok ⟨none, [], some saved, none⟩)
  | insertPlannerSnapshot value =>
    (insertPlanner jsonb references (choices 0) tables value).andThen fun tables saved =>
      (tables, .ok ⟨none, [], none, some saved⟩)
  | insertInitialState intent observations effective =>
    (CanonicalState.insertInitialState references choices tables intent observations
      effective).andThen fun tables saved =>
      (tables, .ok ⟨some saved.1, saved.2.1, some saved.2.2, none⟩)

/-- A call, the rows it refers to and the rows the database picks when it reads back. -/
structure CanonicalAction where
  references : References
  choices : ℕ → ℕ
  call : CanonicalCall

/-- Any sequence of calls on tables that are empty at first. -/
def canonicalMachine (jsonb : Json → Json) : Machine CanonicalTables CanonicalAction where
  init tables := tables = ⟨[], [], [], []⟩
  step tables action := some (action.call.run jsonb action.references action.choices tables).1

end FineractReports.CanonicalState
