import FineractReports.Assistant.Clarification
import FineractReports.Assistant.CanonicalFacts
import FineractReports.Library.Checks
import FineractReports.Library.KeyedLists

/-!
# Merging fact observations

Observations are folded in the order of their trust, sequence and id. A source speaks
once about a field: the same word again changes nothing, another one is a conflict.
Advice of the language model is checked like the rest and then ignored.
-/

namespace FineractReports.CanonicalState

/-- An `f32`, by its bits. -/
structure F32 where
  bits : UInt32
deriving DecidableEq, Repr

/-- Finite and within `0.0..=1.0`; the bits of the non-negative floats are ordered as they
are, and minus zero equals zero. -/
def F32.isConfidence (value : F32) : Bool := value.bits ≤ 0x3F800000 ∨ value.bits = 0x80000000

inductive FactSourceKind where
  | originalRequest | clarification | deterministicResolver | approvedDefault | llmAdvisory
deriving DecidableEq, Repr

structure FactObservation where
  id : Uuid
  jobId : Uuid
  sequence : ℤ
  sourceKind : FactSourceKind
  sourceId : String
  fieldPath : ConstraintField
  typedValue : TypedFactValue
  confidence : Option F32
  extractorVersion : String
  observedAt : ℤ
deriving DecidableEq

structure EffectiveConstraints where
  id : Uuid
  jobId : Uuid
  revision : ℤ
  schemaVersion : ℤ
  values : List (ConstraintField × TypedFactValue)
  winningObservationIds : List (ConstraintField × Uuid)
  createdAt : ℤ
deriving DecidableEq

structure ConstraintContract where
  clearable : Bool
  list : Bool
deriving DecidableEq, Repr

abbrev ConstraintContracts := List (ConstraintField × ConstraintContract)

inductive MergeError where
  | jobMismatch
  | invalidConfidence
  | missingContract (field : ConstraintField)
  | invalidValue (field : ConstraintField)
  | clearRejected (field : ConstraintField)
  | conflictingReplay (field : ConstraintField)
deriving DecidableEq, Repr

def executableConstraintContracts : ConstraintContracts :=
  [(.limitMode, ⟨false, false⟩), (.limitValue, ⟨true, false⟩), (.fromDate, ⟨true, false⟩),
   (.toDate, ⟨true, false⟩), (.currencyCode, ⟨true, false⟩), (.metric, ⟨true, false⟩),
   (.transactionAmount, ⟨true, false⟩), (.domain, ⟨false, false⟩), (.personName, ⟨true, false⟩),
   (.office, ⟨true, false⟩), (.product, ⟨true, false⟩), (.chargeType, ⟨true, false⟩),
   (.accountNumber, ⟨true, false⟩), (.productIds, ⟨true, true⟩), (.officeIds, ⟨true, true⟩)]

def rank : FactSourceKind → ℕ
  | .llmAdvisory => 0
  | .approvedDefault => 1
  | .deterministicResolver => 2
  | .originalRequest => 3
  | .clarification => 4

def TypedFactValue.isIdList : TypedFactValue → Bool
  | .idList _ => true
  | _ => false

/-- The pairs of a field and a value kind that belong together. -/
def kindMatches : ConstraintField → TypedFactValue → Bool
  | .limitMode, .limitMode _ => true
  | .limitValue, .integer _ => true
  | .fromDate, .date _ => true
  | .toDate, .date _ => true
  | .currencyCode, .currencyCode _ => true
  | .metric, .metric _ => true
  | .transactionAmount, .decimal _ => true
  | .domain, .domain _ => true
  | .personName, .personName _ => true
  | .office, .office _ => true
  | .product, .product _ => true
  | .productIds, .idList _ => true
  | .officeIds, .idList _ => true
  | _, _ => false

def validate (field : ConstraintField) (value : TypedFactValue) (contract : ConstraintContract) :
    Except MergeError Unit :=
  if value = .clear then failIf (¬ contract.clearable = true) (.clearRejected field)
  else failIf (¬ (kindMatches field value = true ∧
    contract.list = TypedFactValue.isIdList value)) (.invalidValue field)

/-- The list a patch is applied to: what a replacing patch holds, or nothing. -/
def heldIds : Option TypedFactValue → List ℤ
  | some (.idList (.replace ids)) => ids
  | _ => []

def ListPatch.applied (ids : List ℤ) : ListPatch ℤ → List ℤ
  | .replace new => new
  | .add new => new.foldl (fun ids id => if id ∈ ids then ids else ids ++ [id]) ids
  | .remove old => ids.filter fun id => id ∉ old

def apply (values : List (ConstraintField × TypedFactValue)) (field : ConstraintField) :
    TypedFactValue → List (ConstraintField × TypedFactValue)
  | .clear => Assoc.erase values field
  | .idList patch => Assoc.insert values field
    (.idList (.replace (ListPatch.applied (heldIds (Assoc.get? values field)) patch)))
  | value => Assoc.insert values field value

/-- Source kind, source and field of an observation. -/
abbrev FactKey := FactSourceKind × String × ConstraintField

def FactObservation.key (observation : FactObservation) : FactKey :=
  (observation.sourceKind, observation.sourceId, observation.fieldPath)

/-- The order of the merge: trust, then sequence, then id. -/
def FactObservation.order (observation : FactObservation) : ℕ ×ₗ ℤ ×ₗ ℕ :=
  toLex (rank observation.sourceKind, toLex (observation.sequence, observation.id))

/-- The local variables of the loop. -/
structure MergeState where
  seen : List (FactKey × TypedFactValue)
  values : List (ConstraintField × TypedFactValue)
  winners : List (ConstraintField × Uuid)
  createdAt : ℤ

def MergeState.empty : MergeState := ⟨[], [], [], 0⟩

/-- One pass of the loop. -/
def mergeStep (jobId : Uuid) (contracts : ConstraintContracts) (state : MergeState)
    (o : FactObservation) : Except MergeError MergeState := do
  failIf (o.jobId ≠ jobId) .jobMismatch
  failIf (o.confidence.any (fun value => !value.isConfidence) = true) .invalidConfidence
  let contract ← okOr (Assoc.get? contracts o.fieldPath) (.missingContract o.fieldPath)
  validate o.fieldPath o.typedValue contract
  let seen := Assoc.insert state.seen o.key o.typedValue
  match Assoc.get? state.seen o.key with
  | some old =>
    failIf (old ≠ o.typedValue) (.conflictingReplay o.fieldPath)
    return { state with seen := seen }
  | none =>
    if o.sourceKind = .llmAdvisory then return { state with seen := seen }
    return { seen := seen
             values := apply state.values o.fieldPath o.typedValue
             winners := Assoc.insert state.winners o.fieldPath o.id
             createdAt := max state.createdAt o.observedAt }

/-- The loop over the ordered observations. -/
def mergeLoop (jobId : Uuid) (contracts : ConstraintContracts) :
    MergeState → List FactObservation → Except MergeError MergeState
  | state, [] => .ok state
  | state, o :: rest => do
    let state ← mergeStep jobId contracts state o
    mergeLoop jobId contracts state rest

def mergeObservations (jobId : Uuid) (revision : ℤ) (observations : List FactObservation)
    (contracts : ConstraintContracts) : Except MergeError EffectiveConstraints := do
  let merged ← mergeLoop jobId contracts .empty (sortByKey FactObservation.order observations)
  return { id := 0
           jobId := jobId
           revision := revision
           schemaVersion := 1
           values := merged.values
           winningObservationIds := merged.winners
           createdAt := merged.createdAt }

/-! ### What the merge accepts -/

/-- What the merge checks of an observation by itself. -/
structure Admissible (jobId : Uuid) (contracts : ConstraintContracts) (o : FactObservation) :
    Prop where
  job : o.jobId = jobId
  confidence : o.confidence.all F32.isConfidence = true
  value : ∃ contract, Assoc.get? contracts o.fieldPath = some contract ∧
    validate o.fieldPath o.typedValue contract = .ok ()

section Merge

variable {jobId : Uuid} {contracts : ConstraintContracts} {state after : MergeState}
  {o : FactObservation} {observations rest : List FactObservation}

/-- What one pass does with an observation. -/
inductive MergeEffect (state : MergeState) (o : FactObservation) : MergeState → Prop
  | replayed (hseen : Assoc.get? state.seen o.key = some o.typedValue) :
      MergeEffect state o { state with seen := Assoc.insert state.seen o.key o.typedValue }
  | advised (hnew : Assoc.get? state.seen o.key = none) (hadvice : o.sourceKind = .llmAdvisory) :
      MergeEffect state o { state with seen := Assoc.insert state.seen o.key o.typedValue }
  | recorded (hnew : Assoc.get? state.seen o.key = none) (htrusted : o.sourceKind ≠ .llmAdvisory) :
      MergeEffect state o
        { seen := Assoc.insert state.seen o.key o.typedValue
          values := apply state.values o.fieldPath o.typedValue
          winners := Assoc.insert state.winners o.fieldPath o.id
          createdAt := max state.createdAt o.observedAt }

theorem mergeStep_eq_ok : mergeStep jobId contracts state o = .ok after ↔
    Admissible jobId contracts o ∧ MergeEffect state o after := by
  have hconfidence : (¬ o.confidence.any (fun value => !value.isConfidence) = true) ↔
      o.confidence.all F32.isConfidence = true := by
    cases o.confidence <;> simp
  have hadmissible : Admissible jobId contracts o ↔ o.jobId = jobId ∧
      o.confidence.all F32.isConfidence = true ∧
        ∃ contract, Assoc.get? contracts o.fieldPath = some contract ∧
          validate o.fieldPath o.typedValue contract = .ok () :=
    ⟨fun h => ⟨h.job, h.confidence, h.value⟩, fun ⟨h, h', h''⟩ => ⟨h, h', h''⟩⟩
  have heffect : (match Assoc.get? state.seen o.key with
      | some old => do
        failIf (old ≠ o.typedValue) (.conflictingReplay o.fieldPath)
        return { state with seen := Assoc.insert state.seen o.key o.typedValue }
      | none =>
        if o.sourceKind = .llmAdvisory then
          return { state with seen := Assoc.insert state.seen o.key o.typedValue }
        else return { seen := Assoc.insert state.seen o.key o.typedValue
                      values := apply state.values o.fieldPath o.typedValue
                      winners := Assoc.insert state.winners o.fieldPath o.id
                      createdAt := max state.createdAt o.observedAt } :
        Except MergeError MergeState) = .ok after ↔ MergeEffect state o after := by
    cases hseen : Assoc.get? state.seen o.key with
    | some old =>
      simp only [bind_eq_ok_iff, exists_unit_iff, failIf_eq_ok, not_not, pure_eq_ok]
      constructor
      · rintro ⟨rfl, rfl⟩
        exact .replayed hseen
      · intro h
        cases h with
        | replayed hsame =>
          rw [hseen] at hsame
          exact ⟨Option.some.inj hsame, rfl⟩
        | advised hnew _ => simp [hseen] at hnew
        | recorded hnew _ => simp [hseen] at hnew
    | none =>
      by_cases hadvice : o.sourceKind = .llmAdvisory
      · simp only [if_pos hadvice, pure_eq_ok]
        constructor
        · rintro rfl
          exact .advised hseen hadvice
        · intro h
          cases h with
          | replayed hsame => simp [hseen] at hsame
          | advised _ _ => rfl
          | recorded _ htrusted => exact absurd hadvice htrusted
      · simp only [if_neg hadvice, pure_eq_ok]
        constructor
        · rintro rfl
          exact .recorded hseen hadvice
        · intro h
          cases h with
          | replayed hsame => simp [hseen] at hsame
          | advised _ hadvice' => exact absurd hadvice' hadvice
          | recorded _ _ => rfl
  rw [← heffect, hadmissible, ← hconfidence]
  simp only [mergeStep, bind_eq_ok_iff, exists_unit_iff, failIf_eq_ok, not_not, okOr_eq_ok]
  constructor
  · rintro ⟨hjob, hconf, contract, hcontract, hvalid, h⟩
    exact ⟨⟨hjob, hconf, contract, hcontract, hvalid⟩, h⟩
  · rintro ⟨⟨hjob, hconf, contract, hcontract, hvalid⟩, h⟩
    exact ⟨hjob, hconf, contract, hcontract, hvalid, h⟩

end Merge

end FineractReports.CanonicalState
