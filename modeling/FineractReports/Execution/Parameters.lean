import FineractReports.Knowledge.Model
import FineractReports.Library.Checks

/-!
# Query parameters of a plan

How the planner fills the parameters of a capability's query: from the canonical
facts of the turn, then from the policy's default, then with the default row limit.
`toLowercase` stands for the lower case of the Unicode tables.
-/

namespace FineractReports

abbrev Facts := List (ConstraintField × TypedFactValue)

abbrev Params := List (String × Json)

namespace Execution

def DEFAULT_REPORT_LIMIT : ℤ := 10

/-- Row limits the user did not state. -/
def defaultRequiredParameter (parameter : QueryParameter) : Option Json :=
  if parameter.required ∧ (parameter.name = "limit" ∨ parameter.name = "top_n") then
    some (.int DEFAULT_REPORT_LIMIT)
  else none

/-- Filled at execution from the principal or from the sensitive input, never planned. -/
def filledAtExecution (parameter : QueryParameter) : Bool :=
  parameter.source = some "authorized_scope" ∨
    parameter.source = some "transient_sensitive_input"

/-- Shapes a text by the declared type of the parameter. -/
def bindText (kind text : String) : Option Json :=
  if kind = "integer" then (Text.parseI64 text).map .int else some (.str text)

def bindValue (kind : String) (value : TypedFactValue) : Option Json :=
  match value with
  | .date text | .decimal text | .currencyCode text | .metric text | .personName text
  | .office text | .product text | .chargeType text | .accountNumber text => bindText kind text
  | .integer value | .clientId value => some (.int value)
  | .idList (.replace ids) =>
    if kind = "integer" then ids.head?.map .int else some (.arr (ids.map .int))
  | .clear | .limitMode _ | .domain _ | .idList (.add _) | .idList (.remove _) => none

/-- The first fact that can fill the parameter, in the catalog's precedence order. -/
def bindParameter (catalog : KnowledgeCatalog) (facts : Facts) (parameter : QueryParameter) :
    Option Json :=
  (catalog.bindingFields parameter.name).findSome? fun field =>
    (Assoc.get? facts field).bind (bindValue parameter.kind)

def quantityLimit (constraints : AssistantConstraints) : Option ℤ :=
  match constraints.quantity with
  | some (.limit value) | some (.topN value) => some value
  | some .default | some .all | none => none

def insertSome (facts : Facts) (field : ConstraintField) (value : Option TypedFactValue) : Facts :=
  match value with
  | some value => Assoc.insert facts field value
  | none => facts

/-- Adds a fact unless its field is taken. -/
def fillGap (facts : Facts) (field : ConstraintField) (value : TypedFactValue) : Facts :=
  if (Assoc.get? facts field).isSome then facts else Assoc.insert facts field value

def extractionFacts (extraction : DeterministicExtraction) : Facts :=
  let constraints := extraction.constraints
  let facts := insertSome [] .fromDate (constraints.fromDate.map .date)
  let facts := insertSome facts .toDate (constraints.toDate.map .date)
  let facts := insertSome facts .currencyCode (constraints.currencyCode.map .currencyCode)
  let facts := insertSome facts .transactionAmount (constraints.transactionAmount.map .decimal)
  let facts := insertSome facts .limitValue ((quantityLimit constraints).map .integer)
  extraction.entities.foldl (fun facts entity =>
    match entityFact entity with
    | some (field, value) => Assoc.insert facts field value
    | none => facts) facts

/-- Entity kinds the model may supply unconditionally. -/
def MODEL_TRUSTED_ENTITIES : List AssistantEntityType :=
  [.clientId, .office, .product, .chargeType]

/-- Entity kinds the model may supply only in the user's own words. -/
def MODEL_VERBATIM_ENTITIES : List AssistantEntityType := [.personName]

section Lowercase

variable (toLowercase : String → String)

def occursVerbatim (message value : String) : Bool :=
  Text.trim value ≠ "" ∧
    Text.contains (toLowercase message) (toLowercase (Text.trim value)) = true

def admissible (message : Option String) (entity : AssistantEntity) : Bool :=
  entity.entityType ∈ MODEL_TRUSTED_ENTITIES ∨
    (entity.entityType ∈ MODEL_VERBATIM_ENTITIES ∧
      message.any (fun message => occursVerbatim toLowercase message entity.value) = true)

def intentProducts (intent : AssistantIntent) (facts : Facts) : Facts :=
  match intent.constraints.productIds with
  | some ids => fillGap facts .productIds (.idList (.replace ids))
  | none => facts

def intentEntity (message : Option String) (facts : Facts) (entity : AssistantEntity) : Facts :=
  if admissible toLowercase message entity then
    match entityFact entity with
    | some (field, value) => fillGap facts field value
    | none => facts
  else facts

/-- The model's intent only fills the gaps the extractor left. -/
def intentFacts (message : Option String) (intent : AssistantIntent) (facts : Facts) : Facts :=
  intent.entities.foldl (intentEntity toLowercase message) (intentProducts intent facts)

/-- The canonical facts of one turn. -/
def requestFacts (message : Option String) (intent : Option AssistantIntent)
    (extraction : Option DeterministicExtraction) : Facts :=
  let facts :=
    match extraction with
    | some extraction => extractionFacts extraction
    | none => []
  match intent with
  | some intent => intentFacts toLowercase message intent facts
  | none => facts

end Lowercase

/-- `ResolvedValue` as JSON; no bound is the largest `i64`. -/
def resolvedToValue : ResolvedValue → Json
  | .date date => .str date.display
  | .integer value => .int value
  | .integerArray ids => .arr (ids.map .int)
  | .unbounded => .int (2 ^ 63 - 1)

def resolvePolicyDefault (policies : List ParameterPolicy) (ctx : Option EvaluationContext)
    (name : String) : Option Json := do
  let ctx ← ctx
  let policy ← policies.find? fun policy => policy.name = name
  if policy.required then none
  else
    let default ← policy.default
    pure (resolvedToValue (default.evaluate ctx))

/-- Row limits above the catalog's hard cap are clamped to it. -/
def clampHardCap (params : Params) (policy : ParameterPolicy) : Params :=
  match policy.hardCap, (Assoc.get? params policy.name).bind Json.asI64? with
  | some cap, some requested =>
    if requested > cap then Assoc.insert params policy.name (.int cap) else params
  | _, _ => params

def clampHardCaps (params : Params) (policies : List ParameterPolicy) : Params :=
  policies.foldl clampHardCap params

/-- Fills the parameters in order; a required one without a value is an error. -/
def fillParameters (value : QueryParameter → Option Json) (params : Params) :
    List QueryParameter → Except String Params
  | [] => .ok params
  | parameter :: rest =>
    if filledAtExecution parameter then fillParameters value params rest
    else match value parameter with
      | some filled => fillParameters value (Assoc.insert params parameter.name filled) rest
      | none =>
        if parameter.required then .error ("missing parameter " ++ parameter.name)
        else fillParameters value params rest

/-- The value of one parameter: a fact, the policy default or the default limit. -/
def parameterValue (catalog : KnowledgeCatalog) (facts : Facts) (policies : List ParameterPolicy)
    (ctx : Option EvaluationContext) (parameter : QueryParameter) : Option Json :=
  (bindParameter catalog facts parameter).or
    ((resolvePolicyDefault policies ctx parameter.name).or (defaultRequiredParameter parameter))

def paramsFromVerified (toLowercase : String → String) (catalog : KnowledgeCatalog)
    (query : QueryKnowledge) (intent : AssistantIntent)
    (extraction : Option DeterministicExtraction) (policies : List ParameterPolicy)
    (ctx : Option EvaluationContext) (message : Option String) : Except String Params := do
  let facts := requestFacts toLowercase message (some intent) extraction
  let params ← fillParameters (parameterValue catalog facts policies ctx) [] query.parameters
  pure (clampHardCaps params policies)

def executableCapability (catalog : KnowledgeCatalog) (capabilityId : String) :
    Except String CapabilityKnowledge :=
  okOr (catalog.capabilities.find? fun item =>
    item.id = capabilityId ∧ item.status = "approved_mvp") "selected capability is not executable"

/-- The value of the last parameter of a name that has one. -/
def lastValue (value : QueryParameter → Option Json) (parameters : List QueryParameter)
    (name : String) : Option Json :=
  ((parameters.filter fun parameter =>
    filledAtExecution parameter = false ∧ parameter.name = name).filterMap value).getLast?

def cappedBy (policy : ParameterPolicy) (value : Json) : Json :=
  match policy.hardCap, value.asI64? with
  | some cap, some requested => if requested > cap then .int cap else value
  | _, _ => value

/-- A value after the hard caps of the policies of its name. -/
def capped (policies : List ParameterPolicy) (name : String) (value : Json) : Json :=
  policies.foldl (fun value policy => if policy.name = name then cappedBy policy value else value)
    value

section Lemmas

variable {value : QueryParameter → Option Json} {params out : Params}

theorem fillGap_get? (facts : Facts) (gap field : ConstraintField) (filling : TypedFactValue) :
    Assoc.get? (fillGap facts gap filling) field =
      (Assoc.get? facts field).or (if gap = field then some filling else none) := by
  unfold fillGap
  by_cases htaken : (Assoc.get? facts gap).isSome = true
  · rw [if_pos htaken]
    by_cases hgap : gap = field
    · subst hgap
      obtain ⟨old, hold⟩ := Option.isSome_iff_exists.mp htaken
      simp [hold]
    · simp [hgap]
  · rw [if_neg htaken, Assoc.get?_insert]
    by_cases hgap : gap = field
    · subst hgap
      have hnone : Assoc.get? facts gap = none := by simpa using htaken
      simp [hnone]
    · simp [hgap]

/-- Filling succeeds exactly when every required parameter of the plan has a value. -/
theorem fillParameters_isOk {parameters : List QueryParameter} :
    (∃ out, fillParameters value params parameters = .ok out) ↔
      ∀ parameter ∈ parameters, filledAtExecution parameter = false →
        parameter.required = true → (value parameter).isSome = true := by
  induction parameters generalizing params with
  | nil => simp [fillParameters]
  | cons parameter rest ih =>
    rw [List.forall_mem_cons]
    unfold fillParameters
    cases hfilled : filledAtExecution parameter with
    | true => simp [ih]
    | false =>
      cases hvalue : value parameter with
      | some filled => simp [ih]
      | none =>
        cases hrequired : parameter.required with
        | true => simp
        | false => simp [ih]

theorem lastValue_cons (parameter : QueryParameter) (rest : List QueryParameter) (name : String) :
    lastValue value (parameter :: rest) name =
      (lastValue value rest name).or
        (if filledAtExecution parameter = false ∧ parameter.name = name then value parameter
          else none) := by
  unfold lastValue
  by_cases hname : filledAtExecution parameter = false ∧ parameter.name = name
  · rw [List.filter_cons_of_pos (by simpa using hname), if_pos hname]
    cases hvalue : value parameter with
    | none => simp [hvalue]
    | some filled => simp [hvalue, List.getLast?_cons, Option.or_some]
  · rw [List.filter_cons_of_neg (by simpa using hname), if_neg hname]
    simp

/-- The facts of a turn depend on the product ids and the entities of the intent only. -/
theorem requestFacts_congr {a b : AssistantIntent}
    (hids : a.constraints.productIds = b.constraints.productIds)
    (hentities : a.entities = b.entities)
    (toLowercase : String → String) (message : Option String)
    (extraction : Option DeterministicExtraction) :
    requestFacts toLowercase message (some a) extraction =
      requestFacts toLowercase message (some b) extraction := by
  unfold requestFacts intentFacts intentProducts
  simp only [hids, hentities]

/-- What filling gives a name: its last value, or what was there before. -/
theorem fillParameters_get? {parameters : List QueryParameter}
    (h : fillParameters value params parameters = .ok out) (name : String) :
    Assoc.get? out name = (lastValue value parameters name).or (Assoc.get? params name) := by
  induction parameters generalizing params with
  | nil =>
    obtain rfl : params = out := by simpa [fillParameters] using h
    simp [lastValue]
  | cons parameter rest ih =>
    rw [lastValue_cons]
    unfold fillParameters at h
    cases hfilled : filledAtExecution parameter with
    | true =>
      rw [hfilled, if_pos rfl] at h
      simp [ih h]
    | false =>
      rw [hfilled, if_neg (by decide)] at h
      cases hvalue : value parameter with
      | some filled =>
        rw [hvalue] at h
        rw [ih h, Assoc.get?_insert]
        by_cases hname : parameter.name = name <;> simp [hname]
      | none =>
        rw [hvalue] at h
        cases hrequired : parameter.required with
        | true => simp [hrequired] at h
        | false =>
          rw [ih (by simpa [hrequired] using h)]
          simp

theorem clampHardCap_get? (params : Params) (policy : ParameterPolicy) (name : String) :
    Assoc.get? (clampHardCap params policy) name =
      (Assoc.get? params name).map
        fun value => if policy.name = name then cappedBy policy value else value := by
  by_cases hname : policy.name = name
  · subst hname
    unfold clampHardCap cappedBy
    cases hcap : policy.hardCap with
    | none => simp
    | some cap =>
      cases hvalue : Assoc.get? params policy.name with
      | none => simp [hvalue]
      | some value =>
        cases hint : value.asI64? with
        | none => simp [hint, hvalue]
        | some requested =>
          by_cases hover : requested > cap <;> simp [hint, hvalue, hover]
  · have hkept : Assoc.get? (clampHardCap params policy) name = Assoc.get? params name := by
      unfold clampHardCap
      split
      · split_ifs
        · exact Assoc.get?_insert_of_ne params _ hname
        · rfl
      · rfl
    simp [hkept, hname]

theorem clampHardCaps_get? (params : Params) (policies : List ParameterPolicy) (name : String) :
    Assoc.get? (clampHardCaps params policies) name =
      (Assoc.get? params name).map (capped policies name) := by
  unfold clampHardCaps
  induction policies generalizing params with
  | nil =>
    have hid : capped [] name = id := rfl
    simp [hid]
  | cons policy rest ih =>
    rw [List.foldl_cons, ih, clampHardCap_get?, Option.map_map]
    rfl

end Lemmas

end Execution

end FineractReports
