import FineractReports.Execution.Binds
import FineractReports.Knowledge.Validator

/-!
# Row ceiling

The rows of an issued statement. The cap of a plan replaces the value of the statement's row
limit where no value within the cap is asked for, and one row above the cap tells whether
rows were left out. The database is a parameter, its errors and the timeout included.
-/

namespace FineractReports.Execution

/-! ### Fetched rows -/

/-- A fetched row, by what `try_get` reads from its columns. -/
structure DatabaseRow (Number : Type) where
  date : String → Except String (Option NaiveDate)
  decimal : String → Except String (Option Number)
  bigint : String → Except String (Option ℤ)
  text : String → Except String (Option String)
  boolean : String → Except String (Option Bool)

structure ExecutionResult where
  queryId : String
  rowCount : ℕ
  rows : List Json
  truncated : Bool
  shown : ℤ
  appliedFilters : List String
deriving DecidableEq

section Rows

variable {Number : Type} (showDate : NaiveDate → String) (showDecimal : Number → String)

def orNull {α : Type} (toJson : α → Json) (value : Option α) : Json := (value.map toJson).getD .null

def fieldValue (row : DatabaseRow Number) (field : QueryOutputField) : Except String Json :=
  if field.kind = "date" then
    (row.date field.name).map (orNull fun value => .str (showDate value))
  else if field.kind = "decimal" then
    (row.decimal field.name).map (orNull fun value => .str (showDecimal value))
  else if field.kind = "integer" ∨ field.kind = "bigint" then
    (row.bigint field.name).map (orNull .int)
  else if field.kind = "string" then (row.text field.name).map (orNull .str)
  else if field.kind = "boolean" then (row.boolean field.name).map (orNull .bool)
  else .error ("unsupported output field type " ++ field.kind)

def resultRow (fields : List QueryOutputField) (row : DatabaseRow Number) : Except String Json := do
  let members ← collectAll fields fun field =>
    (fieldValue showDate showDecimal row field).map fun value => [(field.name, value)]
  pure (.obj (members.foldl (fun members member => Assoc.insert members member.1 member.2) []))

end Rows

/-! ### Truncation -/

/-- Whether a result is truncated, and how many of its rows are shown. -/
def shownRows (fetch : Option ℤ) (count : ℕ) : Bool × ℤ :=
  match fetch with
  | some limit => if limit < count then (true, limit) else (false, count)
  | none => (false, count)

/-- The cast of an `i64` to `usize`. -/
def asUsize (value : ℤ) : ℕ := if 0 ≤ value then value.toNat else (value + 2 ^ 64).toNat

/-- `Vec::truncate` of the fetched rows, when they are to be truncated. -/
def truncateRows {α : Type} (cut : Bool × ℤ) (rows : List α) : List α :=
  if cut.1 = true then rows.take (asUsize cut.2) else rows

/-- A call of the executor, with the database it runs on. -/
structure PlanExecution (Number : Type) where
  parseDate : String → Except String NaiveDate
  parseDecimal : String → Except String Number
  showDate : NaiveDate → String
  showDecimal : Number → String
  disk : Disk
  catalog : KnowledgeCatalog
  plan : ExecutionPlan
  policy : PolicyDecision
  limits : ExecutionLimits
  sensitiveIdentifier : Option String
  /-- `fetch_all_with_timeout` -/
  fetchAll : Statement → List (BindValue Number) → Except String (List (DatabaseRow Number))

namespace PlanExecution

section Execute

variable {Number : Type} (run : PlanExecution Number)

def issue : Except String (Statement × List (BindValue Number)) :=
  issueStatement run.parseDate run.parseDecimal run.disk run.catalog run.plan run.policy run.limits
    run.sensitiveIdentifier

def rowCap : ℤ :=
  effectiveRowCap (declaredHardCap run.plan run.catalog) run.limits.globalMaxRows

def fetchBound (statement : Statement) : Option ℤ :=
  fetchLimit run.plan run.catalog run.limits statement.parameters

def executePlanWithSensitive : Except String ExecutionResult := do
  let issued ← run.issue
  let fetched ← run.fetchAll issued.1 issued.2
  let cut := shownRows (run.fetchBound issued.1) fetched.length
  let rows ← collectAll (truncateRows cut fetched) fun row =>
    (resultRow run.showDate run.showDecimal issued.1.outputFields row).map fun row => [row]
  pure
    { queryId := run.plan.queryId
      rowCount := rows.length
      rows := rows
      truncated := cut.1
      shown := cut.2
      appliedFilters := issued.1.appliedFilters }

end Execute

end PlanExecution

/-! ### Row limits -/

section Limits

variable {Number : Type}

/-- The declared parameters that are bound, each with its value. -/
def boundParameters (parameters : List QueryParameter) (binds : List (BindValue Number)) :
    List (QueryParameter × BindValue Number) :=
  (parameters.filter fun parameter => isTransient parameter = false).zip binds

def integerBind? : BindValue Number → Option (Option ℤ)
  | .integer value => some value
  | _ => none

/-- The integers bound to the named parameters. -/
def boundIntegers (named : String → Bool) (parameters : List QueryParameter)
    (binds : List (BindValue Number)) : List (Option ℤ) :=
  (boundParameters parameters binds).filterMap fun bound =>
    if named bound.1.name = true then integerBind? bound.2 else none

/-- The bound values, with another one for the named parameter where that is an integer. -/
def withRowLimit (name : String) (value : Option ℤ) (parameters : List QueryParameter)
    (binds : List (BindValue Number)) : List (BindValue Number) :=
  (boundParameters parameters binds).map (fun bound =>
      if bound.1.name = name ∧ (integerBind? bound.2).isSome = true then .integer value
      else bound.2) ++
    binds.drop (boundParameters parameters binds).length

/-- The new row limit lets through what the old one does; NULL is no limit. -/
def NoLowerLimit (old new : Option ℤ) : Prop :=
  ∀ value, new = some value → ∃ bound, old = some bound ∧ bound ≤ value

/-- A database whose statements apply their row limits: a result has no more rows than the
value bound to a limit, and raising that value loses no row. -/
structure AppliesLimits
    (fetchAll : Statement → List (BindValue Number) → Except String (List (DatabaseRow Number))) :
    Prop where
  bounded : ∀ {statement binds rows limit}, fetchAll statement binds = .ok rows →
    some limit ∈ boundIntegers isLimitName statement.parameters binds → (rows.length : ℤ) ≤ limit
  raised : ∀ {statement binds name value rows others}, isLimitName name = true →
    (∀ old ∈ boundIntegers (fun other => other = name) statement.parameters binds,
      NoLowerLimit old value) →
    fetchAll statement binds = .ok rows →
    fetchAll statement (withRowLimit name value statement.parameters binds) = .ok others →
      rows.length ≤ others.length

end Limits

namespace PlanExecution

section Ceiling

variable {Number : Type} (run : PlanExecution Number)

/-- What the plan asks for. -/
def requested (name : String) : Option ℤ := (run.plan.params.get? name).bind Json.asI64?

/-- The issued values, with what the plan asks for bound to the row limit. -/
def requestedBinds (statement : Statement) (binds : List (BindValue Number)) :
    List (BindValue Number) :=
  match limitParam statement.parameters with
  | some name => withRowLimit name (run.requested name) statement.parameters binds
  | none => binds

/-- Fewer rows are returned than the plan asked for and would have been given. -/
def LeavesOut (statement : Statement) (binds : List (BindValue Number))
    (result : ExecutionResult) : Prop :=
  ∀ rows, run.fetchAll statement (run.requestedBinds statement binds) = .ok rows →
    result.rows.length < rows.length

/-- No more rows than the cap, marked as truncated and counted for what they are. -/
structure Ceiling (statement : Statement) (binds : List (BindValue Number))
    (result : ExecutionResult) : Prop where
  capped : (result.rows.length : ℤ) ≤ run.rowCap
  truncated : result.truncated = true → run.LeavesOut statement binds result
  shown : result.shown = result.rows.length

/-- The statement's first row limit is bound to an integer, or the cap replaces it. -/
def HasRowLimit (statement : Statement) : Prop :=
  ∃ parameter, (statement.parameters.find? fun parameter => isLimitName parameter.name) =
      some parameter ∧
    (isTransient parameter = false ∧ parameter.kind = "integer" ∨
      (run.fetchBound statement).isSome = true)

end Ceiling

end PlanExecution

/-! ### Values of the parameters -/

section Values

variable {Number : Type} {parseDate : String → Except String NaiveDate}
  {parseDecimal : String → Except String Number} {plan : ExecutionPlan} {policy : PolicyDecision}
  {limit : Option String} {fetch : Option ℤ} {parameters : List QueryParameter}
  {values : List (BindValue Number)}

theorem bindParameters_forall₂ (h : bindParameters parseDate parseDecimal plan policy limit fetch
    parameters = .ok values) : List.Forall₂ (fun parameter value =>
      parameterBind parseDate parseDecimal plan policy limit fetch parameter = .ok value)
    (parameters.filter fun parameter => isTransient parameter = false) values := by
  induction parameters generalizing values with
  | nil =>
    cases h
    exact .nil
  | cons parameter rest ih =>
    obtain ⟨first, others, hfirst, hothers, rfl⟩ := collectAll_cons.mp h
    have hrest := ih hothers
    by_cases htransient : isTransient parameter = true
    · rw [if_pos htransient] at hfirst
      cases hfirst
      simpa [htransient] using hrest
    · rw [if_neg htransient] at hfirst
      rw [Bool.not_eq_true] at htransient
      cases hvalue : parameterBind parseDate parseDecimal plan policy limit fetch parameter with
      | error e =>
        rw [hvalue] at hfirst
        cases hfirst
      | ok value =>
        rw [hvalue] at hfirst
        cases hfirst
        rw [List.filter_cons_of_pos (by simp [htransient])]
        exact .cons hvalue hrest

theorem boundParameters_append (h : bindParameters parseDate parseDecimal plan policy limit fetch
    parameters = .ok values) (filters : List (BindValue Number)) :
    boundParameters parameters (values ++ filters) =
      (parameters.filter fun parameter => isTransient parameter = false).zip values := by
  have hlength := (bindParameters_forall₂ h).length_eq
  have hzip : List.zip _ (values ++ filters) = _ ++ List.zip ([] : List QueryParameter) filters :=
    List.zip_append hlength
  rwa [List.append_nil, List.zip_nil_left, List.append_nil] at hzip

/-- A bound parameter has the value its kind reads from the plan. -/
theorem bind_of_mem_boundParameters (h : bindParameters parseDate parseDecimal plan policy limit
    fetch parameters = .ok values) {filters : List (BindValue Number)} {parameter : QueryParameter}
    {value : BindValue Number}
    (hmem : (parameter, value) ∈ boundParameters parameters (values ++ filters)) :
    parameterBind parseDate parseDecimal plan policy limit fetch parameter = .ok value := by
  rw [boundParameters_append h] at hmem
  exact List.forall₂_zip (bindParameters_forall₂ h) hmem

/-- Every declared parameter but a sensitive one is bound. -/
theorem exists_bound (h : bindParameters parseDate parseDecimal plan policy limit fetch
    parameters = .ok values) (filters : List (BindValue Number)) {parameter : QueryParameter}
    (hmem : parameter ∈ parameters) (htransient : isTransient parameter = false) :
    ∃ value, (parameter, value) ∈ boundParameters parameters (values ++ filters) := by
  have hlength := (bindParameters_forall₂ h).length_eq
  have hfilter : parameter ∈ parameters.filter fun parameter => isTransient parameter = false :=
    List.mem_filter.mpr ⟨hmem, by simp [htransient]⟩
  obtain ⟨index, hindex, rfl⟩ := List.getElem_of_mem hfilter
  rw [boundParameters_append h]
  have hvalue : index < values.length := by omega
  refine ⟨values[index], List.mem_iff_getElem.mpr ⟨index, ?_, List.getElem_zip⟩⟩
  rw [List.length_zip]
  omega

/-- An integer bound to a parameter is an integer parameter's. -/
theorem limitedIntegerParam_of_integer {parameter : QueryParameter} {value : BindValue Number}
    {number : Option ℤ}
    (h : parameterBind parseDate parseDecimal plan policy limit fetch parameter = .ok value)
    (hinteger : integerBind? value = some number) :
    limitedIntegerParam plan limit fetch parameter = .ok number := by
  unfold parameterBind at h
  split_ifs at h
  · cases hread : dateParam parseDate plan parameter <;> rw [hread] at h <;> cases h
    cases hinteger
  · cases hread : limitedIntegerParam plan limit fetch parameter <;> rw [hread] at h <;> cases h
    cases hinteger
    rfl
  · cases hread : stringParam plan parameter <;> rw [hread] at h <;> cases h
    cases hinteger
  · cases hread : decimalParam parseDecimal plan parameter <;> rw [hread] at h <;> cases h
    cases hinteger
  · cases hread : arrayBigintParam plan policy parameter <;> rw [hread] at h <;> cases h
    cases hinteger

end Values

/-! ### The cap in place of the request -/

theorem shownRows_cases (fetch : Option ℤ) (count : ℕ) :
    (∃ limit, fetch = some limit ∧ limit < count ∧ shownRows fetch count = (true, limit)) ∨
      (∀ limit, fetch = some limit → (count : ℤ) ≤ limit) ∧
        shownRows fetch count = (false, (count : ℤ)) := by
  cases fetch with
  | none => exact Or.inr ⟨fun _ h => (nomatch h), rfl⟩
  | some limit =>
    by_cases hlimit : limit < count
    · exact Or.inl ⟨limit, rfl, hlimit, by simp [shownRows, hlimit]⟩
    · refine Or.inr ⟨?_, by simp [shownRows, hlimit]⟩
      intro other hother
      cases hother
      omega

theorem length_truncateRows {α : Type} {limit : ℤ} {rows : List α} (hlimit : 0 ≤ limit)
    (hlong : limit < rows.length) : ((truncateRows (true, limit) rows).length : ℤ) = limit := by
  simp only [truncateRows, if_true, asUsize, if_pos hlimit, List.length_take]
  omega

namespace PlanExecution

section Proof

variable {Number : Type} {run : PlanExecution Number} {statement : Statement}
  {binds : List (BindValue Number)} {result : ExecutionResult}

theorem issue_spec (h : run.issue = .ok (statement, binds)) : ∃ values filters,
    bindParameters run.parseDate run.parseDecimal run.plan run.policy
      (limitParam statement.parameters) (run.fetchBound statement) statement.parameters =
        .ok values ∧ binds = values ++ filters := by
  simp only [issue, issueStatement, bind_eq_ok_iff, exists_unit_iff, okOr_eq_ok, pure_eq_ok,
    Prod.mk.injEq] at h
  obtain ⟨-, query, -, other, -, values, hvalues, filters, -, rfl, hbinds⟩ := h
  exact ⟨values, filters, hvalues, hbinds.symm⟩

/-- The result counts and marks the rows of the issued statement. -/
theorem executePlanWithSensitive_spec (hissue : run.issue = .ok (statement, binds))
    (h : run.executePlanWithSensitive = .ok result) : ∃ fetched,
    run.fetchAll statement binds = .ok fetched ∧
      result.rows.length = (truncateRows (shownRows (run.fetchBound statement) fetched.length)
        fetched).length ∧
      (result.truncated, result.shown) = shownRows (run.fetchBound statement) fetched.length := by
  simp only [executePlanWithSensitive, bind_eq_ok_iff, hissue, Except.ok.injEq, pure_eq_ok,
    exists_eq_left'] at h
  obtain ⟨fetched, hfetched, rows, hrows, rfl⟩ := h
  exact ⟨fetched, hfetched, (collectAll_single hrows).1, rfl⟩

theorem truncationLimit_eq_some {asked : Option ℤ} {rowCap limit : ℤ} :
    truncationLimit asked rowCap = some limit ↔
      limit = rowCap ∧ ∀ value, asked = some value → rowCap < value := by
  cases asked with
  | none => simp [truncationLimit, eq_comm]
  | some value => simp [truncationLimit, eq_comm, and_comm]

theorem truncationLimit_eq_none {asked : Option ℤ} {rowCap : ℤ} :
    truncationLimit asked rowCap = none ↔ ∃ value, asked = some value ∧ value ≤ rowCap := by
  cases asked with
  | none => simp [truncationLimit]
  | some value => simp [truncationLimit]

theorem fetchBound_eq_some {limit : ℤ} (h : run.fetchBound statement = some limit) :
    limit = run.rowCap ∧ ∃ name, limitParam statement.parameters = some name ∧
      ∀ value, run.requested name = some value → run.rowCap < value := by
  obtain ⟨name, hname, hlimit⟩ := Option.bind_eq_some_iff.mp h
  obtain ⟨hcap, habove⟩ := truncationLimit_eq_some.mp hlimit
  exact ⟨hcap, name, hname, habove⟩

theorem requested_of_fetchBound_none {name : String} (h : run.fetchBound statement = none)
    (hname : limitParam statement.parameters = some name) :
    ∃ value, run.requested name = some value ∧ value ≤ run.rowCap := by
  unfold fetchBound fetchLimit at h
  rw [hname, Option.bind_some] at h
  exact truncationLimit_eq_none.mp h

theorem isLimitName_of_limitParam {parameters : List QueryParameter} {name : String}
    (h : limitParam parameters = some name) : isLimitName name = true := by
  obtain ⟨parameter, hfind, rfl⟩ := Option.map_eq_some_iff.mp h
  simpa using List.find?_some hfind

/-- Where the cap replaces the request, the request lets through no fewer rows. -/
theorem requested_not_lower {limit : ℤ} {name : String}
    (hissue : run.issue = .ok (statement, binds))
    (hfetch : run.fetchBound statement = some limit)
    (hname : limitParam statement.parameters = some name) {old : Option ℤ}
    (hold : old ∈ boundIntegers (fun other => other = name) statement.parameters binds) :
    NoLowerLimit old (run.requested name) := by
  obtain ⟨values, filters, hvalues, rfl⟩ := issue_spec hissue
  obtain ⟨rfl, other, hother, habove⟩ := fetchBound_eq_some hfetch
  cases hname.symm.trans hother
  obtain ⟨⟨parameter, value⟩, hmem, hnamed⟩ := List.mem_filterMap.mp hold
  dsimp only at hnamed
  split_ifs at hnamed with hsame
  have hvalue := bind_of_mem_boundParameters hvalues hmem
  have hparam := limitedIntegerParam_of_integer hvalue hnamed
  have hlimit : limitParam statement.parameters = some parameter.name := by
    rw [hname, of_decide_eq_true hsame]
  unfold limitedIntegerParam at hparam
  rw [if_pos hlimit, hfetch] at hparam
  cases hparam
  intro asked hasked
  have hcap := habove asked hasked
  refine ⟨oneMore run.rowCap, rfl, ?_⟩
  unfold oneMore
  omega

/-- Where it does not, the first limit is bound to a value within the cap. -/
theorem exists_limit_within_cap {parameter : QueryParameter}
    (hissue : run.issue = .ok (statement, binds)) (hfetch : run.fetchBound statement = none)
    (hfind : (statement.parameters.find? fun parameter => isLimitName parameter.name) =
      some parameter) (htransient : isTransient parameter = false)
    (hkind : parameter.kind = "integer") :
    ∃ limit, some limit ∈ boundIntegers isLimitName statement.parameters binds ∧
      limit ≤ run.rowCap := by
  obtain ⟨values, filters, hvalues, rfl⟩ := issue_spec hissue
  have hname : limitParam statement.parameters = some parameter.name := by
    unfold limitParam
    rw [hfind]
    rfl
  obtain ⟨asked, hasked, hcap⟩ := requested_of_fetchBound_none hfetch hname
  obtain ⟨value, hbound⟩ := exists_bound hvalues filters (List.mem_of_find?_eq_some hfind)
    htransient
  have hvalue := bind_of_mem_boundParameters hvalues hbound
  have hparam : limitedIntegerParam run.plan (limitParam statement.parameters)
      (run.fetchBound statement) parameter = .ok (some asked) := by
    unfold limitedIntegerParam
    rw [if_pos hname, hfetch]
    unfold integerParam
    rw [requested] at hasked
    rw [hasked]
  rw [parameterBind, if_neg (by simp [hkind]), if_pos hkind, hparam] at hvalue
  cases hvalue
  refine ⟨asked, List.mem_filterMap.mpr ⟨_, hbound, ?_⟩, hcap⟩
  simpa [integerBind?] using List.find?_some hfind

/-- Under a cap that is not negative, a result counts its rows and is marked as truncated
only when the request would have given more; with a row limit it is within the cap, and
without one it has every row of the database. -/
theorem executes_within_ceiling (hdatabase : AppliesLimits run.fetchAll) (hcap : 0 ≤ run.rowCap)
    (hissue : run.issue = .ok (statement, binds))
    (hresult : run.executePlanWithSensitive = .ok result) :
    (run.HasRowLimit statement → (result.rows.length : ℤ) ≤ run.rowCap) ∧
      (result.truncated = true → run.LeavesOut statement binds result) ∧
      result.shown = result.rows.length ∧
      (limitParam statement.parameters = none → result.truncated = false ∧
        ∀ rows, run.fetchAll statement binds = .ok rows → result.rows.length = rows.length) := by
  obtain ⟨fetched, hfetched, hlength, hmarks⟩ := executePlanWithSensitive_spec hissue hresult
  rcases shownRows_cases (run.fetchBound statement) fetched.length with
    ⟨limit, hfetch, hlong, hshown⟩ | ⟨hall, hshown⟩
  · obtain ⟨rfl, name, hname, -⟩ := fetchBound_eq_some hfetch
    rw [hshown] at hlength hmarks
    obtain ⟨-, hcount⟩ := Prod.mk.inj hmarks
    have hcut := length_truncateRows hcap hlong
    rw [← hlength] at hcut
    refine ⟨fun _ => by omega, fun _ others hothers => ?_, by omega, ?_⟩
    · unfold requestedBinds at hothers
      rw [hname] at hothers
      have hmore := hdatabase.raised (isLimitName_of_limitParam hname)
        (fun old hold => requested_not_lower hissue hfetch hname hold) hfetched hothers
      omega
    · intro hnone
      cases hnone.symm.trans hname
  · rw [hshown] at hlength hmarks
    obtain ⟨hcut, hcount⟩ := Prod.mk.inj hmarks
    have hrows : result.rows.length = fetched.length := hlength
    refine ⟨?_, fun htruncated => ?_, by omega, fun _ => ⟨hcut, fun rows hrows => ?_⟩⟩
    · rintro ⟨parameter, hfind, hbound⟩
      cases hfetch : run.fetchBound statement with
      | some limit =>
        have hle := hall limit hfetch
        obtain ⟨rfl, -⟩ := fetchBound_eq_some hfetch
        omega
      | none =>
        rw [hfetch] at hbound
        obtain ⟨htransient, hkind⟩ : isTransient parameter = false ∧ parameter.kind = "integer" :=
          by simpa using hbound
        obtain ⟨limit, hmem, hle⟩ :=
          exists_limit_within_cap hissue hfetch hfind htransient hkind
        have hbounded := hdatabase.bounded hfetched hmem
        omega
    · rw [hcut] at htruncated
      cases htruncated
    · cases hfetched.symm.trans hrows
      omega

end Proof

end PlanExecution

/-- A database that returns as many rows for every statement it answers. -/
theorem appliesLimits_of_constant {Number : Type}
    {fetchAll : Statement → List (BindValue Number) → Except String (List (DatabaseRow Number))}
    {count : ℕ} (hcount : ∀ {statement binds rows}, fetchAll statement binds = .ok rows →
      rows.length = count)
    (hbounded : ∀ {statement binds rows limit}, fetchAll statement binds = .ok rows →
      some limit ∈ boundIntegers isLimitName statement.parameters binds → (count : ℤ) ≤ limit) :
    AppliesLimits fetchAll where
  bounded hrows hlimit := by
    rw [hcount hrows]
    exact hbounded hrows hlimit
  raised _ _ hrows hothers := by
    rw [hcount hrows, hcount hothers]

/-! Two clients of one name, looked up under a ceiling of one row. The lookup declares no
row limit. -/

namespace Namesakes

def row (client : ℤ) : DatabaseRow ℤ where
  date name := .error ("no column found for name: " ++ name)
  decimal name := .error ("no column found for name: " ++ name)
  bigint name :=
    if name = "client_id" then .ok (some client)
    else .error ("no column found for name: " ++ name)
  text name :=
    if name = "display_name" then .ok (some "Alex")
    else .error ("no column found for name: " ++ name)
  boolean name := .error ("no column found for name: " ++ name)

def sql : String :=
  "SELECT id AS client_id, display_name FROM m_client " ++
    "WHERE office_id = ANY($1::bigint[]) AND display_name = $2::text"

def run : PlanExecution ℤ where
  parseDate _ := .error "input contains invalid characters"
  parseDecimal _ := .error "Invalid decimal: unknown character"
  showDate _ := "2026-07-01"
  showDecimal number := toString number
  disk path :=
    if path = ["", "repo", "queries", "client", "name_lookup.sql"] then some sql else none
  catalog := FineractReports.NameLookup.catalog
  plan :=
    { domain := "client"
      capability := "client_name_lookup"
      queryId := "client.name_lookup"
      datasetSelection := none
      outputMode := "list"
      params := .obj [("office_ids", .arr [.int 1]), ("search", .str "Alex")] }
  policy := ⟨.allowed, none, [1], true⟩
  limits := ⟨3000, 1⟩
  sensitiveIdentifier := none
  fetchAll _ binds :=
    if binds = [.bigints (some [1]), .string (some "Alex")] then .ok [row 7, row 9]
    else .error "execution_timed_out"

def statement : Statement where
  sql := sql
  parameters := FineractReports.NameLookup.query.parameters
  outputFields := FineractReports.NameLookup.query.outputFields
  timeoutMs := 3000
  appliedFilters := []

def result : ExecutionResult where
  queryId := "client.name_lookup"
  rowCount := 2
  rows :=
    [.obj [("client_id", .int 7), ("display_name", .str "Alex")],
      .obj [("client_id", .int 9), ("display_name", .str "Alex")]]
  truncated := false
  shown := 2
  appliedFilters := []

theorem fetchAll_length {statement : Statement} {binds : List (BindValue ℤ)}
    {rows : List (DatabaseRow ℤ)} (h : run.fetchAll statement binds = .ok rows) :
    binds = [.bigints (some [1]), .string (some "Alex")] ∧ rows.length = 2 := by
  simp only [run] at h
  split_ifs at h with hbinds
  cases h
  exact ⟨hbinds, rfl⟩

theorem appliesLimits : AppliesLimits run.fetchAll := by
  apply appliesLimits_of_constant (fun hrows => (fetchAll_length hrows).2)
  intro statement binds rows limit hrows hlimit
  obtain ⟨rfl, -⟩ := fetchAll_length hrows
  obtain ⟨⟨parameter, value⟩, hmem, hvalue⟩ := List.mem_filterMap.mp hlimit
  have hin := (List.of_mem_zip hmem).2
  simp only [List.mem_cons, List.not_mem_nil, or_false] at hin
  rcases hin with rfl | rfl <;> simp [integerBind?] at hvalue

/-- Both clients are returned. -/
theorem ceiling_exceeded : AppliesLimits run.fetchAll ∧
    run.issue = .ok (statement, [.bigints (some [1]), .string (some "Alex")]) ∧
      run.executePlanWithSensitive = .ok result ∧ run.rowCap = 1 ∧
      ¬ run.Ceiling statement [.bigints (some [1]), .string (some "Alex")] result := by
  refine ⟨appliesLimits, by decide +kernel, by decide +kernel, by decide +kernel, ?_⟩
  intro hceiling
  have hexceeded : ¬ (result.rows.length : ℤ) ≤ run.rowCap := by decide +kernel
  exact hexceeded hceiling.capped

end Namesakes

/-! The clients last activated, where a hundred are asked for and the capability allows two. -/

namespace RecentClients

def capability : CapabilityKnowledge :=
  { FineractReports.NameLookup.capability with
    parameterPolicies :=
      [⟨"office_ids", .integerArray, false, some .authorizedScope, false, false, none,
        false, [], none⟩,
       ⟨"limit", .integer, false, none, false, true, some 2, false, [], none⟩] }

def query : QueryKnowledge :=
  { FineractReports.NameLookup.query with
    parameters :=
      [⟨"office_ids", "array_bigint", true, some "authorized_scope"⟩,
        ⟨"limit", "integer", true, none⟩] }

def sql : String :=
  "SELECT id AS client_id, display_name FROM m_client WHERE office_id = ANY($1::bigint[]) " ++
    "ORDER BY activation_date DESC, id DESC LIMIT $2"

/-- The office has three clients. -/
def run : PlanExecution ℤ :=
  { Namesakes.run with
    disk := fun path =>
      if path = ["", "repo", "queries", "client", "name_lookup.sql"] then some sql else none
    catalog := { FineractReports.NameLookup.catalog with
      capabilities := [capability]
      queries := [query] }
    plan := { Namesakes.run.plan with
      params := .obj [("office_ids", .arr [.int 1]), ("limit", .int 100)] }
    limits := ⟨3000, 50000⟩
    fetchAll := fun statement binds =>
      if (boundIntegers isLimitName statement.parameters binds).all
          (fun limit => limit.all fun limit => 3 ≤ limit) = true then
        .ok [Namesakes.row 9, Namesakes.row 8, Namesakes.row 7]
      else .error "execution_timed_out" }

def statement : Statement where
  sql := sql
  parameters := query.parameters
  outputFields := query.outputFields
  timeoutMs := 3000
  appliedFilters := []

def result : ExecutionResult where
  queryId := "client.name_lookup"
  rowCount := 2
  rows :=
    [.obj [("client_id", .int 9), ("display_name", .str "Alex")],
      .obj [("client_id", .int 8), ("display_name", .str "Alex")]]
  truncated := true
  shown := 2
  appliedFilters := []

theorem fetchAll_ok {statement : Statement} {binds : List (BindValue ℤ)}
    {rows : List (DatabaseRow ℤ)} (h : run.fetchAll statement binds = .ok rows) :
    (∀ limit, some limit ∈ boundIntegers isLimitName statement.parameters binds → 3 ≤ limit) ∧
      rows.length = 3 := by
  simp only [run] at h
  split_ifs at h with hlimits
  cases h
  refine ⟨fun limit hlimit => ?_, rfl⟩
  simpa using List.all_eq_true.mp hlimits _ hlimit

theorem executes_within_ceiling_two :
    (run.HasRowLimit statement → (result.rows.length : ℤ) ≤ run.rowCap) ∧
      (result.truncated = true →
        run.LeavesOut statement [.bigints (some [1]), .integer (some 3)] result) ∧
      result.shown = result.rows.length ∧
      (limitParam statement.parameters = none → result.truncated = false ∧
        ∀ rows, run.fetchAll statement [.bigints (some [1]), .integer (some 3)] = .ok rows →
          result.rows.length = rows.length) :=
  PlanExecution.executes_within_ceiling
    (appliesLimits_of_constant (fun hrows => (fetchAll_ok hrows).2)
      fun hrows hlimit => (fetchAll_ok hrows).1 _ hlimit)
    (by decide +kernel) (by decide +kernel) (by decide +kernel)

end RecentClients

end FineractReports.Execution
