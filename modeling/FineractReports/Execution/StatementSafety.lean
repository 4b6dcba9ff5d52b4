import FineractReports.Execution.Parameters
import FineractReports.Execution.QueryRequest
import FineractReports.Execution.Statement
import FineractReports.Knowledge.ComposedStatement

/-!
# The scan and the executor

The validator scans the files of the queries, the executor also reads the sources and the
fragments of datasets. A resolved statement passes the checks of the scan exactly when it
is a scanned file or the texts it is made of pass them too.
-/

namespace FineractReports.KnowledgeValidator

variable {catalog : KnowledgeCatalog} {files : List String × String → Option String}
  {toLowercase : String → String}

theorem validate_query (h : validate catalog files toLowercase = .ok ()) {query : QueryKnowledge}
    (hquery : query ∈ catalog.queries) : validateQuery catalog files query = .ok () := by
  simp only [validate, bind_eq_ok_iff, exists_unit_iff, forEach_eq_ok] at h
  exact h.2.2.2.2.2.2.2.1 query hquery

theorem validateQuery_sql {query : QueryKnowledge} (h : validateQuery catalog files query = .ok ())
    {sql : String} (hfile : files (resolveSqlPath catalog query) = some sql) :
    SqlSafety.validateSqlSafety query sql = .ok () := by
  simp only [validateQuery, bind_eq_ok_iff, exists_unit_iff, okOr_eq_ok] at h
  obtain ⟨-, -, -, -, -, -, read, hread, hsafe⟩ := h
  obtain rfl := Option.some.inj (hread.symm.trans hfile)
  exact hsafe

theorem validate_dataset (h : validate catalog files toLowercase = .ok ())
    {dataset : DatasetKnowledge} (hdataset : dataset ∈ catalog.datasets) :
    Dataset.validateDataset dataset = .ok () := by
  simp only [validate, bind_eq_ok_iff, exists_unit_iff] at h
  obtain ⟨-, -, -, -, -, -, -, -, -, hdatasets, -⟩ := h
  obtain ⟨seen, hchecked⟩ := forEachAfter_mem hdatasets hdataset
  simp only [validateDatasetEntry, bind_eq_ok_iff, exists_unit_iff] at hchecked
  exact hchecked.2.1

/-- What a valid dataset says about its filters. -/
theorem validateDataset_filters {dataset : DatasetKnowledge}
    (h : Dataset.validateDataset dataset = .ok ()) :
    (dataset.filters.map (·.id)).Nodup ∧
      ∀ slot ∈ dataset.filters, slot.inputPolicy = .exactIdentifier →
        slot.kind = "string" ∧ slot.operators = [.eq] := by
  simp only [Dataset.validateDataset, bind_eq_ok_iff, exists_unit_iff] at h
  obtain ⟨-, hfilters, -⟩ := h
  constructor
  · have hfresh : ∀ (before : List Dataset.FilterSlot) (slot : Dataset.FilterSlot),
        Dataset.validateFilter dataset before slot = .ok () → slot.id ∉ before.map (·.id) := by
      intro before slot hslot
      simp only [Dataset.validateFilter, bind_eq_ok_iff, exists_unit_iff, failIf_eq_ok] at hslot
      exact hslot.1
    have hnodup : (([] ++ dataset.filters).map fun slot : Dataset.FilterSlot => slot.id).Nodup :=
      forEachAfter_nodup hfresh hfilters List.nodup_nil
    exact hnodup
  · intro slot hslot hexact
    obtain ⟨seen, hchecked⟩ := forEachAfter_mem hfilters hslot
    simp only [Dataset.validateFilter, bind_eq_ok_iff, exists_unit_iff, hexact, if_true,
      failIf_eq_ok,
      not_not] at hchecked
    obtain ⟨-, -, -, hkind, hoperators, -⟩ := hchecked
    exact ⟨hkind, hoperators⟩

end FineractReports.KnowledgeValidator

namespace FineractReports.Execution

open Dataset SqlSafety

/-- A plan of a validated catalog and the statement it resolves to. -/
structure ResolvedPlan where
  disk : Disk
  toLowercase : String → String
  catalog : KnowledgeCatalog
  valid : KnowledgeValidator.validate catalog (filesOf disk) toLowercase = .ok ()
  plan : ExecutionPlan
  query : QueryKnowledge
  declared : (catalog.queries.find? fun query => query.id = plan.queryId) = some query
  defaultTimeoutMs : UInt64
  statement : Statement
  resolved : resolveStatement disk catalog plan query defaultTimeoutMs = .ok statement

namespace ResolvedPlan

variable (run : ResolvedPlan)

/-- The file of the query is the one the validator scanned, or passes the same checks. -/
def CheckedQuery : Prop :=
  SamePath run.catalog run.query ∨
    ∀ sql, readApprovedSql run.disk run.catalog run.query.sqlFile = .ok sql →
      SafeStatement run.query.parameters sql

/-- The authored texts of a dataset statement pass the checks on their own. -/
def CheckedDataset (selection : DatasetSelection) : Prop :=
  ∀ dataset shape source fragment, datasetOf run.catalog selection = .ok dataset →
    dataset.shape selection.shapeId = some shape →
    readApprovedSql run.disk run.catalog dataset.sourceSql = .ok source →
    readFragment run.disk run.catalog shape = .ok fragment →
    if IsDegenerate dataset shape selection.orderById then
      SafeStatement (shape.parametersOf dataset) source
    else
      AuthoredChecked (shape.parametersOf dataset) source (fragment.getD "")
        (predicateExprs dataset.filters) (orderByExprs dataset selection.orderById)

def Checked : Prop :=
  match run.plan.datasetSelection with
  | none => run.CheckedQuery
  | some selection => run.CheckedDataset selection

variable {run}

theorem query_safe {statement : Statement}
    (h : queryStatement run.disk run.catalog run.query run.defaultTimeoutMs = .ok statement) :
    SafeStatement statement.parameters statement.sql ↔ run.CheckedQuery := by
  simp only [queryStatement, bind_eq_ok_iff, pure_eq_ok] at h
  obtain ⟨sql, hsql, rfl⟩ := h
  constructor
  · intro hsafe
    right
    intro other hother
    obtain rfl := Except.ok.inj (hsql.symm.trans hother)
    exact hsafe
  · rintro (hsame | hchecked)
    · have hquery := List.mem_of_find?_eq_some run.declared
      have hvalid := KnowledgeValidator.validate_query run.valid hquery
      exact validateSqlSafety_safe
        (KnowledgeValidator.validateQuery_sql hvalid (readApprovedSql_scanned hsame hsql))
    · exact hchecked sql hsql

theorem dataset_safe {selection : DatasetSelection} {statement : Statement}
    (h : datasetStatement run.disk run.catalog selection run.defaultTimeoutMs = .ok statement) :
    SafeStatement statement.parameters statement.sql ↔ run.CheckedDataset selection := by
  simp only [datasetStatement, bind_eq_ok_iff, okOr_eq_ok, pure_eq_ok] at h
  obtain ⟨dataset, hdataset, shape, hshape, source, hsource, fragment, hfragment, composed,
    hcompose, rfl⟩ := h
  rw [compose_safe hcompose hshape]
  constructor
  · intro hsafe other otherShape otherSource otherFragment hd hs ho hf
    obtain rfl := Except.ok.inj (hdataset.symm.trans hd)
    obtain rfl := Option.some.inj (hshape.symm.trans hs)
    obtain rfl := Except.ok.inj (hsource.symm.trans ho)
    obtain rfl := Except.ok.inj (hfragment.symm.trans hf)
    exact hsafe
  · exact fun hchecked => hchecked dataset shape source fragment hdataset hshape hsource hfragment

/-- The statement of a plan passes the checks of the scan exactly when its texts do. -/
theorem safe_iff_checked (run : ResolvedPlan) :
    SafeStatement run.statement.parameters run.statement.sql ↔ run.Checked := by
  have hresolved := run.resolved
  unfold resolveStatement at hresolved
  unfold Checked
  cases hselection : run.plan.datasetSelection with
  | none =>
    rw [hselection] at hresolved
    exact query_safe hresolved
  | some selection =>
    rw [hselection] at hresolved
    exact dataset_safe hresolved

end ResolvedPlan

/-! A capability whose recipe selects a dataset with a source no check reads. -/

namespace UnscannedSource

def dataset : DatasetKnowledge where
  id := "client.purge"
  database := "fineract"
  sourceSql := "queries/datasets/client/purge.source.sql"
  tables := ["m_client"]
  filters := []
  entity := none
  filtersExempt := ["client_id"]
  shapes := [⟨"list", ⟨.lookup, .client, .none, .lookup, .clientIdentity⟩, .terminal, none, none,
    none, [], none, [], [], []⟩]
  orderBy := []
  outputFields := [⟨"client_id", "bigint", .publicBusiness, true⟩,
    ⟨"display_name", "string", .pii, false⟩]
  parameters := FineractReports.NameLookup.query.parameters
  timeoutMs := none

def capability : CapabilityKnowledge :=
  { FineractReports.NameLookup.capability with
    datasetRecipe := some ⟨"client.purge", "list", none, [], []⟩ }

def catalog : KnowledgeCatalog :=
  { FineractReports.NameLookup.catalog with capabilities := [capability], datasets := [dataset] }

def source : String :=
  "WITH gone AS (DELETE FROM m_client WHERE office_id = ANY($1::bigint[]) AND display_name = " ++
    "$2::text RETURNING id, display_name) SELECT id AS client_id, display_name FROM gone"

def disk (path : List String) : Option String :=
  if path = ["", "repo", "queries", "client", "name_lookup.sql"] then
    some FineractReports.NameLookup.sql
  else if path = ["", "repo", "queries", "datasets", "client", "purge.source.sql"] then some source
  else none

def request : Workflow.DataToolRequest where
  nodeId := ⟨"execute", Workflow.NodeId.isValid_execute⟩
  capabilityId := "client_name_lookup"
  parameters := [("office_ids", .arr [.int 1]), ("search", .str "Alex")]
  timeoutMs := 5000
  rowCap := 50

def plan : ExecutionPlan where
  domain := "client"
  capability := "client_name_lookup"
  queryId := "client.name_lookup"
  datasetSelection := some ⟨"client.purge", "list", none, [], []⟩
  outputMode := "list"
  params := .obj [("office_ids", .arr [.int 1]), ("search", .str "Alex")]

/-- The catalog is valid and the plan is built for its approved capability, yet the
statement deletes. -/
theorem source_not_scanned :
    KnowledgeValidator.validate catalog (filesOf disk) Text.asciiLower = .ok () ∧
      executableCapability catalog "client_name_lookup" = .ok capability ∧
      buildQueryRequest (fun _ => true) request catalog [] = .ok plan ∧
      ∃ statement,
        resolveStatement disk catalog plan FineractReports.NameLookup.query 3000 =
          .ok statement ∧
        ¬ SafeStatement statement.parameters statement.sql := by
  refine ⟨by decide +kernel, by decide +kernel, by decide +kernel, ⟨source, dataset.parameters,
    dataset.outputFields.map queryOutputField, 3000, []⟩, by decide +kernel, ?_⟩
  intro hsafe
  exact hsafe.noUnsafeCommand "DELETE" (by decide) (by decide +kernel)

end UnscannedSource

end FineractReports.Execution
