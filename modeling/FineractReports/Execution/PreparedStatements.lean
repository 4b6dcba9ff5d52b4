import FineractReports.Execution.StatementSafety
import FineractReports.Knowledge.DatasetPlan

/-!
# Prepared statements

At boot the server prepares the statement of every enumerated combination of every
dataset, so that no request meets a text the database has not seen. `prepare` stands for
the database: the columns of a statement, or its refusal.
-/

namespace FineractReports.Execution

open Dataset

/-- The text that is prepared: trimmed, without closing semicolons. -/
def preparedText (sql : String) : String :=
  String.ofList ((Text.trimChars sql.toList).reverse.dropWhile (· = ';')).reverse

section Boot

variable (disk : Disk) (catalog : KnowledgeCatalog)
  (prepare : String → Except String (List String))

def readCatalogSql (path : String) (missing : String) : Except String String := do
  let file ← mapError (fun _ => "invalid dataset SQL path") (resolveSqlPath catalog.queryPath path)
  okOr (disk file) missing

def readCatalogFragment (shape : Option ShapeOption) : Except String (Option String) :=
  match shape.bind (·.fragment) with
  | none => .ok none
  | some path => (readCatalogSql disk catalog path ("read fragment " ++ path)).map some

/-- One combination: composed, prepared, its columns compared with the declared ones. -/
def prepareCombination (dataset : DatasetKnowledge) (source : String)
    (combination : String × Option String) : Except String (List String) := do
  let shape := dataset.shape combination.1
  let fragment ← readCatalogFragment disk catalog shape
  let composed ← compose dataset combination.1 combination.2 source fragment
  let sql := preparedText composed.sql
  let columns ← prepare sql
  failIf (columns ≠ (shape.elim [] (·.outputFieldsOf dataset)).map (·.name))
    ("dataset " ++ dataset.id ++ " shape " ++ combination.1 ++
      " output columns do not match declared output_fields")
  pure [sql]

def prepareDataset (dataset : DatasetKnowledge) : Except String (List String) :=
  if dataset.database ≠ "fineract" then .ok []
  else do
    let source ← readCatalogSql disk catalog dataset.sourceSql
      ("read source_sql for dataset " ++ dataset.id)
    collectAll (executableCombinations dataset)
      (prepareCombination disk catalog prepare dataset source)

/-- The statements prepared at boot. -/
def validateDatasetRuntime : Except String (List String) :=
  collectAll catalog.datasets (prepareDataset disk catalog prepare)

end Boot

section Prepared

variable {disk : Disk} {catalog : KnowledgeCatalog}
  {prepare : String → Except String (List String)}

/-- Boot and the executor read a dataset's file alike. -/
theorem readCatalogSql_eq_ok {path missing sql : String} :
    readCatalogSql disk catalog path missing = .ok sql ↔
      readApprovedSql disk catalog path = .ok sql := by
  simp only [readCatalogSql, readApprovedSql, bind_eq_ok_iff, okOr_eq_ok, mapError_eq_ok]

theorem readCatalogFragment_eq_ok {shape : ShapeOption} {fragment : Option String} :
    readCatalogFragment disk catalog (some shape) = .ok fragment ↔
      readFragment disk catalog shape = .ok fragment := by
  unfold readCatalogFragment readFragment
  simp only [Option.bind_some]
  cases shape.fragment with
  | none => exact Iff.rfl
  | some path =>
    simp only [map_eq_ok_iff, readCatalogSql_eq_ok]

/-- The statement of an enumerated combination is among the prepared ones. -/
theorem prepared_of_enumerated {texts : List String} {dataset : DatasetKnowledge}
    {selection : DatasetSelection} {defaultTimeoutMs : UInt64} {statement : Statement}
    (hboot : validateDatasetRuntime disk catalog prepare = .ok texts)
    (hdatabase : dataset.database = "fineract")
    (hdataset : datasetOf catalog selection = .ok dataset)
    (henumerated : (selection.shapeId, selection.orderById) ∈ executableCombinations dataset)
    (hstatement : datasetStatement disk catalog selection defaultTimeoutMs = .ok statement) :
    preparedText statement.sql ∈ texts := by
  have hmem : dataset ∈ catalog.datasets := by
    simp only [datasetOf, okOr_eq_ok] at hdataset
    exact List.mem_of_find?_eq_some hdataset
  obtain ⟨ofDataset, hprepared, hall⟩ := mem_collectAll hboot hmem
  simp only [prepareDataset, hdatabase, ne_eq, not_true_eq_false, if_false, bind_eq_ok_iff,
    readCatalogSql_eq_ok] at hprepared
  obtain ⟨source, hsource, hcombinations⟩ := hprepared
  obtain ⟨ofPair, hpair, hin⟩ := mem_collectAll hcombinations henumerated
  simp only [datasetStatement, bind_eq_ok_iff, okOr_eq_ok, pure_eq_ok] at hstatement
  obtain ⟨other, hother, shape, hshape, text, htext, fragment, hfragment, composed, hcompose,
    rfl⟩ := hstatement
  obtain rfl := Except.ok.inj (hdataset.symm.trans hother)
  obtain rfl := Except.ok.inj (hsource.symm.trans htext)
  simp only [prepareCombination, hshape, bind_eq_ok_iff, exists_unit_iff, readCatalogFragment_eq_ok,
    pure_eq_ok] at hpair
  obtain ⟨read, hread, again, hagain, columns, -, -, rfl⟩ := hpair
  obtain rfl := Except.ok.inj (hfragment.symm.trans hread)
  obtain rfl := Except.ok.inj (hcompose.symm.trans hagain)
  exact hall _ (hin _ (List.mem_singleton_self _))

end Prepared

/-- The recipe of an approved capability of a validated catalog, resolved for some
parameters. -/
structure RecipeRequest where
  isDecimal : String → Bool
  files : List String × String → Option String
  toLowercase : String → String
  catalog : KnowledgeCatalog
  valid : KnowledgeValidator.validate catalog files toLowercase = .ok ()
  capability : CapabilityKnowledge
  member : capability ∈ catalog.capabilities
  approved : capability.status = "approved_mvp"
  recipe : DatasetRecipe
  declared : capability.datasetRecipe = some recipe
  dataset : DatasetKnowledge
  found : (catalog.datasets.find? fun dataset => dataset.id = recipe.datasetId) = some dataset
  params : Json
  selection : DatasetSelection
  resolved : resolveRecipe isDecimal dataset params recipe = .ok selection

namespace RecipeRequest

variable (request : RecipeRequest)

/-- The selected pair is one the boot goes through. -/
def IsEnumerated : Prop :=
  (request.selection.shapeId, request.selection.orderById) ∈ executableCombinations request.dataset

/-- The recipe names an ordering, or the shape it names lists none. -/
def NamesOrdering : Prop :=
  request.recipe.orderById.isSome = true ∨
    ∀ shape, request.dataset.shape request.recipe.shapeId = some shape → shape.orderBy = []

/-- Whatever the boot prepared, the statement of the request is part of it. -/
def PreparedAtBoot : Prop :=
  ∀ disk prepare texts defaultTimeoutMs statement, request.dataset.database = "fineract" →
    validateDatasetRuntime disk request.catalog prepare = .ok texts →
    datasetStatement disk request.catalog request.selection defaultTimeoutMs = .ok statement →
    preparedText statement.sql ∈ texts

/-- A request resolves to an enumerated pair exactly when its recipe names an ordering
or there is none to name, and its statement is then a prepared one. -/
theorem isEnumerated_iff :
    (request.IsEnumerated ↔ request.NamesOrdering) ∧
      (request.IsEnumerated → request.PreparedAtBoot) := by
  have hdataset := List.mem_of_find?_eq_some request.found
  have hids := validateDataset_shapes_nodup
    (KnowledgeValidator.validate_dataset request.valid hdataset)
  obtain ⟨shape, hshape, -⟩ := resolveRecipe_shape request.resolved
  constructor
  · unfold IsEnumerated NamesOrdering
    rw [resolveRecipe_enumerated_iff hids hshape request.resolved]
    simp [hshape]
  · intro henumerated disk prepare texts defaultTimeoutMs statement hdatabase hboot hstatement
    obtain ⟨hid, hrecipe, -⟩ := resolveRecipe_filters request.resolved
    have hof : datasetOf request.catalog request.selection = .ok request.dataset := by
      rw [datasetOf, okOr_eq_ok, hid, hrecipe]
      exact request.found
    exact prepared_of_enumerated hboot hdatabase hof henumerated hstatement

end RecipeRequest

/-! A capability that lists clients in no particular order. -/

namespace UnorderedRecipe

def dataset : DatasetKnowledge where
  id := "client.list"
  database := "fineract"
  sourceSql := "queries/datasets/client/list.source.sql"
  tables := ["m_client"]
  filters := []
  entity := none
  filtersExempt := ["client_id"]
  shapes := [⟨"list", ⟨.lookup, .client, .none, .lookup, .clientIdentity⟩, .terminal, none, none,
    none, [], some "queries/datasets/client/list.fragment.sql", ["by_name"], [], []⟩]
  orderBy := [⟨"by_name", "display_name"⟩]
  outputFields := [⟨"client_id", "bigint", .publicBusiness, true⟩,
    ⟨"display_name", "string", .pii, false⟩]
  parameters := FineractReports.NameLookup.query.parameters
  timeoutMs := none

def recipe : DatasetRecipe := ⟨"client.list", "list", none, [], []⟩

def capability : CapabilityKnowledge :=
  { FineractReports.NameLookup.capability with datasetRecipe := some recipe }

def catalog : KnowledgeCatalog :=
  { FineractReports.NameLookup.catalog with capabilities := [capability], datasets := [dataset] }

def disk (path : List String) : Option String :=
  if path = ["", "repo", "queries", "client", "name_lookup.sql"] then
    some FineractReports.NameLookup.sql
  else if path = ["", "repo", "queries", "datasets", "client", "list.source.sql"] then
    some "SELECT id AS client_id, display_name FROM m_client WHERE office_id = ANY($1)"
  else if path = ["", "repo", "queries", "datasets", "client", "list.fragment.sql"] then
    some "SELECT client_id, display_name FROM base"
  else none

def request : RecipeRequest where
  isDecimal _ := true
  files := filesOf disk
  toLowercase := Text.asciiLower
  catalog := catalog
  valid := by decide +kernel
  capability := capability
  member := List.mem_singleton_self _
  approved := rfl
  recipe := recipe
  declared := rfl
  dataset := dataset
  found := by decide +kernel
  params := .obj []
  selection := ⟨"client.list", "list", none, [], []⟩
  resolved := by decide +kernel

/-- The database accepts every statement. -/
def prepare (_ : String) : Except String (List String) := .ok ["client_id", "display_name"]

def composedSql (orderBy : String) : String :=
  composedText "SELECT id AS client_id, display_name FROM m_client WHERE office_id = ANY($1)" ""
    "SELECT client_id, display_name FROM base" orderBy

def texts : List String := [composedSql "\nORDER BY display_name"]

def statement : Statement where
  sql := composedSql ""
  parameters := dataset.parameters
  outputFields := dataset.outputFields.map queryOutputField
  timeoutMs := 3000
  appliedFilters := []

end UnorderedRecipe

/-- The boot prepares the ordered statement, the request runs the one without an
ordering. -/
theorem unordered_recipe_not_prepared :
    ¬ UnorderedRecipe.request.IsEnumerated ∧
      validateDatasetRuntime UnorderedRecipe.disk UnorderedRecipe.catalog UnorderedRecipe.prepare =
        .ok UnorderedRecipe.texts ∧
      ∃ statement, datasetStatement UnorderedRecipe.disk UnorderedRecipe.catalog
          UnorderedRecipe.request.selection 3000 = .ok statement ∧
        preparedText statement.sql ∉ UnorderedRecipe.texts := by
  have hplain : ¬ UnorderedRecipe.request.IsEnumerated := by
    unfold RecipeRequest.IsEnumerated
    decide
  refine ⟨hplain, by decide +kernel, UnorderedRecipe.statement, by decide +kernel,
    by decide +kernel⟩

end FineractReports.Execution
