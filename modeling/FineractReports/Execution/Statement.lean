import FineractReports.Execution.Plan
import FineractReports.Knowledge.DatasetCompose
import FineractReports.Knowledge.Validator
import FineractReports.Library.Tokens

/-!
# The statement of a plan

The text an approved plan runs with: the SQL file of its query or a composed dataset
statement, with the parameters declared for it. A disk holds the texts of files by the
components of their paths.
-/

namespace FineractReports.Execution

open Dataset

abbrev Disk := List String → Option String

/-! ### Paths -/

/-- The components of a relative path. Empty ones are dropped, and so is `.` but in front. -/
def pathComponents (path : String) : List String :=
  match Text.split (fun c => c = '/') path with
  | [] => []
  | first :: rest =>
    (if first = "" then [] else [first]) ++ rest.filter fun part => part ≠ "" ∧ part ≠ "."

def isAbsolute (path : String) : Bool := Text.startsWith path "/"

/-- `Path::join`: an absolute path replaces the directory. -/
def joinPath (directory : List String) (path : String) : List String :=
  if isAbsolute path then "" :: pathComponents path
  else directory ++ (pathComponents path).filter fun part => part ≠ "."

/-- Every component names an entry of the directory before it. -/
def hasNormalComponents (path : String) : Bool :=
  (pathComponents path).all fun part => part ≠ "." ∧ part ≠ ".."

/-- The files the validator reads, by directory and path. -/
def filesOf (disk : Disk) (path : List String × String) : Option String :=
  disk (joinPath path.1 path.2)

def resolveSqlPath (queryRoot : List String) (sqlFile : String) : Except String (List String) := do
  let relative := (Text.stripPrefix sqlFile "queries/").getD sqlFile
  failIf (isAbsolute relative = true ∨ hasNormalComponents relative = false) "invalid SQL file path"
  pure (joinPath queryRoot relative)

def readApprovedSql (disk : Disk) (catalog : KnowledgeCatalog) (sqlFile : String) :
    Except String String := do
  let path ← resolveSqlPath catalog.queryPath sqlFile
  okOr (disk path) ("read approved SQL " ++ String.intercalate "/" path)

/-! ### Statements -/

structure Statement where
  sql : String
  parameters : List QueryParameter
  outputFields : List QueryOutputField
  timeoutMs : UInt64
  appliedFilters : List String
deriving DecidableEq

def queryOutputField (field : DatasetOutputField) : QueryOutputField where
  name := field.name
  kind := field.kind
  sensitivity := field.sensitivity

section Resolve

variable (disk : Disk) (catalog : KnowledgeCatalog)

def datasetOf (selection : DatasetSelection) : Except String DatasetKnowledge :=
  okOr (catalog.datasets.find? fun dataset => dataset.id = selection.datasetId)
    "dataset selection not found in catalog"

/-- The text of the shape's fragment, when it declares one. -/
def readFragment (shape : ShapeOption) : Except String (Option String) :=
  match shape.fragment with
  | none => .ok none
  | some path => (readApprovedSql disk catalog path).map some

def queryStatement (query : QueryKnowledge) (defaultTimeoutMs : UInt64) :
    Except String Statement := do
  let sql ← readApprovedSql disk catalog query.sqlFile
  pure ⟨sql, query.parameters, query.outputFields, query.timeoutMs.getD defaultTimeoutMs, []⟩

def datasetStatement (selection : DatasetSelection) (defaultTimeoutMs : UInt64) :
    Except String Statement := do
  let dataset ← datasetOf catalog selection
  let shape ← okOr (dataset.shape selection.shapeId) "dataset shape not found in catalog"
  let source ← readApprovedSql disk catalog dataset.sourceSql
  let fragment ← readFragment disk catalog shape
  let composed ← compose dataset selection.shapeId selection.orderById source fragment
  pure ⟨composed.sql, shape.parametersOf dataset,
    (shape.outputFieldsOf dataset).map queryOutputField,
    dataset.timeoutMs.getD defaultTimeoutMs, selection.filters.map (·.filterId)⟩

def resolveStatement (plan : ExecutionPlan) (query : QueryKnowledge) (defaultTimeoutMs : UInt64) :
    Except String Statement :=
  match plan.datasetSelection with
  | none => queryStatement disk catalog query defaultTimeoutMs
  | some selection => datasetStatement disk catalog selection defaultTimeoutMs

end Resolve

/-! ### Two ways to a query's file -/

/-- The validator and the executor resolve a query's file to one path. -/
def SamePath (catalog : KnowledgeCatalog) (query : QueryKnowledge) : Prop :=
  Text.startsWith query.sqlFile "queries/" = true →
    KnowledgeValidator.parentOrSelf catalog.queryPath ++ ["queries"] = catalog.queryPath

instance (catalog : KnowledgeCatalog) (query : QueryKnowledge) :
    Decidable (SamePath catalog query) := by
  unfold SamePath; infer_instance

theorem split_queries (path : String) : Text.split (fun c => c = '/') ("queries/" ++ path) =
    "queries" :: Text.split (fun c => c = '/') path := by
  have hfront : "queries/" = "queries" ++ String.singleton '/' := by decide
  have hword : Text.split (fun c => c = '/') "queries" = ["queries"] := by decide
  rw [hfront, Text.split_append_cons _ _ (by simp), hword, List.singleton_append]

theorem pathComponents_queries (path : String) :
    pathComponents ("queries/" ++ path) = "queries" ::
      (Text.split (fun c => c = '/') path).filter fun part => part ≠ "" ∧ part ≠ "." := by
  rw [pathComponents, split_queries]
  rfl

theorem pathComponents_filter (path : String) :
    (pathComponents path).filter (fun part => part ≠ ".") =
      (Text.split (fun c => c = '/') path).filter fun part => part ≠ "" ∧ part ≠ "." := by
  unfold pathComponents
  cases hsplit : Text.split (fun c => c = '/') path with
  | nil => rfl
  | cons first rest =>
    have hrest : (rest.filter fun part => part ≠ "" ∧ part ≠ ".").filter (fun part => part ≠ ".") =
        rest.filter fun part => part ≠ "" ∧ part ≠ "." := by
      rw [List.filter_filter]
      apply List.filter_congr
      intro part _
      by_cases hdot : part = "." <;> simp [hdot]
    rw [List.filter_append, hrest]
    by_cases hfirst : first = ""
    · simp [hfirst]
    · by_cases hdot : first = "." <;> simp [hfirst, hdot]

theorem startsWith_queries (path : String) : isAbsolute ("queries/" ++ path) = false := by
  unfold isAbsolute Text.startsWith
  have hfront : "queries/".toList = 'q' :: "ueries/".toList := by decide
  rw [String.toList_append, hfront]
  rfl

/-- Below a directory, a path under `queries/` is the path below its subdirectory. -/
theorem joinPath_queries {directory : List String} {path : String} (h : isAbsolute path = false) :
    joinPath directory ("queries/" ++ path) = joinPath (directory ++ ["queries"]) path := by
  unfold joinPath
  rw [if_neg (by simp [startsWith_queries]), if_neg (by simp [h]), pathComponents_queries,
    pathComponents_filter, List.append_assoc]
  congr 1
  rw [List.filter_cons_of_pos (by decide), List.filter_filter, List.singleton_append]
  congr 1
  apply List.filter_congr
  intro part _
  by_cases hdot : part = "." <;> simp [hdot]

/-- On the same path the executor reads what the validator scanned. -/
theorem readApprovedSql_scanned {disk : Disk} {catalog : KnowledgeCatalog} {query : QueryKnowledge}
    {sql : String} (hsame : SamePath catalog query)
    (h : readApprovedSql disk catalog query.sqlFile = .ok sql) :
    filesOf disk (KnowledgeValidator.resolveSqlPath catalog query) = some sql := by
  simp only [readApprovedSql, resolveSqlPath, bind_eq_ok_iff, exists_unit_iff, failIf_eq_ok,
    pure_eq_ok, okOr_eq_ok] at h
  obtain ⟨path, ⟨hnormal, rfl⟩, hread⟩ := h
  rw [← hread]
  unfold filesOf KnowledgeValidator.resolveSqlPath
  cases hstart : Text.stripPrefix query.sqlFile "queries/" with
  | none =>
    rw [if_neg (by simp [Text.stripPrefix_eq_none.mp hstart])]
    rfl
  | some relative =>
    have hfile := Text.stripPrefix_eq_some.mp hstart
    have hstarts : Text.startsWith query.sqlFile "queries/" = true := by
      by_contra hno
      have hnone := Text.stripPrefix_eq_none.mpr (Bool.eq_false_iff.mpr hno)
      rw [hnone] at hstart
      cases hstart
    rw [hstart, Option.getD_some] at hnormal
    have habsolute : isAbsolute relative = false := by
      cases habs : isAbsolute relative with
      | false => rfl
      | true => exact absurd (Or.inl habs) hnormal
    rw [if_pos hstarts, Option.getD_some]
    dsimp only
    rw [hfile, joinPath_queries habsolute, hsame hstarts]

end FineractReports.Execution
