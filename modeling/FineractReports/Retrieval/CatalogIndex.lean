import FineractReports.Json
import FineractReports.Library.Checks
import FineractReports.Library.Tokens

/-!
# The catalog index

The documents of the knowledge catalog in the database, one version for each content hash. A
sync writes the version of its documents and replaces its rows in one transaction; retrieval
reads the version with the latest instant among the embedded ones. `sha256` and `serialize`
stand for the digest and the JSON writer, the reply of the embedding service is part of a call.
-/

namespace FineractReports.Index

inductive RetrievalSourceType where
  | dataArea | domain | schema | metric | capability | query | policy | response
deriving DecidableEq, Repr

def retrievalSourceTypeName : RetrievalSourceType → String
  | .dataArea => "data_area"
  | .domain => "domain"
  | .schema => "schema"
  | .metric => "metric"
  | .capability => "capability"
  | .query => "query"
  | .policy => "policy"
  | .response => "response"

structure RetrievalDocument where
  sourceType : RetrievalSourceType
  sourceId : String
  title : String
  retrievalText : String
  metadataJson : Json
deriving DecidableEq

/-! ### Content hashes -/

section Hashes

variable (sha256 : String → String) (serialize : Json → String)

/-- What the hash of a document is taken of. -/
def documentText (document : RetrievalDocument) : String :=
  retrievalSourceTypeName document.sourceType ++ "\n" ++ document.sourceId ++ "\n" ++
    document.title ++ "\n" ++ document.retrievalText ++ "\n" ++ serialize document.metadataJson

def documentContentHash (document : RetrievalDocument) : String :=
  sha256 (documentText serialize document)

/-- What the hash of a catalog is taken of: the hashes of its documents, each with a line end. -/
def catalogText (documents : List RetrievalDocument) : String :=
  String.ofList (documents.flatMap fun document =>
    (documentContentHash sha256 serialize document).toList ++ ['\n'])

def catalogContentHash (documents : List RetrievalDocument) : String :=
  sha256 (catalogText sha256 serialize documents)

end Hashes

/-! ### Tables -/

structure CatalogVersion where
  id : ℕ
  version : String
  contentHash : String
  status : String
  documentCount : ℕ
  embeddingModel : Option String
  embeddingDimensions : Option ℤ
  syncedAt : Option ℤ
  createdAt : ℤ
deriving DecidableEq

/-- A row of the index; `F` are the numbers of an embedding. -/
structure IndexRow (F : Type) where
  catalogVersionId : ℕ
  document : RetrievalDocument
  contentHash : String
  embedding : Option (List F)
  embeddingModel : Option String
deriving DecidableEq

structure Tables (F : Type) where
  versions : List CatalogVersion
  index : List (IndexRow F)
deriving DecidableEq

def Tables.rowsOf {F : Type} (tables : Tables F) (id : ℕ) : List (IndexRow F) :=
  tables.index.filter fun row => row.catalogVersionId = id

/-- `a` comes before `b` in the order of the latest sync, no instant being the earliest. -/
def Later (a b : CatalogVersion) : Prop :=
  match a.syncedAt, b.syncedAt with
  | some first, some second => second < first ∨ first = second ∧ b.createdAt < a.createdAt
  | some _, none => True
  | none, some _ => False
  | none, none => b.createdAt < a.createdAt

instance (a b : CatalogVersion) : Decidable (Later a b) :=
  match h : a.syncedAt, h' : b.syncedAt with
  | some first, some second =>
    decidable_of_iff (second < first ∨ first = second ∧ b.createdAt < a.createdAt)
      (by simp [Later, h, h'])
  | some _, none => isTrue (by simp [Later, h, h'])
  | none, some _ => isFalse (by simp [Later, h, h'])
  | none, none => decidable_of_iff (b.createdAt < a.createdAt) (by simp [Later, h, h'])

/-- A row that the query for the latest version with a property may return; which one of
several with the same instants is a choice of the database. -/
structure IsLatest {F : Type} (p : CatalogVersion → Prop) (tables : Tables F)
    (version : CatalogVersion) : Prop where
  mem : version ∈ tables.versions
  holds : p version
  latest : ∀ other ∈ tables.versions, p other → ¬ Later other version

def IsEmbedded (version : CatalogVersion) : Prop := version.status = "embedded"

instance (version : CatalogVersion) : Decidable (IsEmbedded version) :=
  inferInstanceAs (Decidable (version.status = "embedded"))

/-- `latest_catalog_version`. -/
def LatestCatalogVersion {F : Type} (tables : Tables F) : Option CatalogVersion → Prop
  | some version => IsLatest (fun _ => True) tables version
  | none => tables.versions = []

/-- The version `search_hybrid_by_source_type` reads. -/
def ReadBySearch {F : Type} (tables : Tables F) (version : CatalogVersion) : Prop :=
  IsLatest IsEmbedded tables version

/-! ### Calls -/

structure EmbeddingConfig where
  model : String
  dimensions : ℤ
deriving DecidableEq

/-- One call of a sync service: its embedding configuration, if it has one, the documents built
from the catalog on disk, what the embedding service replies, and the fresh id and the instant
of its transaction. -/
structure SyncCall (F : Type) where
  config : Option EmbeddingConfig
  documents : List RetrievalDocument
  reply : Except String (List (List F))
  id : ℕ
  now : ℤ

def statusOf (config : Option EmbeddingConfig) : String :=
  if config.isSome = true then "embedded" else "indexed"

/-- The dimensions of the vector column. -/
def VECTOR_DIMENSIONS : ℕ := 1024

section Sync

variable {F : Type} (sha256 : String → String) (serialize : Json → String)

/-- `embed_documents`; nothing is requested for no input. -/
def embedDocuments (reply : Except String (List (List F))) (inputs : List String) :
    Except String (List (List F)) :=
  if inputs = [] then .ok []
  else do
    let embeddings ← reply
    failIf (embeddings.length ≠ inputs.length)
      ("Voyage AI returned " ++ toString embeddings.length ++ " embeddings for " ++
        toString inputs.length ++ " inputs")
    pure embeddings

def indexedDocuments (call : SyncCall F) :
    Except String (List (RetrievalDocument × Option (List F))) :=
  match call.config with
  | none => .ok (call.documents.map fun document => (document, none))
  | some _ => do
    let embeddings ← embedDocuments call.reply (call.documents.map (·.retrievalText))
    pure (call.documents.zip (embeddings.map some))

/-- The version of a content hash is updated in place, or inserted. -/
def upsertCatalogVersion (versions : List CatalogVersion) (call : SyncCall F) (contentHash : String)
    (documentCount : ℕ) : Except String (ℕ × List CatalogVersion) := do
  failIf ((call.config.any fun config => decide (config.dimensions ≤ 0)) = true)
    "chk_knowledge_catalog_versions_embedding_dimensions"
  let written : CatalogVersion :=
    { id := call.id
      version := "local"
      contentHash := contentHash
      status := statusOf call.config
      documentCount := documentCount
      embeddingModel := call.config.map (·.model)
      embeddingDimensions := call.config.map (·.dimensions)
      syncedAt := some call.now
      createdAt := call.now }
  match versions.find? fun version => version.contentHash = contentHash with
  | some existing =>
    pure (existing.id, versions.map fun version =>
      if version.contentHash = contentHash then
        { written with id := version.id, createdAt := version.createdAt }
      else version)
  | none => do
    failIf (call.id ∈ versions.map (·.id)) "knowledge_catalog_versions_pkey"
    pure (call.id, versions ++ [written])

/-- The row of a document, under the constraints of the table. -/
def insertKnowledgeIndexDocument (index : List (IndexRow F)) (row : IndexRow F) :
    Except String (List (IndexRow F)) := do
  failIf (row.document.retrievalText.toList.all (fun c => c = ' ') = true)
    "chk_knowledge_index_retrieval_text_not_empty"
  failIf ((row.embedding.any fun embedding => decide (embedding.length ≠ VECTOR_DIMENSIONS)) = true)
    "expected 1024 dimensions"
  failIf ((index.any fun other => decide (other.catalogVersionId = row.catalogVersionId ∧
      other.document.sourceType = row.document.sourceType ∧
      other.document.sourceId = row.document.sourceId)) = true)
    "idx_knowledge_index_catalog_source"
  pure (index ++ [row])

def insertRows (index : List (IndexRow F)) : List (IndexRow F) → Except String (List (IndexRow F))
  | [] => .ok index
  | row :: rest => do
    let index ← insertKnowledgeIndexDocument index row
    insertRows index rest

def indexRow (call : SyncCall F) (id : ℕ) (indexed : RetrievalDocument × Option (List F)) :
    IndexRow F where
  catalogVersionId := id
  document := indexed.1
  contentHash := documentContentHash sha256 serialize indexed.1
  embedding := indexed.2
  embeddingModel := call.config.map (·.model)

/-- The transaction of a sync; an error leaves the tables as they were. -/
def replaceIndexedCatalogVersion (tables : Tables F) (call : SyncCall F) (contentHash : String)
    (documents : List (RetrievalDocument × Option (List F))) : Except String (Tables F) := do
  let (id, versions) ← upsertCatalogVersion tables.versions call contentHash documents.length
  let kept := tables.index.filter fun row => row.catalogVersionId ≠ id
  let index ← insertRows kept (documents.map (indexRow sha256 serialize call id))
  pure ⟨versions, index⟩

def syncDocuments (tables : Tables F) (call : SyncCall F) : Except String (Tables F) := do
  let documents ← indexedDocuments call
  replaceIndexedCatalogVersion sha256 serialize tables call
    (catalogContentHash sha256 serialize call.documents) documents

/-- The index is current when the latest version is embedded and has the hash of the catalog. -/
def isCurrent (documents : List RetrievalDocument) (indexed : Option CatalogVersion) : Bool :=
  indexed.any fun version =>
    version.contentHash = catalogContentHash sha256 serialize documents ∧
      version.status = "embedded"

/-- `indexed` is the version the call reads first; `none` says that the index is current. -/
def syncIfStale (tables : Tables F) (indexed : Option CatalogVersion) (call : SyncCall F) :
    Except String (Option (Tables F)) := do
  failIf (call.documents = [])
    ("knowledge catalog loaded 0 documents; refusing to replace the retrieval index " ++
      "(check CATALOG_PATH and the process working directory)")
  if isCurrent sha256 serialize call.documents indexed = true then pure none
  else (syncDocuments sha256 serialize tables call).map some

/-- The tables after the calls that wrote, the last one first. Every other call leaves them as
they are; between what `sync_if_stale` reads and what it writes others may have written. -/
inductive Synced : List (SyncCall F) → Tables F → Prop where
  | start : Synced [] ⟨[], []⟩
  | sync {history : List (SyncCall F)} {tables after : Tables F} {call : SyncCall F}
      (h : Synced history tables) (hsync : syncDocuments sha256 serialize tables call = .ok after) :
      Synced (call :: history) after
  | syncIfStale {history : List (SyncCall F)} {tables after : Tables F} {call : SyncCall F}
      (indexed : Option CatalogVersion) (h : Synced history tables)
      (hsync : syncIfStale sha256 serialize tables indexed call = .ok (some after)) :
      Synced (call :: history) after

/-- The last of the calls that wrote the version of a content hash. -/
def lastSync (history : List (SyncCall F)) (contentHash : String) : Option (SyncCall F) :=
  history.find? fun call => catalogContentHash sha256 serialize call.documents = contentHash

end Sync

end FineractReports.Index
