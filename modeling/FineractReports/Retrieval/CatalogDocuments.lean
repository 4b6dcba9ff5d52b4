import FineractReports.Assistant.ClarificationPlanner
import FineractReports.Retrieval.Engine
import FineractReports.Retrieval.StaleIndex
import FineractReports.Workflow.CompiledNodes

/-!
# The documents of a catalog

What the index holds of a knowledge catalog: one document for each of its items. A catalog that the
validator lets through can always be indexed, as no two documents have the same key and none is
empty.
-/

namespace FineractReports.Index

open ClarificationPlanner (humanizeId)

structure DomainConcept where
  id : String
  meaning : Option String
  synonyms : List String
deriving DecidableEq, Repr

/-- The fields of the items of a catalog that only its documents show. -/
structure CatalogProse where
  includedTables : DataAreasKnowledge → List String
  conditionalTables : DataAreasKnowledge → List String
  excludedTables : DataAreasKnowledge → List String
  allowedDomains : DataAreasKnowledge → List String
  domainDisplayName : DomainKnowledge → Option String
  domainDescription : DomainKnowledge → Option String
  concepts : DomainKnowledge → List DomainConcept
  domainSupportedIntents : DomainKnowledge → List String
  domainUnsupportedIntents : DomainKnowledge → List String
  supportedIntents : CapabilityKnowledge → List String
  unsupportedIntents : CapabilityKnowledge → List String
  queryTables : QueryKnowledge → List String
  queryMetrics : QueryKnowledge → List String

/-! ### Lines -/

def optionalList (label : String) (values : List String) : String :=
  if values.isEmpty then "" else label ++ ": " ++ String.intercalate ", " values ++ "."

def optionalValue (label : String) (value : Option String) : String :=
  ((value.filter fun value => !Text.isBlank value).map fun value =>
    label ++ ": " ++ value ++ ".").getD ""

def compactLines (lines : List String) : String :=
  String.intercalate "\n" (lines.filter fun line => !Text.isBlank line)

def conceptLine (concepts : List DomainConcept) : String :=
  if concepts.isEmpty then ""
  else "Concepts: " ++ String.intercalate ", " (concepts.flatMap fun concept =>
    concept.id :: ((concept.meaning.filter fun meaning => !Text.isBlank meaning).toList ++
      concept.synonyms)) ++ "."

def texts (values : List String) : Json := .arr (values.map .str)

/-! ### Documents -/

section Build

variable (showJson : Json → String) (toUppercase : Char → String) (prose : CatalogProse)

def buildGenericDocument (sourceType : RetrievalSourceType) (label : String)
    (item : GenericKnowledge) : RetrievalDocument where
  sourceType := sourceType
  sourceId := item.id
  title := label ++ " " ++ item.id
  retrievalText := compactLines
    [label ++ " " ++ item.id, optionalValue "Status" item.status,
      optionalValue "Domain" item.domain, optionalList "Data areas" item.dataAreas,
      optionalList "Content" (item.content.map fun member =>
        member.1 ++ ": " ++ showJson member.2)]
  metadataJson := .obj
    [("data_areas", texts item.dataAreas), ("domain", Retrieval.optionalText item.domain),
      ("status", Retrieval.optionalText item.status)]

def buildDataAreaDocument (area : DataAreasKnowledge) : RetrievalDocument where
  sourceType := .dataArea
  sourceId := area.id
  title := "Data area " ++ area.id
  retrievalText := compactLines
    ["Data area " ++ area.id ++ ".", "Status " ++ area.status ++ ".",
      optionalList "Included tables" (prose.includedTables area),
      optionalList "Conditional tables" (prose.conditionalTables area),
      optionalList "Excluded tables" (prose.excludedTables area),
      optionalList "Allowed domains" (prose.allowedDomains area)]
  metadataJson := .obj
    [("allowed_domains", texts (prose.allowedDomains area)),
      ("conditional_tables", texts (prose.conditionalTables area)),
      ("excluded_tables", texts (prose.excludedTables area)),
      ("included_tables", texts (prose.includedTables area)), ("status", .str area.status)]

def buildDomainDocument (domain : DomainKnowledge) : RetrievalDocument where
  sourceType := .domain
  sourceId := domain.id
  title := "Domain " ++ domain.id
  retrievalText := compactLines
    ["Domain " ++ domain.id ++ ".", optionalValue "Display name" (prose.domainDisplayName domain),
      optionalValue "Description" (prose.domainDescription domain),
      "Status " ++ domain.status ++ ".", optionalList "Data areas" domain.dataAreas,
      conceptLine (prose.concepts domain),
      optionalList "Supported intents" (prose.domainSupportedIntents domain),
      optionalList "Unsupported intents" (prose.domainUnsupportedIntents domain)]
  metadataJson := .obj
    [("data_areas", texts domain.dataAreas),
      ("display_name", Retrieval.optionalText (prose.domainDisplayName domain)),
      ("status", .str domain.status),
      ("supported_intents", texts (prose.domainSupportedIntents domain)),
      ("unsupported_intents", texts (prose.domainUnsupportedIntents domain))]

/-- The filters a user may name; the scope of the offices is none of them. -/
def userFilters (query : QueryKnowledge) : List String :=
  (query.parameters.filter fun parameter =>
    parameter.source ≠ some "authorized_scope" ∧ parameter.name ≠ "limit").map (·.name)

def buildCapabilityDocument (capability : CapabilityKnowledge) (domain : Option DomainKnowledge)
    (query : Option QueryKnowledge) : RetrievalDocument where
  sourceType := .capability
  sourceId := capability.id
  title := capability.displayName.getD (humanizeId toUppercase capability.id)
  retrievalText := compactLines
    ["Capability " ++ capability.id,
      "Display name " ++ capability.displayName.getD capability.id,
      capability.description.getD "", "Status " ++ capability.status,
      "Domain " ++ capability.domain, "Query " ++ capability.queryId,
      optionalList "Data areas" capability.dataAreas, optionalList "Metrics" capability.metrics,
      optionalList "Examples" capability.examples,
      optionalList "Supported intents" (prose.supportedIntents capability),
      optionalList "Unsupported intents" (prose.unsupportedIntents capability),
      optionalList "Domain concepts"
        ((domain.map fun domain => (prose.concepts domain).flatMap (·.synonyms)).getD []),
      optionalList "Required parameters" capability.requiredParameters,
      optionalList "Optional parameters" capability.optionalParameters,
      optionalList "User filters" ((query.map userFilters).getD [])]
  metadataJson := .obj
    [("data_areas", texts capability.dataAreas),
      ("description", Retrieval.optionalText capability.description),
      ("display_name", Retrieval.optionalText capability.displayName),
      ("domain", .str capability.domain), ("examples", texts capability.examples),
      ("metrics", texts capability.metrics),
      ("optional_parameters", texts capability.optionalParameters),
      ("output_mode", .str capability.outputMode), ("query_id", .str capability.queryId),
      ("required_parameters", texts capability.requiredParameters),
      ("status", .str capability.status),
      ("supported_intents", texts (prose.supportedIntents capability)),
      ("unsupported_intents", texts (prose.unsupportedIntents capability)),
      ("user_filters", texts ((query.map userFilters).getD []))]

def buildQueryDocument (query : QueryKnowledge) : RetrievalDocument where
  sourceType := .query
  sourceId := query.id
  title := "Query " ++ query.id
  retrievalText := compactLines
    ["Query " ++ query.id, "Database: " ++ query.database, "SQL file " ++ query.sqlFile,
      optionalList "Data areas" query.dataAreas, optionalList "Tables" (prose.queryTables query),
      optionalList "Metrics" (prose.queryMetrics query),
      optionalList "Parameters" (query.parameters.map (·.name)),
      optionalList "Output fields" (query.outputFields.map (·.name))]
  metadataJson := .obj
    [("data_areas", texts query.dataAreas), ("database", .str query.database),
      ("metrics", texts (prose.queryMetrics query)),
      ("output_fields", texts (query.outputFields.map (·.name))),
      ("parameters", texts (query.parameters.map (·.name))), ("sql_file", .str query.sqlFile),
      ("tables", texts (prose.queryTables query))]

/-- The document of a capability, with what its domain and its query add. -/
def capabilityDocument (catalog : KnowledgeCatalog) (capability : CapabilityKnowledge) :
    RetrievalDocument :=
  buildCapabilityDocument toUppercase prose capability
    (catalog.domains.find? fun domain => domain.id = capability.domain)
    (catalog.queries.find? fun query => query.id = capability.queryId)

/-- `RetrievalDocumentBuilder::build`. -/
def build (catalog : KnowledgeCatalog) : List RetrievalDocument :=
  catalog.dataAreas.map (buildDataAreaDocument prose) ++
    catalog.domains.map (buildDomainDocument prose) ++
    catalog.schemas.map (buildGenericDocument showJson .schema "Schema") ++
    catalog.metrics.map (buildGenericDocument showJson .metric "Metric") ++
    catalog.capabilities.map (capabilityDocument toUppercase prose catalog) ++
    catalog.queries.map (buildQueryDocument prose) ++
    catalog.policies.map (buildGenericDocument showJson .policy "Policy") ++
    catalog.responses.map (buildGenericDocument showJson .response "Response")

end Build

/-! ### No document is empty -/

section Texts

/-- A text the index takes: it is not made of spaces only. -/
def IsIndexable (document : RetrievalDocument) : Prop :=
  document.retrievalText.toList.all (fun c => c = ' ') = false

theorem compactLines_not_empty {front rest : String} {lines : List String}
    (hfront : Text.isBlank front = false) :
    (compactLines ((front ++ rest) :: lines)).toList.all (fun c => c = ' ') = false := by
  obtain ⟨c, hc, hshown⟩ := List.all_eq_false.mp hfront
  have hkept : Text.isBlank (front ++ rest) = false := by
    rw [Text.isBlank, String.toList_append, List.all_append, Bool.and_eq_false_iff]
    exact .inl hfront
  rw [compactLines, List.filter_cons_of_pos (by rw [hkept]; rfl), String.intercalate_cons_append,
    String.toList_append]
  refine List.all_eq_false.mpr ⟨c, List.mem_append_left _ hc, fun hspace => hshown ?_⟩
  obtain rfl := of_decide_eq_true hspace
  rfl

variable {showJson : Json → String} {toUppercase : Char → String} {prose : CatalogProse}
  {catalog : KnowledgeCatalog}

theorem isIndexable_buildGenericDocument {sourceType : RetrievalSourceType} {label : String}
    (hlabel : Text.isBlank label = false) (item : GenericKnowledge) :
    IsIndexable (buildGenericDocument showJson sourceType label item) := by
  unfold IsIndexable buildGenericDocument
  rw [String.append_assoc]
  exact compactLines_not_empty hlabel

theorem isIndexable_of_mem_build {document : RetrievalDocument}
    (h : document ∈ build showJson toUppercase prose catalog) : IsIndexable document := by
  simp only [build, List.mem_append, List.mem_map] at h
  rcases h with ((((((⟨area, -, rfl⟩ | ⟨domain, -, rfl⟩) | ⟨item, -, rfl⟩) | ⟨item, -, rfl⟩) |
    ⟨capability, -, rfl⟩) | ⟨query, -, rfl⟩) | ⟨item, -, rfl⟩) | ⟨item, -, rfl⟩
  · unfold IsIndexable buildDataAreaDocument
    rw [String.append_assoc]
    exact compactLines_not_empty (by decide)
  · unfold IsIndexable buildDomainDocument
    rw [String.append_assoc]
    exact compactLines_not_empty (by decide)
  · exact isIndexable_buildGenericDocument (by decide) item
  · exact isIndexable_buildGenericDocument (by decide) item
  · exact compactLines_not_empty (by decide)
  · exact compactLines_not_empty (by decide)
  · exact isIndexable_buildGenericDocument (by decide) item
  · exact isIndexable_buildGenericDocument (by decide) item

end Texts

/-! ### No two documents have one key -/

def documentKey (document : RetrievalDocument) : RetrievalSourceType × String :=
  (document.sourceType, document.sourceId)

/-- Documents of one type with ids of their own. -/
structure IsSection (sourceType : RetrievalSourceType) (documents : List RetrievalDocument) :
    Prop where
  ofType : ∀ document ∈ documents, document.sourceType = sourceType
  ids : (documents.map (·.sourceId)).Nodup

section Keys

variable {sourceType : RetrievalSourceType} {documents more : List RetrievalDocument}

theorem IsSection.keys (h : IsSection sourceType documents) :
    (documents.map documentKey).Nodup := by
  have hids : ((documents.map documentKey).map Prod.snd).Nodup := by
    rw [List.map_map]
    exact h.ids
  exact List.Nodup.of_map Prod.snd hids

/-- Documents of some types, no two of them with one key. -/
structure IsKeyed (types : List RetrievalSourceType) (documents : List RetrievalDocument) :
    Prop where
  ofTypes : ∀ document ∈ documents, document.sourceType ∈ types
  keys : (documents.map documentKey).Nodup

theorem IsKeyed.nil : IsKeyed [] [] := ⟨by simp, List.nodup_nil⟩

theorem IsKeyed.append {types : List RetrievalSourceType} (h : IsKeyed types documents)
    (hmore : IsSection sourceType more) (hnew : sourceType ∉ types) :
    IsKeyed (sourceType :: types) (documents ++ more) where
  ofTypes document hdocument := by
    rcases List.mem_append.mp hdocument with hfirst | hsecond
    · exact List.mem_cons_of_mem _ (h.ofTypes document hfirst)
    · rw [hmore.ofType document hsecond]
      exact List.mem_cons_self
  keys := by
    rw [List.map_append]
    refine h.keys.append hmore.keys fun key hfirst hsecond => ?_
    obtain ⟨document, hdocument, rfl⟩ := List.mem_map.mp hfirst
    obtain ⟨later, hlater, hsame⟩ := List.mem_map.mp hsecond
    have htype : later.sourceType = document.sourceType := congrArg Prod.fst hsame
    apply hnew
    rw [← hmore.ofType later hlater, htype]
    exact h.ofTypes document hdocument

theorem isSection_map {α : Type*} {items : List α} {build : α → RetrievalDocument} {id : α → String}
    (hids : (items.map id).Nodup) (htype : ∀ item, (build item).sourceType = sourceType)
    (hid : ∀ item, (build item).sourceId = id item) : IsSection sourceType (items.map build) where
  ofType document hdocument := by
    obtain ⟨item, -, rfl⟩ := List.mem_map.mp hdocument
    exact htype item
  ids := by
    rw [List.map_map]
    exact (List.map_congr_left fun item _ => hid item).symm ▸ hids

variable {showJson : Json → String} {toUppercase : Char → String} {prose : CatalogProse}
  {catalog : KnowledgeCatalog} {files : List String × String → Option String}
  {toLowercase : String → String}

open KnowledgeValidator in
/-- The validator lets no id pass twice. -/
theorem nodup_build (h : validate catalog files toLowercase = .ok ()) :
    ((build showJson toUppercase prose catalog).map documentKey).Nodup := by
  simp only [validate, validateIds, bind_eq_ok_iff, exists_unit_iff] at h
  obtain ⟨hareas, hdomains, hschemas, hmetrics, hcapabilities, hqueries, hpolicies, hresponses,
    -⟩ := h.2.1
  have hgeneric : ∀ (sourceType : RetrievalSourceType) (title : String)
      {items : List GenericKnowledge} {label : String},
      validateUniqueIds label (items.map (·.id)) = .ok () →
        IsSection sourceType (items.map (buildGenericDocument showJson sourceType title)) :=
    fun _ _ _ _ hids => isSection_map (validateUniqueIds_nodup hids) (fun _ => rfl) fun _ => rfl
  have hareas' : IsSection .dataArea (catalog.dataAreas.map (buildDataAreaDocument prose)) :=
    isSection_map (validateUniqueIds_nodup hareas) (fun _ => rfl) fun _ => rfl
  have hdomains' : IsSection .domain (catalog.domains.map (buildDomainDocument prose)) :=
    isSection_map (validateUniqueIds_nodup hdomains) (fun _ => rfl) fun _ => rfl
  have hcapabilities' : IsSection .capability
      (catalog.capabilities.map (capabilityDocument toUppercase prose catalog)) :=
    isSection_map (validateUniqueIds_nodup hcapabilities) (fun _ => rfl) fun _ => rfl
  have hqueries' : IsSection .query (catalog.queries.map (buildQueryDocument prose)) :=
    isSection_map (validateUniqueIds_nodup hqueries) (fun _ => rfl) fun _ => rfl
  have hlayers := (IsKeyed.nil.append hareas' (by decide)).append hdomains' (by decide)
  have hconcepts := (hlayers.append (hgeneric .schema "Schema" hschemas) (by decide)).append
    (hgeneric .metric "Metric" hmetrics) (by decide)
  have hreports := (hconcepts.append hcapabilities' (by decide)).append hqueries' (by decide)
  have hall := (hreports.append (hgeneric .policy "Policy" hpolicies) (by decide)).append
    (hgeneric .response "Response" hresponses) (by decide)
  exact hall.keys

end Keys

end FineractReports.Index
