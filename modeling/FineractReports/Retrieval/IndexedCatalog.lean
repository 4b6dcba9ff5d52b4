import FineractReports.Retrieval.CatalogDocuments

/-!
# The index of a validated catalog

A sync of a validated catalog cannot be refused by the database, and a search behind it finds the
capabilities of that catalog, the way the engine reads them from the catalog itself.
-/

namespace FineractReports.Index

open Retrieval

variable {F : Type} {sha256 : String → String} {serialize : Json → String}

/-! ### A sync that goes through -/

section Sync

variable {tables : Tables F} {call : SyncCall F}

/-- The embedding service has a vector of the right length for each document. -/
structure Answers (call : SyncCall F) (embeddings : List (List F)) : Prop where
  reply : call.reply = .ok embeddings
  length : embeddings.length = call.documents.length
  dimensions : ∀ embedding ∈ embeddings, embedding.length = VECTOR_DIMENSIONS

theorem indexedDocuments_ok {embeddings : List (List F)} (h : Answers call embeddings) :
    ∃ documents, indexedDocuments call = .ok documents ∧
      ∀ indexed ∈ documents, ∀ embedding ∈ indexed.2, embedding.length = VECTOR_DIMENSIONS := by
  unfold indexedDocuments
  cases call.config with
  | none =>
    refine ⟨_, rfl, fun indexed hindexed embedding hembedding => ?_⟩
    obtain ⟨document, -, rfl⟩ := List.mem_map.mp hindexed
    cases hembedding
  | some config =>
    have hembed : embedDocuments call.reply (call.documents.map (·.retrievalText)) =
        .ok embeddings := by
      have hlength := h.length
      unfold embedDocuments
      split_ifs with hempty
      · rw [List.map_eq_nil_iff] at hempty
        rw [hempty, List.length_nil, List.length_eq_zero_iff] at hlength
        rw [hlength]
      · rw [h.reply]
        simp [hlength, failIf]
    refine ⟨call.documents.zip (embeddings.map some), by simp only [hembed]; rfl, ?_⟩
    intro indexed hindexed embedding hembedding
    obtain ⟨vector, hvector, hsome⟩ := List.mem_map.mp (List.of_mem_zip hindexed).2
    rw [← hsome] at hembedding
    obtain rfl := Option.some.inj hembedding
    exact h.dimensions vector hvector

theorem insertRows_ok {index rows : List (IndexRow F)}
    (htexts : ∀ row ∈ rows, IsIndexable row.document)
    (hdimensions : ∀ row ∈ rows, ∀ embedding ∈ row.embedding,
      embedding.length = VECTOR_DIMENSIONS)
    (hkeys : ((index ++ rows).map sourceKey).Nodup) :
    insertRows index rows = .ok (index ++ rows) := by
  induction rows generalizing index with
  | nil => rw [List.append_nil]; rfl
  | cons row rest ih =>
    have hinsert : insertKnowledgeIndexDocument index row = .ok (index ++ [row]) := by
      have htext : row.document.retrievalText.toList.all (fun c => c = ' ') = false :=
        htexts row List.mem_cons_self
      have hvector : (row.embedding.any fun embedding =>
          decide (embedding.length ≠ VECTOR_DIMENSIONS)) = false := by
        rw [Option.any_eq_false_iff_get]
        intro hsome
        have hlength := hdimensions row List.mem_cons_self _ (Option.get_mem hsome)
        rw [hlength]
        rfl
      have hnew : (index.any fun other => decide (other.catalogVersionId = row.catalogVersionId ∧
          other.document.sourceType = row.document.sourceType ∧
          other.document.sourceId = row.document.sourceId)) = false := by
        refine List.any_eq_false.mpr fun other hother hsame => ?_
        obtain ⟨hversion, htype, hsource⟩ := of_decide_eq_true hsame
        rw [List.map_append] at hkeys
        apply (List.nodup_append.mp hkeys).2.2 _ (List.mem_map_of_mem hother) _
          (List.mem_map_of_mem List.mem_cons_self)
        rw [sourceKey, sourceKey, hversion, htype, hsource]
      unfold insertKnowledgeIndexDocument
      rw [htext, hvector, hnew]
      rfl
    rw [insertRows, hinsert]
    have hrest : insertRows (index ++ [row]) rest = .ok (index ++ [row] ++ rest) :=
      ih (fun other hother => htexts other (List.mem_cons_of_mem _ hother))
        (fun other hother => hdimensions other (List.mem_cons_of_mem _ hother))
        (by rw [List.append_assoc]; exact hkeys)
    rw [List.append_assoc] at hrest
    exact hrest

theorem upsertCatalogVersion_ok {versions : List CatalogVersion} (contentHash : String) (count : ℕ)
    (hdimensions : ∀ config ∈ call.config, 0 < config.dimensions)
    (hfresh : call.id ∉ versions.map (·.id)) :
    ∃ id written, upsertCatalogVersion versions call contentHash count = .ok (id, written) ∧
      ∃ version ∈ written, version.status = statusOf call.config ∧
        version.syncedAt = some call.now := by
  have hpositive : (call.config.any fun config => decide (config.dimensions ≤ 0)) = false := by
    rw [Option.any_eq_false_iff_get]
    intro hsome
    exact decide_eq_false (not_le.mpr (hdimensions _ (Option.get_mem hsome)))
  unfold upsertCatalogVersion
  rw [hpositive]
  cases hfound : versions.find? fun version => version.contentHash = contentHash with
  | some existing =>
    refine ⟨_, _, rfl, _, List.mem_map_of_mem (List.mem_of_find?_eq_some hfound), ?_⟩
    have hhash : existing.contentHash = contentHash := by simpa using List.find?_some hfound
    rw [if_pos hhash]
    exact ⟨rfl, rfl⟩
  | none =>
    have hinserted : failIf (call.id ∈ versions.map (·.id)) "knowledge_catalog_versions_pkey" =
        .ok () := if_neg hfresh
    simp only [hinserted]
    exact ⟨_, _, rfl, _, List.mem_append_right _ (List.mem_singleton_self _), rfl, rfl⟩

/-- The constraints of the tables refuse no documents with keys of their own. -/
theorem syncDocuments_ok {history : List (SyncCall F)} {embeddings : List (List F)}
    (hinv : SyncInv sha256 serialize history tables) (hanswers : Answers call embeddings)
    (hdimensions : ∀ config ∈ call.config, 0 < config.dimensions)
    (hfresh : call.id ∉ tables.versions.map (·.id))
    (htexts : ∀ document ∈ call.documents, IsIndexable document)
    (hkeys : (call.documents.map documentKey).Nodup) :
    ∃ after, syncDocuments sha256 serialize tables call = .ok after ∧
      ∃ version ∈ after.versions, version.status = statusOf call.config ∧
        version.syncedAt = some call.now := by
  obtain ⟨documents, hdocuments, hvectors⟩ := indexedDocuments_ok hanswers
  obtain ⟨hown, -⟩ := indexedDocuments_spec hdocuments
  obtain ⟨id, written, hupsert, version, hversion, hwritten⟩ :=
    upsertCatalogVersion_ok (catalogContentHash sha256 serialize call.documents)
      documents.length hdimensions hfresh
  have hrowKeys : ((documents.map (indexRow sha256 serialize call id)).map sourceKey).Nodup := by
    have hsame : (documents.map (indexRow sha256 serialize call id)).map sourceKey =
        (call.documents.map documentKey).map (Prod.mk id) := by
      rw [← hown, List.map_map, List.map_map, List.map_map]
      rfl
    rw [hsame]
    exact hkeys.map (Prod.mk_right_injective id)
  have hinsert : insertRows (tables.index.filter fun row => row.catalogVersionId ≠ id)
      (documents.map (indexRow sha256 serialize call id)) = .ok
        ((tables.index.filter fun row => row.catalogVersionId ≠ id) ++
          documents.map (indexRow sha256 serialize call id)) := by
    apply insertRows_ok
    · intro row hrow
      obtain ⟨indexed, hindexed, rfl⟩ := List.mem_map.mp hrow
      exact htexts _ (hown ▸ List.mem_map_of_mem hindexed)
    · intro row hrow
      obtain ⟨indexed, hindexed, rfl⟩ := List.mem_map.mp hrow
      exact hvectors indexed hindexed
    · rw [List.map_append]
      refine (hinv.keys.sublist (List.filter_sublist.map _)).append hrowKeys ?_
      -- The rows of the version were deleted.
      intro key hkept hnew
      obtain ⟨kept, hmem, rfl⟩ := List.mem_map.mp hkept
      obtain ⟨row, hrow, hsame⟩ := List.mem_map.mp hnew
      obtain ⟨indexed, -, rfl⟩ := List.mem_map.mp hrow
      have hid : id = kept.catalogVersionId := congrArg Prod.fst hsame
      simpa [hid] using (List.mem_filter.mp hmem).2
  have hsync : syncDocuments sha256 serialize tables call = .ok ⟨written,
      (tables.index.filter fun row => row.catalogVersionId ≠ id) ++
        documents.map (indexRow sha256 serialize call id)⟩ := by
    simp only [syncDocuments, replaceIndexedCatalogVersion, bind_eq_ok_iff, pure_eq_ok, Prod.exists]
    exact ⟨documents, hdocuments, id, written, hupsert, _, hinsert, rfl⟩
  exact ⟨_, hsync, version, hversion, hwritten⟩

end Sync

/-! ### The version that is searched -/

section Searched

variable {tables after : Tables F} {call : SyncCall F} {history : List (SyncCall F)}
  {version : CatalogVersion}

/-- The version a call wrote is the only one of its instant. -/
theorem version_eq_of_lastSync (hinv : SyncInv sha256 serialize (call :: history) after)
    (hclock : ∀ earlier ∈ history, earlier.now < call.now) {other : CatalogVersion}
    (hversion : version ∈ after.versions) (hsynced : version.syncedAt = some call.now)
    (hother : other ∈ after.versions) (hsame : other.syncedAt = some call.now) :
    version = other := by
  have hhash : ∀ candidate ∈ after.versions, candidate.syncedAt = some call.now →
      catalogContentHash sha256 serialize call.documents = candidate.contentHash := by
    intro candidate hcandidate hnow
    obtain ⟨source, hsource, hlast, hby, -⟩ := hinv.written candidate hcandidate
    rw [hby.syncedAt] at hnow
    rcases List.mem_cons.mp hsource with rfl | hearlier
    · simpa using List.find?_some hlast
    · exact absurd (Option.some.inj hnow) (hclock source hearlier).ne
  apply List.inj_on_of_nodup_map hinv.hashes hversion hother
  rw [← hhash version hversion hsynced, ← hhash other hother hsame]

theorem readBySearch_of_synced (hinv : SyncInv sha256 serialize (call :: history) after)
    (hclock : ∀ earlier ∈ history, earlier.now < call.now) (hversion : version ∈ after.versions)
    (hembedded : IsEmbedded version) (hsynced : version.syncedAt = some call.now) :
    ReadBySearch after version where
  mem := hversion
  holds := hembedded
  latest other hother _ hlater := by
    obtain ⟨source, hsource, -, hby, -⟩ := hinv.written other hother
    rw [Later, hsynced, hby.syncedAt] at hlater
    rcases List.mem_cons.mp hsource with rfl | hearlier
    · obtain rfl := version_eq_of_lastSync hinv hclock hversion hsynced hother hby.syncedAt
      rcases hlater with habsurd | ⟨-, habsurd⟩
      · exact habsurd.ne rfl
      · exact habsurd.ne rfl
    · have hnow := hclock source hearlier
      rcases hlater with habsurd | ⟨habsurd, -⟩
      · exact lt_asymm hnow habsurd
      · exact hnow.ne habsurd

/-- The rows that a search reads are those of the sync that came last. -/
theorem rows_of_readBySearch (hinv : SyncInv sha256 serialize (call :: history) after)
    (hclock : ∀ earlier ∈ history, earlier.now < call.now)
    (hwritten : ∃ version ∈ after.versions, IsEmbedded version ∧ version.syncedAt = some call.now)
    (hread : ReadBySearch after version) : HasRowsOf call (after.rowsOf version.id) := by
  obtain ⟨latest, hlatest, hembedded, hsynced⟩ := hwritten
  obtain ⟨source, hsource, -, hby, hrows⟩ := hinv.written version hread.mem
  rcases List.mem_cons.mp hsource with rfl | hearlier
  · exact hrows
  · have hlater : Later latest version := by
      rw [Later, hsynced, hby.syncedAt]
      exact .inl (hclock source hearlier)
    exact absurd hlater (hread.latest latest hlatest hembedded)

end Searched

/-! ### The search -/

section Search

variable {showJson : Json → String} {toUppercase : Char → String} {prose : CatalogProse}
  {catalog : KnowledgeCatalog} {plan : RetrievalPlan} {rows : List (IndexRow F)}
  {row : IndexRow F}

/-- What the engine shows of a row is what it shows of the capability in the catalog. -/
structure ShowsCapability (toLowercase : String → String) (toUppercase : Char → String)
    (distance : IndexRow F → BinaryNumber binary64) (row : IndexRow F)
    (capability : CapabilityKnowledge) : Prop where
  id : row.document.sourceId = capability.id
  title : ∀ terms, (candidateOf distance row).toEvidence.title =
    (catalogEvidence toLowercase toUppercase terms capability).title
  metadata : ∀ terms key member,
    (catalogEvidence toLowercase toUppercase terms capability).metadata.get? key = some member →
      (candidateOf distance row).toEvidence.metadata.get? key = some member

theorem showsCapability {toLowercase : String → String}
    {distance : IndexRow F → BinaryNumber binary64} {capability : CapabilityKnowledge}
    (h : row.document = capabilityDocument toUppercase prose catalog capability) :
    ShowsCapability toLowercase toUppercase distance row capability where
  id := by rw [h]; rfl
  title _ := by
    dsimp only [RetrievedKnowledgeCandidate.toEvidence, candidateOf]
    rw [h]
    rfl
  metadata terms key member hmember := by
    dsimp only [RetrievedKnowledgeCandidate.toEvidence, candidateOf]
    rw [h]
    have hkeys : key = "description" ∨ key = "domain" ∨ key = "examples" ∨ key = "output_mode" ∨
        key = "query_id" := by
      have hmem := Assoc.mem_of_get?_eq_some hmember
      simp only [List.mem_cons, Prod.mk.injEq, List.not_mem_nil, or_false] at hmem
      rcases hmem with h | h | h | h | h
      all_goals simp [h.1]
    rcases hkeys with rfl | rfl | rfl | rfl | rfl <;> exact hmember

/-- The capability of a row that was built for one. -/
theorem exists_capability (hrow : row.document ∈ build showJson toUppercase prose catalog)
    (htype : row.document.sourceType = .capability) :
    ∃ capability ∈ catalog.capabilities,
      row.document = capabilityDocument toUppercase prose catalog capability := by
  simp only [build, List.mem_append, List.mem_map] at hrow
  rcases hrow with ((((((⟨_, -, h⟩ | ⟨_, -, h⟩) | ⟨_, -, h⟩) | ⟨_, -, h⟩) |
    ⟨capability, hmem, h⟩) | ⟨_, -, h⟩) | ⟨_, -, h⟩) | ⟨_, -, h⟩
  case inl.inl.inl.inr => exact ⟨capability, hmem, h.symm⟩
  all_goals
    rw [← h] at htype
    cases htype

/-- What a search of the rows of a catalog may return. -/
structure FindsCatalog (catalog : KnowledgeCatalog) (toUppercase : Char → String)
    (prose : CatalogProse) (toLowercase : String → String)
    (distance : IndexRow F → BinaryNumber binary64) (plan : RetrievalPlan)
    (answer : List (IndexRow F)) : Prop where
  once : (answer.map fun row => row.document.sourceId).Nodup
  shown : ∀ row ∈ answer, ∃ capability ∈ catalog.capabilities, plan.allows capability.id = true ∧
    row.document = capabilityDocument toUppercase prose catalog capability ∧
      ShowsCapability toLowercase toUppercase distance row capability
  /-- No capability is lost but to the limit. -/
  all : (catalog.capabilities.filter fun capability => plan.allows capability.id).length ≤
      RetrievalServices.SEARCH_LIMIT →
    ∀ capability ∈ catalog.capabilities, plan.allows capability.id = true →
      ∃ row ∈ answer, row.document = capabilityDocument toUppercase prose catalog capability

theorem allowedIds_all (plan : RetrievalPlan) (id : String) :
    (allowedIds plan).all (fun ids => decide (id ∈ ids)) = plan.allows id := by
  unfold allowedIds RetrievalPlan.allows
  cases plan.allowAllCapabilities with
  | true => rfl
  | false => simp

theorem findsCatalog {toLowercase : String → String}
    {distance : IndexRow F → BinaryNumber binary64} {selected ranked : List (IndexRow F)}
    (hcatalog : rows.map (·.document) = build showJson toUppercase prose catalog)
    (hids : (catalog.capabilities.map (·.id)).Nodup)
    (hselected : ∀ row, row ∈ selected ↔ row ∈ rows ∧
      row.document.sourceType = .capability ∧ plan.allows row.document.sourceId = true)
    (hnearest : NearestFirst distance selected ranked) :
    FindsCatalog catalog toUppercase prose toLowercase distance plan
      (ranked.take RetrievalServices.SEARCH_LIMIT) := by
  have hshown : ∀ row ∈ ranked, ∃ capability ∈ catalog.capabilities,
      plan.allows capability.id = true ∧
        row.document = capabilityDocument toUppercase prose catalog capability := by
    intro row hrow
    obtain ⟨hmem, htype, hallows⟩ := (hselected row).mp (hnearest.mem row hrow)
    obtain ⟨capability, hcapability, hdocument⟩ :=
      exists_capability (hcatalog ▸ List.mem_map_of_mem hmem) htype
    refine ⟨capability, hcapability, ?_, hdocument⟩
    rw [hdocument] at hallows
    exact hallows
  constructor
  case once => exact hnearest.sources.sublist ((List.take_sublist _ _).map _)
  case shown =>
    intro row hrow
    obtain ⟨capability, hcapability, hallows, hdocument⟩ := hshown row (List.mem_of_mem_take hrow)
    exact ⟨capability, hcapability, hallows, hdocument, showsCapability hdocument⟩
  case all =>
    intro hfew capability hcapability hallows
    -- One row for each allowed capability at most, so the limit cuts nothing off.
    have hlength : ranked.length ≤ RetrievalServices.SEARCH_LIMIT := by
      refine le_trans ?_ hfew
      have hsubset : (ranked.map fun row => row.document.sourceId) ⊆
          (catalog.capabilities.filter fun capability => plan.allows capability.id).map (·.id) := by
        intro id hid
        obtain ⟨row, hrow, rfl⟩ := List.mem_map.mp hid
        obtain ⟨found, hfound, hpermitted, hdocument⟩ := hshown row hrow
        rw [hdocument]
        exact List.mem_map.mpr ⟨found, List.mem_filter.mpr ⟨hfound, hpermitted⟩, rfl⟩
      have hle := (hnearest.sources.subperm hsubset).length_le
      simpa using hle
    rw [List.take_of_length_le hlength]
    have hbuilt : capabilityDocument toUppercase prose catalog capability ∈
        rows.map (·.document) := by
      rw [hcatalog]
      simp only [build, List.mem_append, List.mem_map]
      exact .inl (.inl (.inl (.inr ⟨capability, hcapability, rfl⟩)))
    obtain ⟨row, hrow, hdocument⟩ := List.mem_map.mp hbuilt
    have hrowSelected : row ∈ selected := by
      refine (hselected row).mpr ⟨hrow, ?_, ?_⟩
      · rw [hdocument]
        rfl
      · rw [hdocument]
        exact hallows
    obtain ⟨found, hfound, hsource⟩ := hnearest.complete row hrowSelected
    refine ⟨found, hfound, ?_⟩
    obtain ⟨other, hother, -, hotherDocument⟩ := hshown found hfound
    rw [hotherDocument, hdocument] at hsource
    have hsame : other = capability := List.inj_on_of_nodup_map hids hother hcapability hsource
    rw [hotherDocument, hsame]

end Search

/-- Every catalog that the validator lets through can be indexed, whatever was synced before; a
search behind it then returns allowed capabilities only, each once and as the catalog itself shows
it, and loses none but to its limit. -/
theorem validated_catalog_is_searched {showJson : Json → String} {toUppercase : Char → String}
    {toLowercase lowerProse : String → String} {prose : CatalogProse} {catalog : KnowledgeCatalog}
    {files : List String × String → Option String} {history : List (SyncCall F)}
    {tables : Tables F} {call : SyncCall F} {config : EmbeddingConfig}
    {embeddings : List (List F)}
    (hvalid : KnowledgeValidator.validate catalog files lowerProse = .ok ())
    (hrun : Synced sha256 serialize history tables)
    (hdocuments : call.documents = build showJson toUppercase prose catalog)
    (hconfig : call.config = some config) (hdimensions : 0 < config.dimensions)
    (hanswers : Answers call embeddings) (hfresh : call.id ∉ tables.versions.map (·.id))
    (hclock : ∀ earlier ∈ history, earlier.now < call.now) :
    ∃ after, syncDocuments sha256 serialize tables call = .ok after ∧
      ∀ plan distance answer, HybridAnswer distance after "capability" (allowedIds plan)
        RetrievalServices.SEARCH_LIMIT answer →
          FindsCatalog catalog toUppercase prose toLowercase distance plan answer := by
  have htexts : ∀ document ∈ call.documents, IsIndexable document :=
    fun document hdocument => isIndexable_of_mem_build (hdocuments ▸ hdocument)
  have hkeys : (call.documents.map documentKey).Nodup := hdocuments ▸ nodup_build hvalid
  have hpositive : ∀ config ∈ call.config, 0 < config.dimensions := by
    intro other hother
    rw [hconfig] at hother
    obtain rfl := Option.some.inj hother
    exact hdimensions
  obtain ⟨after, hsync, latest, hlatest, hstatus, hsynced⟩ :=
    syncDocuments_ok hrun.inv hanswers hpositive hfresh htexts hkeys
  have hinv : SyncInv sha256 serialize (call :: history) after := (hrun.sync hsync).inv
  have hembedded : IsEmbedded latest := by
    rw [hconfig] at hstatus
    exact hstatus
  have hlatestRead := readBySearch_of_synced hinv hclock hlatest hembedded hsynced
  refine ⟨after, hsync, ?_⟩
  rintro plan distance answer ⟨selected, ranked, hnearest, rfl, hread⟩
  rcases hread with ⟨version, hversion, rfl⟩ | ⟨hnone, -⟩
  · have hrows := rows_of_readBySearch hinv hclock ⟨latest, hlatest, hembedded, hsynced⟩ hversion
    refine findsCatalog (hrows.documents.trans hdocuments)
      (KnowledgeValidator.validate_capability_ids hvalid) (fun row => ?_) hnearest
    rw [selectedRows, List.mem_filter, decide_eq_true_iff, allowedIds_all]
    have htype : retrievalSourceTypeName row.document.sourceType = "capability" ↔
        row.document.sourceType = .capability := by
      cases row.document.sourceType <;> decide
    rw [htype]
    refine and_congr_right fun hmem => and_iff_right ?_
    exact hrows.embedded (by rw [hconfig]; rfl) row hmem
  · exact absurd ⟨latest, hlatestRead⟩ hnone

/-! The first sync of a catalog. -/

namespace FirstSync

open KnowledgeValidator

def prose : CatalogProse where
  includedTables _ := []
  conditionalTables _ := []
  excludedTables _ := []
  allowedDomains _ := []
  domainDisplayName _ := some "Clients"
  domainDescription _ := none
  concepts _ := [⟨"client", some "a customer", ["customer"]⟩]
  domainSupportedIntents _ := []
  domainUnsupportedIntents _ := []
  supportedIntents _ := ["lookup"]
  unsupportedIntents _ := []
  queryTables _ := ["m_client"]
  queryMetrics _ := []

def documents : List RetrievalDocument :=
  build (fun _ => "") (fun c => String.singleton c.toUpper) prose NameLookup.catalog

def call : SyncCall Unit where
  config := some ⟨"voyage-3", 1024⟩
  documents := documents
  reply := .ok (documents.map fun _ => List.replicate VECTOR_DIMENSIONS ())
  id := 7
  now := 1

theorem answers : Answers call (documents.map fun _ => List.replicate VECTOR_DIMENSIONS ()) where
  reply := rfl
  length := List.length_map _
  dimensions embedding hembedding := by
    obtain ⟨document, -, rfl⟩ := List.mem_map.mp hembedding
    exact List.length_replicate

theorem lookup_is_searched : ∃ after, syncDocuments id (fun _ => "") ⟨[], []⟩ call = .ok after ∧
    ∀ plan distance answer, HybridAnswer distance after "capability" (allowedIds plan)
      RetrievalServices.SEARCH_LIMIT answer →
        FindsCatalog NameLookup.catalog (fun c => String.singleton c.toUpper) prose
          Text.asciiLower distance plan answer := by
  have hvalid : validate NameLookup.catalog NameLookup.files Text.asciiLower = .ok () := by
    decide +kernel
  exact validated_catalog_is_searched hvalid .start rfl rfl (by decide) answers List.not_mem_nil
    fun earlier hearlier => absurd hearlier List.not_mem_nil

end FirstSync

end FineractReports.Index
