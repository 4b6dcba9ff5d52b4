import FineractReports.Retrieval.CatalogIndex

/-!
# Stale index detection

A version of the index has the documents of the last sync of its content hash, embedded the way
that sync was configured. A call that finds the index current has read the version that
retrieval reads, and the hash tells the documents apart; it says nothing about the model.
-/

namespace FineractReports.Index

variable {F : Type} {sha256 : String → String} {serialize : Json → String}

/-! ### One sync -/

section Sync

variable {tables after : Tables F} {call : SyncCall F} {id : ℕ}
  {documents : List (RetrievalDocument × Option (List F))} {contentHash : String}

/-- Every document is indexed, with an embedding where the service has embeddings. -/
theorem indexedDocuments_spec (h : indexedDocuments call = .ok documents) :
    documents.map Prod.fst = call.documents ∧
      (call.config.isSome = true → ∀ indexed ∈ documents, indexed.2.isSome = true) := by
  unfold indexedDocuments at h
  cases hconfig : call.config with
  | none =>
    simp only [hconfig, Except.ok.injEq] at h
    subst h
    exact ⟨by simp [Function.comp_def], by simp⟩
  | some config =>
    simp only [hconfig, bind_eq_ok_iff, pure_eq_ok] at h
    obtain ⟨embeddings, hembeddings, rfl⟩ := h
    have hlength : call.documents.length = embeddings.length := by
      unfold embedDocuments at hembeddings
      split_ifs at hembeddings with hempty
      · obtain rfl := Except.ok.inj hembeddings
        rw [List.map_eq_nil_iff] at hempty
        rw [hempty]
        rfl
      · simp only [bind_eq_ok_iff, exists_unit_iff, failIf_eq_ok, not_not, pure_eq_ok]
          at hembeddings
        obtain ⟨reply, -, hsame, rfl⟩ := hembeddings
        rw [hsame, List.length_map]
    constructor
    · apply List.map_fst_zip
      rw [List.length_map, hlength]
    · intro _ indexed hindexed
      have hmem := (List.of_mem_zip hindexed).2
      obtain ⟨embedding, -, hsome⟩ := List.mem_map.mp hmem
      rw [← hsome]
      rfl

/-- The columns a sync writes to its version. -/
structure WrittenBy (call : SyncCall F) (version : CatalogVersion) : Prop where
  status : version.status = statusOf call.config
  model : version.embeddingModel = call.config.map (·.model)
  dimensions : version.embeddingDimensions = call.config.map (·.dimensions)
  syncedAt : version.syncedAt = some call.now

/-- The version of the content hash is written, every other one is kept. -/
theorem upsertCatalogVersion_spec {versions written : List CatalogVersion} {count : ℕ}
    (h : upsertCatalogVersion versions call contentHash count = .ok (id, written))
    (hids : (versions.map (·.id)).Nodup) (hhashes : (versions.map (·.contentHash)).Nodup) :
    (written.map (·.id)).Nodup ∧ (written.map (·.contentHash)).Nodup ∧
      ∀ version ∈ written,
        (version.contentHash = contentHash ∧ version.id = id ∧ WrittenBy call version) ∨
        (version ∈ versions ∧ version.contentHash ≠ contentHash ∧ version.id ≠ id) := by
  simp only [upsertCatalogVersion, bind_eq_ok_iff, exists_unit_iff, failIf_eq_ok] at h
  obtain ⟨-, h⟩ := h
  cases hfound : versions.find? fun version => version.contentHash = contentHash with
  | some existing =>
    simp only [hfound, pure_eq_ok, Prod.mk.injEq] at h
    obtain ⟨rfl, rfl⟩ := h
    have hexisting := List.mem_of_find?_eq_some hfound
    have hhash : existing.contentHash = contentHash := by simpa using List.find?_some hfound
    refine ⟨?_, ?_, ?_⟩
    · rw [List.map_map]
      convert hids using 2
      funext version
      simp only [Function.comp]
      split_ifs <;> rfl
    · rw [List.map_map]
      convert hhashes using 2
      funext version
      simp only [Function.comp]
      split_ifs with hsame
      · exact hsame.symm
      · rfl
    · intro version hversion
      obtain ⟨old, hold, rfl⟩ := List.mem_map.mp hversion
      split_ifs with hsame
      · have hsource : old = existing :=
          List.inj_on_of_nodup_map hhashes hold hexisting (hsame.trans hhash.symm)
        exact Or.inl ⟨rfl, by rw [hsource], rfl, rfl, rfl, rfl⟩
      · refine Or.inr ⟨hold, hsame, fun hid => hsame ?_⟩
        rw [List.inj_on_of_nodup_map hids hold hexisting hid, hhash]
  | none =>
    simp only [hfound, bind_eq_ok_iff, exists_unit_iff, failIf_eq_ok, pure_eq_ok,
      Prod.mk.injEq] at h
    obtain ⟨hfresh, rfl, rfl⟩ := h
    have hnew : ∀ version ∈ versions, version.contentHash ≠ contentHash := by
      intro version hversion
      simpa using List.find?_eq_none.mp hfound version hversion
    refine ⟨?_, ?_, ?_⟩
    · rw [List.map_append, List.map_singleton]
      apply hids.append (List.nodup_singleton _)
      simpa using hfresh
    · rw [List.map_append, List.map_singleton]
      apply hhashes.append (List.nodup_singleton _)
      simpa using hnew
    · intro version hversion
      rcases List.mem_append.mp hversion with hold | hwritten
      · refine Or.inr ⟨hold, hnew version hold, fun hid => hfresh ?_⟩
        exact List.mem_map.mpr ⟨version, hold, hid⟩
      · rw [List.mem_singleton.mp hwritten]
        exact Or.inl ⟨rfl, rfl, rfl, rfl, rfl, rfl⟩

/-- The documents a row is unique by, within its version. -/
def sourceKey (row : IndexRow F) : ℕ × RetrievalSourceType × String :=
  (row.catalogVersionId, row.document.sourceType, row.document.sourceId)

/-- The rows are appended, and no two rows of the table have one key. -/
theorem insertRows_spec {index inserted rows : List (IndexRow F)}
    (h : insertRows index rows = .ok inserted) (hkeys : (index.map sourceKey).Nodup) :
    inserted = index ++ rows ∧ (inserted.map sourceKey).Nodup := by
  induction rows generalizing index with
  | nil =>
    obtain rfl := Except.ok.inj h
    exact ⟨(List.append_nil _).symm, hkeys⟩
  | cons row rest ih =>
    simp only [insertRows, insertKnowledgeIndexDocument, bind_eq_ok_iff, exists_unit_iff,
      failIf_eq_ok, pure_eq_ok] at h
    obtain ⟨next, ⟨-, -, hunique, rfl⟩, hrest⟩ := h
    have hnext : ((index ++ [row]).map sourceKey).Nodup := by
      rw [List.map_append, List.map_singleton]
      apply hkeys.append (List.nodup_singleton _)
      rw [List.disjoint_singleton]
      intro hmem
      obtain ⟨other, hother, hkey⟩ := List.mem_map.mp hmem
      simp only [sourceKey, Prod.mk.injEq] at hkey
      exact hunique (List.any_eq_true.mpr ⟨other, hother, by simpa using hkey⟩)
    obtain ⟨rfl, hkeys'⟩ := ih hrest hnext
    exact ⟨by simp, hkeys'⟩

/-- The rows of a version are those of one sync. -/
structure HasRowsOf (call : SyncCall F) (rows : List (IndexRow F)) : Prop where
  documents : rows.map (·.document) = call.documents
  model : ∀ row ∈ rows, row.embeddingModel = call.config.map (·.model)
  embedded : call.config.isSome = true → ∀ row ∈ rows, row.embedding.isSome = true
  unique : (rows.map fun row => (row.document.sourceType, row.document.sourceId)).Nodup

end Sync

/-! ### Runs -/

/-- Every version is that of the last sync of its content hash. -/
structure SyncInv (sha256 : String → String) (serialize : Json → String)
    (history : List (SyncCall F)) (tables : Tables F) : Prop where
  ids : (tables.versions.map (·.id)).Nodup
  hashes : (tables.versions.map (·.contentHash)).Nodup
  keys : (tables.index.map sourceKey).Nodup
  written : ∀ version ∈ tables.versions, ∃ call ∈ history,
    lastSync sha256 serialize history version.contentHash = some call ∧
      WrittenBy call version ∧ HasRowsOf call (tables.rowsOf version.id)

section Run

variable {history : List (SyncCall F)} {tables after : Tables F} {call : SyncCall F}

theorem lastSync_cons_self (history : List (SyncCall F)) (call : SyncCall F) :
    lastSync sha256 serialize (call :: history)
      (catalogContentHash sha256 serialize call.documents) = some call :=
  List.find?_cons_of_pos (by simp)

theorem lastSync_cons_of_ne {contentHash : String}
    (h : contentHash ≠ catalogContentHash sha256 serialize call.documents) :
    lastSync sha256 serialize (call :: history) contentHash =
      lastSync sha256 serialize history contentHash :=
  List.find?_cons_of_neg (by simpa using h.symm)

section Rows

variable {index : List (IndexRow F)} {id : ℕ} {rows : List (IndexRow F)}

/-- The rows of a version after its old ones were replaced. -/
theorem rowsOf_replaced (versions : List CatalogVersion)
    (h : ∀ row ∈ rows, row.catalogVersionId = id) :
    Tables.rowsOf ⟨versions, index.filter (fun row => row.catalogVersionId ≠ id) ++ rows⟩ id =
      rows := by
  have hrows : rows.filter (fun row => row.catalogVersionId = id) = rows := by
    rw [List.filter_eq_self]
    intro row hrow
    simp [h row hrow]
  simp [Tables.rowsOf, List.filter_append, List.filter_filter, hrows]

theorem rowsOf_kept (versions : List CatalogVersion) {other : ℕ} (hother : other ≠ id)
    (h : ∀ row ∈ rows, row.catalogVersionId = id) :
    Tables.rowsOf ⟨versions, index.filter (fun row => row.catalogVersionId ≠ id) ++ rows⟩ other =
      index.filter fun row => row.catalogVersionId = other := by
  have hrows : rows.filter (fun row => row.catalogVersionId = other) = [] := by
    rw [List.filter_eq_nil_iff]
    intro row hrow
    simp [h row hrow, hother.symm]
  rw [Tables.rowsOf, List.filter_append, hrows, List.append_nil, List.filter_filter]
  apply List.filter_congr
  intro row _
  by_cases hrow : row.catalogVersionId = other
  · simp [hrow, hother]
  · simp [hrow]

end Rows

/-- One sync writes the version of its documents and keeps the others. -/
theorem SyncInv.syncDocuments (h : SyncInv sha256 serialize history tables)
    (hsync : syncDocuments sha256 serialize tables call = .ok after) :
    SyncInv sha256 serialize (call :: history) after := by
  simp only [Index.syncDocuments, replaceIndexedCatalogVersion, bind_eq_ok_iff, pure_eq_ok,
    Prod.exists] at hsync
  obtain ⟨documents, hdocuments, id, versions, hversions, index, hindex, rfl⟩ := hsync
  obtain ⟨hown, hembedded⟩ := indexedDocuments_spec hdocuments
  obtain ⟨hids, hhashes, hcases⟩ := upsertCatalogVersion_spec hversions h.ids h.hashes
  have hkept : ((tables.index.filter fun row => row.catalogVersionId ≠ id).map sourceKey).Nodup :=
    h.keys.sublist (List.filter_sublist.map _)
  obtain ⟨rfl, hkeys⟩ := insertRows_spec hindex hkept
  have hnew : ∀ row ∈ documents.map (indexRow sha256 serialize call id),
      row.catalogVersionId = id := by
    intro row hrow
    obtain ⟨indexed, -, rfl⟩ := List.mem_map.mp hrow
    rfl
  refine ⟨hids, hhashes, hkeys, fun version hversion => ?_⟩
  rcases hcases version hversion with ⟨hhash, rfl, hwritten⟩ | ⟨hold, hhash, hid⟩
  · refine ⟨call, List.mem_cons_self, ?_, hwritten, ?_⟩
    · rw [hhash]
      exact lastSync_cons_self history call
    · rw [rowsOf_replaced versions hnew]
      constructor
      · rw [List.map_map, ← hown]
        rfl
      · intro row hrow
        obtain ⟨indexed, -, rfl⟩ := List.mem_map.mp hrow
        rfl
      · intro hconfig row hrow
        obtain ⟨indexed, hindexed, rfl⟩ := List.mem_map.mp hrow
        exact hembedded hconfig indexed hindexed
      · have hnodup := hkeys.sublist ((List.sublist_append_right _ _).map sourceKey)
        rw [List.map_map] at hnodup ⊢
        exact List.Nodup.of_map (Prod.mk version.id) (by rw [List.map_map]; exact hnodup)
  · obtain ⟨last, hlast, hfound, hwritten, hholds⟩ := h.written version hold
    refine ⟨last, List.mem_cons_of_mem _ hlast, ?_, hwritten, ?_⟩
    · rw [lastSync_cons_of_ne hhash]
      exact hfound
    · rw [rowsOf_kept versions hid hnew]
      exact hholds

theorem Synced.inv (h : Synced sha256 serialize history tables) :
    SyncInv sha256 serialize history tables := by
  induction h with
  | start => exact ⟨List.nodup_nil, List.nodup_nil, List.nodup_nil, by simp⟩
  | sync _ hsync ih => exact ih.syncDocuments hsync
  | syncIfStale indexed _ hsync ih =>
    simp only [Index.syncIfStale, bind_eq_ok_iff, exists_unit_iff] at hsync
    obtain ⟨-, hsync⟩ := hsync
    split_ifs at hsync with hcurrent
    · cases hsync
    · simp only [map_eq_ok_iff, Option.some.injEq, exists_eq_right] at hsync
      exact ih.syncDocuments hsync

end Run

/-! ### Hashes tell documents apart -/

section Hashes

/-- Lines are read back from their text. -/
theorem lines_injective {lines others : List (List Char)} (hlines : ∀ line ∈ lines, '\n' ∉ line)
    (hothers : ∀ line ∈ others, '\n' ∉ line)
    (h : lines.flatMap (fun line => line ++ ['\n']) = others.flatMap fun line => line ++ ['\n']) :
    lines = others := by
  induction lines generalizing others with
  | nil =>
    cases others with
    | nil => rfl
    | cons other rest => simp at h
  | cons line lines ih =>
    cases others with
    | nil => simp at h
    | cons other others =>
      obtain ⟨hline, hrest⟩ := List.forall_mem_cons.mp hlines
      obtain ⟨hother, hrest'⟩ := List.forall_mem_cons.mp hothers
      simp only [List.flatMap_cons, List.append_assoc, List.singleton_append] at h
      have hend : ∀ line : List Char, '\n' ∉ line → ∀ after,
          (line ++ '\n' :: after).takeWhile (fun c => c ≠ '\n') = line := by
        intro line hfree after
        rw [Text.takeWhile_append_cons line after (by decide), List.takeWhile_eq_self_iff]
        intro c hc
        have hne : c ≠ '\n' := fun heq => hfree (heq ▸ hc)
        simpa using hne
      have hsame : line = other := by
        have htake := congrArg (List.takeWhile fun c => c ≠ '\n') h
        rwa [hend line hline, hend other hother] at htake
      subst hsame
      rw [List.append_cancel_left_eq, List.cons.injEq] at h
      rw [ih hrest hrest' h.2]

variable (sha256 : String → String) (serialize : Json → String)

/-- The texts hashed for a catalog. -/
def hashedTexts (documents : List RetrievalDocument) : List String :=
  catalogText sha256 serialize documents :: documents.map (documentText serialize)

/-- Two texts of the catalogs with one hash are the same. -/
def NoCollision (documents others : List RetrievalDocument) : Prop :=
  ∀ text ∈ hashedTexts sha256 serialize documents,
    ∀ other ∈ hashedTexts sha256 serialize others, sha256 text = sha256 other → text = other

variable {sha256 serialize} {documents others : List RetrievalDocument}

theorem map_eq_of_map_eq {α β : Type} {f : α → β} {items others : List α}
    (h : items.map f = others.map f)
    (hinj : ∀ item ∈ items, ∀ other ∈ others, f item = f other → item = other) :
    items = others := by
  induction items generalizing others with
  | nil => exact (List.map_eq_nil_iff.mp h.symm).symm
  | cons item rest ih =>
    cases others with
    | nil => cases h
    | cons other others =>
      rw [List.map_cons, List.map_cons, List.cons.injEq] at h
      have hitem := hinj item List.mem_cons_self other List.mem_cons_self h.1
      have hrest := ih h.2 fun a ha b hb =>
        hinj a (List.mem_cons_of_mem _ ha) b (List.mem_cons_of_mem _ hb)
      rw [hitem, hrest]

/-- Catalogs with one hash are the same, when neither the digest nor the text it is taken of
confuses two of their documents. -/
theorem documents_of_hash (hdigest : ∀ text, '\n' ∉ (sha256 text).toList)
    (hcollision : NoCollision sha256 serialize documents others)
    (htexts : ∀ document ∈ documents, ∀ other ∈ others,
      documentText serialize document = documentText serialize other → document = other)
    (h : catalogContentHash sha256 serialize documents
    = catalogContentHash sha256 serialize others) :
    documents = others := by
  have hcatalog : catalogText sha256 serialize documents = catalogText sha256 serialize others :=
    hcollision _ List.mem_cons_self _ List.mem_cons_self h
  have hfree : ∀ (items : List RetrievalDocument),
      ∀ line ∈ items.map (fun document => (documentContentHash sha256 serialize document).toList),
        '\n' ∉ line := by
    intro items line hline
    obtain ⟨document, -, rfl⟩ := List.mem_map.mp hline
    exact hdigest _
  have hlines : documents.map (fun document =>
      (documentContentHash sha256 serialize document).toList) = others.map fun document =>
        (documentContentHash sha256 serialize document).toList := by
    apply lines_injective (hfree documents) (hfree others)
    rw [List.flatMap_map, List.flatMap_map]
    exact String.ofList_injective hcatalog
  apply map_eq_of_map_eq hlines
  intro document hdocument other hother hsame
  apply htexts document hdocument other hother
  exact hcollision _ (List.mem_cons_of_mem _ (List.mem_map_of_mem hdocument)) _
    (List.mem_cons_of_mem _ (List.mem_map_of_mem hother)) (String.toList_injective hsame)

end Hashes

/-! ### A current index -/

section Current

variable {history : List (SyncCall F)} {tables : Tables F} {call : SyncCall F}
  {indexed : Option CatalogVersion} {version : CatalogVersion}

/-- One row for each document, with its fields, embedded as the configuration says. -/
structure HoldsCatalog (tables : Tables F) (version : CatalogVersion)
    (documents : List RetrievalDocument) (config : EmbeddingConfig) : Prop where
  documents : (tables.rowsOf version.id).map (·.document) = documents
  unique : ((tables.rowsOf version.id).map fun row =>
    (row.document.sourceType, row.document.sourceId)).Nodup
  embedded : ∀ row ∈ tables.rowsOf version.id,
    row.embedding.isSome = true ∧ row.embeddingModel = some config.model
  model : version.embeddingModel = some config.model
  dimensions : version.embeddingDimensions = some config.dimensions

/-- A call that finds the index current read an embedded version with the hash of its catalog. -/
theorem syncIfStale_current (h : syncIfStale sha256 serialize tables indexed call = .ok none) :
    ∃ version, indexed = some version ∧ IsEmbedded version ∧
      version.contentHash = catalogContentHash sha256 serialize call.documents := by
  simp only [syncIfStale, bind_eq_ok_iff, exists_unit_iff] at h
  obtain ⟨-, h⟩ := h
  split_ifs at h with hcurrent
  · obtain ⟨version, rfl, hversion⟩ := (Option.any_eq_true _ _).mp hcurrent
    obtain ⟨hhash, hstatus⟩ := of_decide_eq_true hversion
    exact ⟨version, rfl, hstatus, hhash⟩
  · simp only [map_eq_ok_iff, reduceCtorEq, and_false, exists_false] at h

/-- Versions with one instant of their last sync are one version. -/
theorem SyncInv.version_eq (h : SyncInv sha256 serialize history tables)
    (hclock : (history.map (·.now)).Nodup) {other : CatalogVersion}
    (hversion : version ∈ tables.versions) (hother : other ∈ tables.versions)
    (hsynced : version.syncedAt = other.syncedAt) : version = other := by
  obtain ⟨call, hcall, hlast, hwritten, -⟩ := h.written version hversion
  obtain ⟨call', hcall', hlast', hwritten', -⟩ := h.written other hother
  rw [hwritten.syncedAt, hwritten'.syncedAt, Option.some.injEq] at hsynced
  have hsame : call = call' := List.inj_on_of_nodup_map hclock hcall hcall' hsynced
  have hhash : catalogContentHash sha256 serialize call.documents = version.contentHash := by
    simpa using List.find?_some hlast
  have hhash' : catalogContentHash sha256 serialize call'.documents = other.contentHash := by
    simpa using List.find?_some hlast'
  apply List.inj_on_of_nodup_map h.hashes hversion hother
  rw [← hhash, ← hhash', hsame]

/-- The later of two synced versions, or neither. -/
theorem SyncInv.syncedAt_eq (h : SyncInv sha256 serialize history tables) {other : CatalogVersion}
    (hversion : version ∈ tables.versions) (hother : other ∈ tables.versions)
    (hforth : ¬ Later version other) (hback : ¬ Later other version) :
    version.syncedAt = other.syncedAt := by
  obtain ⟨call, -, -, hwritten, -⟩ := h.written version hversion
  obtain ⟨call', -, -, hwritten', -⟩ := h.written other hother
  simp only [Later, hwritten.syncedAt, hwritten'.syncedAt, not_or] at hforth hback
  rw [hwritten.syncedAt, hwritten'.syncedAt, Option.some.injEq]
  omega

/-- When a call finds the index current, retrieval reads the documents on disk, embedded as the
service was configured that last synced them. -/
theorem current_index_holds_catalog (sha256 : String → String) (serialize : Json → String)
    (history : List (SyncCall F)) (tables : Tables F) (call : SyncCall F)
    (indexed : Option CatalogVersion) (hrun : Synced sha256 serialize history tables)
    (hread : LatestCatalogVersion tables indexed)
    (hcurrent : syncIfStale sha256 serialize tables indexed call = .ok none)
    (hdigest : ∀ text, '\n' ∉ (sha256 text).toList)
    (hcollision : ∀ earlier ∈ history,
      NoCollision sha256 serialize earlier.documents call.documents)
    (htexts : ∀ earlier ∈ history, ∀ document ∈ earlier.documents, ∀ other ∈ call.documents,
      documentText serialize document = documentText serialize other → document = other)
    (hclock : (history.map (·.now)).Nodup) :
    (∃ version, ReadBySearch tables version) ∧
      ∀ version, ReadBySearch tables version → ∃ last ∈ history, ∃ config,
        lastSync sha256 serialize history (catalogContentHash sha256 serialize call.documents) =
            some last ∧ last.config = some config ∧
          HoldsCatalog tables version call.documents config := by
  have hinv := hrun.inv
  obtain ⟨latest, rfl, hembedded, hhash⟩ := syncIfStale_current hcurrent
  have hlatest : IsLatest (fun _ => True) tables latest := hread
  constructor
  · exact ⟨latest, hlatest.mem, hembedded,
      fun other hother _ => hlatest.latest other hother trivial⟩
  · intro version hversion
    -- no other embedded version has the instant of the latest one
    have hsame : version = latest := by
      apply hinv.version_eq hclock hversion.mem hlatest.mem
      apply hinv.syncedAt_eq hversion.mem hlatest.mem
      · exact hlatest.latest version hversion.mem trivial
      · exact hversion.latest latest hlatest.mem hembedded
    subst hsame
    obtain ⟨last, hmem, hlast, hwritten, hrows⟩ := hinv.written version hversion.mem
    rw [hhash] at hlast
    have hsynced : catalogContentHash sha256 serialize last.documents =
        catalogContentHash sha256 serialize call.documents := by
      simpa using List.find?_some hlast
    have hdocuments : last.documents = call.documents :=
      documents_of_hash hdigest (hcollision last hmem) (htexts last hmem) hsynced
    cases hconfig : last.config with
    | none =>
      have hstatus := hwritten.status
      rw [hconfig, show version.status = "embedded" from hembedded] at hstatus
      exact absurd hstatus (by decide)
    | some config =>
      refine ⟨last, hmem, config, hlast, hconfig, ?_⟩
      constructor
      · rw [hrows.documents, hdocuments]
      · exact hrows.unique
      · intro row hrow
        refine ⟨hrows.embedded (by rw [hconfig]; rfl) row hrow, ?_⟩
        rw [hrows.model row hrow, hconfig]
        rfl
      · rw [hwritten.model, hconfig]
        rfl
      · rw [hwritten.dimensions, hconfig]
        rfl

end Current

namespace ClientCatalog

/-- A domain with a description, as the catalog builder writes it. -/
def domainDocument (id description : String) : RetrievalDocument where
  sourceType := .domain
  sourceId := id
  title := "Domain " ++ id
  retrievalText := "Domain " ++ id ++ ".\nDescription: " ++ description ++
    ".\nStatus approved_mvp."
  metadataJson := .obj
    [("data_areas", .arr []), ("display_name", .null), ("status", .str "approved_mvp"),
      ("supported_intents", .arr []), ("unsupported_intents", .arr [])]

def metadataText (_ : Json) : String :=
  "\x7b\"data_areas\":[],\"display_name\":null,\"status\":\"approved_mvp\"," ++
    "\"supported_intents\":[],\"unsupported_intents\":[]\x7d"

def people : RetrievalDocument := domainDocument "client" "People"

def persons : RetrievalDocument := domainDocument "client" "Persons"

/-- An id that repeats the lines of another document. -/
def longId : String := "client\nDomain client\nDomain client.\nDescription: People"

def twin : RetrievalDocument := domainDocument longId "Old"

/-- The same lines as `twin`, the later ones in the description. -/
def lines : RetrievalDocument :=
  domainDocument "client"
    ("People\nDomain " ++ longId ++ "\nDomain " ++ longId ++ ".\nDescription: Old")

/-- SHA-256 of the texts below. -/
def digest (text : String) : String :=
  if text = documentText metadataText people then
    "3eba687876f5dd2c785faeb297e675db36b96d34e69393b47b0ff22762de3bf7"
  else if text = "3eba687876f5dd2c785faeb297e675db36b96d34e69393b47b0ff22762de3bf7\n" then
    "0fb9c0052c0c94229026ce9cd528f6bb392d29d1b7bfb576289c29bc6918dad1"
  else if text = documentText metadataText persons then
    "2c0be1fbba3afc79416ae701d1c2081d9f9fe72e8dc14553b2bd9c07df46581b"
  else if text = "2c0be1fbba3afc79416ae701d1c2081d9f9fe72e8dc14553b2bd9c07df46581b\n" then
    "e910ad600b95856ad724b5d4820dfa89ced77f9d0f049d52013475c00f6c6039"
  else if text = documentText metadataText twin then
    "43f26ff4673d66d267677199764c9fd585718097adebf776e001b140c4907109"
  else
    "6586fa891a6f39cfe02a434a1b0fea0d556465aaf2de69e8337504250f036dbb"

theorem digest_line (text : String) : '\n' ∉ (digest text).toList := by
  unfold digest
  split_ifs <;> decide +kernel

theorem hash_people : catalogContentHash digest metadataText [people] =
    "0fb9c0052c0c94229026ce9cd528f6bb392d29d1b7bfb576289c29bc6918dad1" := by
  decide +kernel

theorem hash_persons : catalogContentHash digest metadataText [persons] =
    "e910ad600b95856ad724b5d4820dfa89ced77f9d0f049d52013475c00f6c6039" := by
  decide +kernel

def numbers : List Unit := List.replicate VECTOR_DIMENSIONS ()

/-- A service that embeds one document with a model, at an instant. -/
def embedding (model : String) (document : RetrievalDocument) (id : ℕ) (now : ℤ) :
    SyncCall Unit where
  config := some ⟨model, 1024⟩
  documents := [document]
  reply := .ok [numbers]
  id := id
  now := now

/-- The version such a call writes. -/
def version (model : String) (document : RetrievalDocument) (id : ℕ) (now : ℤ) :
    CatalogVersion where
  id := id
  version := "local"
  contentHash := catalogContentHash digest metadataText [document]
  status := "embedded"
  documentCount := 1
  embeddingModel := some model
  embeddingDimensions := some 1024
  syncedAt := some now
  createdAt := now

/-- The row such a call writes. -/
def row (model : String) (document : RetrievalDocument) (id : ℕ) : IndexRow Unit where
  catalogVersionId := id
  document := document
  contentHash := documentContentHash digest metadataText document
  embedding := some numbers
  embeddingModel := some model

theorem syncDocuments_embedding {tables : Tables Unit} {document : RetrievalDocument} {id : ℕ}
    (model : String) (now : ℤ) (hhash : ∀ version ∈ tables.versions,
      version.contentHash ≠ catalogContentHash digest metadataText [document])
    (hid : id ∉ tables.versions.map (·.id))
    (hrows : ∀ row ∈ tables.index, row.catalogVersionId ≠ id)
    (htext : document.retrievalText.toList.all (fun c => c = ' ') = false) :
    syncDocuments digest metadataText tables (embedding model document id now) =
      .ok ⟨tables.versions ++ [version model document id now],
        tables.index ++ [row model document id]⟩ := by
  have hindexed : indexedDocuments (embedding model document id now) =
      .ok [(document, some numbers)] := rfl
  have hversions : upsertCatalogVersion tables.versions (embedding model document id now)
      (catalogContentHash digest metadataText [document]) 1 =
        .ok (id, tables.versions ++ [version model document id now]) := by
    have hfound : tables.versions.find? (fun version =>
        version.contentHash = catalogContentHash digest metadataText [document]) = none := by
      rw [List.find?_eq_none]
      intro version hversion
      simpa using hhash version hversion
    simp only [upsertCatalogVersion, bind_eq_ok_iff, exists_unit_iff, failIf_eq_ok, hfound]
    exact ⟨by simp [embedding], hid, rfl⟩
  have hkept : tables.index.filter (fun row => row.catalogVersionId ≠ id) = tables.index := by
    rw [List.filter_eq_self]
    intro row hrow
    simpa using hrows row hrow
  have hinserted : insertRows tables.index [row model document id] =
      .ok (tables.index ++ [row model document id]) := by
    have hunique : ¬ (tables.index.any fun other => decide (other.catalogVersionId = id ∧
        other.document.sourceType = document.sourceType ∧
        other.document.sourceId = document.sourceId)) = true := by
      rw [List.any_eq_true]
      rintro ⟨other, hother, hsame⟩
      exact hrows other hother (of_decide_eq_true hsame).1
    have hlength : ¬ ((row model document id).embedding.any
        fun embedding => decide (embedding.length ≠ VECTOR_DIMENSIONS)) = true := by
      simp [row, numbers]
    simp only [insertRows, insertKnowledgeIndexDocument, bind_eq_ok_iff, exists_unit_iff,
      failIf_eq_ok]
    exact ⟨_, ⟨by simpa [row] using htext, hlength, hunique, rfl⟩, rfl⟩
  simp only [syncDocuments, replaceIndexedCatalogVersion, bind_eq_ok_iff]
  exact ⟨_, hindexed, _, hversions, tables.index ++ [row model document id], by
    rw [hkept]
    exact hinserted, rfl⟩

/-- The first sync of all. -/
theorem synced_first (model : String) (document : RetrievalDocument) (id : ℕ) (now : ℤ)
    (htext : document.retrievalText.toList.all (fun c => c = ' ') = false) :
    Synced digest metadataText [embedding model document id now]
      ⟨[version model document id now], [row model document id]⟩ := by
  apply Synced.sync Synced.start
  exact syncDocuments_embedding model now (by simp) (by simp) (by simp) htext

/-- The document was edited and synced again. -/
def edited (now : ℤ) : List (SyncCall Unit) :=
  [embedding "voyage-3" persons 2 now, embedding "voyage-3" people 1 10]

def editedTables (now : ℤ) : Tables Unit :=
  ⟨[version "voyage-3" people 1 10, version "voyage-3" persons 2 now],
    [row "voyage-3" people 1, row "voyage-3" persons 2]⟩

theorem synced_edited (now : ℤ) : Synced digest metadataText (edited now) (editedTables now) := by
  apply Synced.sync (synced_first "voyage-3" people 1 10 (by decide +kernel))
  apply syncDocuments_embedding
  · simp [version, hash_people, hash_persons]
  · simp [version]
  · simp [row]
  · decide +kernel

/-- A service with the hash of the version it reads finds the index current. -/
theorem syncIfStale_embedding {document other : RetrievalDocument} {model : String} {id : ℕ}
    {now : ℤ} {call : SyncCall Unit} (tables : Tables Unit) (hcall : call.documents = [other])
    (h : catalogContentHash digest metadataText [document] =
      catalogContentHash digest metadataText [other]) :
    syncIfStale digest metadataText tables (some (version model document id now)) call =
      .ok none := by
  simp only [syncIfStale, bind_eq_ok_iff, exists_unit_iff, failIf_eq_ok, hcall]
  refine ⟨by simp, ?_⟩
  rw [if_pos (by simp [isCurrent, version, h])]
  rfl

theorem current_index_holds_edited :
    (∃ version, ReadBySearch (editedTables 20) version) ∧
      ∀ version, ReadBySearch (editedTables 20) version → ∃ last ∈ edited 20, ∃ config,
        lastSync digest metadataText (edited 20)
          (catalogContentHash digest metadataText [persons]) =
            some last ∧ last.config = some config ∧
          HoldsCatalog (editedTables 20) version [persons] config := by
  apply current_index_holds_catalog digest metadataText (edited 20) (editedTables 20)
    (embedding "voyage-3" persons 3 30) (some (version "voyage-3" persons 2 20))
  · exact synced_edited 20
  · exact ⟨by simp [editedTables], trivial, by simp [editedTables, Later, version]⟩
  · exact syncIfStale_embedding (editedTables 20) rfl rfl
  · exact digest_line
  · unfold NoCollision
    decide +kernel
  · decide +kernel
  · decide

/-- A service finds the index current, and retrieval does not read its catalog. -/
structure Missed (history : List (SyncCall Unit)) (tables : Tables Unit) (call : SyncCall Unit)
    (config : EmbeddingConfig) (indexed searched : CatalogVersion) : Prop where
  run : Synced digest metadataText history tables
  latest : LatestCatalogVersion tables (some indexed)
  configured : call.config = some config
  current : syncIfStale digest metadataText tables (some indexed) call = .ok none
  read : ReadBySearch tables searched
  missed : ¬ HoldsCatalog tables searched call.documents config

/-- Another model leaves the index as it was embedded; two documents of one joined text pass for
each other; and of two versions of one instant the check may read one and the search the other. -/
theorem current_index_missed :
    Missed [embedding "voyage-3" people 1 10]
        ⟨[version "voyage-3" people 1 10], [row "voyage-3" people 1]⟩
        (embedding "voyage-3-large" people 2 20) ⟨"voyage-3-large", 1024⟩
        (version "voyage-3" people 1 10) (version "voyage-3" people 1 10) ∧
      Missed [embedding "voyage-3" lines 1 10]
        ⟨[version "voyage-3" lines 1 10], [row "voyage-3" lines 1]⟩
        (embedding "voyage-3" twin 2 20) ⟨"voyage-3", 1024⟩
        (version "voyage-3" lines 1 10) (version "voyage-3" lines 1 10) ∧
      Missed (edited 10) (editedTables 10) (embedding "voyage-3" people 3 20) ⟨"voyage-3", 1024⟩
        (version "voyage-3" people 1 10) (version "voyage-3" persons 2 10) := by
  refine ⟨?_, ?_, ?_⟩
  · constructor
    · exact synced_first "voyage-3" people 1 10 (by decide +kernel)
    · exact ⟨by simp, trivial, by simp [Later, version]⟩
    · rfl
    · exact syncIfStale_embedding _ rfl rfl
    · exact ⟨by simp, rfl, by simp [Later, version]⟩
    · intro h
      exact absurd h.model (by decide)
  · constructor
    · exact synced_first "voyage-3" lines 1 10 (by decide +kernel)
    · exact ⟨by simp, trivial, by simp [Later, version]⟩
    · rfl
    · exact syncIfStale_embedding _ rfl (by decide +kernel)
    · exact ⟨by simp, rfl, by simp [Later, version]⟩
    · intro h
      exact absurd h.documents (by decide +kernel)
  · constructor
    · exact synced_edited 10
    · exact ⟨by simp [editedTables], trivial, by simp [editedTables, Later, version]⟩
    · rfl
    · exact syncIfStale_embedding _ rfl rfl
    · exact ⟨by simp [editedTables], rfl, by simp [editedTables, Later, version]⟩
    · intro h
      exact absurd h.documents (by decide +kernel)

end ClientCatalog

end FineractReports.Index
