import FineractReports.Knowledge.Validator
import FineractReports.Library.Keyset
import Mathlib.Data.String.Basic
import FineractReports.Workflow.CompiledNodes

/-!
# The knowledge inventory

The capabilities of the catalog as the administrators see them, by id, a page at a time. The
cursor of a page is the id of its last item; the next page begins behind the place of that id.
-/

namespace FineractReports.Management

open KnowledgeValidator

inductive KnowledgeKind where
  | catalog | reference
deriving DecidableEq, Repr

inductive KnowledgeStatus where
  | available | deferred | unavailable
deriving DecidableEq, Repr

inductive ExecutionMode where
  | approvedCatalogQuery | catalogMetadataOnly | referenceOnly
deriving DecidableEq, Repr

structure KnowledgeItem where
  id : String
  kind : KnowledgeKind
  title : String
  status : KnowledgeStatus
  executionMode : ExecutionMode
  domainId : String
deriving DecidableEq

structure ParameterResponse where
  name : String
  kind : String
  required : Bool
deriving DecidableEq

structure OutputFieldResponse where
  name : String
  sensitivity : String
deriving DecidableEq

structure KnowledgeDetail extends KnowledgeItem where
  dataAreaIds : List String
  parameters : List ParameterResponse
  outputFields : List OutputFieldResponse
  limitations : List String
deriving DecidableEq

structure KnowledgeQuery where
  kind : Option KnowledgeKind
  status : Option KnowledgeStatus
  domainId : Option String
  cursor : Option String
  limit : Option ℕ
deriving DecidableEq

/-- The page size is checked before the inventory is asked for. -/
def KnowledgeQuery.Validates (query : KnowledgeQuery) : Prop :=
  (∀ domainId ∈ query.domainId, domainId.length ≤ 128) ∧
    ∀ limit ∈ query.limit, 1 ≤ limit ∧ limit ≤ 100

instance (query : KnowledgeQuery) : Decidable query.Validates := by
  unfold KnowledgeQuery.Validates; infer_instance

structure KnowledgeList where
  items : List KnowledgeItem
  nextCursor : Option String
  referenceKnowledgeStatus : Option String
deriving DecidableEq

inductive KnowledgeLookupError where
  | invalidCursor
deriving DecidableEq, Repr

def title (capability : CapabilityKnowledge) : String :=
  capability.displayName.getD capability.id

def availability (status : String) : KnowledgeStatus :=
  if status = "approved_mvp" then .available
  else if status = "deferred" then .deferred
  else .unavailable

def executionMode (status : String) : ExecutionMode :=
  if status = "approved_mvp" then .approvedCatalogQuery else .catalogMetadataOnly

def inventoryItem (capability : CapabilityKnowledge) : KnowledgeItem :=
  ⟨"catalog:" ++ capability.id, .catalog, title capability, availability capability.status,
    executionMode capability.status, capability.domain⟩

def matchesFilter (item : KnowledgeItem) (query : KnowledgeQuery) : Bool :=
  (∀ status ∈ query.status, item.status = status) ∧
    ∀ domainId ∈ query.domainId, item.domainId = domainId

/-- The items of the catalog that match, by id. -/
def inventory (catalog : KnowledgeCatalog) (query : KnowledgeQuery) : List KnowledgeItem :=
  sortByKey KnowledgeItem.id
    ((catalog.capabilities.map inventoryItem).filter fun item => matchesFilter item query)

/-- The place behind the item the cursor names. -/
def startAfter (items : List KnowledgeItem) (cursor : Option String) :
    Except KnowledgeLookupError ℕ :=
  match cursor with
  | some cursor =>
    (okOr (items.findIdx? fun item => item.id = cursor) .invalidCursor).map fun index => index + 1
  | none => .ok 0

/-- `KnowledgeService::list`. -/
def listKnowledge (catalog : KnowledgeCatalog) (query : KnowledgeQuery) :
    Except KnowledgeLookupError KnowledgeList :=
  if query.kind = some .reference then .ok ⟨[], none, some "disabled"⟩
  else do
    let items := inventory catalog query
    let start ← startAfter items query.cursor
    let limit := query.limit.getD 50
    let nextCursor := items[start + limit]?.bind fun _ => items[start + limit - 1]?.map (·.id)
    pure ⟨(items.drop start).take limit, nextCursor, none⟩

def detailResponse (publicId : String) (capability : CapabilityKnowledge)
    (query : QueryKnowledge) : KnowledgeDetail where
  id := publicId
  kind := .catalog
  title := title capability
  status := availability capability.status
  executionMode := executionMode capability.status
  domainId := capability.domain
  dataAreaIds := capability.dataAreas
  parameters := query.parameters.map fun parameter =>
    ⟨parameter.name, parameter.kind, parameter.required⟩
  outputFields := query.outputFields.map fun field => ⟨field.name, field.sensitivity.asStr⟩
  limitations := []

/-- `KnowledgeService::detail`. -/
def knowledgeDetail (catalog : KnowledgeCatalog) (publicId : String) : Option KnowledgeDetail := do
  let id ← Text.stripPrefix publicId "catalog:"
  let capability ← catalog.capabilities.find? fun capability => capability.id = id
  let query ← catalog.queries.find? fun query => query.id = capability.queryId
  pure (detailResponse publicId capability query)

/-! ### One page -/

section OnePage

variable {catalog : KnowledgeCatalog} {files : List String × String → Option String}
  {toLowercase : String → String} {query : KnowledgeQuery} {cursor : Option String}
  {limit : Option ℕ}

/-- The items of the inventory before they are sorted. -/
def matchingItems (catalog : KnowledgeCatalog) (query : KnowledgeQuery) : List KnowledgeItem :=
  (catalog.capabilities.map inventoryItem).filter fun item => matchesFilter item query

def KnowledgeQuery.page (query : KnowledgeQuery) (cursor : Option String) (limit : Option ℕ) :
    KnowledgeQuery :=
  { query with cursor := cursor, limit := limit }

theorem matchingItems_nodup (hvalid : validate catalog files toLowercase = .ok ()) :
    ((matchingItems catalog query).map KnowledgeItem.id).Nodup := by
  have hids := validate_capability_ids hvalid
  have hall : ((catalog.capabilities.map inventoryItem).map KnowledgeItem.id).Nodup := by
    rw [List.map_map]
    have hpublic : (KnowledgeItem.id ∘ inventoryItem) =
        (fun id => "catalog:" ++ id) ∘ CapabilityKnowledge.id := rfl
    rw [hpublic, ← List.map_map]
    exact hids.map fun first second hsame => String.append_right_inj _ |>.mp hsame
  exact hall.sublist (List.filter_sublist.map _)

theorem inventory_eq_rowsBeyond :
    inventory catalog query = rowsBeyond KnowledgeItem.id none (matchingItems catalog query) := by
  simp [inventory, rowsBeyond, Beyond, matchingItems]

/-- The last item of a page that another one follows. -/
theorem next_of_drop {items : List KnowledgeItem} {start size : ℕ} (hpos : 0 < size) :
    (items[start + size]?.bind fun _ => items[start + size - 1]?.map (·.id)) =
      if size < (items.drop start).length then
        ((items.drop start).take size).getLast?.map KnowledgeItem.id else none := by
  split_ifs with hmore
  · rw [List.length_drop] at hmore
    have hat : items[start + size]? = some items[start + size] :=
      List.getElem?_eq_getElem (by omega)
    have hlast : (items.drop start)[size - 1]? = items[start + size - 1]? := by
      rw [List.getElem?_drop, Nat.add_sub_assoc hpos]
    have hbefore : items[start + size - 1]? = some items[start + size - 1] :=
      List.getElem?_eq_getElem (by omega)
    rw [hat, List.getLast?_take, if_neg hpos.ne', hlast, hbefore]
    rfl
  · rw [List.length_drop] at hmore
    rw [List.getElem?_eq_none (by omega)]
    rfl

/-- The page behind the place of an id is the page after that id. -/
theorem listKnowledge_eq_page (hvalid : validate catalog files toLowercase = .ok ())
    (hkind : query.kind ≠ some .reference) (hpos : 0 < limit.getD 50)
    (hcursor : ∀ id ∈ cursor, ∃ item ∈ matchingItems catalog query, item.id = id) :
    listKnowledge catalog (query.page cursor limit) =
      .ok ⟨(pageAfter KnowledgeItem.id (limit.getD 50) cursor (matchingItems catalog query)).items,
        (pageAfter KnowledgeItem.id (limit.getD 50) cursor (matchingItems catalog query)).next,
        none⟩ := by
  have hitems : inventory catalog (query.page cursor limit) = inventory catalog query := rfl
  have hstart : ∃ start, startAfter (inventory catalog query) cursor = .ok start ∧
      rowsBeyond KnowledgeItem.id cursor (matchingItems catalog query) =
        (inventory catalog query).drop start := by
    cases cursor with
    | none => exact ⟨0, rfl, by rw [inventory_eq_rowsBeyond, List.drop_zero]⟩
    | some id =>
      obtain ⟨item, hitem, hid⟩ := hcursor id rfl
      cases hfind : (inventory catalog query).findIdx? fun item => item.id = id with
      | none =>
        have hmem : item ∈ inventory catalog query := mem_sortByKey.mpr hitem
        have hnone := List.findIdx?_eq_none_iff.mp hfind item hmem
        simp [hid] at hnone
      | some index =>
        obtain ⟨hlt, hat, -⟩ := List.findIdx?_eq_some_iff_getElem.mp hfind
        obtain ⟨found, hfound⟩ : ∃ found, (inventory catalog query)[index]? = some found :=
          ⟨_, List.getElem?_eq_getElem hlt⟩
        have hsame : found.id = id := by
          rw [List.getElem?_eq_getElem hlt] at hfound
          rw [← Option.some.inj hfound]
          simpa using hat
        refine ⟨index + 1, by simp [startAfter, hfind, okOr, Except.map], ?_⟩
        rw [inventory_eq_rowsBeyond] at hfound ⊢
        rw [← hsame]
        exact rowsBeyond_getElem (matchingItems_nodup hvalid) hfound
  obtain ⟨start, hread, hrest⟩ := hstart
  rw [listKnowledge, if_neg (show (query.page cursor limit).kind ≠ some .reference from hkind)]
  simp only [bind_eq_ok_iff, pure_eq_ok]
  refine ⟨start, hread, ?_⟩
  rw [KnowledgeList.mk.injEq, pageAfter_items, pageAfter_next, hrest, hitems]
  exact ⟨rfl, next_of_drop hpos, rfl⟩

end OnePage

/-! ### All the pages -/

/-- A reader who asks for page after page, each of a size of its own, until there is no cursor. -/
inductive KnowledgeWalk (catalog : KnowledgeCatalog) (query : KnowledgeQuery) :
    Option String → List (Option ℕ) → List KnowledgeItem → Prop
  | last {cursor : Option String} {limit : Option ℕ} {list : KnowledgeList}
    (hvalid : (query.page cursor limit).Validates)
    (h : listKnowledge catalog (query.page cursor limit) = .ok list)
    (hnext : list.nextCursor = none) :
    KnowledgeWalk catalog query cursor [limit] list.items
  | more {cursor : Option String} {limit : Option ℕ} {list : KnowledgeList} {next : String}
    {limits : List (Option ℕ)} {rest : List KnowledgeItem}
    (hvalid : (query.page cursor limit).Validates)
    (h : listKnowledge catalog (query.page cursor limit) = .ok list)
    (hnext : list.nextCursor = some next)
    (hrest : KnowledgeWalk catalog query (some next) limits rest) :
    KnowledgeWalk catalog query cursor (limit :: limits) (list.items ++ rest)

section AllPages

variable {catalog : KnowledgeCatalog} {files : List String × String → Option String}
  {toLowercase : String → String} {query : KnowledgeQuery} {cursor : Option String}
  {limits : List (Option ℕ)} {shown : List KnowledgeItem}

theorem KnowledgeQuery.size_pos {limit : Option ℕ} (h : (query.page cursor limit).Validates) :
    0 < limit.getD 50 := by
  cases limit with
  | none => decide
  | some limit => exact (h.2 limit rfl).1

/-- The cursor names an item that is listed. -/
def Names (catalog : KnowledgeCatalog) (query : KnowledgeQuery) (cursor : Option String) : Prop :=
  ∀ id ∈ cursor, ∃ item ∈ matchingItems catalog query, item.id = id

theorem names_next {limit : ℕ} {next : String}
    (h : (pageAfter KnowledgeItem.id limit cursor (matchingItems catalog query)).next =
      some next) : Names catalog query (some next) := by
  intro id hid
  obtain rfl := Option.some.inj hid
  exact exists_of_pageAfter_next h

/-- The pages of the inventory are pages after a key. -/
theorem KnowledgeWalk.walk (h : KnowledgeWalk catalog query cursor limits shown)
    (hvalid : validate catalog files toLowercase = .ok ()) (hkind : query.kind ≠ some .reference)
    (hnames : Names catalog query cursor) :
    Walk KnowledgeItem.id cursor
      (limits.map fun limit => (limit.getD 50, matchingItems catalog query)) shown := by
  induction h with
  | @last cursor limit list hquery hlist hnext =>
    rw [listKnowledge_eq_page hvalid hkind (KnowledgeQuery.size_pos hquery) hnames] at hlist
    obtain rfl := Except.ok.inj hlist
    exact .last (KnowledgeQuery.size_pos hquery) hnext
  | @more cursor limit list next limits rest hquery hlist hnext hrest ih =>
    rw [listKnowledge_eq_page hvalid hkind (KnowledgeQuery.size_pos hquery) hnames] at hlist
    obtain rfl := Except.ok.inj hlist
    exact .more (KnowledgeQuery.size_pos hquery) hnext (ih (names_next hnext))

/-- A walk with one size can be made. -/
theorem knowledgeWalk_of_walk {limit : Option ℕ} {visits : List (ℕ × List KnowledgeItem)}
    (hvalid : validate catalog files toLowercase = .ok ()) (hkind : query.kind ≠ some .reference)
    (hquery : ∀ cursor, (query.page cursor limit).Validates)
    (h : Walk KnowledgeItem.id cursor visits shown)
    (hsame : ∀ visit ∈ visits, visit = (limit.getD 50, matchingItems catalog query))
    (hnames : Names catalog query cursor) :
    ∃ limits, KnowledgeWalk catalog query cursor limits shown ∧
      ∀ other ∈ limits, other = limit := by
  induction h with
  | @last cursor size rows hpos hnext =>
    obtain ⟨rfl, rfl⟩ := Prod.mk.inj (hsame _ (List.mem_singleton_self _))
    have hlist := listKnowledge_eq_page hvalid hkind hpos hnames
    exact ⟨[limit], .last (hquery cursor) hlist hnext, by simp⟩
  | @more cursor size rows next visits shown hpos hnext hrest ih =>
    obtain ⟨rfl, rfl⟩ := Prod.mk.inj (hsame _ List.mem_cons_self)
    obtain ⟨limits, hwalk, hlimits⟩ := ih
      (fun visit hvisit => hsame visit (List.mem_cons_of_mem _ hvisit)) (names_next hnext)
    have hlist := listKnowledge_eq_page hvalid hkind hpos hnames
    exact ⟨limit :: limits, .more (hquery cursor) hlist hnext hwalk, by simpa using hlimits⟩

/-- An item opens, and says the same of the capability. -/
theorem exists_detail (hvalid : validate catalog files toLowercase = .ok ()) {item : KnowledgeItem}
    (hitem : item ∈ inventory catalog query) :
    ∃ detail, knowledgeDetail catalog item.id = some detail ∧ detail.toKnowledgeItem = item := by
  obtain ⟨hlisted, -⟩ := List.mem_filter.mp (mem_sortByKey.mp hitem)
  obtain ⟨capability, hcapability, rfl⟩ := List.mem_map.mp hlisted
  have hstrip : Text.stripPrefix ("catalog:" ++ capability.id) "catalog:" = some capability.id :=
    Text.stripPrefix_eq_some.mpr rfl
  have hfind : (catalog.capabilities.find? fun other => other.id = capability.id) =
      some capability :=
    Workflow.find?_eq_some_of_nodup (validate_capability_ids hvalid) hcapability
  have hknown : capability.queryId ∈ queryIds catalog := by
    have hchecked := validate_capability hvalid hcapability
    simp only [validateCapability, bind_eq_ok_iff, exists_unit_iff, failIf_eq_ok, not_not]
      at hchecked
    exact hchecked.2.2.2.2.2.1
  obtain ⟨query, hquery, hid⟩ := List.mem_map.mp hknown
  obtain ⟨found, hfound⟩ : ∃ found,
      (catalog.queries.find? fun query => query.id = capability.queryId) = some found :=
    Option.isSome_iff_exists.mp (List.find?_isSome.mpr ⟨query, hquery, by simpa using hid⟩)
  refine ⟨detailResponse (inventoryItem capability).id capability found, ?_, rfl⟩
  simp only [knowledgeDetail, inventoryItem, hstrip, hfind, hfound, Option.bind_eq_bind,
    Option.bind_some, Option.pure_def]

/-- In a validated catalog a reader who follows the cursors comes to a last page, and has then been
shown exactly the capabilities that match, by id and none twice, however long the pages were; and
every item opens. -/
theorem inventory_pages_show_every_capability
    (hvalid : validate catalog files toLowercase = .ok ()) (hkind : query.kind ≠ some .reference) :
    (∀ limits shown, KnowledgeWalk catalog query none limits shown →
      shown = inventory catalog query) ∧
      (∀ limit, (query.page none limit).Validates →
        ∃ limits, KnowledgeWalk catalog query none limits (inventory catalog query) ∧
          ∀ other ∈ limits, other = limit) ∧
      ((inventory catalog query).map KnowledgeItem.id).Nodup ∧
      ∀ item ∈ inventory catalog query,
        ∃ detail, knowledgeDetail catalog item.id = some detail ∧
          detail.toKnowledgeItem = item := by
  have hkeys : ((matchingItems catalog query).map KnowledgeItem.id).Nodup :=
    matchingItems_nodup hvalid
  have hnone : Names catalog query none := fun id hid => by cases hid
  have hshown : ∀ {limits : List (Option ℕ)} {shown : List KnowledgeItem},
      Walk KnowledgeItem.id none
        (limits.map fun limit => (limit.getD 50, matchingItems catalog query)) shown →
      shown = inventory catalog query := by
    intro limits shown hwalk
    rw [inventory_eq_rowsBeyond]
    exact hwalk.eq_rowsBeyond hkeys fun visit hvisit => by
      obtain ⟨limit, -, rfl⟩ := List.mem_map.mp hvisit
      rfl
  refine ⟨fun limits shown hwalk => hshown (hwalk.walk hvalid hkind hnone), ?_, ?_, ?_⟩
  · intro limit hquery
    obtain ⟨visits, shown, hwalk, hsame⟩ :=
      exists_walk hkeys (KnowledgeQuery.size_pos hquery) none
    obtain ⟨limits, hpages, hlimits⟩ :=
      knowledgeWalk_of_walk hvalid hkind (fun _ => hquery) hwalk hsame hnone
    have hall := hshown (hpages.walk hvalid hkind hnone)
    exact ⟨limits, hall ▸ hpages, hlimits⟩
  · exact (sortByKey_perm.map _).nodup_iff.mpr hkeys
  · exact fun item hitem => exists_detail hvalid hitem

end AllPages

/-! The catalog with the name lookup and a second, deferred capability, one item a page. -/

namespace TwoItems

def deferred : CapabilityKnowledge :=
  { NameLookup.capability with id := "client_ageing", status := "deferred", displayName := none }

def catalog : KnowledgeCatalog :=
  { NameLookup.catalog with capabilities := [NameLookup.capability, deferred] }

def query : KnowledgeQuery := ⟨none, none, some "client", none, none⟩

/-- The one listed second in the catalog comes first. -/
theorem both_shown : ∃ limits, KnowledgeWalk catalog query none limits
    [inventoryItem deferred, inventoryItem NameLookup.capability] ∧
      ∀ other ∈ limits, other = some 1 := by
  have hvalid : validate catalog NameLookup.files
      Text.asciiLower = .ok () := by decide +kernel
  have hpages := inventory_pages_show_every_capability hvalid
    (show query.kind ≠ some .reference by decide)
  have hall : inventory catalog query =
      [inventoryItem deferred, inventoryItem NameLookup.capability] := by decide +kernel
  rw [← hall]
  exact hpages.2.1 (some 1) (by decide)

end TwoItems

end FineractReports.Management
