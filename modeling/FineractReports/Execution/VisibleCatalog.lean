import FineractReports.Execution.TurnResponse
import FineractReports.Retrieval.RankedCandidates
import FineractReports.Retrieval.Reranker

/-!
# What a turn can see of the catalog

A turn whose retrieval and reranking are the engine and the reranker. The capabilities outside the
scope of the client have no influence on where it goes: with their entries in the catalog and their
rows in the index taken away the turn can come to exactly the same ends.
-/

namespace FineractReports

/-- The catalog without the capabilities outside a scope. -/
def KnowledgeCatalog.onlyFor (catalog : KnowledgeCatalog) (allows : String → Bool) :
    KnowledgeCatalog :=
  { catalog with
    capabilities := catalog.capabilities.filter fun capability => allows capability.id }

/-- The index without the rows of the capabilities outside a scope. -/
def Index.Tables.onlyFor {F : Type} (tables : Index.Tables F) (allows : String → Bool) :
    Index.Tables F :=
  { tables with
    index := tables.index.filter fun row =>
      row.document.sourceType ≠ .capability ∨ allows row.document.sourceId = true }

section Catalog

variable {catalog : KnowledgeCatalog} {allows : String → Bool} {id : String}

@[simp] theorem onlyFor_capabilities : (catalog.onlyFor allows).capabilities =
    catalog.capabilities.filter fun capability => allows capability.id := rfl

/-- A search that only finds capabilities inside the scope finds the same. -/
theorem find?_onlyFor {p : CapabilityKnowledge → Bool}
    (h : ∀ capability, p capability = true → allows capability.id = true) :
    (catalog.onlyFor allows).capabilities.find? p = catalog.capabilities.find? p := by
  rw [onlyFor_capabilities, List.find?_filter]
  congr 1
  funext capability
  cases hp : p capability with
  | false => simp
  | true => simp [h capability hp]

theorem queryOf_onlyFor (hid : allows id = true) :
    Retrieval.queryOf (catalog.onlyFor allows) id = Retrieval.queryOf catalog id := by
  have hfind : (catalog.onlyFor allows).capabilities.find? (fun capability => capability.id = id) =
      catalog.capabilities.find? fun capability => capability.id = id := by
    apply find?_onlyFor
    intro capability hcapability
    rw [of_decide_eq_true hcapability, hid]
  unfold Retrieval.queryOf
  rw [hfind]
  rfl

theorem candidate_onlyFor {facts : ClarificationFacts} (hid : allows id = true) :
    ClarificationPlanner.candidate (catalog.onlyFor allows) facts id =
      ClarificationPlanner.candidate catalog facts id := by
  have hfind : (catalog.onlyFor allows).capabilities.find?
      (fun capability => capability.id = id ∧ capability.status = "approved_mvp") =
      catalog.capabilities.find?
        fun capability => capability.id = id ∧ capability.status = "approved_mvp" := by
    apply find?_onlyFor
    intro capability hcapability
    rw [(of_decide_eq_true hcapability).1, hid]
  unfold ClarificationPlanner.candidate
  rw [hfind]
  rfl

end Catalog

namespace Execution

theorem plannedClarification_onlyFor {toUppercase : Char → String} {catalog : KnowledgeCatalog}
    {allows : String → Bool} {candidateIds : List String} {intent : Option AssistantIntent}
    {patch : ConstraintPatch} {source : Option SourceIntentSnapshot}
    {existing : Option ClarificationPayload} {newId : Uuid}
    (h : ∀ id ∈ candidateIds, allows id = true) :
    plannedClarification toUppercase (catalog.onlyFor allows) candidateIds intent patch source
        existing newId =
      plannedClarification toUppercase catalog candidateIds intent patch source existing newId := by
  have hcandidates : candidateIds.filterMap (ClarificationPlanner.candidate
        (catalog.onlyFor allows) (clarificationFacts intent patch)) =
      candidateIds.filterMap (ClarificationPlanner.candidate catalog
        (clarificationFacts intent patch)) :=
    List.filterMap_congr fun id hid => candidate_onlyFor (h id hid)
  unfold plannedClarification ClarificationPlanner.plan
  rw [hcandidates]

end Execution

namespace Retrieval

variable {catalog : KnowledgeCatalog} {plan : RetrievalPlan}

theorem dropInsufficient_onlyFor {allows : String → Bool} {expressed : List ConstraintField}
    {evidence : List Evidence} (h : ∀ item ∈ evidence, allows item.capabilityId = true) :
    dropInsufficient (catalog.onlyFor allows) expressed evidence =
      dropInsufficient catalog expressed evidence := by
  unfold dropInsufficient
  split_ifs
  · rfl
  · apply List.filter_congr
    intro item hitem
    have hhonours : capabilityHonours (catalog.onlyFor allows) item.capabilityId =
        capabilityHonours catalog item.capabilityId := by
      funext field
      unfold capabilityHonours
      rw [queryOf_onlyFor (h item hitem)]
      rfl
    rw [hhonours]

theorem catalogFallback_onlyFor {toLowercase : String → String} {toUppercase : Char → String}
    {isAlphanumeric : Char → Bool} :
    catalogFallback toLowercase toUppercase isAlphanumeric plan (catalog.onlyFor plan.allows) =
      catalogFallback toLowercase toUppercase isAlphanumeric plan catalog := by
  unfold catalogFallback
  rw [onlyFor_capabilities, List.filter_filter]
  congr 3
  funext capability
  cases hcandidate : isCandidate plan capability with
  | false => simp
  | true =>
    simp only [isCandidate, decide_eq_true_eq] at hcandidate
    simp [hcandidate.2.1]

theorem applyPriors_onlyFor {item : ScoredEvidence Score}
    (h : plan.allows item.capabilityId = true) :
    RetrievalServices.applyPriors plan (catalog.onlyFor plan.allows) item =
      RetrievalServices.applyPriors plan catalog item := by
  have hfind : (catalog.onlyFor plan.allows).capabilities.find?
      (fun capability => capability.id = item.capabilityId) =
      catalog.capabilities.find? fun capability => capability.id = item.capabilityId := by
    apply find?_onlyFor
    intro capability hcapability
    rw [of_decide_eq_true hcapability, h]
  unfold RetrievalServices.applyPriors RetrievalServices.priorScore RetrievalServices.boost
  rw [hfind]
  rfl

theorem selectedRows_onlyFor {F : Type} {tables : Index.Tables F} {version : Index.CatalogVersion} :
    selectedRows "capability" (allowedIds plan) (tables.onlyFor plan.allows) version =
      selectedRows "capability" (allowedIds plan) tables version := by
  unfold selectedRows Index.Tables.rowsOf Index.Tables.onlyFor
  rw [List.filter_filter, List.filter_filter, List.filter_filter]
  congr 1
  funext row
  rw [allowedIds_all]
  cases plan.allows row.document.sourceId with
  | false => simp
  | true => simp

namespace RetrievalServices

variable {services : RetrievalServices} {found : List RetrievedKnowledgeCandidate}

/-- The services without the index rows outside a scope. -/
def onlyFor (services : RetrievalServices) (allows : String → Bool) : RetrievalServices :=
  { services with index := services.index.map fun tables => tables.onlyFor allows }

theorem readBySearch_onlyFor {F : Type} {tables : Index.Tables F} {allows : String → Bool}
    {version : Index.CatalogVersion} :
    Index.ReadBySearch (tables.onlyFor allows) version ↔ Index.ReadBySearch tables version :=
  ⟨fun h => ⟨h.mem, h.holds, h.latest⟩, fun h => ⟨h.mem, h.holds, h.latest⟩⟩

theorem hybridAnswer_onlyFor {F : Type} {tables : Index.Tables F} {answer : List (Index.IndexRow F)}
    {distance : Index.IndexRow F → BinaryNumber binary64} {limit : ℕ} :
    HybridAnswer distance (tables.onlyFor plan.allows) "capability" (allowedIds plan) limit answer ↔
      HybridAnswer distance tables "capability" (allowedIds plan) limit answer := by
  unfold HybridAnswer
  simp only [readBySearch_onlyFor, selectedRows_onlyFor]

/-- A search can come to the same results without the rows outside the scope. -/
theorem finds_onlyFor {result : Except String (List RetrievedKnowledgeCandidate)} :
    (services.onlyFor plan.allows).Finds plan result ↔ services.Finds plan result := by
  constructor
  · intro h
    cases h with
    | unavailable hmissing =>
      exact .unavailable (hmissing.imp_right Option.map_eq_none_iff.mp)
    | embedFailed hembed hindex hfailed =>
      obtain ⟨tables, htables, rfl⟩ := Option.map_eq_some_iff.mp hindex
      exact .embedFailed hembed htables hfailed
    | searchFailed hembed hindex hvector message =>
      obtain ⟨tables, htables, rfl⟩ := Option.map_eq_some_iff.mp hindex
      have hmodel : services.embed = some _ := hembed
      exact .searchFailed hmodel htables hvector message
    | answered hembed hindex hvector hanswer =>
      obtain ⟨tables, htables, rfl⟩ := Option.map_eq_some_iff.mp hindex
      exact .answered hembed htables hvector (hybridAnswer_onlyFor.mp hanswer)
  · intro h
    cases h with
    | unavailable hmissing =>
      exact .unavailable (hmissing.imp_right Option.map_eq_none_iff.mpr)
    | embedFailed hembed hindex hfailed =>
      exact .embedFailed hembed (Option.map_eq_some_iff.mpr ⟨_, hindex, rfl⟩) hfailed
    | searchFailed hembed hindex hvector message =>
      have hmodel : (services.onlyFor plan.allows).embed = some _ := hembed
      exact .searchFailed hmodel (Option.map_eq_some_iff.mpr ⟨_, hindex, rfl⟩) hvector message
    | answered hembed hindex hvector hanswer =>
      exact .answered hembed (Option.map_eq_some_iff.mpr ⟨_, hindex, rfl⟩) hvector
        (hybridAnswer_onlyFor.mpr hanswer)

/-- The engine returns the same evidence without the capabilities outside the scope. -/
theorem retrieve_onlyFor {result : Except String (List RetrievedKnowledgeCandidate)}
    {catalog : Option KnowledgeCatalog} (h : services.Finds plan result) :
    (services.onlyFor plan.allows).retrieve plan result
        (catalog.map fun catalog => catalog.onlyFor plan.allows) =
      services.retrieve plan result catalog := by
  cases result with
  | error message => rfl
  | ok found =>
    cases catalog with
    | none => rfl
    | some catalog =>
      have hcandidates : (services.onlyFor plan.allows).candidates plan found
          (catalog.onlyFor plan.allows) = services.candidates plan found catalog :=
        congrArg (found.map (·.toEvidence) ++ ·) catalogFallback_onlyFor
      have hscored : (services.candidates plan found catalog).map
            (applyPriors plan (catalog.onlyFor plan.allows)) =
          (services.candidates plan found catalog).map (applyPriors plan catalog) :=
        List.map_congr_left fun candidate hcandidate =>
          applyPriors_onlyFor (candidates_allows h hcandidate)
      change Except.ok (List.filter _ (merge (List.map _ _))) =
        Except.ok (List.filter _ (merge (List.map _ _)))
      rw [hcandidates, hscored]
      rfl

/-- Whatever the engine returns, with a catalog or without one, is inside the scope. -/
theorem retrieve_allows {result : Except String (List RetrievedKnowledgeCandidate)}
    {catalog : Option KnowledgeCatalog} {evidence : List (ScoredEvidence Score)}
    {item : ScoredEvidence Score} (h : services.Finds plan result)
    (hretrieve : services.retrieve plan result catalog = .ok evidence) (hitem : item ∈ evidence) :
    plan.allows item.capabilityId = true := by
  cases result with
  | error message => cases hretrieve
  | ok found =>
    cases catalog with
    | none =>
      obtain rfl := Except.ok.inj hretrieve
      obtain ⟨hit, hhit, rfl⟩ := List.mem_map.mp ((merge_isRanking _).best item hitem).mem
      exact h.allows hhit
    | some catalog =>
      obtain ⟨ranked, hranking, rfl⟩ := retrieve_eq_ok hretrieve
      have hbest := hranking.best item (List.mem_filter.mp hitem).1
      obtain ⟨candidate, hcandidate, rfl⟩ := List.mem_map.mp hbest.mem
      have hallowed : plan.allows candidate.capabilityId = true := candidates_allows h hcandidate
      exact hallowed

end RetrievalServices

end Retrieval

/-! ### The turn -/

namespace Execution

open Presentation Retrieval

/-- The services of a routed turn; `structured` is the model's reply to an attempt at reranking. -/
structure RouteServices extends RetrievalServices where
  structured : Option (ℕ → Json → Except String RerankerDecision)

namespace TurnRun

variable (run : TurnRun) (services : RouteServices)

/-- The English of the request, or the message when the router gave none. -/
def retrievalQuery (intent : AssistantIntent) : String :=
  if Text.isBlank intent.canonicalQueryEn then run.turn.input.message
  else intent.canonicalQueryEn

def retrievalPlan (intent : AssistantIntent) : RetrievalPlan :=
  RetrievalPlan.new (run.retrievalQuery intent) intent (allowAllCapabilities run.turn.context)
    (allowedCapabilities run.turn.context)

/-- The scope of the client. -/
def allows (id : String) : Bool :=
  allowAllCapabilities run.turn.context || decide (id ∈ allowedCapabilities run.turn.context)

/-- The turn over another catalog, another retrieval and another reranking. -/
def seeing (catalog : Option KnowledgeCatalog)
    (retrieved : AssistantIntent → Except String (List Evidence))
    (rerank : AssistantIntent → List Evidence → RerankerDecision) : TurnRun :=
  { run with
    turn := { run.turn with catalog := catalog, retrieved := retrieved, rerank := rerank } }

/-- The turn with the engine and the reranker; `search` is what the index answers. -/
def withRetrieval
    (search : AssistantIntent → Except String (List RetrievedKnowledgeCandidate)) : TurnRun :=
  run.seeing run.turn.catalog
    (fun intent =>
      (services.retrieve (run.retrievalPlan intent) (search intent) run.turn.catalog).map
        fun evidence => evidence.map (·.toEvidence))
    fun intent evidence => Retrieval.rerank services.structured (run.retrievalQuery intent) evidence

/-- Where the turn may go, over everything the search of the index may come to. -/
def MayGoTo (result : RespondedTurn) : Prop :=
  ∃ search, (∀ intent, services.Finds (run.retrievalPlan intent) (search intent)) ∧
    (run.withRetrieval services search).runWithRouter = result

/-- The turn with what its client can see of the catalog. -/
def onlyVisible : TurnRun :=
  run.seeing (run.turn.catalog.map fun catalog => catalog.onlyFor run.allows) run.turn.retrieved
    run.turn.rerank

end TurnRun

def RouteServices.onlyFor (services : RouteServices) (allows : String → Bool) : RouteServices :=
  { services with toRetrievalServices := services.toRetrievalServices.onlyFor allows }

namespace TurnRun

section Visible

variable {run : TurnRun} {services : RouteServices}
  {search : AssistantIntent → Except String (List RetrievedKnowledgeCandidate)}
  {intent : AssistantIntent} {evidence : List Evidence}

theorem retrievalPlan_allows : (run.retrievalPlan intent).allows = run.allows := rfl

/-- The reply to a pending question does not depend on the catalog. -/
theorem resolvedReply_seeing {catalog : Option KnowledgeCatalog}
    {retrieved : AssistantIntent → Except String (List Evidence)}
    {rerank : AssistantIntent → List Evidence → RerankerDecision} :
    (run.seeing catalog retrieved rerank).turn.resolvedReply intent =
      run.turn.resolvedReply intent := by
  simp only [SemanticTurn.resolvedReply, SemanticTurn.resolveText, seeing]

theorem continueWith_seeing {catalog : Option KnowledgeCatalog}
    {retrieved : AssistantIntent → Except String (List Evidence)}
    {rerank : AssistantIntent → List Evidence → RerankerDecision} {payload : ClarificationPayload}
    {outcome : ClarificationOutcome} :
    (run.seeing catalog retrieved rerank).continueWith payload outcome =
      run.continueWith payload outcome := by
  simp only [continueWith, seeing]
  rfl

theorem completeSemanticRoute_seeing (run : TurnRun) {catalog other : Option KnowledgeCatalog}
    {retrieved retrieved' : AssistantIntent → Except String (List Evidence)}
    {rerank rerank' : AssistantIntent → List Evidence → RerankerDecision}
    (h : ∀ intent, (run.seeing catalog retrieved rerank).routeByIntent intent =
      (run.seeing other retrieved' rerank').routeByIntent intent) :
    (run.seeing catalog retrieved rerank).completeSemanticRoute =
      (run.seeing other retrieved' rerank').completeSemanticRoute := by
  unfold completeSemanticRoute
  simp only [resolvedReply_seeing, continueWith_seeing, h]
  rfl

theorem runWithRouter_seeing (run : TurnRun) {catalog other : Option KnowledgeCatalog}
    {retrieved retrieved' : AssistantIntent → Except String (List Evidence)}
    {rerank rerank' : AssistantIntent → List Evidence → RerankerDecision}
    (h : (run.seeing catalog retrieved rerank).completeSemanticRoute =
      (run.seeing other retrieved' rerank').completeSemanticRoute) :
    (run.seeing catalog retrieved rerank).runWithRouter =
      (run.seeing other retrieved' rerank').runWithRouter := by
  have hrouted : (run.seeing catalog retrieved rerank).routed =
      (run.seeing other retrieved' rerank').routed := by
    unfold routed
    rw [h]
    rfl
  unfold runWithRouter
  rw [hrouted]
  rfl

theorem retrieved_allows (h : services.Finds (run.retrievalPlan intent) (search intent))
    (hevidence : (run.withRetrieval services search).turn.retrieved intent = .ok evidence) :
    ∀ item ∈ evidence, run.allows item.capabilityId = true := by
  intro item hitem
  change Except.map _ (services.retrieve _ _ _) = _ at hevidence
  cases hresult : services.retrieve (run.retrievalPlan intent) (search intent)
      run.turn.catalog with
  | error message =>
    rw [hresult] at hevidence
    cases hevidence
  | ok scored =>
    rw [hresult] at hevidence
    obtain rfl := Except.ok.inj hevidence
    obtain ⟨scoredItem, hscored, rfl⟩ := List.mem_map.mp hitem
    exact RetrievalServices.retrieve_allows h hresult hscored

/-- The survivors of the gate are inside the scope. -/
theorem survivors_allows (h : services.Finds (run.retrievalPlan intent) (search intent)) :
    ∀ item ∈ (run.withRetrieval services search).turn.survivors intent,
      run.allows item.capabilityId = true := by
  intro item hitem
  unfold SemanticTurn.survivors at hitem
  dsimp only at hitem
  cases hevidence : (run.withRetrieval services search).turn.retrieved intent with
  | error message =>
    rw [hevidence] at hitem
    cases hcatalog : (run.withRetrieval services search).turn.catalog with
    | none => simp [hcatalog] at hitem
    | some catalog => simp [hcatalog, dropInsufficient] at hitem
  | ok evidence =>
    rw [hevidence] at hitem
    refine retrieved_allows h hevidence item ?_
    cases hcatalog : (run.withRetrieval services search).turn.catalog with
    | none =>
      rw [hcatalog] at hitem
      exact hitem
    | some catalog =>
      rw [hcatalog] at hitem
      dsimp only [dropInsufficient] at hitem
      split_ifs at hitem
      · exact hitem
      · exact (List.mem_filter.mp hitem).1

/-- The turn that sees only its scope, with the engine and the reranker. -/
abbrev seen (run : TurnRun) (services : RouteServices)
    (search : AssistantIntent → Except String (List RetrievedKnowledgeCandidate)) : TurnRun :=
  run.onlyVisible.withRetrieval (services.onlyFor run.allows) search

theorem retrieved_seen (h : services.Finds (run.retrievalPlan intent) (search intent)) :
    (run.seen services search).turn.retrieved intent =
      (run.withRetrieval services search).turn.retrieved intent :=
  congrArg (Except.map (List.map ScoredEvidence.toEvidence))
    (RetrievalServices.retrieve_onlyFor h)

theorem survivors_seen (h : services.Finds (run.retrievalPlan intent) (search intent)) :
    (run.seen services search).turn.survivors intent =
      (run.withRetrieval services search).turn.survivors intent := by
  have hallowed : ∀ evidence,
      (run.withRetrieval services search).turn.retrieved intent = .ok evidence →
        ∀ item ∈ evidence, run.allows item.capabilityId = true :=
    fun evidence hevidence => retrieved_allows h hevidence
  unfold SemanticTurn.survivors
  rw [retrieved_seen h]
  cases hevidence : (run.withRetrieval services search).turn.retrieved intent with
  | error message =>
    cases hcatalog : run.turn.catalog with
    | none => simp [onlyVisible, withRetrieval, seeing, hcatalog]
    | some catalog => simp [onlyVisible, withRetrieval, seeing, hcatalog, dropInsufficient]
  | ok evidence =>
    cases hcatalog : run.turn.catalog with
    | none => simp [onlyVisible, withRetrieval, seeing, hcatalog]
    | some catalog =>
      simp only [onlyVisible, withRetrieval, seeing, hcatalog, Option.map_some]
      exact dropInsufficient_onlyFor (hallowed evidence hevidence)

/-- The question about candidates inside the scope. -/
theorem clarifyRetrievalCandidates_seen {alternatives : List String}
    (h : ∀ item ∈ evidence, run.allows item.capabilityId = true) :
    (run.seen services search).clarifyRetrievalCandidates intent evidence alternatives =
      (run.withRetrieval services search).clarifyRetrievalCandidates intent evidence
        alternatives := by
  have hids : ∀ id ∈ SemanticTurn.candidateIds evidence alternatives, run.allows id = true := by
    intro id hid
    unfold SemanticTurn.candidateIds at hid
    split_ifs at hid
    · obtain ⟨item, hitem, rfl⟩ := List.mem_map.mp hid
      exact h item (List.mem_of_mem_take hitem)
    · obtain ⟨item, hitem, heq⟩ := List.any_eq_true.mp (List.mem_filter.mp hid).2
      rw [← of_decide_eq_true heq]
      exact h item hitem
  unfold clarifyRetrievalCandidates
  cases hcatalog : run.turn.catalog with
  | none => simp only [onlyVisible, withRetrieval, seeing, hcatalog, Option.map_none]; rfl
  | some catalog =>
    simp only [onlyVisible, withRetrieval, seeing, hcatalog, Option.map_some]
    rw [plannedClarification_onlyFor hids]
    rfl

theorem routeByEvidence_seen (h : services.Finds (run.retrievalPlan intent) (search intent)) :
    (run.seen services search).routeByEvidence intent =
      (run.withRetrieval services search).routeByEvidence intent := by
  have hquestion (alternatives : List String) :
      (run.seen services search).clarifyRetrievalCandidates intent
          ((run.withRetrieval services search).turn.survivors intent) alternatives =
        (run.withRetrieval services search).clarifyRetrievalCandidates intent
          ((run.withRetrieval services search).turn.survivors intent) alternatives :=
    clarifyRetrievalCandidates_seen (survivors_allows h)
  have hrerank : (run.seen services search).turn.rerank =
      (run.withRetrieval services search).turn.rerank := rfl
  unfold routeByEvidence
  rw [survivors_seen h, hrerank]
  dsimp only
  split
  · split
    · rfl
    · exact hquestion _
  · exact hquestion _
  · rfl
  · rfl

theorem routeByIntent_seen (h : services.Finds (run.retrievalPlan intent) (search intent)) :
    (run.seen services search).routeByIntent intent =
      (run.withRetrieval services search).routeByIntent intent := by
  unfold routeByIntent
  split
  · rfl
  · rfl
  · rfl
  · exact routeByEvidence_seen h

theorem completeSemanticRoute_seen
    (h : ∀ intent, services.Finds (run.retrievalPlan intent) (search intent)) :
    (run.seen services search).completeSemanticRoute =
      (run.withRetrieval services search).completeSemanticRoute := by
  exact completeSemanticRoute_seeing run fun intent => routeByIntent_seen (h intent)

end Visible

/-- The capabilities outside the scope of the client change nothing: the turn can go to the same
places, execute the same capability or ask the same question, with their entries in the catalog and
their rows in the index and without them. -/
theorem unseen_capabilities_change_nothing (run : TurnRun) (services : RouteServices)
    (result : RespondedTurn) :
    run.MayGoTo services result ↔ run.onlyVisible.MayGoTo (services.onlyFor run.allows) result := by
  constructor
  · rintro ⟨search, hfinds, rfl⟩
    refine ⟨search, fun intent => RetrievalServices.finds_onlyFor.mpr (hfinds intent), ?_⟩
    exact runWithRouter_seeing run (completeSemanticRoute_seen hfinds)
  · rintro ⟨search, hfinds, rfl⟩
    have hfound : ∀ intent, services.Finds (run.retrievalPlan intent) (search intent) :=
      fun intent => RetrievalServices.finds_onlyFor.mp (hfinds intent)
    refine ⟨search, hfound, ?_⟩
    exact (runWithRouter_seeing run (completeSemanticRoute_seen hfound)).symm

end TurnRun

end Execution

end FineractReports
