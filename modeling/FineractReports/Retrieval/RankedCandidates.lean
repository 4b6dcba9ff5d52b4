import FineractReports.Retrieval.Engine

/-!
# What the engine returns

The result of a retrieval is exactly the candidates at or above the floor, each id once with its
best score, and all of them allowed. What the router read into a request ranks the candidates; it
never removes one that reaches the floor on its own, unless the request is taken to be off-topic.
-/

namespace FineractReports.Retrieval

open Index

/-! ### Scores -/

section Scores

variable {plan : RetrievalPlan} {catalog : KnowledgeCatalog} {capability : CapabilityKnowledge}
  {score other : Score} {id : String}

theorem nearest_natCast_nonneg (count : ℕ) : (0 : Score) ≤ .nearest count :=
  BinaryNumber.nearest_nonneg (Nat.cast_nonneg count)

theorem shapeScore_nonneg : 0 ≤ shapeScore plan capability := by
  have hfive : (0 : Score) ≤ .nearest 5 := BinaryNumber.nearest_nonneg (by norm_num)
  calc
    (0 : Score) ≤ 0 / .nearest 5 := BinaryNumber.nearest_nonneg (by simp [BinaryNumber.zero_value])
    _ ≤ shapeScore plan capability := BinaryNumber.div_mono hfive (nearest_natCast_nonneg _)

theorem metricScore_nonneg {metrics : List String} : 0 ≤ metricScore plan catalog metrics := by
  unfold metricScore
  dsimp only
  split_ifs
  · exact le_rfl
  · exact nearest_natCast_nonneg _

/-- What the catalog says never lowers a score. -/
theorem boost_nonneg {boost : Score}
    (h : RetrievalServices.boost plan catalog id = some boost) : 0 ≤ boost := by
  unfold RetrievalServices.boost at h
  obtain ⟨capability, -, rfl⟩ := Option.map_eq_some_iff.mp h
  have hshape : 0 ≤ shapeScore plan capability * SHAPE_BOOST :=
    BinaryNumber.mul_nonneg shapeScore_nonneg (BinaryNumber.nearest_nonneg (by norm_num))
  have hdomain : 0 ≤ domainScore plan capability.domain * DOMAIN_BOOST :=
    BinaryNumber.mul_nonneg (nearest_natCast_nonneg _) (BinaryNumber.nearest_nonneg (by norm_num))
  have hmetric : 0 ≤ metricScore plan catalog capability.metrics * METRIC_BOOST :=
    BinaryNumber.mul_nonneg metricScore_nonneg (BinaryNumber.nearest_nonneg (by norm_num))
  exact BinaryNumber.add_nonneg (BinaryNumber.add_nonneg hshape hdomain) hmetric

/-- A request on topic leaves every candidate at least its own score, up to the cap. -/
theorem le_priorScore (htopic : plan.intent ≠ .outOfDomain) :
    min score SCORE_CAP ≤ RetrievalServices.priorScore plan catalog id score := by
  unfold RetrievalServices.priorScore
  simp only [if_neg htopic]
  refine le_max_of_le_right (min_le_min_right _ ?_)
  cases hboost : RetrievalServices.boost plan catalog id with
  | none => exact le_rfl
  | some boost => exact BinaryNumber.le_add_of_nonneg (boost_nonneg hboost)

end Scores

/-! ### The catalog -/

section Catalog

variable {toLowercase : String → String} {toUppercase : Char → String}
  {isAlphanumeric : Char → Bool} {plan : RetrievalPlan} {catalog : KnowledgeCatalog}
  {capability : CapabilityKnowledge} {terms : List String} {item : ScoredEvidence Score}

theorem mem_catalogFallback_iff :
    item ∈ catalogFallback toLowercase toUppercase isAlphanumeric plan catalog ↔
      ∃ capability ∈ catalog.capabilities, isCandidate plan capability = true ∧
        BASE_SCORE < candidateScore toLowercase (requestTerms toLowercase isAlphanumeric plan)
          capability ∧
        item = catalogEvidence toLowercase toUppercase
          (requestTerms toLowercase isAlphanumeric plan) capability := by
  simp only [catalogFallback, List.mem_filter, List.mem_map, decide_eq_true_eq]
  constructor
  · rintro ⟨⟨capability, ⟨hmem, hcandidate⟩, rfl⟩, hscore⟩
    exact ⟨capability, hmem, hcandidate, hscore, rfl⟩
  · rintro ⟨capability, hmem, hcandidate, hscore, rfl⟩
    exact ⟨⟨capability, ⟨hmem, hcandidate⟩, rfl⟩, hscore⟩

/-- The words beyond which one hit may be lost in the rounding. -/
def MANY_TERMS : ℕ := 2 ^ 23

/-- One hit is enough to be more than the base score. -/
theorem base_lt_candidateScore (hhit : ∃ term ∈ terms,
      Text.contains (haystack toLowercase capability) term = true)
    (hcount : terms.length ≤ MANY_TERMS) :
    BASE_SCORE < candidateScore toLowercase terms capability := by
  obtain ⟨term, hterm, hcontains⟩ := hhit
  have hne : terms ≠ [] := List.ne_nil_of_mem hterm
  have hhits : 1 ≤ keywordHits toLowercase terms capability :=
    List.countP_pos_iff.mpr ⟨term, hterm, hcontains⟩
  have hlength : 0 < terms.length := List.length_pos_of_mem hterm
  -- The share of the hits is at least the least one, which the format holds exactly.
  have hshare : (.nearest (1 / MANY_TERMS) : Score) ≤
      .nearest (keywordHits toLowercase terms capability) / .nearest terms.length := by
    have hmany : (.nearest terms.length : Score) ≤ .nearest MANY_TERMS :=
      BinaryNumber.nearest_mono (Nat.cast_le.mpr hcount)
    have hexact : (.nearest MANY_TERMS : Score).value = MANY_TERMS := by decide +kernel
    have hone : (.nearest 1 : Score).value = 1 := by decide +kernel
    have hpos : (0 : ℚ) < (.nearest terms.length : Score).value := by
      have hone_le : (.nearest 1 : Score) ≤ .nearest terms.length :=
        BinaryNumber.nearest_mono (by exact_mod_cast hlength)
      exact lt_of_lt_of_le (by rw [hone]; exact one_pos) hone_le
    have hnumerator : (1 : ℚ) ≤
        (.nearest (keywordHits toLowercase terms capability) : Score).value := by
      rw [← hone]
      exact BinaryNumber.nearest_mono (by exact_mod_cast hhits)
    rw [BinaryNumber.le_def, hexact] at hmany
    exact BinaryNumber.nearest_mono
      (div_le_div₀ (zero_le_one.trans hnumerator) hnumerator hpos hmany)
  have hfactor : (0 : Score) ≤ .nearest (34 / 100) := BinaryNumber.nearest_nonneg (by norm_num)
  have hleast : BASE_SCORE < BASE_SCORE + .nearest (1 / MANY_TERMS) * .nearest (34 / 100) := by
    decide +kernel
  have hcap : BASE_SCORE < SCORE_CAP := by decide +kernel
  unfold candidateScore keywordScore
  rw [if_neg hne]
  have hscored := BinaryNumber.mul_mono hfactor hshare
  exact lt_min (hleast.trans_le (BinaryNumber.add_mono le_rfl hscored)) hcap

theorem catalogFallback_allows
    (h : item ∈ catalogFallback toLowercase toUppercase isAlphanumeric plan catalog) :
    plan.allows item.capabilityId = true := by
  obtain ⟨capability, -, hcandidate, -, rfl⟩ := mem_catalogFallback_iff.mp h
  simp only [isCandidate, decide_eq_true_eq] at hcandidate
  exact hcandidate.2.1

end Catalog

/-! ### The index -/

section Search

variable {plan : RetrievalPlan} {F : Type} {tables : Tables F} {answer : List (IndexRow F)}
  {distance : IndexRow F → BinaryNumber binary64} {sourceType : String} {limit : ℕ}
  {row : IndexRow F}

theorem allowedIds_all {id : String} :
    (allowedIds plan).all (fun ids => decide (id ∈ ids)) = plan.allows id := by
  unfold allowedIds RetrievalPlan.allows
  cases plan.allowAllCapabilities with
  | true => rfl
  | false => simp

theorem HybridAnswer.allows
    (h : HybridAnswer distance tables sourceType (allowedIds plan) limit answer)
    (hrow : row ∈ answer) : plan.allows row.document.sourceId = true := by
  obtain ⟨selected, ranked, hranked, rfl, hselected⟩ := h
  have hmem := hranked.mem row (List.mem_of_mem_take hrow)
  rcases hselected with ⟨version, -, rfl⟩ | ⟨-, rfl⟩
  · simp only [selectedRows, List.mem_filter, decide_eq_true_eq, allowedIds_all] at hmem
    exact hmem.2.2.2
  · exact absurd hmem List.not_mem_nil

end Search

/-! ### The engine -/

namespace RetrievalServices

variable {services : RetrievalServices} {plan : RetrievalPlan} {catalog : KnowledgeCatalog}
  {found : List RetrievedKnowledgeCandidate} {evidence : List (ScoredEvidence Score)}
  {candidate : ScoredEvidence Score}

theorem Finds.allows (h : services.Finds plan (.ok found)) {hit : RetrievedKnowledgeCandidate}
    (hhit : hit ∈ found) : plan.allows hit.sourceId = true := by
  generalize hresult :
    (Except.ok found : Except String (List RetrievedKnowledgeCandidate)) = result at h
  cases h with
  | unavailable _ =>
    obtain rfl := Except.ok.inj hresult
    exact absurd hhit List.not_mem_nil
  | embedFailed _ _ _ => cases hresult
  | searchFailed _ _ _ _ => cases hresult
  | answered _ _ _ hanswer =>
    obtain rfl := Except.ok.inj hresult
    obtain ⟨row, hrow, rfl⟩ := List.mem_map.mp hhit
    exact hanswer.allows hrow

theorem candidates_allows (h : services.Finds plan (.ok found))
    (hcandidate : candidate ∈ services.candidates plan found catalog) :
    plan.allows candidate.capabilityId = true := by
  rcases List.mem_append.mp hcandidate with hfound | hcatalog
  · obtain ⟨hit, hhit, rfl⟩ := List.mem_map.mp hfound
    exact h.allows hhit
  · exact catalogFallback_allows hcatalog

/-- What a retrieval with a catalog returns: the ranking of the scored candidates, cut off. -/
theorem retrieve_eq_ok
    (hretrieve : services.retrieve plan (.ok found) (some catalog) = .ok evidence) :
    ∃ ranked, IsRanking (·.capabilityId) (·.score)
        ((services.candidates plan found catalog).map (applyPriors plan catalog)) ranked ∧
      evidence = ranked.filter fun item =>
        catalog.classification.minFloor.value ≤ item.score.value :=
  ⟨_, merge_isRanking _, (Except.ok.inj hretrieve).symm⟩

/-- Every candidate at or above the floor is returned, with its best score. -/
theorem returned_of_floor_le
    (hretrieve : services.retrieve plan (.ok found) (some catalog) = .ok evidence)
    (hcandidate : candidate ∈ services.candidates plan found catalog)
    (hfloor : catalog.classification.minFloor.value ≤
      (applyPriors plan catalog candidate).score.value) :
    ∃ item ∈ evidence, item.capabilityId = candidate.capabilityId ∧
      (applyPriors plan catalog candidate).score ≤ item.score := by
  obtain ⟨ranked, hranking, rfl⟩ := retrieve_eq_ok hretrieve
  have hscored := List.mem_map_of_mem (f := applyPriors plan catalog) hcandidate
  obtain ⟨item, hitem, hid⟩ := hranking.exists_mem hscored
  have hle := (hranking.best item hitem).le hscored hid.symm
  refine ⟨item, List.mem_filter.mpr ⟨hitem, ?_⟩, hid, hle⟩
  exact decide_eq_true (hfloor.trans (BinaryNumber.le_def.mp hle))

/-- The engine returns the allowed candidates at or above the floor, best first and each id once
with its best score. A candidate that reaches the floor on its own is among them whatever the
router read into the request, and so is in the running every capability that one word of the
request hits, unless a status, a permission or a missing name rules it out. -/
theorem retrieve_ranks_candidates (hfound : services.Finds plan (.ok found))
    (hretrieve : services.retrieve plan (.ok found) (some catalog) = .ok evidence) :
    (evidence.map (·.capabilityId)).Nodup ∧
      evidence.Pairwise (fun item later => later.score ≤ item.score) ∧
      (∀ item ∈ evidence, plan.allows item.capabilityId = true ∧
        catalog.classification.minFloor.value ≤ item.score.value ∧
        ∃ candidate ∈ services.candidates plan found catalog,
          item = applyPriors plan catalog candidate ∧
          ∀ other ∈ services.candidates plan found catalog,
            other.capabilityId = candidate.capabilityId →
              (applyPriors plan catalog other).score ≤ item.score) ∧
      (∀ candidate ∈ services.candidates plan found catalog,
        catalog.classification.minFloor.value ≤ (applyPriors plan catalog candidate).score.value →
          ∃ item ∈ evidence, item.capabilityId = candidate.capabilityId) ∧
      (plan.intent ≠ .outOfDomain →
        catalog.classification.minFloor.value ≤ SCORE_CAP.value →
        ∀ candidate ∈ services.candidates plan found catalog,
          catalog.classification.minFloor.value ≤ candidate.score.value →
            ∃ item ∈ evidence, item.capabilityId = candidate.capabilityId ∧
              min candidate.score SCORE_CAP ≤ item.score) ∧
      ∀ capability ∈ catalog.capabilities, isCandidate plan capability = true →
        (requestTerms services.toLowercase services.isAlphanumeric plan).length ≤ MANY_TERMS →
        (∃ term ∈ requestTerms services.toLowercase services.isAlphanumeric plan,
          Text.contains (haystack services.toLowercase capability) term = true) →
        ∃ candidate ∈ services.candidates plan found catalog,
          candidate.capabilityId = capability.id ∧ BASE_SCORE < candidate.score := by
  refine ⟨?_, ?_, fun item hitem => ?_, ?_, ?_, ?_⟩
  · obtain ⟨ranked, hranking, rfl⟩ := retrieve_eq_ok hretrieve
    exact hranking.once.sublist (List.filter_sublist.map _)
  · obtain ⟨ranked, hranking, rfl⟩ := retrieve_eq_ok hretrieve
    refine (hranking.ranked.imp fun horder => ?_).filter _
    exact horder.elim le_of_lt fun hequal => hequal.1.ge
  · obtain ⟨ranked, hranking, rfl⟩ := retrieve_eq_ok hretrieve
    obtain ⟨hranked, hfloor⟩ := List.mem_filter.mp hitem
    have hbest := hranking.best item hranked
    obtain ⟨candidate, hcandidate, rfl⟩ := List.mem_map.mp hbest.mem
    have hallowed : plan.allows candidate.capabilityId = true :=
      candidates_allows hfound hcandidate
    refine ⟨hallowed, of_decide_eq_true hfloor, candidate, hcandidate, rfl,
      fun other hother hid => ?_⟩
    exact hbest.le (List.mem_map_of_mem hother) hid
  · intro candidate hcandidate hfloor
    obtain ⟨item, hitem, hid, -⟩ := returned_of_floor_le hretrieve hcandidate hfloor
    exact ⟨item, hitem, hid⟩
  · intro htopic hcap candidate hcandidate hfloor
    have hkept : min candidate.score SCORE_CAP ≤ (applyPriors plan catalog candidate).score :=
      le_priorScore htopic
    have hreached : catalog.classification.minFloor.value ≤
        (applyPriors plan catalog candidate).score.value := by
      have hmin : catalog.classification.minFloor.value ≤
          (min candidate.score SCORE_CAP).value := by
        rcases min_choice candidate.score SCORE_CAP with hmin | hmin
        · rw [hmin]
          exact hfloor
        · rw [hmin]
          exact hcap
      exact hmin.trans (BinaryNumber.le_def.mp hkept)
    obtain ⟨item, hitem, hid, hle⟩ := returned_of_floor_le hretrieve hcandidate hreached
    exact ⟨item, hitem, hid, hkept.trans hle⟩
  · intro capability hmem hcapability hcount hhit
    have hscore := base_lt_candidateScore hhit hcount
    exact ⟨_, List.mem_append_right _
      (mem_catalogFallback_iff.mpr ⟨capability, hmem, hcapability, hscore, rfl⟩), rfl, hscore⟩

end RetrievalServices

/-! A request for a client, with the name lookup in the catalog and in the index. -/

namespace OneRow

open FineractReports.NameLookup (capability catalog)

def version : CatalogVersion where
  id := 1
  version := "local"
  contentHash := "catalog"
  status := "embedded"
  documentCount := 1
  embeddingModel := some "voyage-3.5"
  embeddingDimensions := some 1024
  syncedAt := some 10
  createdAt := 10

def row : IndexRow Unit where
  catalogVersionId := 1
  document := ⟨.capability, "client_name_lookup", "Client Name Lookup",
    "Find clients by their name.", .obj [("domain", .str "client")]⟩
  contentHash := "document"
  embedding := some (List.replicate VECTOR_DIMENSIONS ())
  embeddingModel := some "voyage-3.5"

def services : RetrievalServices where
  Number := Unit
  isAlphanumeric := Char.isAlphanum
  toLowercase := Text.asciiLower
  toUppercase c := c.toUpper.toString
  embed := some fun _ => .ok (List.replicate VECTOR_DIMENSIONS ())
  index := some ⟨[version], [row]⟩
  distance _ _ _ := .nearest (3 / 10)

/-- The router takes the request for one about savings. -/
def plan : RetrievalPlan where
  queryText := "Find client Tony"
  domain := .savings
  intent := .dataLookup
  requestShape := ⟨.list, .savingsAccount, .unknown, .list, .none⟩
  entities := [⟨.personName, "Tony", none⟩]
  constraints := AssistantConstraints.empty
  allowAllCapabilities := false
  allowedCapabilities := ["client_name_lookup"]

def found : List RetrievedKnowledgeCandidate := [candidateOf (fun _ => .nearest (3 / 10)) row]

theorem finds : services.Finds plan (.ok found) := by
  have hranked : NearestFirst (fun _ => .nearest (3 / 10)) [row] [row] := by
    refine ⟨fun _ => id, List.nodup_singleton _, fun _ _ _ _ _ => le_rfl, fun other hother => ?_,
      List.pairwise_singleton _ _⟩
    exact ⟨other, hother, rfl⟩
  have hread : ReadBySearch (⟨[version], [row]⟩ : Tables Unit) version := by
    refine ⟨List.mem_singleton_self _, rfl, fun other hother _ => ?_⟩
    obtain rfl := List.mem_singleton.mp hother
    decide
  have hselected :
      [row] = selectedRows "capability" (allowedIds plan) ⟨[version], [row]⟩ version := by
    decide +kernel
  have hanswer : HybridAnswer (services.distance (List.replicate VECTOR_DIMENSIONS ())
      (services.searchTerms plan)) ⟨[version], [row]⟩ "capability" (allowedIds plan)
      RetrievalServices.SEARCH_LIMIT [row] :=
    ⟨[row], [row], hranked, rfl, Or.inl ⟨version, hread, hselected⟩⟩
  exact .answered rfl rfl rfl hanswer

/-- The row reaches the floor on its own, and the lookup is returned. -/
theorem lookup_returned : ∃ evidence,
    services.retrieve plan (.ok found) (some catalog) = .ok evidence ∧
      ∃ item ∈ evidence, item.capabilityId = "client_name_lookup" := by
  have hreturned := (RetrievalServices.retrieve_ranks_candidates finds
    (rfl : services.retrieve plan (.ok found) (some catalog) = _)).2.2.2.2.1
  have hmem : (candidateOf (fun _ => .nearest (3 / 10)) row).toEvidence ∈
      services.candidates plan found catalog := List.mem_append_left _ List.mem_cons_self
  obtain ⟨item, hitem, hid, -⟩ := hreturned (by decide) (by decide +kernel) _ hmem
    (by decide +kernel)
  exact ⟨_, rfl, item, hitem, hid⟩

end OneRow

end FineractReports.Retrieval
