import FineractReports.Execution.SemanticRoute

/-!
# What the language model can choose

Every way from a reply of the model to an execution, with the membership check it
passes. The reranker, the exact match and the embeddings only pick what is there; the
model's own resolution of a reply is taken as it is.
-/

namespace FineractReports.Execution

/-- An option of the payload has the id. -/
def Offers (payload : ClarificationPayload) (optionId : String) : Prop :=
  ∃ option ∈ payload.options, option.id = optionId

namespace ClarificationResolver

variable {llm : LanguageModel} {reply : String} {payload : ClarificationPayload}
  {optionId : String}

theorem resolveExact_offered (h : resolveExact reply payload = some (.selectedOption optionId)) :
    Offers payload optionId := by
  unfold resolveExact at h
  dsimp only at h
  split_ifs at h
  · cases h
  · obtain ⟨option, hoption, hselected⟩ := Option.map_eq_some_iff.mp h
    cases hselected
    exact ⟨option, List.mem_of_find?_eq_some hoption, rfl⟩

/-- The scored ids are those of the options that were embedded. -/
theorem scoreOptions_ids {replyVector : llm.Vector} {options : List ClarificationOption}
    {scored : List (llm.Score × String)} (h : scoreOptions llm replyVector options = .ok scored) :
    scored.map Prod.snd = options.map (·.id) := by
  induction options generalizing scored with
  | nil =>
    cases h
    rfl
  | cons option rest ih =>
    unfold scoreOptions at h
    obtain ⟨vector, -, h⟩ := bind_eq_ok_iff.mp h
    obtain ⟨tail, htail, h⟩ := bind_eq_ok_iff.mp h
    cases h
    rw [List.map_cons, List.map_cons, ih htail]

theorem resolveByEmbedding_offered
    (h : resolveByEmbedding llm reply payload = .ok (some (.selectedOption optionId))) :
    Offers payload optionId := by
  unfold resolveByEmbedding at h
  split_ifs at h
  · cases h
  obtain ⟨replyVector, -, h⟩ := bind_eq_ok_iff.mp h
  obtain ⟨scored, hscored, h⟩ := bind_eq_ok_iff.mp h
  split at h
  · cases h
  · rename_i bestScore bestId rest hsorted
    dsimp only at h
    split_ifs at h
    · cases h
      have hbest : (bestScore, optionId) ∈ scored := by
        have hperm := List.mergeSort_perm scored fun left right => llm.le right.1 left.1
        rw [← hperm.mem_iff, hsorted]
        exact List.mem_cons_self
      have hid : optionId ∈ scored.map Prod.snd := List.mem_map.mpr ⟨_, hbest, rfl⟩
      rw [scoreOptions_ids hscored] at hid
      obtain ⟨option, hoption, rfl⟩ := List.mem_map.mp hid
      exact ⟨option, (List.mem_filter.mp hoption).1, rfl⟩
    · cases h

/-- A resolved option is offered, unless the model's own reply named it. -/
theorem resolve_offered (h : resolve llm reply payload = .ok (.selectedOption optionId)) :
    Offers payload optionId ∨
      llm.resolveClarification reply payload = .ok (.selectedOption optionId) := by
  unfold resolve at h
  split at h
  · rename_i outcome hexact
    obtain rfl := Except.ok.inj h
    exact Or.inl (resolveExact_offered hexact)
  · obtain ⟨embedded, hembedded, h⟩ := bind_eq_ok_iff.mp h
    split at h
    · obtain rfl := Except.ok.inj h
      exact Or.inl (resolveByEmbedding_offered hembedded)
    · exact Or.inr h

end ClarificationResolver

namespace SemanticTurn

variable {turn : SemanticTurn}

/-- The model resolves replies to options of the pending question. -/
def ModelPicksOffered (turn : SemanticTurn) : Prop :=
  ∀ llm ∈ turn.llm, ∀ payload ∈ turn.context.pendingClarification, ∀ optionId,
    llm.resolveClarification turn.resolveText payload = .ok (.selectedOption optionId) →
      Offers payload optionId

/-- What a call may execute: a survivor of the gate, an option of the pending question, or
the relationship lookup for the client of one of its entity options. -/
inductive OfferedCall (turn : SemanticTurn) : String → AssistantIntent → Prop
  | survivor {intent : AssistantIntent} {item : Evidence} (h : item ∈ turn.survivors intent) :
      OfferedCall turn item.capabilityId intent
  | option {payload : ClarificationPayload} {optionId : String} {intent : AssistantIntent}
      (hpending : turn.context.pendingClarification = some payload)
      (hkind : payload.kind ≠ .selectEntity) (hoffered : Offers payload optionId) :
      OfferedCall turn optionId intent
  | client {payload : ClarificationPayload} {optionId : String} {clientId : ℤ}
      (hpending : turn.context.pendingClarification = some payload)
      (hkind : payload.kind = .selectEntity) (hoffered : Offers payload optionId)
      (hclient : clientOfOption optionId = some clientId) :
      OfferedCall turn CLIENT_RELATIONSHIP_CAPABILITY (turn.clientIntent payload clientId)

/-- A call executes retrieved evidence or an option of the pending question. -/
def PicksOffered (turn : SemanticTurn) : Prop :=
  ∀ capabilityId called, turn.completeSemanticRoute = .execute capabilityId called →
    (∃ intent, ∃ item ∈ turn.survivors intent, item.capabilityId = capabilityId) ∨
      ∃ payload, turn.context.pendingClarification = some payload ∧ Offers payload capabilityId

theorem candidateIds_mem {evidence : List Evidence} {alternatives : List String} {id : String}
    (h : id ∈ candidateIds evidence alternatives) :
    ∃ item ∈ evidence, item.capabilityId = id := by
  unfold candidateIds at h
  split_ifs at h
  · obtain ⟨item, hitem, rfl⟩ := List.mem_map.mp h
    exact ⟨item, List.mem_of_mem_take hitem, rfl⟩
  · obtain ⟨item, hitem, hid⟩ := List.any_eq_true.mp (List.mem_filter.mp h).2
    exact ⟨item, hitem, of_decide_eq_true hid⟩

theorem clarifyRetrievalCandidates_execute {intent called : AssistantIntent}
    {evidence : List Evidence} {alternatives : List String} {capabilityId : String}
    (h : turn.clarifyRetrievalCandidates intent evidence alternatives =
      .execute capabilityId called) :
    called = intent ∧ ∃ item ∈ evidence, item.capabilityId = capabilityId := by
  unfold clarifyRetrievalCandidates at h
  split at h
  · split at h
    · rename_i selected defaults hplanned
      obtain ⟨rfl, rfl⟩ := TurnOutcome.execute.inj h
      unfold plannedClarification at hplanned
      dsimp only at hplanned
      split at hplanned
      · cases hplanned
      · rename_i planned plannedDefaults hplan
        obtain ⟨rfl, -⟩ := ClarificationPlanResult.complete.inj hplanned
        exact ⟨rfl, candidateIds_mem (ClarificationPlanner.plan_complete hplan)⟩
    · cases h
  · cases h

theorem routeByEvidence_execute {intent called : AssistantIntent} {capabilityId : String}
    (h : turn.routeByEvidence intent = .execute capabilityId called) :
    OfferedCall turn capabilityId called := by
  have hsurvivor : called = intent ∧
      ∃ item ∈ turn.survivors intent, item.capabilityId = capabilityId := by
    unfold routeByEvidence at h
    dsimp only at h
    split at h
    · split at h
      · rename_i selected hselected
        obtain ⟨rfl, rfl⟩ := TurnOutcome.execute.inj h
        obtain ⟨item, hitem, hid⟩ := List.any_eq_true.mp (Option.filter_eq_some_iff.mp hselected).2
        exact ⟨rfl, item, hitem, of_decide_eq_true hid⟩
      · exact clarifyRetrievalCandidates_execute h
    · exact clarifyRetrievalCandidates_execute h
    · cases h
    · cases h
  obtain ⟨rfl, item, hitem, rfl⟩ := hsurvivor
  exact .survivor hitem

/-- A resolved option that is offered leads to an offered call. -/
theorem continueWith_execute {payload : ClarificationPayload} {outcome : ClarificationOutcome}
    {capabilityId : String} {called : AssistantIntent}
    (hpending : turn.context.pendingClarification = some payload)
    (hoffered : ∀ optionId, outcome = .selectedOption optionId → Offers payload optionId)
    (h : turn.continueWith payload outcome = .execute capabilityId called) :
    OfferedCall turn capabilityId called := by
  unfold continueWith at h
  split at h
  · rename_i optionId
    have hoption := hoffered optionId rfl
    split_ifs at h with _ hkind
    · split at h
      · rename_i clientId hclient
        obtain ⟨rfl, rfl⟩ := TurnOutcome.execute.inj h
        exact .client hpending hkind hoption hclient
      · cases h
    · obtain ⟨rfl, rfl⟩ := TurnOutcome.execute.inj h
      exact .option hpending hkind hoption
  · cases h
  · cases h

theorem resolvedReply_eq_some {intent : AssistantIntent} {payload : ClarificationPayload}
    {outcome : ClarificationOutcome} (h : turn.resolvedReply intent = some (payload, outcome)) :
    turn.context.pendingClarification = some payload ∧ ∃ llm, turn.llm = some llm ∧
      ClarificationResolver.resolve llm turn.resolveText payload = .ok outcome := by
  unfold resolvedReply at h
  split at h
  · rename_i pending llm _ hpending hllm
    split at h
    · rename_i resolved hresolved
      obtain ⟨rfl, rfl⟩ := Prod.mk.inj (Option.some.inj h)
      exact ⟨hpending, llm, hllm, hresolved⟩
    · cases h
  · cases h

/-- A routed reply that is resolved continues with what it was resolved to. -/
theorem completeSemanticRoute_reply {routed intent : AssistantIntent} {llm : LanguageModel}
    {payload : ClarificationPayload} {outcome : ClarificationOutcome}
    (hroute : turn.route = .ok routed)
    (hkind : turn.reader.mergeInto turn.input.sourceMessage routed = intent ∧
      intent.intent = .clarificationReply)
    (hpending : turn.context.pendingClarification = some payload) (hllm : turn.llm = some llm)
    (hresolve : ClarificationResolver.resolve llm turn.resolveText payload = .ok outcome) :
    turn.completeSemanticRoute = turn.continueWith payload outcome := by
  obtain ⟨rfl, hreply⟩ := hkind
  simp only [completeSemanticRoute, hroute, resolvedReply, hreply, hpending, hllm, hresolve]

/-- The runtime executes what was offered while the model resolves replies to what was
offered. -/
theorem execute_offered (hmodel : turn.ModelPicksOffered) {capabilityId : String}
    {called : AssistantIntent}
    (h : turn.completeSemanticRoute = .execute capabilityId called) :
    OfferedCall turn capabilityId called := by
  unfold completeSemanticRoute at h
  split at h
  · cases h
  · dsimp only at h
    split at h
    · rename_i payload outcome hresolved
      obtain ⟨hpending, llm, hllm, hresolve⟩ := resolvedReply_eq_some hresolved
      apply continueWith_execute hpending _ h
      rintro optionId rfl
      obtain hoffered | hchosen := ClarificationResolver.resolve_offered hresolve
      · exact hoffered
      · exact hmodel llm hllm payload hpending optionId hchosen
    · unfold routeByIntent at h
      split at h
      · cases h
      · cases h
      · cases h
      · exact routeByEvidence_execute h

end SemanticTurn

/-! ### A reply the model resolves -/

namespace RepliedTurn

def report : ClarificationOption := ⟨"list_offices", "Offices", none, []⟩

def client : ClarificationOption := ⟨"client:7", "Rahma Jaya", some "Jakarta", []⟩

def asked (kind : ClarificationKind) (option : ClarificationOption) : ClarificationPayload :=
  ⟨CLARIFICATION_VERSION_1, 1, 1, kind, "Which one?", [option], [], 1, none, true, false,
    none, none, none, none⟩

/-- A model that is never sure of an embedding and resolves every reply to one id. -/
def model (resolved : String) : LanguageModel where
  Vector := Unit
  Score := ℕ
  embed _ := .ok ()
  cosine _ _ := 0
  zero := 0
  le left right := decide (left ≤ right)
  confident _ _ := false
  resolveClarification _ _ := .ok (.selectedOption resolved)

def reply : AssistantIntent :=
  ⟨.clarificationReply, .unknown, ⟨.unknown, .unknown, .unknown, .unknown, .unknown⟩, "", [],
    AssistantConstraints.empty, none⟩

/-- The turn that answers `message` to the payload, without any retrieval result. -/
def turn (payload : ClarificationPayload) (message resolved : String) : SemanticTurn where
  toLowercase := Text.asciiLower
  toUppercase c := String.singleton c
  reader := ⟨fun _ => none, fun _ intent => intent⟩
  context := ⟨none, [], some payload, .obj [], []⟩
  input := ⟨message, message, none, []⟩
  llm := some (model resolved)
  catalog := none
  route := .ok reply
  priorExtraction := none
  retrieved _ := .ok []
  rerank _ _ := ⟨.unsupported, none, []⟩
  payloadId := 2

/-- With one option the embeddings decide nothing, so the model's own reply is taken. -/
theorem resolve_model (kind : ClarificationKind) (resolved : String) :
    ClarificationResolver.resolve (model resolved) "the second one" (asked kind report) =
      .ok (.selectedOption resolved) := by
  have hexact : ClarificationResolver.resolveExact "the second one" (asked kind report) = none := by
    cases kind <;> decide
  have hscored : ClarificationResolver.resolveByEmbedding (model resolved) "the second one"
      (asked kind report) = .ok none := by
    simp [ClarificationResolver.resolveByEmbedding, ClarificationResolver.scoreOptions, asked,
      report, model, OTHER_CLARIFICATION_OPTION_ID]
  rw [ClarificationResolver.resolve, hexact, hscored]
  rfl

/-- What the model names is executed. -/
theorem turn_execute {resolved : String} (hother : resolved ≠ OTHER_CLARIFICATION_OPTION_ID) :
    (turn (asked .selectOption report) "the second one" resolved).completeSemanticRoute =
      .execute resolved (intentFromSource ⟨none, [], some (asked .selectOption report), .obj [], []⟩
        ⟨fun _ => none, fun _ intent => intent⟩ (asked .selectOption report)) := by
  have hroute : (turn (asked .selectOption report) "the second one" resolved).route =
      .ok reply := rfl
  have hllm : (turn (asked .selectOption report) "the second one" resolved).llm =
      some (model resolved) := rfl
  have hresolve := resolve_model .selectOption resolved
  have hcontinued := SemanticTurn.completeSemanticRoute_reply hroute ⟨rfl, rfl⟩ rfl hllm hresolve
  rw [hcontinued]
  exact if_neg hother

/-- The model names a capability nobody offered, or the user names a client: either way
a capability is executed that is no option of the question and was not retrieved. -/
theorem unoffered_capability_executed :
    ¬ (turn (asked .selectOption report) "the second one" "drop_clients").PicksOffered ∧
      ¬ (turn (asked .selectEntity client) "Rahma Jaya" "client:7").PicksOffered := by
  constructor
  · intro hpicks
    obtain ⟨_, item, hitem, -⟩ | ⟨payload, hpending, option, hoption, hid⟩ :=
      hpicks "drop_clients" _ (turn_execute (by decide))
    · cases hitem
    · obtain rfl := Option.some.inj hpending
      obtain rfl := List.mem_singleton.mp hoption
      exact absurd hid (by decide)
  · intro hpicks
    obtain ⟨_, item, hitem, -⟩ | ⟨payload, hpending, option, hoption, hid⟩ :=
      hpicks SemanticTurn.CLIENT_RELATIONSHIP_CAPABILITY _ rfl
    · cases hitem
    · obtain rfl := Option.some.inj hpending
      obtain rfl := List.mem_singleton.mp hoption
      exact absurd hid (by decide)

/-- The model names the option that was offered. -/
theorem execute_offered_report :
    ∃ called, (turn (asked .selectOption report) "the second one" "list_offices").OfferedCall
      "list_offices" called := by
  refine ⟨_, SemanticTurn.execute_offered ?_ (turn_execute (by decide))⟩
  rintro llm hllm payload hpending optionId hresolved
  obtain rfl := Option.some.inj hllm
  obtain rfl := Option.some.inj hpending
  cases hresolved
  exact ⟨report, List.mem_singleton_self report, rfl⟩

end RepliedTurn

end FineractReports.Execution
