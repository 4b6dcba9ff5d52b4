import FineractReports.Library.DistinctKeys
import FineractReports.Workflow.NodeExecutor
import FineractReports.Workflow.Response

/-!
# The clients a disambiguation offers

Both builders of entity options go through the first row of each client. The one for a
resolver makes an option of every such row; the one for a lookup leaves a client out whose
first row has no name to show.
-/

namespace FineractReports.Workflow

open Execution Presentation

def rowClientId (row : Json) : Option ℤ := (row.get? "client_id").bind Json.asI64?

def displayName (row : Json) : Option String := (row.get? "display_name").bind Json.asStr?

/-- The names a row shows, under the column of a lookup or of a resolver. -/
def rowNames (row : Json) : List String :=
  (displayName row).toList ++ ((row.get? "client_display_name").bind Json.asStr?).toList

/-- The distinct client ids of the rows in the order of their first occurrence. -/
def distinctClients (rows : List Json) : List ℤ := firstsBy id (rows.filterMap rowClientId)

def clientReference (clientId : ℤ) : String := "client:" ++ toString clientId

/-- The label of a client whose name may not be shown. -/
def neutralLabel (clientId : ℤ) : String := "Client " ++ toString clientId

/-- The rows with a client id, each beside it. -/
def identifiedRows (rows : List Json) : List (ℤ × Json) :=
  rows.filterMap fun row => (rowClientId row).map fun clientId => (clientId, row)

/-- The option of a client's first row, when there is a name to show. -/
def lookupOption (canViewPii : Bool) (entry : ℤ × Json) : Option ClarificationOption :=
  (clientLabel entry.2 entry.1 canViewPii).map fun label =>
    ⟨clientReference entry.1, label, some (clientDescription entry.2), []⟩

section Builders

variable {rows : List Json} {seen : List ℤ} {canViewPii : Bool}

theorem identifiedRows_none {row : Json} (h : rowClientId row = none) :
    identifiedRows (row :: rows) = identifiedRows rows := by
  rw [identifiedRows, List.filterMap_cons, h]
  rfl

theorem identifiedRows_some {row : Json} {clientId : ℤ} (h : rowClientId row = some clientId) :
    identifiedRows (row :: rows) = (clientId, row) :: identifiedRows rows := by
  rw [identifiedRows, List.filterMap_cons, h]
  rfl

theorem clientEntityOptions_eq : clientEntityOptions canViewPii rows seen =
    (firstsFrom Prod.fst seen (identifiedRows rows)).filterMap (lookupOption canViewPii) := by
  induction rows generalizing seen with
  | nil => rfl
  | cons row rest ih =>
    cases hclient : rowClientId row with
    | none =>
      have hnone : (row.get? "client_id").bind Json.asI64? = none := hclient
      rw [clientEntityOptions, hnone, identifiedRows_none hclient]
      exact ih
    | some clientId =>
      have hsome : (row.get? "client_id").bind Json.asI64? = some clientId := hclient
      rw [clientEntityOptions, hsome, identifiedRows_some hclient, firstsFrom]
      dsimp only
      split_ifs with hseen
      · exact ih
      · rw [List.filterMap_cons, ih]
        cases hlabel : clientLabel row clientId canViewPii <;> simp [lookupOption, hlabel,
          clientReference]

theorem candidateOptions_eq : candidateOptions canViewPii rows seen =
    (firstsFrom Prod.fst seen (identifiedRows rows)).map fun entry =>
      candidateOption entry.2 entry.1 canViewPii := by
  induction rows generalizing seen with
  | nil => rfl
  | cons row rest ih =>
    cases hclient : rowClientId row with
    | none =>
      have hnone : (row.get? "client_id").bind Json.asI64? = none := hclient
      rw [candidateOptions, hnone, identifiedRows_none hclient]
      exact ih
    | some clientId =>
      have hsome : (row.get? "client_id").bind Json.asI64? = some clientId := hclient
      rw [candidateOptions, hsome, identifiedRows_some hclient, firstsFrom]
      dsimp only
      split_ifs with hseen
      · exact ih
      · rw [List.map_cons, ih]

theorem distinctClients_eq (rows : List Json) :
    (firstsBy Prod.fst (identifiedRows rows)).map Prod.fst = distinctClients rows := by
  have hids : (identifiedRows rows).map Prod.fst = rows.filterMap rowClientId := by
    rw [identifiedRows, List.map_filterMap]
    congr 1
    funext row
    cases rowClientId row <;> rfl
  rw [firstsBy, map_firstsFrom, hids, distinctClients, firstsBy]

/-- Every client is offered by a resolver. -/
theorem candidateOptions_ids (canViewPii : Bool) (rows : List Json) :
    (candidateOptions canViewPii rows []).map (·.id) =
      (distinctClients rows).map clientReference := by
  rw [candidateOptions_eq, ← distinctClients_eq, List.map_map, List.map_map]
  rfl

/-- A lookup offers those whose first rows have a label. -/
theorem clientEntityOptions_ids (canViewPii : Bool) (rows : List Json) :
    (clientEntityOptions canViewPii rows []).map (·.id) =
        (distinctClients rows).map clientReference ↔
      ∀ entry ∈ firstsBy Prod.fst (identifiedRows rows),
        (lookupOption canViewPii entry).isSome = true := by
  rw [clientEntityOptions_eq, ← distinctClients_eq, ← firstsBy]
  constructor
  · intro hids
    have hlength := congrArg List.length hids
    simp only [List.length_map] at hlength
    exact List.filterMap_length_eq_length.mp hlength
  · intro hall
    rw [List.map_filterMap, List.map_map]
    apply List.filterMap_eq_map_iff_forall_eq_some.mpr
    intro entry hentry
    obtain ⟨option, hoption⟩ := Option.isSome_iff_exists.mp (hall entry hentry)
    obtain ⟨label, -, rfl⟩ := Option.map_eq_some_iff.mp hoption
    rw [hoption]
    rfl

theorem lookupOption_isSome (entry : ℤ × Json) : (lookupOption canViewPii entry).isSome = true ↔
    (canViewPii = true → (displayName entry.2).isSome = true) := by
  rw [lookupOption, Option.isSome_map, clientLabel]
  split_ifs with hpii
  · simp [hpii, displayName]
  · simp [hpii]

/-- Without personal data the labels are those of the ids. -/
theorem clientEntityOptions_labels (rows : List Json) :
    (clientEntityOptions false rows []).map (·.label) =
      (distinctClients rows).map neutralLabel := by
  rw [clientEntityOptions_eq, ← distinctClients_eq, ← firstsBy, List.map_filterMap, List.map_map]
  apply List.filterMap_eq_map_iff_forall_eq_some.mpr
  intro entry hentry
  rfl

theorem candidateOptions_labels (rows : List Json) :
    (candidateOptions false rows []).map (·.label) = (distinctClients rows).map neutralLabel := by
  rw [candidateOptions_eq, ← distinctClients_eq, List.map_map, List.map_map]
  rfl

theorem find?_identifiedRows (clientId : ℤ) :
    ((identifiedRows rows).find? fun entry => entry.1 = clientId) =
      (rows.find? fun row => rowClientId row = some clientId).map fun row => (clientId, row) := by
  induction rows with
  | nil => rfl
  | cons row rest ih =>
    cases hclient : rowClientId row with
    | none =>
      rw [identifiedRows_none hclient, ih, List.find?_cons]
      simp [hclient]
    | some other =>
      rw [identifiedRows_some hclient, List.find?_cons, List.find?_cons, ih]
      by_cases hsame : other = clientId
      · subst hsame
        simp [hclient]
      · simp [hclient, hsame]

/-- The entries that are walked are the clients with their first rows. -/
theorem mem_firstRows {entry : ℤ × Json} : entry ∈ firstsBy Prod.fst (identifiedRows rows) ↔
    (rows.find? fun row => rowClientId row = some entry.1) = some entry.2 := by
  rw [mem_firstsBy, find?_identifiedRows]
  obtain ⟨clientId, row⟩ := entry
  simp

end Builders

/-- The candidate rows of a resolver's completed run. -/
def resolvedRows (runs : List WorkflowNodeRun) (source : NodeId) : Option (List Json) :=
  ((completedRun runs source).bind (·.outputJson)).bind outputRows

/-- What a disambiguation over the rows promises: every distinct client is offered, in the order
of the rows and whether or not names may be shown; two clients or more are asked about; and a
label that may not show names holds none of them. -/
structure OffersEveryClient (rows : List Json) : Prop where
  lookup (canViewPii : Bool) : (clientEntityOptions canViewPii rows []).map (·.id) =
    (distinctClients rows).map clientReference
  resolver (runs : List WorkflowNodeRun) (source : NodeId) (canViewPii : Bool) :
    resolvedRows runs source = some rows →
      (resolverEntityOptions runs source canViewPii).map (·.id) =
        (distinctClients rows).map clientReference
  asks (decimals : DecimalNumbers) (showJson : Json → String) (catalog : KnowledgeCatalog)
    (tables : JobTables) (workflowId : Uuid) (capabilityId : String)
    (sourceIntent : SourceIntentSnapshot) (plan : ExecutionPlan) (policy : PolicyDecision)
    (payloadId : Uuid) :
    (terminalOutput (tables.nodeRunsOf workflowId)).bind outputRows = some rows →
      isClientLookup catalog capabilityId = true → 2 ≤ (distinctClients rows).length →
        ∃ payload, workflowResponse decimals showJson catalog .completed tables workflowId
            capabilityId sourceIntent plan policy payloadId = .ok (.clarification payload) ∧
          payload.kind = .selectEntity ∧
          payload.options.map (·.id) = (distinctClients rows).map clientReference
  hidesNames : ∀ option ∈ clientEntityOptions false rows [], ∀ row ∈ rows,
    ∀ name ∈ rowNames row, Text.contains option.label name = false
  resolverHidesNames (runs : List WorkflowNodeRun) (source : NodeId) :
    resolvedRows runs source = some rows → ∀ option ∈ resolverEntityOptions runs source false,
      ∀ row ∈ rows, ∀ name ∈ rowNames row, Text.contains option.label name = false

/-- The first row of every client has a name to show. -/
def FirstRowsNamed (rows : List Json) : Prop :=
  ∀ clientId row, (rows.find? fun row => rowClientId row = some clientId) = some row →
    (displayName row).isSome = true

/-- No name of the rows is a part of a neutral label. -/
def NamesApart (rows : List Json) : Prop :=
  ∀ clientId ∈ distinctClients rows, ∀ row ∈ rows, ∀ name ∈ rowNames row,
    Text.contains (neutralLabel clientId) name = false

section Offers

variable {rows : List Json}

theorem resolverEntityOptions_eq {runs : List WorkflowNodeRun} {source : NodeId}
    (canViewPii : Bool) (h : resolvedRows runs source = some rows) :
    resolverEntityOptions runs source canViewPii = candidateOptions canViewPii rows [] := by
  have hrows : ((completedRun runs source).bind (·.outputJson)).bind outputRows = some rows := h
  rw [resolverEntityOptions, hrows]

theorem clientEntityOptions_ids_iff : (∀ canViewPii,
    (clientEntityOptions canViewPii rows []).map (·.id) =
      (distinctClients rows).map clientReference) ↔ FirstRowsNamed rows := by
  simp only [clientEntityOptions_ids, lookupOption_isSome, mem_firstRows]
  constructor
  · intro h clientId row hfirst
    exact h true (clientId, row) hfirst rfl
  · intro h canViewPii entry hfirst _
    exact h entry.1 entry.2 hfirst

theorem labels_apart {options : List ClarificationOption} (h : NamesApart rows)
    (hlabels : options.map (·.label) = (distinctClients rows).map neutralLabel) :
    ∀ option ∈ options, ∀ row ∈ rows, ∀ name ∈ rowNames row,
      Text.contains option.label name = false := by
  intro option hoption row hrow name hname
  have hlabel : option.label ∈ (distinctClients rows).map neutralLabel :=
    hlabels ▸ List.mem_map_of_mem hoption
  obtain ⟨clientId, hclient, hneutral⟩ := List.mem_map.mp hlabel
  rw [← hneutral]
  exact h clientId hclient row hrow name hname

theorem apart_of_labels {options : List ClarificationOption}
    (hlabels : options.map (·.label) = (distinctClients rows).map neutralLabel)
    (h : ∀ option ∈ options, ∀ row ∈ rows, ∀ name ∈ rowNames row,
      Text.contains option.label name = false) : NamesApart rows := by
  intro clientId hclient row hrow name hname
  have hlabel : neutralLabel clientId ∈ options.map (·.label) :=
    hlabels ▸ List.mem_map_of_mem hclient
  obtain ⟨option, hoption, hneutral⟩ := List.mem_map.mp hlabel
  rw [← hneutral]
  exact h option hoption row hrow name hname

/-- The rows a lookup's response reads are those of the terminal output. -/
theorem toolResult_rows {output : Json} (h : outputRows output = some rows) :
    (toolResultFromExecution [] ((output.get? "untrusted_tool_output").getD .null)).rows =
      rows := by
  obtain ⟨wrapped, hwrapped, hrows⟩ := Option.bind_eq_some_iff.mp h
  obtain ⟨result, hresult, hmember⟩ := Option.bind_eq_some_iff.mp hwrapped
  simp [toolResultFromExecution, hresult, hmember, hrows]

theorem asks_of_named (hnamed : FirstRowsNamed rows) {decimals : DecimalNumbers}
    {showJson : Json → String} {catalog : KnowledgeCatalog} {tables : JobTables}
    {workflowId : Uuid} {capabilityId : String} {sourceIntent : SourceIntentSnapshot}
    {plan : ExecutionPlan} {policy : PolicyDecision} {payloadId : Uuid}
    (hrows : (terminalOutput (tables.nodeRunsOf workflowId)).bind outputRows = some rows)
    (hlookup : isClientLookup catalog capabilityId = true)
    (hmany : 2 ≤ (distinctClients rows).length) :
    ∃ payload, workflowResponse decimals showJson catalog .completed tables workflowId
        capabilityId sourceIntent plan policy payloadId = .ok (.clarification payload) ∧
      payload.kind = .selectEntity ∧
      payload.options.map (·.id) = (distinctClients rows).map clientReference := by
  obtain ⟨output, houtput, hread⟩ := Option.bind_eq_some_iff.mp hrows
  have hids := clientEntityOptions_ids_iff.mpr hnamed policy.canViewPii
  have hlength := congrArg List.length hids
  rw [List.length_map, List.length_map] at hlength
  refine ⟨entityClarification payloadId (clientEntityOptions policy.canViewPii rows [])
    sourceIntent, ?_, rfl, hids⟩
  have hanswer : completedResponse decimals showJson catalog capabilityId sourceIntent plan policy
      payloadId output = .clarification (entityClarification payloadId
        (clientEntityOptions policy.canViewPii rows []) sourceIntent) := by
    unfold completedResponse
    dsimp only
    rw [if_pos hlookup, toolResult_rows hread, if_pos (by omega)]
  rw [workflowResponse, houtput, ← hanswer]
  rfl

/-- A disambiguation keeps what it promises exactly when every client's first row has a name to
show and no name is a part of a neutral label. -/
theorem offersEveryClient_iff (rows : List Json) :
    OffersEveryClient rows ↔ FirstRowsNamed rows ∧ NamesApart rows := by
  constructor
  · intro h
    exact ⟨clientEntityOptions_ids_iff.mp h.lookup,
      apart_of_labels (clientEntityOptions_labels rows) h.hidesNames⟩
  · rintro ⟨hnamed, hapart⟩
    refine ⟨clientEntityOptions_ids_iff.mpr hnamed, ?_, ?_,
      labels_apart hapart (clientEntityOptions_labels rows), ?_⟩
    · intro runs source canViewPii hrows
      rw [resolverEntityOptions_eq canViewPii hrows]
      exact candidateOptions_ids canViewPii rows
    · intro decimals showJson catalog tables workflowId capabilityId sourceIntent plan policy
        payloadId hrows hlookup hmany
      exact asks_of_named hnamed hrows hlookup hmany
    · intro runs source hrows
      rw [resolverEntityOptions_eq false hrows]
      exact labels_apart hapart (candidateOptions_labels rows)

/-- Two clients, the first of them without a name. -/
def unnamedRows : List Json :=
  [.obj [("client_id", .int 7), ("display_name", .null)],
    .obj [("client_id", .int 8), ("display_name", .str "Alex Doe")]]

/-- Only the second one is offered, so that nothing is asked. -/
theorem unnamed_client_left_out : ¬ OffersEveryClient unnamedRows := by
  intro h
  have hids := h.lookup true
  revert hids
  decide +kernel

end Offers

end FineractReports.Workflow
