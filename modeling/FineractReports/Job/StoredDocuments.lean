import FineractReports.Assistant.IdentifierIntake
import FineractReports.Assistant.MessageFacts
import FineractReports.Job.ClarificationResponse
import FineractReports.Job.Repository

/-!
# What a request stores

The texts and documents that `create` and `respond` write for one request: the columns of the
job and of its message, the checkpoint, the event and the runtime record of a resumed workflow.
Audit rows hold ids and fixed words only and are left out. `uuidText` writes an id.
-/

namespace FineractReports

namespace Json

mutual

/-- The keys, strings and numbers of a document, as they are written. -/
def texts : Json → List String
  | null => []
  | bool _ => []
  | int value => [toString value]
  | float text => [text]
  | str value => [value]
  | arr items => itemTexts items
  | obj members => memberTexts members

def itemTexts : List Json → List String
  | [] => []
  | item :: rest => texts item ++ itemTexts rest

def memberTexts : List (String × Json) → List String
  | [] => []
  | (key, value) :: rest => key :: (texts value ++ memberTexts rest)

end

end Json

namespace Job

open Workflow
open IdentifierIntake (identifierIntake)

/-! ### Documents -/

def limitModeName : LimitMode → String
  | .all => "all"
  | .default => "default"
  | .limit => "limit"
  | .topN => "top_n"

def listPatchJson (patch : ListPatch ℤ) : Json :=
  match patch with
  | .replace values => .obj [("operation", .str "replace"), ("values", .arr (values.map .int))]
  | .add values => .obj [("operation", .str "add"), ("values", .arr (values.map .int))]
  | .remove values => .obj [("operation", .str "remove"), ("values", .arr (values.map .int))]

def taggedJson (type : String) (value : Json) : Json := .obj [("type", .str type), ("value", value)]

def typedFactJson : TypedFactValue → Json
  | .clear => .obj [("type", .str "clear")]
  | .limitMode mode => taggedJson "limit_mode" (.str (limitModeName mode))
  | .integer value => taggedJson "integer" (.int value)
  | .date text => taggedJson "date" (.str text)
  | .currencyCode text => taggedJson "currency_code" (.str text)
  | .metric text => taggedJson "metric" (.str text)
  | .decimal text => taggedJson "decimal" (.str text)
  | .domain domain => taggedJson "domain" (.str (Extraction.domainName domain))
  | .personName text => taggedJson "person_name" (.str text)
  | .clientId value => taggedJson "client_id" (.int value)
  | .office text => taggedJson "office" (.str text)
  | .product text => taggedJson "product" (.str text)
  | .chargeType text => taggedJson "charge_type" (.str text)
  | .accountNumber text => taggedJson "account_number" (.str text)
  | .idList patch => taggedJson "id_list" (listPatchJson patch)

def constraintFieldName : ConstraintField → String
  | .limitMode => "limit_mode"
  | .limitValue => "limit_value"
  | .fromDate => "from_date"
  | .toDate => "to_date"
  | .currencyCode => "currency_code"
  | .metric => "metric"
  | .transactionAmount => "transaction_amount"
  | .domain => "domain"
  | .personName => "person_name"
  | .clientId => "client_id"
  | .office => "office"
  | .product => "product"
  | .productIds => "product_ids"
  | .officeIds => "office_ids"
  | .chargeType => "charge_type"
  | .accountNumber => "account_number"

def constraintPatchJson (patch : ConstraintPatch) : Json :=
  .obj (patch.entries.map fun entry => (constraintFieldName entry.1, typedFactJson entry.2))

section Documents

variable (uuidText : Uuid → String)

def optionalUuid (id : Option Uuid) : Json :=
  match id with
  | some id => .str (uuidText id)
  | none => .null

def optionalNumber (value : Option ℕ) : Json :=
  match value with
  | some value => .int value
  | none => .null

def clientJson (client : PrincipalContext) (legacyApiKeyId : Option Uuid) : Json :=
  .obj [("user_id", .str (uuidText client.userId)), ("role", .str client.role),
    ("capability_ids", .arr (client.capabilityIds.map .str)),
    ("office_ids", .arr (client.officeIds.map .int)), ("can_view_pii", .bool client.canViewPii),
    ("legacy_api_key_id", optionalUuid uuidText legacyApiKeyId)]

def stateJson (client : Json) (message : String) : Json :=
  .obj [("client", client), ("input", .obj [("message", .str message)]),
    ("classification", .obj [("runtime", .str "semantic_assistant_graph")]),
    ("execution_plan", .obj []), ("policy_decision", .obj [])]

/-- The message and the state of the job, the content and the metadata of its message. -/
def createDocuments (client : Json) (message : String) : List Json :=
  [.str message, stateJson client message, .str message, .obj []]

def responseMetadata (submission : ValidatedClarificationSubmission) : Json :=
  .obj [("type", .str "clarification_response"),
    ("clarification_id", optionalUuid uuidText submission.clarificationId),
    ("clarification_revision", optionalNumber submission.clarificationRevision),
    ("selected_option_id", JobRepository.optionalText submission.selectedOptionId),
    ("answers", .obj submission.answers),
    ("constraint_patch", constraintPatchJson submission.constraintPatch),
    ("source_message", .str submission.sourceMessage)]

/-- The content and the metadata of the response, the step to resume from, the checkpoint and
the event. -/
def respondDocuments (currentStep : String) (submission : ValidatedClarificationSubmission)
    (messageId : Uuid) : List Json :=
  [.str submission.displayMessage, responseMetadata uuidText submission, .str currentStep,
    .obj [("message_id", .str (uuidText messageId)), ("resume_from_step", .str currentStep),
      ("selected_option_id", JobRepository.optionalText submission.selectedOptionId)],
    .obj [("status", .str "queued"), ("current_step", .str "queued"),
      ("message_id", .str (uuidText messageId)),
      ("selected_option_id", JobRepository.optionalText submission.selectedOptionId)]]

/-- `state_json.workflow_runtime` of a resumed job. -/
def resumedRuntime (request : WorkflowResumeRequest) : Json :=
  .obj [("selected_value", request.selectedValue),
    ("resumed_from_node_id", .str request.nodeId.value)]

/-- The runtime record, the current node, the checkpoint and the event. -/
def resumeDocuments (request : WorkflowResumeRequest) : List Json :=
  [resumedRuntime request, .str request.nodeId.value,
    .obj [("workflow_id", .str (uuidText request.workflowId)),
      ("node_id", .str request.nodeId.value)],
    .obj [("workflow_id", .str (uuidText request.workflowId)),
      ("node_id", .str request.nodeId.value)]]

end Documents

/-! ### Requests -/

/-- A call of `create`: the projected principal, whether the session can be used and whether
the limit on identifier lookups lets another one through. -/
structure CreateCall where
  client : PrincipalContext
  legacyApiKeyId : Option Uuid
  message : String
  sessionFound : Bool
  lookupAllowed : Bool

/-- A call of `respond`: `pending` is the clarification the service reads first, `messageId` the
id of the message it inserts. -/
structure RespondCall where
  jobId : Uuid
  client : PrincipalContext
  request : ResponseRequest
  workflowId : Option Uuid
  nodeId : Option String
  workflowRevision : Option ℕ
  pending : Option ClarificationPayload
  lookupAllowed : Bool
  messageId : Uuid

inductive RespondToChatJobOutcome where
  | inserted | workflowResumed | notFound | notActive | stale
  | validation (fields : List String)
deriving DecidableEq

namespace RespondCall

variable (call : RespondCall)

def workflowFieldsPresent : Bool :=
  call.workflowId.isSome || call.nodeId.isSome || call.workflowRevision.isSome

/-- The option, else the answers, else the message. -/
def selectedValue : Json :=
  match call.request.optionId with
  | some optionId => .str optionId
  | none =>
    if call.request.answers ≠ [] then .obj call.request.answers
    else match call.request.message with
      | some message => .str message
      | none => .null

/-- The resume request, or the field that is missing. -/
def workflowRequest : Except String WorkflowResumeRequest :=
  match call.workflowId, call.nodeId, call.workflowRevision, call.request.clarificationId with
  | some workflowId, some nodeId, some workflowRevision, some clarificationId => do
    let nodeId ← okOr (NodeId.new nodeId) "node_id"
    pure ⟨call.jobId, call.client.userId, workflowId, nodeId, clarificationId, workflowRevision,
      call.selectedValue⟩
  | _, _, _, _ => .error "workflow_identity"

end RespondCall

/-- Legacy clients answer without a clarification. -/
def legacyPayload : ClarificationPayload where
  version := 0
  id := 0
  revision := 0
  kind := .freeText
  question := ""
  options := []
  fields := []
  attempt := 0
  sourceIntent := none
  allowFreeText := true
  isMissingExecutionParameters := false
  workflowId := none
  nodeId := none
  resumeNodeId := none
  entityKind := none

/-- What the call answers: the payload it reads, for a legacy client none. -/
def RespondCall.payload (call : RespondCall) : Option ClarificationPayload :=
  if call.request.structured = true then call.pending else some legacyPayload

/-- The message is shown and kept without the identifier it labels. -/
def scrubbed (submission : ValidatedClarificationSubmission) (source shown : IdentifierIntake) :
    ValidatedClarificationSubmission :=
  { submission with
    sourceMessage := source.semanticMessage, displayMessage := shown.semanticMessage }

namespace JobService

variable (uuidText : Uuid → String)

/-- The documents a request writes. -/
def create (call : CreateCall) : Except String (List Json) := do
  let intake ← identifierIntake call.message
  failIf (intake.sensitiveIdentifier ≠ none ∧ call.lookupAllowed = false)
    "identifier_lookup_rate_limited"
  if call.sessionFound = false then pure []
  else pure (createDocuments (clientJson uuidText call.client call.legacyApiKeyId)
    intake.semanticMessage)

/-- A clarification is named by its id and its revision. -/
def missingIdentity (request : ResponseRequest) : Option String :=
  if request.structured = false then none
  else if request.clarificationId = none then some "clarification_id"
  else if request.clarificationRevision = none then some "clarification_revision"
  else none

def resume (tables : JobTables) (call : RespondCall) : RespondToChatJobOutcome × List Json :=
  match call.workflowRequest with
  | .error field => (.validation [field], [])
  | .ok request =>
    match (tables.resume request).1 with
    | .resumed => (.workflowResumed, resumeDocuments uuidText request)
    | .notFound => (.notFound, [])
    | .notWaiting => (.notActive, [])
    | .stale => (.stale, [])

def insertResponse (tables : JobTables) (call : RespondCall)
    (submission : ValidatedClarificationSubmission) :
    Except String (RespondToChatJobOutcome × List Json) := do
  let source ← identifierIntake submission.sourceMessage
  failIf (source.sensitiveIdentifier ≠ none ∧ call.lookupAllowed = false)
    "identifier_lookup_rate_limited"
  let shown ← identifierIntake submission.displayMessage
  let submission := scrubbed submission source shown
  match (JobRepository.respond tables call.jobId call.client.userId submission
    call.messageId).1 with
  | .inserted =>
    pure (.inserted, respondDocuments uuidText tables.currentStep submission call.messageId)
  | .notFound => pure (.notFound, [])
  | .notActive => pure (.notActive, [])
  | .stale => pure (.stale, [])

/-- The outcome, with the documents it writes. -/
def respond (parseDate : String → Option NaiveDate) (catalog : KnowledgeCatalog)
    (tables : JobTables) (call : RespondCall) :
    Except String (RespondToChatJobOutcome × List Json) :=
  match missingIdentity call.request with
  | some field => .ok (.validation [field], [])
  | none =>
    if call.workflowFieldsPresent = true then .ok (resume uuidText tables call)
    else if ¬ (tables.jobId = call.jobId ∧ tables.userId = call.client.userId ∧
        tables.sessionArchived = false) then .ok (.notFound, [])
    else match call.payload with
      | none => .ok (.notActive, [])
      | some payload =>
        match validateSubmission parseDate catalog payload call.client call.request with
        | .error error => .ok (.validation error.fields, [])
        | .ok submission => insertResponse uuidText tables call submission

end JobService

end Job

end FineractReports
