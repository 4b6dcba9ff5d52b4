import FineractReports.Execution.Clarification
import FineractReports.Job.Service
import FineractReports.Policy.Authorization

/-!
# Turns with a pending clarification

How the runtime reads the reply to a question it asked before. `MessageReader` stands
for the extractor of a message.
-/

namespace FineractReports

structure ContextMessage where
  role : String
  content : String
deriving DecidableEq, Repr

inductive ContextWarningCode where
  | sessionContextNearLimit | sessionContextExceeded
deriving DecidableEq, Repr

/-- What the runtime reads of a session's context. -/
structure ContextWindow where
  activeDomain : Option String
  recentMessages : List ContextMessage
  pendingClarification : Option ClarificationPayload
  clientScope : Json
  warnings : List ContextWarningCode
deriving DecidableEq

structure RuntimeUserInput where
  message : String
  sourceMessage : String
  selectedOptionId : Option String
  constraintPatch : ConstraintPatch
deriving DecidableEq

inductive ClarificationOutcome where
  | selectedOption (optionId : String)
  | refinedConstraints (constraints : Json)
  | newRequest (message : String)
  | freeFormOther (text : String)
  | cancelled
  | unresolved (reason : String)
deriving DecidableEq

/-- What the extractor records of a message, and how it merges it into an intent. -/
structure MessageReader where
  extract : String → Option DeterministicExtraction
  mergeInto : String → AssistantIntent → AssistantIntent

namespace Execution

/-- The scope of a principal as the context builder writes it. -/
def clientScope (principal : PrincipalContext) (activeDomain : Option String)
    (selectedEntities : Json) : Json :=
  .obj [("user_id", .int principal.userId), ("role", .str principal.role),
    ("legacy_api_key_id", .null), ("office_ids", .arr (principal.officeIds.map .int)),
    ("capabilities", .arr (principal.capabilityIds.map .str)),
    ("can_view_pii", .bool principal.canViewPii),
    ("active_domain", (activeDomain.map Json.str).getD .null),
    ("selected_entities", selectedEntities)]

section Context

variable (context : ContextWindow)

def allowedCapabilities : List String :=
  (((context.clientScope.get? "capabilities").bind Json.asArray?).getD []).filterMap Json.asStr?

def allowAllCapabilities : Bool :=
  match context.clientScope.get? "allow_all_capabilities" with
  | some (.bool value) => value
  | _ => false

def firstStandaloneLimit (content : String) : Option ℤ :=
  (Text.tokens (fun c => !c.isDigit) content).findSome? fun part =>
    (Text.parseI64 part).filter fun value => decide (1 ≤ value ∧ value ≤ 100)

/-- The latest limit in the user's own messages. -/
def pendingClarificationQuantity : Option Quantity :=
  ((context.recentMessages.reverse.filter fun message => message.role = "user").findSome?
    fun message => firstStandaloneLimit message.content).map .topN

def pendingClarificationIntent : AssistantIntent where
  intent := .clarificationReply
  domain :=
    match context.activeDomain with
    | some "savings" => .savings
    | some "client" => .client
    | some "organization" => .organization
    | _ => .unknown
  requestShape := ⟨.unknown, .unknown, .unknown, .unknown, .unknown⟩
  canonicalQueryEn := ""
  entities := []
  constraints :=
    { AssistantConstraints.empty with quantity := pendingClarificationQuantity context }
  source := none

/-- The intent the question was asked for, with what its prompt states. -/
def intentFromSource (reader : MessageReader) (payload : ClarificationPayload) : AssistantIntent :=
  match payload.sourceIntent with
  | none => pendingClarificationIntent context
  | some source =>
    let quantity :=
      match source.constraints.quantity with
      | none | some .default => pendingClarificationQuantity context
      | quantity => quantity
    reader.mergeInto source.prompt
      { intent := source.intent
        domain := source.domain
        requestShape := source.requestShape
        canonicalQueryEn := ""
        entities := source.entities
        constraints := { source.constraints with quantity := quantity }
        source := some source }

end Context

def MAX_CLARIFICATION_ATTEMPTS : ℕ := 3

def isOther (id : String) : Bool := Text.eqIgnoreAsciiCase id OTHER_CLARIFICATION_OPTION_ID

def isMeaningfulFreeText (message : String) : Bool :=
  let normalized := Text.asciiLower (Text.trim message)
  normalized ≠ "" ∧ normalized ≠ OTHER_CLARIFICATION_OPTION_ID ∧ normalized ≠ "other" ∧
    Text.startsWith normalized "let me describe" = false ∧
    Text.startsWith normalized "i'll describe" = false

/-- The client of an entity option. -/
def clientOfOption (optionId : String) : Option ℤ :=
  (Text.stripPrefix optionId "client:").bind Text.parseI64

namespace ClarificationResolver

def matchesOption (reply : String) (option : ClarificationOption) : Bool :=
  Text.eqIgnoreAsciiCase reply option.id || Text.eqIgnoreAsciiCase reply option.label

/-- A reply that names an option by its id or its label. -/
def resolveExact (reply : String) (payload : ClarificationPayload) : Option ClarificationOutcome :=
  let reply := Text.trim reply
  if isOther reply then some (.freeFormOther "")
  else (payload.options.find? (matchesOption reply)).map fun option => .selectedOption option.id

end ClarificationResolver

def clarificationCandidateAllowed (id : String) (payload : ClarificationPayload)
    (context : ContextWindow) : Bool :=
  if payload.options.any fun option => option.id = id then
    if payload.kind = .selectEntity then (clientOfOption id).isSome
    else if (context.clientScope.get? "allow_all_capabilities").isSome ∨
        (context.clientScope.get? "capabilities").isSome then
      allowAllCapabilities context ∨ id ∈ allowedCapabilities context
    else true
  else false

def unavailableOption : ClarificationOutcome := .unresolved "selected option is not available"

def resolveSelectedOption (id : String) (input : RuntimeUserInput) (payload : ClarificationPayload)
    (context : ContextWindow) : ClarificationOutcome :=
  if isOther id then
    if payload.options.any fun option => Text.eqIgnoreAsciiCase option.id id then
      if isMeaningfulFreeText input.sourceMessage then .newRequest input.sourceMessage
      else .freeFormOther ""
    else unavailableOption
  else if clarificationCandidateAllowed id payload context then .selectedOption id
  else unavailableOption

def resolvePendingClarification (input : RuntimeUserInput) (payload : ClarificationPayload)
    (context : ContextWindow) : Option ClarificationOutcome :=
  match input.selectedOptionId with
  | some id => some (resolveSelectedOption id input payload context)
  | none => ClarificationResolver.resolveExact input.sourceMessage payload

/-- The only capability of a question for missing parameters. -/
def continuationCapability (payload : ClarificationPayload) : Option String :=
  if payload.isMissingExecutionParameters then
    match payload.options.filter fun option => option.id ≠ OTHER_CLARIFICATION_OPTION_ID with
    | [option] => some option.id
    | _ => none
  else none

/-- Where a turn goes: to the execution of a capability for an intent, or to its end. -/
inductive TurnOutcome where
  | execute (capabilityId : String) (intent : AssistantIntent)
  | ended (terminal : Job.TerminalState) (reason : String)
deriving DecidableEq

/-- A reply that continues the only capability of the pending question. -/
def continuedCapability (input : RuntimeUserInput) (context : ContextWindow) :
    Option (ClarificationPayload × String) := do
  let payload ← context.pendingClarification
  if payload.isMissingExecutionParameters = true ∧ input.selectedOptionId.all isOther = true then
    (continuationCapability payload).map fun capabilityId => (payload, capabilityId)
  else none

/-- The intent of a continued question: its source, the reply's own words, the patch. -/
def continuedIntent (reader : MessageReader) (input : RuntimeUserInput) (context : ContextWindow)
    (payload : ClarificationPayload) : AssistantIntent :=
  applyConstraintPatch
    (reader.mergeInto input.sourceMessage (intentFromSource context reader payload))
    input.constraintPatch

/-- One turn. A pending question is answered first; `route` is where the turn goes when
the reply does not answer it. -/
def runWithRouter (reader : MessageReader) (context : ContextWindow) (input : RuntimeUserInput)
    (route : TurnOutcome) : TurnOutcome :=
  if .sessionContextExceeded ∈ context.warnings then
    .ended .contextWindowExceeded "context_window_exceeded"
  else match continuedCapability input context with
    | some (payload, capabilityId) =>
      .execute capabilityId (continuedIntent reader input context payload)
    | none =>
      match context.pendingClarification with
      | none => route
      | some payload =>
        match resolvePendingClarification input payload context with
        | some (.selectedOption optionId) =>
          .execute optionId (continuedIntent reader input context payload)
        | some (.freeFormOther _) => .ended .waitingForUserInput "clarification_other_selected"
        | some (.unresolved _) =>
          .ended .waitingForUserInput (if payload.attempt ≥ MAX_CLARIFICATION_ATTEMPTS then
            "clarification_recovery" else "clarification_unresolved")
        | _ => route

theorem allowedCapabilities_clientScope {context : ContextWindow} {principal : PrincipalContext}
    {activeDomain : Option String} {selectedEntities : Json}
    (h : context.clientScope = clientScope principal activeDomain selectedEntities) :
    allowedCapabilities context = principal.capabilityIds := by
  unfold allowedCapabilities
  rw [h]
  have hstr : ∀ ids : List String, (ids.map Json.str).filterMap Json.asStr? = ids := by
    intro ids
    rw [List.filterMap_map]
    exact List.filterMap_some
  simpa [clientScope, Json.get?, Assoc.get?, Json.asArray?] using hstr principal.capabilityIds

end Execution

end FineractReports
