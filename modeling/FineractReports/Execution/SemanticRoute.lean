import FineractReports.Execution.PendingClarification
import FineractReports.Retrieval.Sufficiency

/-!
# The semantic route

A routed turn: the reply to a pending question as the language model resolves it, else
retrieval, the sufficiency gate and the reranker. The replies of the model are
parameters; which capability they can make the runtime execute is what matters here.
-/

namespace FineractReports

/-- The language model as the resolver uses it. Vectors and scores are floating-point
numbers in the source; `confident` compares the best score with the next one. -/
structure LanguageModel where
  Vector : Type
  Score : Type
  embed : String → Except String Vector
  cosine : Vector → Vector → Score
  zero : Score
  le : Score → Score → Bool
  confident : Score → Score → Bool
  resolveClarification : String → ClarificationPayload → Except String ClarificationOutcome

inductive RerankerVerdict where
  | select | clarify | unsupported | failedOperational
deriving DecidableEq, Repr

structure RerankerDecision where
  decision : RerankerVerdict
  capabilityId : Option String
  alternatives : List String
deriving DecidableEq, Repr

namespace Execution

namespace ClarificationResolver

variable (llm : LanguageModel)

def optionText (option : ClarificationOption) : String :=
  match option.description with
  | some description => option.label ++ "\n" ++ description
  | none => option.label

def scoreOptions (replyVector : llm.Vector) :
    List ClarificationOption → Except String (List (llm.Score × String))
  | [] => .ok []
  | option :: rest => do
    let optionVector ← llm.embed (optionText option)
    let scored ← scoreOptions replyVector rest
    pure ((llm.cosine replyVector optionVector, option.id) :: scored)

/-- The option closest to the reply, when it is close and ahead of the next one. -/
def resolveByEmbedding (reply : String) (payload : ClarificationPayload) :
    Except String (Option ClarificationOutcome) :=
  if payload.options = [] then .ok none
  else do
    let replyVector ← llm.embed reply
    let scored ← scoreOptions llm replyVector
      (payload.options.filter fun option => option.id ≠ OTHER_CLARIFICATION_OPTION_ID)
    match scored.mergeSort fun left right => llm.le right.1 left.1 with
    | [] => pure none
    | (bestScore, bestId) :: rest =>
      let nextScore := (rest.head?.map Prod.fst).getD llm.zero
      pure (if llm.confident bestScore nextScore then some (.selectedOption bestId) else none)

def resolve (reply : String) (payload : ClarificationPayload) :
    Except String ClarificationOutcome :=
  match resolveExact reply payload with
  | some outcome => .ok outcome
  | none => do
    match ← resolveByEmbedding llm reply payload with
    | some outcome => pure outcome
    | none => llm.resolveClarification reply payload

end ClarificationResolver

/-- One routed turn, with the replies of the services it calls. -/
structure SemanticTurn where
  toLowercase : String → String
  toUppercase : Char → String
  reader : MessageReader
  context : ContextWindow
  input : RuntimeUserInput
  llm : Option LanguageModel
  catalog : Option KnowledgeCatalog
  route : Except String AssistantIntent
  priorExtraction : Option DeterministicExtraction
  retrieved : AssistantIntent → Except String (List Evidence)
  rerank : AssistantIntent → List Evidence → RerankerDecision
  payloadId : Uuid

namespace SemanticTurn

variable (turn : SemanticTurn)

/-- The extraction in the job memory once the message has been read. -/
def extraction : Option DeterministicExtraction :=
  (turn.reader.extract turn.input.sourceMessage).or turn.priorExtraction

/-- The evidence the gate lets through; without a catalog nothing is judged. -/
def survivors (intent : AssistantIntent) : List Evidence :=
  let evidence :=
    match turn.retrieved intent with
    | .ok evidence => evidence
    | .error _ => []
  match turn.catalog with
  | some catalog => Retrieval.dropInsufficient catalog
      (Retrieval.expressedFilters turn.toLowercase turn.input.message (some intent)
        turn.extraction) evidence
  | none => evidence

def sourceIntentSnapshot (intent : AssistantIntent) (prompt : String) : SourceIntentSnapshot where
  prompt := prompt
  normalizedPrompt := some (turn.toLowercase (Text.trim prompt))
  intent := intent.intent
  domain := intent.domain
  requestShape := intent.requestShape
  entities := intent.entities
  constraints := intent.constraints

def candidateIds (evidence : List Evidence) (alternatives : List String) : List String :=
  if alternatives = [] then (evidence.take 3).map (·.capabilityId)
  else alternatives.filter fun id => evidence.any fun item => item.capabilityId = id

/-- Asks which candidate is meant, or goes on when one of them needs no answer. -/
def clarifyRetrievalCandidates (intent : AssistantIntent) (evidence : List Evidence)
    (alternatives : List String) : TurnOutcome :=
  match turn.catalog with
  | some catalog =>
    match plannedClarification turn.toUppercase catalog (candidateIds evidence alternatives)
      (some intent) turn.input.constraintPatch
      (some (turn.sourceIntentSnapshot intent turn.input.sourceMessage)) none turn.payloadId with
    | .complete capabilityId _ => .execute capabilityId intent
    | .clarify _ _ => .ended .waitingForUserInput "weak_retrieval_evidence"
  | none => .ended .waitingForUserInput "weak_retrieval_evidence"

/-- Retrieval, the gate and the reranker's verdict. -/
def routeByEvidence (intent : AssistantIntent) : TurnOutcome :=
  let evidence := turn.survivors intent
  let decision := turn.rerank intent evidence
  match decision.decision with
  | .select =>
    match decision.capabilityId.filter fun id =>
        evidence.any fun item => item.capabilityId = id with
    | some capabilityId => .execute capabilityId intent
    | none => turn.clarifyRetrievalCandidates intent evidence decision.alternatives
  | .clarify => turn.clarifyRetrievalCandidates intent evidence decision.alternatives
  | .unsupported => .ended .unsupported "unsupported_in_domain"
  | .failedOperational => .ended .failedOperational "reranker_failed_operational"

def routeByIntent (intent : AssistantIntent) : TurnOutcome :=
  match intent.intent with
  | .greeting => .ended .completed "greeting"
  | .help => .ended .completed "help"
  | .unsafeRequest => .ended .blockedByPolicy "unsafe_request"
  | _ => turn.routeByEvidence intent

def CLIENT_RELATIONSHIP_CAPABILITY : String := "client_relationship_by_id"

def clientEntity (clientId : ℤ) : AssistantEntity :=
  ⟨.clientId, toString clientId, some (toString clientId)⟩

/-- The intent of the pending question, for the client that was chosen. -/
def clientIntent (payload : ClarificationPayload) (clientId : ℤ) : AssistantIntent :=
  let intent := intentFromSource turn.context turn.reader payload
  { intent with entities := intent.entities ++ [clientEntity clientId] }

/-- What a resolved reply leads to. -/
def continueWith (payload : ClarificationPayload) : ClarificationOutcome → TurnOutcome
  | .selectedOption optionId =>
    if optionId = OTHER_CLARIFICATION_OPTION_ID then
      .ended .waitingForUserInput "clarification_other_selected"
    else if payload.kind = .selectEntity then
      match clientOfOption optionId with
      | some clientId =>
        .execute CLIENT_RELATIONSHIP_CAPABILITY (turn.clientIntent payload clientId)
      | none => .ended .failedOperational "invalid_client_selection"
    else .execute optionId (intentFromSource turn.context turn.reader payload)
  | .freeFormOther _ => .ended .waitingForUserInput "clarification_other_selected"
  | _ => .ended .waitingForUserInput "clarification_unresolved"

def resolveText : String := turn.input.selectedOptionId.getD turn.input.sourceMessage

/-- The reply to the pending question as the model resolves it, in a turn that was routed
as a reply. An error of the model is only noted. -/
def resolvedReply (intent : AssistantIntent) :
    Option (ClarificationPayload × ClarificationOutcome) :=
  match intent.intent, turn.context.pendingClarification, turn.llm with
  | .clarificationReply, some payload, some llm =>
    match ClarificationResolver.resolve llm turn.resolveText payload with
    | .ok outcome => some (payload, outcome)
    | .error _ => none
  | _, _, _ => none

def completeSemanticRoute : TurnOutcome :=
  match turn.route with
  | .error _ => .ended .failedOperational "intent_route_failed"
  | .ok routed =>
    let intent := turn.reader.mergeInto turn.input.sourceMessage routed
    match turn.resolvedReply intent with
    | some (payload, outcome) => turn.continueWith payload outcome
    | none => turn.routeByIntent intent

end SemanticTurn

end Execution

end FineractReports
