import FineractReports.Execution.SemanticRoute

/-!
# The reranker

The language model picks among the first candidates. What it is sent is a function of the request
and of these candidates; `structured` is its reply to the first and to the second attempt.
-/

namespace FineractReports.Retrieval

def MAX_CANDIDATES : ℕ := 12

section Prompt

/-- A text of the metadata, empty when there is none. -/
def metadataText (item : Evidence) (key : String) : Json :=
  .str (((item.metadata.get? key).bind Json.asStr?).getD "")

def metadataList (item : Evidence) (key : String) : Json := (item.metadata.get? key).getD (.arr [])

def candidatePrompt (item : Evidence) : Json :=
  .obj [("description", metadataText item "description"),
    ("examples", metadataList item "examples"), ("id", .str item.capabilityId),
    ("output_mode", metadataText item "output_mode"),
    ("supported_intents", metadataList item "supported_intents"), ("title", .str item.title),
    ("unsupported_intents", metadataList item "unsupported_intents"),
    ("user_filters", metadataList item "user_filters")]

def rerankerPrompt (query : String) (candidates : List Evidence) : Json :=
  .obj [("candidates", .arr ((candidates.take MAX_CANDIDATES).map candidatePrompt)),
    ("query", .str query)]

end Prompt

namespace RerankerDecision

def unsupported : RerankerDecision := ⟨.unsupported, none, []⟩

def failedOperational : RerankerDecision := ⟨.failedOperational, none, []⟩

end RerankerDecision

/-- A second attempt follows a reply that cannot be read. -/
def rerank (structured : Option (ℕ → Json → Except String RerankerDecision)) (query : String)
    (candidates : List Evidence) : RerankerDecision :=
  if candidates = [] then RerankerDecision.unsupported
  else
    match structured with
    | none => RerankerDecision.failedOperational
    | some structured =>
      let prompt := rerankerPrompt query candidates
      match structured 0 prompt with
      | .ok decision => decision
      | .error _ =>
        match structured 1 prompt with
        | .ok decision => decision
        | .error _ => RerankerDecision.failedOperational

end FineractReports.Retrieval
