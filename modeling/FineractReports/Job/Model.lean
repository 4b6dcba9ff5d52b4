import FineractReports.Assistant.CanonicalFacts
import FineractReports.Assistant.Clarification

/-!
# Job requests

The answer to a clarification as the service hands it to the repository.
-/

namespace FineractReports.Job

structure ValidatedClarificationSubmission where
  clarificationId : Option Uuid
  clarificationRevision : Option ℕ
  selectedOptionId : Option String
  sourceMessage : String
  displayMessage : String
  answers : List (String × Json)
  constraintPatch : ConstraintPatch
deriving DecidableEq

end FineractReports.Job
