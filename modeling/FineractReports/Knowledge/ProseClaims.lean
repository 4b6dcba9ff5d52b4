import FineractReports.Knowledge.Model
import FineractReports.Library.Checks

/-!
# Prose claims

A word of a capability's prose that promises restricted rows has to be backed by
its query. `toLowercase` stands for the lower case of the Unicode tables.
-/

namespace FineractReports.ProseClaims

def RECENCY_WORDS : List String :=
  ["recent", "recently", "latest", "newest", "terbaru", "paling baru"]

def RANKING_WORDS : List String :=
  ["top ", "highest", "largest", "biggest", "terbesar", "tertinggi"]

def SAMPLING_WORDS : List String := ["random", "sample", "acak"]

def ORDERING_QUALIFIERS : List String :=
  ["order", "ordered", "sort", "sorted", "first", "urut", "diurutkan"]

def containsAny (text : List Char) (needles : List String) : Bool :=
  needles.any fun needle => Text.containsChars needle.toList text

/-- Blanks one field name, with underscores as blanks and as it is. -/
def withoutFieldName (text name : List Char) : List Char :=
  let humanized := Text.replaceChars ['_'] [' '] 0 name
  if humanized.all Text.isWhitespace then text
  else Text.replaceChars name [' '] 0 (Text.replaceChars humanized [' '] 0 text)

def withoutFieldNames (text : List Char) (query : QueryKnowledge) : List Char :=
  (query.parameters.map (·.name) ++ query.outputFields.map (·.name)).foldl
    (fun text name => withoutFieldName text name.toList) text

/-- A date bound the user supplies; the authorization boundary is none. -/
def restrictsByDate (query : QueryKnowledge) : Bool :=
  query.parameters.any fun parameter =>
    parameter.source ≠ some "authorized_scope" ∧
      (Text.contains parameter.name "date" = true ∨ Text.endsWith parameter.name "_start" = true)

section Lowercase

variable (toLowercase : String → String)

def ordersDescending (sql : String) : Bool :=
  Text.contains (toLowercase sql) "order by" && Text.contains (toLowercase sql) "desc"

def samplesRandomly (sql : String) : Bool := Text.contains (toLowercase sql) "random()"

def validateField (capability : CapabilityKnowledge) (query : QueryKnowledge) (sql : String)
    (fieldName : String) (value : String) : Except String Unit :=
  let text := (toLowercase value).toList
  if text.all Text.isWhitespace then .ok ()
  else do
    let text := withoutFieldNames text query
    let qualified := containsAny text ORDERING_QUALIFIERS
    let claim := "capability " ++ capability.id ++ " " ++ fieldName ++ " claims "
    failIf (containsAny text RECENCY_WORDS = true ∧ qualified = false ∧
        restrictsByDate query = false)
      (claim ++ "recency but query " ++ capability.queryId ++ " restricts no date: " ++
        "declare a date parameter, or say the rows are only ordered (e.g. \"newest first\")")
    failIf (containsAny text RANKING_WORDS = true ∧ qualified = false ∧
        ordersDescending toLowercase sql = false)
      (claim ++ "a ranking but query " ++ capability.queryId ++ " has no ORDER BY ... DESC")
    failIf (containsAny text SAMPLING_WORDS = true ∧ samplesRandomly toLowercase sql = false)
      (claim ++ "random sampling but query " ++ capability.queryId ++ " does not use random()")

def validateProseClaims (capability : CapabilityKnowledge) (query : QueryKnowledge)
    (sql : String) : Except String Unit := do
  forSome capability.displayName (validateField toLowercase capability query sql "display_name")
  forSome capability.description (validateField toLowercase capability query sql "description")

end Lowercase

end FineractReports.ProseClaims
