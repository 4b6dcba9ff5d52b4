import FineractReports.Assistant.Temporal

/-!
# Named entities

The names a message states: capitalised runs of tokens, each classified by what it names, and
lowercase names behind a word that announces them. The readers go through the tokens from left
to right; `before` are the tokens already passed, the nearest first.
-/

namespace FineractReports.Extraction

def words (message : String) : List String := Text.tokens (fun c => !isTokenChar c) message

def CURRENCY_CODES : List String := ["IDR", "USD", "EUR", "AED", "SAR"]

def extractCurrency (message : String) : Option String :=
  (Text.split (fun c => !c.isAlphanum) message).find? fun word => word ∈ CURRENCY_CODES

def NAME_ANCHORS : List String :=
  ["named", "name", "nama", "bernama", "client", "customer", "nasabah", "for"]

def LOWERCASE_NAME_ANCHORS : List String := ["named", "name", "nama", "bernama"]

def NAMING_ANCHORS : List String := LOWERCASE_NAME_ANCHORS

def LOCATIVE_ANCHORS : List String := ["pada", "di", "in", "at", "dari"]

def MAX_LOWERCASE_NAME_TOKENS : ℕ := 2

def NAME_STOP_WORDS : List String :=
  ["a", "ada", "all", "an", "and", "any", "apa", "are", "as", "at", "atau", "banyak", "berapa",
    "by", "dan", "dari", "dengan", "di", "each", "every", "her", "his", "how", "id", "ids", "in",
    "ini", "is", "itu", "jumlah", "kami", "ke", "kita", "many", "me", "much", "my", "no", "not",
    "of", "on", "only", "or", "our", "pada", "per", "punya", "saya", "semua", "siapa", "the",
    "their", "this", "tidak", "to", "total", "us", "was", "we", "were", "which", "who", "with",
    "yang", "yg"]

def OFFICE_WORDS : List String := ["office", "branch", "kantor", "cabang"]

def CHARGE_WORDS : List String := ["charge", "fee", "penalty", "biaya", "denda"]

def PRODUCT_WORDS : List String :=
  ["account", "product", "savings", "saving", "deposit", "tabungan", "rekening"]

inductive NamedEntityKind where
  | person | office | chargeType | product
deriving DecidableEq, Repr

def isCapitalised (token : String) : Bool := token.toList.head?.any Char.isUpper

/-- The characters of a message between two byte offsets. -/
def spanBetween (message : String) (start stop : ℕ) : List Char :=
  ((Utf8.sliceFrom message.toList start).bind fun rest => Utf8.sliceTo rest (stop - start)).getD []

/-- Something other than spaces stands between two tokens. -/
def separated (message : String) (stop next : ℕ) : Bool :=
  (spanBetween message stop next).any fun c => c ≠ ' '

def sentenceStart (message : String) (position : ℕ) : Bool :=
  ((spanBetween message 0 position).reverse.find? fun c => !Text.isWhitespace c).all fun c =>
    c = '.' ∨ c = '?' ∨ c = '!'

/-- What kind of thing a word introduces. -/
def anchorKind (word : String) : Option NamedEntityKind :=
  if word ∈ OFFICE_WORDS ∨ word ∈ LOCATIVE_ANCHORS then some .office
  else if word ∈ CHARGE_WORDS ∨ word ∈ ["type", "tipe", "jenis"] then some .chargeType
  else if word ∈ PRODUCT_WORDS then some .product
  else if word ∈ NAME_ANCHORS then some .person
  else none

/-- A word without the letters `s` at its end. -/
def singular (word : String) : String :=
  String.ofList (word.toList.reverse.dropWhile (fun c => c = 's')).reverse

def hasWord (lower : String) (list : List String) : Bool :=
  (Text.split (fun c => c = ' ') lower).any fun word => word ∈ list ∨ singular word ∈ list

/-- The kind of a domain noun within the phrase. -/
def phraseKind (phrase : String) : Option NamedEntityKind :=
  let lower := Text.asciiLower phrase
  if hasWord lower OFFICE_WORDS = true then some .office
  else if hasWord lower CHARGE_WORDS = true then some .chargeType
  else if hasWord lower PRODUCT_WORDS = true then some .product
  else none

/-- A month or a currency, which a locative introduces without naming a place. -/
def locativeRefuses (phrase : String) : Bool :=
  (monthNumber (Text.asciiLower phrase)).isSome ∨ phrase ∈ CURRENCY_CODES

def isNameWord (token : String) : Bool :=
  token.toList.any Char.isAlpha = true ∧
    token.toList.all (fun c => c.isAlpha || c = '-') = true ∧
    Text.asciiLower token ∉ NAME_STOP_WORDS ∧ Text.asciiLower token ∉ LOWERCASE_NAME_ANCHORS

def joinWords (tokens : List Token) : String := " ".intercalate (tokens.map (·.text))

section Readers

variable (message : String)

/-- The kind the sentence was about before a naming anchor: that of the nearest word with one,
within the sentence. -/
def subjectKind : (before : List Token) → Option NamedEntityKind
  | [] => none
  | token :: rest =>
    let word := Text.asciiLower token.text
    match if word ∈ NAMING_ANCHORS then none else anchorKind word with
    | some kind => some kind
    | none => if sentenceStart message token.start = true then none else subjectKind rest

/-- What a phrase denotes; `anchor` is the word before it. -/
def resolveKind (before : List Token) (phrase anchor : String) : NamedEntityKind :=
  (((phraseKind phrase).or
    (if anchor ∈ NAMING_ANCHORS then subjectKind message before.tail else none)).or
    (anchorKind anchor)).getD .person

/-- The tokens that continue a capitalised run after `last`; a spaced hyphen between capitals
keeps it together. -/
def capitalisedRun (last : Token) : List Token → List Token
  | [] => []
  | next :: rest =>
    if isCapitalised next.text = true ∧ separated message last.stop next.start = false then
      next :: capitalisedRun next rest
    else match rest with
      | [] => []
      | second :: others =>
        if next.text = "-" ∧ isCapitalised second.text = true ∧
            separated message last.stop next.start = false ∧
            separated message next.stop second.start = false then
          next :: second :: capitalisedRun second others
        else []

/-- The entity of a capitalised run; one word alone needs an anchor. -/
def capitalisedEntity (before run : List Token) : Option (NamedEntityKind × String) := do
  let first ← run.head?
  let anchorToken ← before.head?
  if sentenceStart message first.start = true then none
  else
    let anchor := Text.asciiLower anchorToken.text
    let phrase := joinWords run
    if run.length = 1 ∧ (anchorKind anchor = none ∨
        anchor ∈ LOCATIVE_ANCHORS ∧ locativeRefuses phrase = true) then none
    else some (resolveKind message before phrase anchor, phrase)

/-- Up to `count` name words that follow `last`. -/
def nameWordsAfter : (count : ℕ) → (last : Token) → List Token → List Token
  | count + 1, last, next :: rest =>
    if separated message last.stop next.start = false ∧ isNameWord next.text = true then
      next :: nameWordsAfter count next rest
    else []
  | _, _, _ => []

/-- A person's name typed in lower case behind a naming word, and the number of its tokens
after the first. -/
def lowercaseNameRun (before : List Token) (token : Token) (rest : List Token) :
    Option (String × ℕ) := do
  let anchorToken ← before.head?
  let anchor := Text.asciiLower anchorToken.text
  if anchor ∉ LOWERCASE_NAME_ANCHORS ∨ sentenceStart message token.start = true ∨
      isNameWord token.text = false then none
  else
    let others := nameWordsAfter message (MAX_LOWERCASE_NAME_TOKENS - 1) token rest
    let phrase := joinWords (token :: others)
    if resolveKind message before phrase anchor = .person then some (phrase, others.length)
    else none

/-- A charge or a product named in lower case by a qualifier and a domain noun, `token`. -/
def lowercaseKindRun (before : List Token) (token : Token) (rest : List Token) :
    Option (NamedEntityKind × String) := do
  let head := Text.asciiLower token.text
  let kind ← if head ∈ CHARGE_WORDS then some .chargeType
    else if head ∈ PRODUCT_WORDS then some NamedEntityKind.product else none
  if rest.head?.any (fun next => isNameWord next.text) = true then none
  else
    let qualifier ← before.head?
    if isCapitalised qualifier.text = true ∨
        separated message qualifier.stop token.start = true ∨
        isNameWord qualifier.text = false ∨ (phraseKind qualifier.text).isSome = true then none
    else some (kind, qualifier.text ++ " " ++ token.text)

/-- `skip` tokens belong to the name read last. -/
def readEntities : (before : List Token) → (skip : ℕ) → List Token →
    List (NamedEntityKind × String)
  | _, _, [] => []
  | before, skip + 1, token :: rest => readEntities (token :: before) skip rest
  | before, 0, token :: rest =>
    if isCapitalised token.text = true then
      let others := capitalisedRun message token rest
      (capitalisedEntity message before (token :: others)).toList ++
        readEntities (token :: before) others.length rest
    else match lowercaseNameRun message before token rest with
      | some (phrase, skip) => (.person, phrase) :: readEntities (token :: before) skip rest
      | none =>
        (lowercaseKindRun message before token rest).toList ++
          readEntities (token :: before) 0 rest

def extractNamedEntities : List (NamedEntityKind × String) :=
  readEntities message [] 0 (tokensWithSpans message)

end Readers

def AMOUNT_ANCHORS : List String := ["amount", "jumlah", "sebesar"]

/-- The number of characters up to the end of the first occurrence of a word. -/
def endOfFirst (lower : List Char) (anchor : String) : Option ℕ :=
  (Text.afterFirst anchor.toList lower).map fun rest => lower.length - rest.length

/-- The first number after the first of the anchors, if it has a decimal point. -/
def extractTransactionAmount (message : String) : Option String := do
  let lower := message.toList.map Char.toLower
  let after ← (AMOUNT_ANCHORS.filterMap (endOfFirst lower)).min?
  let rest := (message.toList.drop after).dropWhile fun c => !c.isDigit
  if rest = [] then none
  else
    let digits := rest.takeWhile fun c => c.isDigit || c = '.'
    if '.' ∈ digits then some (String.ofList digits) else none

example : extractNamedEntities "find client named John Doe in Foo - Dubai Branch" =
    [(.person, "John Doe"), (.office, "Foo - Dubai Branch")] := by decide +kernel

end FineractReports.Extraction
