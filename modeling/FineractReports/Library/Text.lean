import Mathlib.Data.List.TakeWhile
import Mathlib.Tactic

/-!
# Text

Operations on strings by way of their characters: trimming by the Unicode
property White_Space, substring tests, ASCII case and decimal numerals.
-/

namespace FineractReports.Text

def isWhitespace (c : Char) : Bool :=
  let n := c.toNat
  decide (9 ≤ n ∧ n ≤ 13) || decide (8192 ≤ n ∧ n ≤ 8202) ||
    n ∈ [32, 133, 160, 5760, 8232, 8233, 8239, 8287, 12288]

def trimChars (chars : List Char) : List Char :=
  ((chars.dropWhile isWhitespace).reverse.dropWhile isWhitespace).reverse

def trim (text : String) : String := String.ofList (trimChars text.toList)

def isBlank (text : String) : Bool := text.toList.all isWhitespace

def containsChars (part : List Char) : List Char → Bool
  | [] => part.isEmpty
  | c :: rest => part.isPrefixOf (c :: rest) || containsChars part rest

def contains (text part : String) : Bool := containsChars part.toList text.toList

def startsWith (text part : String) : Bool := part.toList.isPrefixOf text.toList

def endsWith (text part : String) : Bool := part.toList.isSuffixOf text.toList

def asciiUpper (text : String) : String := String.ofList (text.toList.map Char.toUpper)

def asciiLower (text : String) : String := String.ofList (text.toList.map Char.toLower)

def eqIgnoreAsciiCase (a b : String) : Bool := asciiLower a = asciiLower b

def stripPrefix (text part : String) : Option String :=
  if startsWith text part then some (String.ofList (text.toList.drop part.toList.length)) else none

/-- Replaces every occurrence of a nonempty pattern, from left to right; `skip`
characters of the last occurrence are still to be passed over. -/
def replaceChars (pattern replacement : List Char) : ℕ → List Char → List Char
  | _, [] => []
  | skip + 1, _ :: rest => replaceChars pattern replacement skip rest
  | 0, c :: rest =>
    if pattern.isPrefixOf (c :: rest) then
      replacement ++ replaceChars pattern replacement (pattern.length - 1) rest
    else c :: replaceChars pattern replacement 0 rest

def replace (text pattern replacement : String) : String :=
  String.ofList (replaceChars pattern.toList replacement.toList 0 text.toList)

/-- What follows the first occurrence of a pattern. -/
def afterFirst (pattern : List Char) : List Char → Option (List Char)
  | [] => if pattern = [] then some [] else none
  | c :: rest =>
    if pattern.isPrefixOf (c :: rest) then some ((c :: rest).drop pattern.length)
    else afterFirst pattern rest

/-- The nonempty pieces between the separators. -/
def tokenChars (isSeparator : Char → Bool) (text : List Char) : List (List Char) :=
  (text.splitOnP isSeparator).filter fun token => token ≠ []

/-- The pieces between the separators, empty ones included. -/
def split (isSeparator : Char → Bool) (text : String) : List String :=
  (text.toList.splitOnP isSeparator).map String.ofList

def tokens (isSeparator : Char → Bool) (text : String) : List String :=
  (tokenChars isSeparator text.toList).map String.ofList

/-- The value of a nonempty string of decimal digits. -/
def parseDigits (digits : List Char) : Option ℕ :=
  if digits ≠ [] ∧ digits.all Char.isDigit = true then
    some (digits.foldl (fun value c => 10 * value + (c.toNat - 48)) 0)
  else none

/-- A decimal numeral with an optional sign, in the range of `i64`. -/
def parseI64 (text : String) : Option ℤ :=
  let signed : Option ℤ :=
    match text.toList with
    | '-' :: digits => (parseDigits digits).map fun n => -(n : ℤ)
    | '+' :: digits => (parseDigits digits).map fun n => (n : ℤ)
    | digits => (parseDigits digits).map fun n => (n : ℤ)
  signed.filter fun n => decide (-2 ^ 63 ≤ n ∧ n < 2 ^ 63)

theorem isUpper_eq (c : Char) : c.isUpper = decide ('A'.val ≤ c.val ∧ c.val ≤ 'Z'.val) := rfl

theorem isLower_eq (c : Char) :
    c.isLower = (decide ('a'.val ≤ c.val) && decide (c.val ≤ 'z'.val)) := rfl

theorem isAlpha_eq (c : Char) : c.isAlpha = (c.isUpper || c.isLower) := rfl

theorem containsChars_iff {part text : List Char} :
    containsChars part text = true ↔ part <:+: text := by
  induction text with
  | nil => simp [containsChars, List.isEmpty_iff]
  | cons c rest ih =>
    rw [containsChars, Bool.or_eq_true, ih, List.infix_cons_iff, List.isPrefixOf_iff_prefix]

end FineractReports.Text
