import FineractReports.Library.Utf8

/-!
# Identifier intake

An account number in a message, found by the words before it and replaced by a placeholder.
Offsets are counted in bytes; an error is a panic.
-/

namespace FineractReports.IdentifierIntake

inductive SensitiveIdentifierKind where
  | savingsAccountNumber | loanNumber
deriving DecidableEq, Repr

structure SensitiveIdentifier where
  kind : SensitiveIdentifierKind
  value : String
deriving DecidableEq, Repr

end IdentifierIntake

structure IdentifierIntake where
  semanticMessage : String
  sensitiveIdentifier : Option IdentifierIntake.SensitiveIdentifier
deriving DecidableEq, Repr

namespace IdentifierIntake

open Utf8

structure Marker where
  words : String
  kind : SensitiveIdentifierKind
  placeholder : String
deriving DecidableEq, Repr

def markers : List Marker :=
  [⟨"savings account number", .savingsAccountNumber, "[SAVINGS_ACCOUNT_NUMBER]"⟩,
    ⟨"nomor rekening tabungan", .savingsAccountNumber, "[SAVINGS_ACCOUNT_NUMBER]"⟩,
    ⟨"account number", .savingsAccountNumber, "[SAVINGS_ACCOUNT_NUMBER]"⟩,
    ⟨"loan account number", .loanNumber, "[LOAN_NUMBER]"⟩,
    ⟨"loan number", .loanNumber, "[LOAN_NUMBER]"⟩,
    ⟨"nomor pinjaman", .loanNumber, "[LOAN_NUMBER]"⟩]

def isAsciiWhitespace (c : Char) : Bool := c ∈ [' ', '\t', '\n', Char.ofNat 12, '\r']

def isSeparator (c : Char) : Bool := isAsciiWhitespace c || c ∈ [':', '#']

/-- A slice of `str`, which panics off the boundaries of characters. -/
def slice (part : Option (List Char)) : Except String (List Char) :=
  okOr part "byte index is not a char boundary"

def wordEnds (c : Option Char) : Bool := c.any fun c => !c.isAlphanum

/-- Neither of the characters around a match is a letter or a digit. -/
def isBounded (message : List Char) (length start : ℕ) : Except String Bool := do
  let beforeOk ← if start = 0 then pure true else do
    let front ← slice (sliceTo message start)
    pure (wordEnds front.getLast?)
  let stop := start + length
  let afterOk ← if stop = byteLength message then pure true else do
    let back ← slice (sliceFrom message stop)
    pure (wordEnds back.head?)
  pure (beforeOk && afterOk)

def findMarker (message marker : List Char) : Except String (Option ℕ) :=
  firstWhere (matchIndices marker 0 0 message) (isBounded message (byteLength marker))

/-- The loop over the characters after a marker: the digits, and the end of the last one. -/
def scanDigits (position : ℕ) (normalized : List Char) (stop : ℕ) :
    List Char → List Char × ℕ
  | [] => (normalized, stop)
  | c :: rest =>
    if c.isDigit = true then
      scanDigits (position + c.utf8Size) (normalized ++ [c]) (position + c.utf8Size) rest
    else if c = '-' ∨ isAsciiWhitespace c = true then
      scanDigits (position + c.utf8Size) normalized stop rest
    else (normalized, stop)

def identifierSpan (message : List Char) (afterMarker : ℕ) : Option (ℕ × ℕ × List Char) := do
  let suffix ← sliceFrom message afterMarker
  let start := afterMarker + byteLength (suffix.takeWhile isSeparator)
  let candidate ← sliceFrom message start
  let (normalized, stop) := scanDigits start [] start candidate
  if byteLength normalized < 4 then none else some (start, stop, normalized)

/-- The loop over the markers. -/
def intakeBy (message : List Char) : List Marker → Except String IdentifierIntake
  | [] => .ok ⟨String.ofList message, none⟩
  | marker :: rest => do
    let found ← findMarker (message.map Char.toLower) marker.words.toList
    match found.bind fun start =>
        identifierSpan message (start + byteLength marker.words.toList) with
    | none => intakeBy message rest
    | some (start, stop, normalized) => do
      let front ← slice (sliceTo message start)
      let back ← slice (sliceFrom message stop)
      pure ⟨String.ofList (front ++ marker.placeholder.toList ++ back),
        some ⟨marker.kind, String.ofList normalized⟩⟩

def identifierIntake (message : String) : Except String IdentifierIntake :=
  intakeBy message.toList markers

example : identifierIntake "Who owns savings account number 0012-3456?" =
    .ok ⟨"Who owns savings account number [SAVINGS_ACCOUNT_NUMBER]?",
      some ⟨.savingsAccountNumber, "00123456"⟩⟩ := by
  decide +kernel

end IdentifierIntake

end FineractReports
