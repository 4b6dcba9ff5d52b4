import Mathlib.Data.List.Basic

/-!
# Hexadecimal texts

Two lower case digits a byte. Digits of either case are read, in pairs.
-/

namespace FineractReports.Hex

def digit (value : ℕ) : Char := "0123456789abcdef".toList.getD value '0'

def digitValue? (c : Char) : Option ℕ :=
  if '0' ≤ c ∧ c ≤ '9' then some (c.toNat - 48)
  else if 'a' ≤ c ∧ c ≤ 'f' then some (c.toNat - 87)
  else if 'A' ≤ c ∧ c ≤ 'F' then some (c.toNat - 55)
  else none

def encodeByte (byte : UInt8) : List Char := [digit (byte.toNat / 16), digit (byte.toNat % 16)]

def encodeBytes (bytes : List UInt8) : List Char := bytes.flatMap encodeByte

def decodeBytes : List Char → Option (List UInt8)
  | [] => some []
  | [_] => none
  | high :: low :: rest => do
    let high ← digitValue? high
    let low ← digitValue? low
    let bytes ← decodeBytes rest
    pure (UInt8.ofNat (high * 16 + low) :: bytes)

/-- The bytes of a text in UTF-8. -/
def encode (text : String) : String := String.ofList (encodeBytes text.toUTF8.data.toList)

/-- The text whose bytes are given, when they are the bytes of a text. -/
def decode (text : String) : Option String :=
  (decodeBytes text.toList).bind fun bytes => String.fromUTF8? ⟨bytes.toArray⟩

theorem digitValue?_digit {value : ℕ} (h : value < 16) :
    digitValue? (digit value) = some value := by
  have hall : ∀ value : Fin 16, digitValue? (digit value) = some value.val := by decide
  exact hall ⟨value, h⟩

@[simp] theorem decodeBytes_encodeBytes (bytes : List UInt8) :
    decodeBytes (encodeBytes bytes) = some bytes := by
  induction bytes with
  | nil => rfl
  | cons byte rest ih =>
    have hlt : byte.toNat < 256 := byte.toNat_lt
    have hhigh : digitValue? (digit (byte.toNat / 16)) = some (byte.toNat / 16) :=
      digitValue?_digit (by omega)
    have hlow : digitValue? (digit (byte.toNat % 16)) = some (byte.toNat % 16) :=
      digitValue?_digit (by omega)
    have hbyte : UInt8.ofNat (byte.toNat / 16 * 16 + byte.toNat % 16) = byte := by
      rw [Nat.div_add_mod', UInt8.ofNat_toNat]
    have hcons : encodeBytes (byte :: rest) =
        digit (byte.toNat / 16) :: digit (byte.toNat % 16) :: encodeBytes rest := rfl
    simp only [hcons, decodeBytes, hhigh, hlow, ih, Option.bind_eq_bind, Option.bind_some, hbyte]
    rfl

theorem fromUTF8?_toUTF8 (text : String) : String.fromUTF8? text.toUTF8 = some text := by
  have hvalid : text.toUTF8.IsValidUTF8 := text.isValidUTF8
  rw [String.fromUTF8?, dif_pos hvalid]
  rfl

@[simp] theorem decode_encode (text : String) : decode (encode text) = some text := by
  simp only [decode, encode, String.toList_ofList, decodeBytes_encodeBytes, Option.bind_some,
    Array.toArray_toList]
  exact fromUTF8?_toUTF8 text

end FineractReports.Hex
