/-
  ChainQuery.Hex — bytes as hexadecimal text, two digits a byte.

  Writing uses lower case; reading takes either case. Reading looks at the UTF-8
  bytes of the text: an odd number of them is refused before any digit is looked
  at, and otherwise the first byte that is no digit is named with its position.

  Proved: what `encode` writes, `decode` reads back.
-/

import ChainQuery.Bytes
import ChainQuery.Text.Quoted

namespace ChainQuery

/-- The UTF-8 bytes of a text. -/
def Text.utf8 (s : String) : Bytes := s.toList.flatMap String.utf8EncodeChar

inductive HexError where
  | oddLength
  | badDigit (byte : UInt8) (position : Nat)
  deriving DecidableEq, Repr

/-- A byte that is no digit is shown as the character of the same number. -/
def HexError.message : HexError → String
  | .oddLength => "Odd number of digits"
  | .badDigit b i =>
    "Invalid character " ++ Text.quoteChar (Char.ofNat b.toNat) ++ " at position " ++ Nat.repr i

namespace Hex

def digit (n : Nat) : Char := Nat.digitChar n

/-- The two digits of a byte, the higher first. -/
def digits (b : UInt8) : List Char := [digit (b.toNat / 16), digit (b.toNat % 16)]

def encode (bs : Bytes) : String := String.ofList (bs.flatMap digits)

/-- The value of a digit given as an ASCII byte. -/
def value? (b : UInt8) : Option Nat :=
  if 48 ≤ b ∧ b ≤ 57 then some (b.toNat - 48)
  else if 97 ≤ b ∧ b ≤ 102 then some (b.toNat - 87)
  else if 65 ≤ b ∧ b ≤ 70 then some (b.toNat - 55)
  else none

/-- Reads digit pairs; `position` is where in the whole text the first pair stands. -/
def decodePairs (position : Nat) : Bytes → Except HexError Bytes
  | [] => .ok []
  | [_] => .error .oddLength
  | hi :: lo :: rest =>
    match value? hi, value? lo with
    | none, _ => .error (.badDigit hi position)
    | some _, none => .error (.badDigit lo (position + 1))
    | some h, some l => (decodePairs (position + 2) rest).map (UInt8.ofNat (16 * h + l) :: ·)

def decodeUtf8 (text : Bytes) : Except HexError Bytes :=
  if text.length % 2 = 0 then decodePairs 0 text else .error .oddLength

def decode (text : String) : Except HexError Bytes := decodeUtf8 (Text.utf8 text)

/-! ## Writing, then reading -/

/-- A digit is one ASCII byte, and reading it gives its value back. -/
theorem utf8_digit : ∀ n : Fin 16,
    String.utf8EncodeChar (digit n.1) = [UInt8.ofNat (digit n.1).toNat] ∧
      value? (UInt8.ofNat (digit n.1).toNat) = some n.1 := by
  decide

theorem decodePairs_digits (position : Nat) (bs : Bytes) :
    decodePairs position ((bs.flatMap digits).flatMap String.utf8EncodeChar) = .ok bs := by
  induction bs generalizing position with
  | nil => rfl
  | cons b bs ih =>
    have hb : b.toNat < 256 := b.toNat_lt
    obtain ⟨hhi, vhi⟩ := utf8_digit ⟨b.toNat / 16, by omega⟩
    obtain ⟨hlo, vlo⟩ := utf8_digit ⟨b.toNat % 16, by omega⟩
    simp only at hhi vhi hlo vlo
    have hbyte : UInt8.ofNat (16 * (b.toNat / 16) + b.toNat % 16) = b := by
      rw [Nat.div_add_mod, UInt8.ofNat_toNat]
    simp [digits, hhi, hlo, decodePairs, vhi, vlo, ih, hbyte, Except.map]

theorem length_utf8_digits (bs : Bytes) :
    ((bs.flatMap digits).flatMap String.utf8EncodeChar).length = 2 * bs.length := by
  induction bs with
  | nil => rfl
  | cons b bs ih =>
    have hb : b.toNat < 256 := b.toNat_lt
    obtain ⟨hhi, -⟩ := utf8_digit ⟨b.toNat / 16, by omega⟩
    obtain ⟨hlo, -⟩ := utf8_digit ⟨b.toNat % 16, by omega⟩
    simp only at hhi hlo
    simp only [List.flatMap_cons, digits, List.flatMap_append, List.flatMap_nil, List.append_nil, hhi, hlo,
      List.length_append, List.length_cons, List.length_nil, ih]
    omega

theorem decode_encode (bs : Bytes) : decode (encode bs) = .ok bs := by
  simp only [decode, decodeUtf8, Text.utf8, encode, String.toList_ofList]
  rw [length_utf8_digits, if_pos (by omega), decodePairs_digits]

end Hex

/-! ## Hashes as text -/

/-- A hash is shown with its bytes in the reverse of wire order. -/
def Hash.text (h : Hash) : String := Hex.encode h.reverse.1

inductive HashTextError where
  /-- The text is not sixty-four bytes long. -/
  | badLength
  | badDigit
  deriving DecidableEq, Repr

def HashTextError.message : HashTextError → String
  | .badLength => "failed to parse hex"
  | .badDigit => "failed to parse hex digit"

def Hash.ofText (s : String) : Except HashTextError Hash :=
  if (Text.utf8 s).length ≠ 64 then .error .badLength
  else
    match Hex.decode s with
    | .error _ => .error .badDigit
    | .ok bs =>
      match FixedBytes.ofBytes? 32 bs with
      | some h => .ok h.reverse
      | none => .error .badLength

end ChainQuery
