/-
  ChainQuery.Text.Base58 — bytes as text over fifty-eight letters and digits, and the
  checked form that carries four bytes of checksum.

  Leading zero bytes become leading ones, the digit of value zero; what follows is
  the same number in another base. The same conversion, with the bases exchanged,
  reads the text. A checked text ends in the checksum of the bytes before it; which
  checksum is left open here.
-/

import ChainQuery.Bytes

namespace ChainQuery

namespace Base58

/-- The digits of `n`, the highest first and none for zero. -/
def digits (base n : Nat) : List Nat :=
  if _h : n = 0 ∨ base < 2 then [] else digits base (n / base) ++ [n % base]
termination_by n
decreasing_by exact Nat.div_lt_self (by omega) (by omega)

def value (base : Nat) (ds : List Nat) : Nat := ds.foldl (fun n d => base * n + d) 0

/-- The number with digits `ds` in another base, its leading zeros kept one for one. -/
def convert (source target : Nat) (ds : List Nat) : List Nat :=
  ds.takeWhile (· = 0) ++ digits target (value source ds)

/-- Every digit and letter but zero, capital I and O and small l. -/
def alphabet : List Char := "123456789ABCDEFGHJKLMNPQRSTUVWXYZabcdefghijkmnopqrstuvwxyz".toList

def encode (bs : Bytes) : String :=
  String.ofList ((convert 256 58 (bs.map UInt8.toNat)).map fun d => alphabet.getD d '1')

/-- The bytes of a text, if every character is in the alphabet. -/
def decode? (s : String) : Option Bytes :=
  (s.toList.mapM fun c => alphabet.idxOf? c).map fun ds => (convert 58 256 ds).map UInt8.ofNat

end Base58

/-! ## The checked form -/

inductive Base58Error where
  /-- A character outside the alphabet, found before anything else. -/
  | badCharacter
  | tooShort
  | badChecksum
  deriving DecidableEq, Repr

def Base58Error.message : Base58Error → String
  | .badCharacter => "decode"
  | .tooShort => "too short"
  | .badChecksum => "incorrect checksum"

namespace Base58Check

variable (checksum : Bytes → FixedBytes 4)

def encode (bs : Bytes) : String := Base58.encode (bs ++ (checksum bs).1)

def decode (s : String) : Except Base58Error Bytes :=
  match Base58.decode? s with
  | none => .error .badCharacter
  | some bs =>
    if bs.length < 4 then .error .tooShort
    else
      let body := bs.take (bs.length - 4)
      if bs.drop (bs.length - 4) = (checksum body).1 then .ok body else .error .badChecksum

end Base58Check

end ChainQuery
