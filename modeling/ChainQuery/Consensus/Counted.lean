/-
  ChainQuery.Consensus.Counted — lists and byte strings written after their length.

  The length is a compact size, so a list that can be written has fewer than 2^64
  items; the type says so, and every such list has a written form.
-/

import ChainQuery.Consensus.CompactSize

namespace ChainQuery

structure Counted (α : Type) where
  toList : List α
  length_lt : toList.length < UInt64.size
  deriving DecidableEq, Repr

/-- A byte string written after its length, such as a script or a witness item. -/
abbrev Script := Counted UInt8

namespace Counted

variable {α : Type}

def empty : Counted α := ⟨[], Nat.zero_lt_succ _⟩

def ofList? (xs : List α) : Option (Counted α) :=
  if h : xs.length < UInt64.size then some ⟨xs, h⟩ else none

def size (xs : Counted α) : UInt64 := UInt64.ofNat xs.toList.length

def isEmpty (xs : Counted α) : Bool := xs.toList.isEmpty

def encode (item : α → Bytes) (xs : Counted α) : Bytes :=
  CompactSize.encode xs.size ++ xs.toList.flatMap item

def decode (item : Decoder α) : Decoder (Counted α) := do
  let n ← CompactSize.decode
  let xs ← Decoder.repeated item n.toNat
  pure ⟨xs.1, by rw [xs.2]; exact n.toNat_lt⟩

end Counted

namespace Script

def encode (s : Script) : Bytes := CompactSize.encode s.size ++ s.toList

/-- The `n` bytes of a script whose length has been read. -/
def ofLength (n : UInt64) : Decoder Script := do
  let bs ← Decoder.fixed n.toNat
  pure ⟨bs.1, by rw [bs.2]; exact n.toNat_lt⟩

def decode : Decoder Script := CompactSize.decode >>= ofLength

end Script

end ChainQuery
