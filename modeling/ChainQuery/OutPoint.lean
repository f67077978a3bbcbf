/-
  ChainQuery.OutPoint — one output of one transaction, or an input named the same
  way.

  A point is a transaction hash and an index. Compact history rows name the output
  they spend by a checksum of its point: eight bytes from the middle of the hash,
  whose low fifteen bits are replaced by those of the index. Checksums of
  different points can collide.
-/

import ChainQuery.Hex
import ChainQuery.Consensus.Decoder

namespace ChainQuery

def Hash.zero : Hash := FixedBytes.replicate 32 0

structure OutPoint where
  hash : Hash
  index : UInt32
  deriving DecidableEq, Repr

namespace OutPoint

/-- The point that no output has: zero hash, largest index. -/
def null : OutPoint := ⟨Hash.zero, 0xffffffff⟩

def text (p : OutPoint) : String := Hash.text p.hash ++ ":" ++ Nat.repr p.index.toNat

def encode (p : OutPoint) : Bytes := p.hash.1 ++ Bytes.u32 p.index

def decode : Decoder OutPoint := do
  let hash ← Decoder.fixed 32
  let index ← Decoder.u32
  pure ⟨hash, index⟩

/-! ## Checksums -/

/-- The checksum bits that carry the index. -/
def indexMask : UInt64 := 0x7fff

/-- Bytes 12 to 19 of a hash as a number. -/
def hashWord (h : Hash) : UInt64 := UInt64.ofNat (Bytes.ofLE ((h.1.drop 12).take 8))

def checksum (p : OutPoint) : UInt64 :=
  (hashWord p.hash &&& ~~~indexMask) ||| (p.index.toUInt64 &&& indexMask)

end OutPoint

end ChainQuery
