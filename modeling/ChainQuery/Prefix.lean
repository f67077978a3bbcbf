/-
  ChainQuery.Prefix — the leading bits that a subscription or a search asks for.

  A prefix keeps its bit count as given and the leading bits of its data in whole
  bytes, at most 256 of them: zeros stand for bits the data lacks and fill the last
  byte. The bytes are therefore determined by the bits that count, and two prefixes
  are equal exactly when they ask for the same thing.

  On the wire the bit count is one byte, so a prefix of more than 255 bits is
  refused.
-/

import ChainQuery.Bytes

namespace ChainQuery

namespace Bytes

/-- A byte whose `n` high bits are set, for `n` up to 8. -/
def highBits (n : Nat) : UInt8 := UInt8.ofNat (256 - 1 <<< (8 - n))

/-- `k` bytes holding the first `n` bits, zeros where a bit is missing or does not count. -/
def leadingBlocks : (k n : Nat) → Bytes → Bytes
  | 0, _, _ => []
  | k + 1, n, data => (data.headD 0 &&& highBits (min n 8)) :: leadingBlocks k (n - 8) data.tail

/-- The first `n` bits in as many bytes as hold them. -/
def leading (n : Nat) (data : Bytes) : Bytes := leadingBlocks ((n + 7) / 8) n data

theorem leadingBlocks_leadingBlocks (k n : Nat) (data : Bytes) :
    leadingBlocks k n (leadingBlocks k n data) = leadingBlocks k n data := by
  induction k generalizing n data with
  | zero => rfl
  | succ k ih => simp only [leadingBlocks, List.headD_cons, List.tail_cons, ih, UInt8.and_assoc, UInt8.and_self]

theorem leading_leading (n : Nat) (data : Bytes) : leading n (leading n data) = leading n data :=
  leadingBlocks_leadingBlocks _ n data

end Bytes

structure Prefix where
  bits : UInt64
  blocks : Bytes
  trimmed : Bytes.leading (min bits.toNat 256) blocks = blocks
  deriving DecidableEq

/-- A prefix of more bits than its one-byte count can say. -/
structure PrefixTooLong where
  bits : UInt64
  deriving DecidableEq, Repr

def PrefixTooLong.message (e : PrefixTooLong) : String :=
  "prefix of " ++ Nat.repr e.bits.toNat ++ " bits exceeds the 255-bit limit"

namespace Prefix

def ofBytes (bits : UInt64) (data : Bytes) : Prefix :=
  ⟨bits, Bytes.leading (min bits.toNat 256) data, Bytes.leading_leading _ _⟩

/-- Whether `data` has the bits of the prefix, and at least as many. -/
def matchesData (p : Prefix) (data : Bytes) : Bool :=
  p.bits.toNat ≤ 8 * data.length && ofBytes p.bits data = p

def encode (p : Prefix) : Except PrefixTooLong Bytes :=
  if p.bits ≤ 255 then .ok (p.bits.toUInt8 :: p.blocks) else .error ⟨p.bits⟩

end Prefix

end ChainQuery
