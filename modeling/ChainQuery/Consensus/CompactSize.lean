/-
  ChainQuery.Consensus.CompactSize — counts and lengths in one, three, five or nine
  bytes.

  A size below 0xfd is its own byte. A larger one follows a marker, in two bytes
  after 0xfd, four after 0xfe and eight after 0xff, least significant byte first,
  in the shortest form that holds it. A longer form is refused once all of its
  bytes are read.
-/

import ChainQuery.Consensus.Decoder

namespace ChainQuery.CompactSize

def encode (n : UInt64) : Bytes :=
  if n < 0xfd then [n.toUInt8]
  else if n < 0x10000 then 0xfd :: Bytes.toLE 2 n.toNat
  else if n < 0x100000000 then 0xfe :: Bytes.toLE 4 n.toNat
  else 0xff :: Bytes.toLE 8 n.toNat

/-- The `w` bytes after a marker, whose values start at `least`. -/
def marked (w least : Nat) : Decoder UInt64 := do
  let bs ← Decoder.fixed w
  let n := Bytes.ofLE bs.1
  if n < least then throw .nonMinimalSize else pure (UInt64.ofNat n)

def decode : Decoder UInt64 := do
  let marker ← Decoder.u8
  if marker = 0xfd then marked 2 0xfd
  else if marker = 0xfe then marked 4 0x10000
  else if marker = 0xff then marked 8 0x100000000
  else pure marker.toUInt64

end ChainQuery.CompactSize
