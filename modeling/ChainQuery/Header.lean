/-
  ChainQuery.Header — block headers: eighty bytes, six fields.
-/

import ChainQuery.Consensus.Decoder

namespace ChainQuery

structure Header where
  version : Int32
  previousBlock : Hash
  merkleRoot : Hash
  time : UInt32
  bits : UInt32
  nonce : UInt32
  deriving DecidableEq, Repr

namespace Header

def encode (h : Header) : Bytes :=
  Bytes.i32 h.version ++ h.previousBlock.1 ++ h.merkleRoot.1 ++ Bytes.u32 h.time ++ Bytes.u32 h.bits ++
    Bytes.u32 h.nonce

def decode : Decoder Header := do
  let version ← Decoder.i32
  let previousBlock ← Decoder.fixed 32
  let merkleRoot ← Decoder.fixed 32
  let time ← Decoder.u32
  let bits ← Decoder.u32
  let nonce ← Decoder.u32
  pure { version, previousBlock, merkleRoot, time, bits, nonce }

end Header

end ChainQuery
