/-
  ChainQuery.Stealth — rows of a stealth search.

  On the wire a row leaves out the sign byte of its ephemeral public key, which is
  fixed, and reverses the public-key hash; `expand` puts both right. A row is key,
  hash and transaction hash: eighty-four bytes.
-/

import ChainQuery.Payload.Reader

namespace ChainQuery

structure CompactStealthRow where
  ephemeralKeyHash : FixedBytes 32
  /-- In wire order, the reverse of the canonical one. -/
  publicKeyHash : ShortHash
  transactionHash : Hash
  deriving DecidableEq, Repr

structure StealthRow where
  ephemeralPublicKey : FixedBytes 33
  publicKeyHash : ShortHash
  transactionHash : Hash
  deriving DecidableEq, Repr

/-- The sign byte of every ephemeral public key. -/
def ephemeralKeySign : UInt8 := 0x02

namespace CompactStealthRow

def read : Reader CompactStealthRow := do
  let ephemeralKeyHash ← Reader.fixed 32
  let publicKeyHash ← Reader.fixed 20
  let transactionHash ← Reader.fixed 32
  return { ephemeralKeyHash, publicKeyHash, transactionHash }

theorem takes_read : read.Takes 84 :=
  Reader.takes_bind (Reader.takes_fixed 32) fun _ => Reader.takes_bind (Reader.takes_fixed 20) fun _ =>
    Reader.takes_bind (Reader.takes_fixed 32) fun _ => Reader.takes_pure _

def reader : RowReader CompactStealthRow := ⟨read, takes_read.mono (by decide)⟩

def encode (r : CompactStealthRow) : Bytes := r.ephemeralKeyHash.1 ++ r.publicKeyHash.1 ++ r.transactionHash.1

def encodeAll (rows : List CompactStealthRow) : Bytes := rows.flatMap encode

def expand (r : CompactStealthRow) : StealthRow :=
  { ephemeralPublicKey := r.ephemeralKeyHash.cons ephemeralKeySign
    publicKeyHash := r.publicKeyHash.reverse
    transactionHash := r.transactionHash }

end CompactStealthRow

def StealthRow.decodeAll (payload : Bytes) : Except DecodeError (List StealthRow) :=
  (CompactStealthRow.reader.all payload).map (List.map CompactStealthRow.expand)

end ChainQuery
