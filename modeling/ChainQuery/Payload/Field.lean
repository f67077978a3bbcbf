/-
  ChainQuery.Payload.Field — the typed fields that payloads are made of.

  A field is a value with one written form. A kind says which field to read next; a
  point can be read as two plain fields or as one consensus value, and both accept
  the same bytes. A payload is written entry by entry: a field always fits, a prefix
  may be too long for its bit count, and then nothing of it is written.
-/

import ChainQuery.Header
import ChainQuery.Payload.Reader
import ChainQuery.Prefix
import ChainQuery.Transaction

namespace ChainQuery.Payload

inductive Field where
  | u8 (n : UInt8)
  | u32 (n : UInt32)
  | u64 (n : UInt64)
  /-- Bytes as they are, their number known to the reader. -/
  | raw (bs : Bytes)
  | transactionHash (h : Hash)
  | blockHash (h : Hash)
  | point (p : OutPoint)
  | transaction (tx : Transaction)
  | header (h : Header)
  /-- An input as it stands among the inputs, without its witness. -/
  | input (i : Input)
  | output (o : Output)
  | script (s : Script)
  | size (n : UInt64)
  deriving DecidableEq, Repr

def Field.encode : Field → Bytes
  | .u8 n => [n]
  | .u32 n => Bytes.u32 n
  | .u64 n => Bytes.u64 n
  | .raw bs => bs
  | .transactionHash h => h.1
  | .blockHash h => h.1
  | .point p => p.encode
  | .transaction tx => tx.encode
  | .header h => h.encode
  | .input i => i.encode
  | .output o => o.encode
  | .script s => s.encode
  | .size n => CompactSize.encode n

inductive FieldKind where
  | u8
  | u32
  | u64
  | raw (n : Nat)
  | transactionHash
  | blockHash
  | point
  | consensusPoint
  | transaction
  | header
  | input
  | output
  | script
  | size
  deriving DecidableEq, Repr

def FieldKind.read : FieldKind → Reader Field
  | .u8 => Field.u8 <$> Reader.u8
  | .u32 => Field.u32 <$> Reader.u32
  | .u64 => Field.u64 <$> Reader.u64
  | .raw n => (fun bs => Field.raw bs.1) <$> Reader.fixed n
  | .transactionHash => Field.transactionHash <$> Reader.fixed 32
  | .blockHash => Field.blockHash <$> Reader.fixed 32
  | .point => Field.point <$> Reader.point
  | .consensusPoint => Field.point <$> Reader.consensus OutPoint.decode
  | .transaction => Field.transaction <$> Reader.consensus Transaction.decode
  | .header => Field.header <$> Reader.consensus Header.decode
  | .input => Field.input <$> Reader.consensus Input.decode
  | .output => Field.output <$> Reader.consensus Output.decode
  | .script => Field.script <$> Reader.consensus Script.decode
  | .size => Field.size <$> Reader.consensus CompactSize.decode

/-! ## Writing -/

inductive Entry where
  | field (f : Field)
  | bits (p : Prefix)
  deriving DecidableEq

def Entry.encode : Entry → Except PrefixTooLong Bytes
  | .field f => .ok f.encode
  | .bits p => p.encode

/-- An empty payload. The room set aside for `capacity` bytes shows in no byte of it. -/
def blank (_capacity : Nat) : Bytes := []

/-- Appends an entry to what is written so far, or leaves that as it is. -/
def write (written : Bytes) (e : Entry) : Except PrefixTooLong Unit × Bytes :=
  match e.encode with
  | .ok bs => (.ok (), written ++ bs)
  | .error e => (.error e, written)

end ChainQuery.Payload
