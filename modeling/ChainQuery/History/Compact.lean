/-
  ChainQuery.History.Compact — the rows of a compact history reply.

  A row is kind, point, height and an eight-byte slot: forty-nine bytes. The slot of
  an output row is its value; that of a spend row is the checksum of the output it
  spends. Rows of any other kind are kept as they are.
-/

import ChainQuery.Payload.Reader

namespace ChainQuery

inductive CompactKind where
  | output (value : UInt64)
  | spend (previousChecksum : UInt64)
  | unknown (kind : UInt8) (slot : UInt64)
  deriving DecidableEq, Repr

namespace CompactKind

def ofWire (kind : UInt8) (slot : UInt64) : CompactKind :=
  if kind = 0 then .output slot else if kind = 1 then .spend slot else .unknown kind slot

def kindByte : CompactKind → UInt8
  | .output _ => 0
  | .spend _ => 1
  | .unknown kind _ => kind

def slot : CompactKind → UInt64
  | .output value => value
  | .spend previousChecksum => previousChecksum
  | .unknown _ slot => slot

end CompactKind

structure CompactRow where
  point : OutPoint
  height : UInt32
  kind : CompactKind
  deriving DecidableEq, Repr

namespace CompactRow

def read : Reader CompactRow := do
  let kind ← Reader.u8
  let point ← Reader.point
  let height ← Reader.u32
  let slot ← Reader.u64
  return { point, height, kind := CompactKind.ofWire kind slot }

theorem takes_read : read.Takes 49 :=
  Reader.takes_bind Reader.takes_u8 fun _ => Reader.takes_bind Reader.takes_point fun _ =>
    Reader.takes_bind Reader.takes_u32 fun _ => Reader.takes_bind Reader.takes_u64 fun _ => Reader.takes_pure _

def reader : RowReader CompactRow := ⟨read, takes_read.mono (by decide)⟩

def encode (r : CompactRow) : Bytes :=
  r.kind.kindByte :: r.point.encode ++ Bytes.u32 r.height ++ Bytes.u64 r.kind.slot

def decodeAll (payload : Bytes) : Except DecodeError (List CompactRow) := reader.all payload

def encodeAll (rows : List CompactRow) : Bytes := rows.flatMap encode

end CompactRow

end ChainQuery
