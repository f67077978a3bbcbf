/-
  ChainQuery.History.Expanded — the history rows of servers that know no compact
  ones.

  A row is output, height, value, spend, height: ninety-six bytes, the heights in
  eight bytes each. Rows are taken as sent. A height of more than 32 bits is refused
  as soon as it is read.
-/

import ChainQuery.History.Row
import ChainQuery.Payload.Reader

namespace ChainQuery.ExpandedRow

def readHeight : Reader UInt32 := do
  let height ← Reader.u64
  if height < 0x100000000 then return height.toUInt32 else Reader.fail (.heightOverflow height)

theorem takes_readHeight : readHeight.Takes 8 := by
  unfold readHeight
  refine Reader.takes_bind (n := 0) Reader.takes_u64 fun height => ?_
  split
  · exact Reader.takes_pure _
  · exact Reader.takes_fail _ _

def read : Reader HistoryRow := do
  let output ← Reader.point
  let outputHeight ← readHeight
  let value ← Reader.u64
  let spend ← Reader.point
  let spendHeight ← readHeight
  return { output, outputHeight, value, spend, spendHeight }

theorem takes_read : read.Takes 96 :=
  Reader.takes_bind Reader.takes_point fun _ => Reader.takes_bind takes_readHeight fun _ =>
    Reader.takes_bind Reader.takes_u64 fun _ => Reader.takes_bind Reader.takes_point fun _ =>
      Reader.takes_bind takes_readHeight fun _ => Reader.takes_pure _

def reader : RowReader HistoryRow := ⟨read, takes_read.mono (by decide)⟩

def encode (r : HistoryRow) : Bytes :=
  r.output.encode ++ Bytes.u64 r.outputHeight.toUInt64 ++ Bytes.u64 r.value ++ r.spend.encode ++
    Bytes.u64 r.spendHeight.toUInt64

def decodeAll (payload : Bytes) : Except DecodeError (List HistoryRow) := reader.all payload

def encodeAll (rows : List HistoryRow) : Bytes := rows.flatMap encode

end ChainQuery.ExpandedRow
