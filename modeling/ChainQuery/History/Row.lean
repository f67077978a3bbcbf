/-
  ChainQuery.History.Row — an output an address received, with the input that spent
  it.

  An output without a known spend carries the null point as its spend and the
  largest height as the spend's height.
-/

import ChainQuery.OutPoint

namespace ChainQuery

/-- The spend height of an output with no known spend. -/
def unspentHeight : UInt32 := 0xffffffff

structure HistoryRow where
  output : OutPoint
  outputHeight : UInt32
  value : UInt64
  spend : OutPoint
  spendHeight : UInt32
  deriving DecidableEq, Repr

namespace HistoryRow

def unspent (output : OutPoint) (outputHeight : UInt32) (value : UInt64) : HistoryRow :=
  { output, outputHeight, value, spend := OutPoint.null, spendHeight := unspentHeight }

def isSpent (r : HistoryRow) : Bool := r.spend ≠ OutPoint.null

end HistoryRow

end ChainQuery
