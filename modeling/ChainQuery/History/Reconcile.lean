/-
  ChainQuery.History.Reconcile — one row per output from a compact history.

  Every output of the reply opens a row, in reply order, wherever the spends stand
  among them. The rows wait in queues, one per checksum of their output, the oldest
  first. Each spend, in reply order, is recorded in the row at the head of its
  checksum's queue:
  - a spend with a hash takes the row out of the queue;
  - a spend whose hash is zero leaves it there, so that a later spend of the same
    checksum can still claim it;
  - a spend with no row waiting, or whose queue names a position that no row has, is an
    orphan: reported, and recorded nowhere.
  Rows of unknown kind are passed over. In the end a row whose recorded spend has a
  zero hash gets the height of an unspent one; the recorded point stays.
-/

import ChainQuery.Event
import ChainQuery.History.Compact
import ChainQuery.History.Row
import Std.Data.HashMap

namespace ChainQuery

namespace History

structure Spend where
  point : OutPoint
  height : UInt32
  previousChecksum : UInt64
  deriving DecidableEq, Repr

/-- The row that an output row of the reply opens. -/
def openedBy (r : CompactRow) : Option HistoryRow :=
  match r.kind with
  | .output value => some (HistoryRow.unspent r.point r.height value)
  | _ => none

def spendOf (r : CompactRow) : Option Spend :=
  match r.kind with
  | .spend previousChecksum => some ⟨r.point, r.height, previousChecksum⟩
  | _ => none

/-- Positions of the rows that wait for a spend, by checksum of their output. -/
abbrev Queues := Std.HashMap UInt64 (List Nat)

/-- The queues of `rows`, of which the first has position `i`. -/
def Queues.ofRows (i : Nat) : List HistoryRow → Queues
  | [] => ∅
  | r :: rs =>
    let queues := Queues.ofRows (i + 1) rs
    queues.insert r.output.checksum (i :: queues.getD r.output.checksum [])

structure Matching where
  rows : Array HistoryRow
  queues : Queues
  orphans : Array OrphanSpend

namespace Matching

def start (rows : List HistoryRow) : Matching := ⟨rows.toArray, Queues.ofRows 0 rows, #[]⟩

def record (s : Spend) (r : HistoryRow) : HistoryRow := { r with spend := s.point, spendHeight := s.height }

def claim (m : Matching) (s : Spend) : Matching :=
  match m.queues.getD s.previousChecksum [] with
  | i :: rest =>
    let queues := if s.point.hash = Hash.zero then m.queues else m.queues.insert s.previousChecksum rest
    if i < m.rows.size then { m with rows := m.rows.modify i (record s), queues }
    else { m with queues, orphans := m.orphans.push ⟨s.previousChecksum, s.point⟩ }
  | [] => { m with orphans := m.orphans.push ⟨s.previousChecksum, s.point⟩ }

end Matching

/-- A zero hash means that the row's output still reads as unspent. -/
def settle (r : HistoryRow) : HistoryRow :=
  if r.spend.hash = Hash.zero then { r with spendHeight := unspentHeight } else r

structure Reconciled where
  rows : List HistoryRow
  orphans : List OrphanSpend
  deriving DecidableEq, Repr

def reconcile (reply : List CompactRow) : Reconciled :=
  let m := (reply.filterMap spendOf).foldl Matching.claim (Matching.start (reply.filterMap openedBy))
  ⟨m.rows.toList.map settle, m.orphans.toList⟩

def Reconciled.traced (r : Reconciled) : Traced (List HistoryRow) := ⟨r.rows, r.orphans.map .orphanSpend⟩

/-- The history in a compact reply. -/
def decode (payload : Bytes) : Traced (Except DecodeError (List HistoryRow)) :=
  match CompactRow.decodeAll payload with
  | .ok rows => (reconcile rows).traced.map .ok
  | .error e => .silent (.error e)

end History

end ChainQuery
