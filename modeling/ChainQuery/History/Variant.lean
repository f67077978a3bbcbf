/-
  ChainQuery.History.Variant — which of the history commands to use.
-/

import ChainQuery.History.Expanded
import ChainQuery.History.Reconcile
import ChainQuery.Request

namespace ChainQuery

inductive HistoryVariant where
  /-- Compact rows, the address hash reversed. -/
  | current
  /-- Expanded rows, the address hash reversed. -/
  | expanded
  /-- Compact rows, the address hash in canonical order. -/
  | canonical
  deriving DecidableEq, Repr, Inhabited

namespace HistoryVariant

def all : List HistoryVariant := [.current, .expanded, .canonical]

def name : HistoryVariant → String
  | .current => "current"
  | .expanded => "expanded"
  | .canonical => "canonical"

def ofName? (name : String) : Option HistoryVariant := all.find? (·.name = name)

def command : HistoryVariant → Command
  | .current => .fetchHistory
  | .expanded => .addressFetchHistory
  | .canonical => .addressFetchHistory2

def request : HistoryVariant → Address → UInt32 → Request
  | .current => Request.fetchHistory
  | .expanded => Request.addressFetchHistory
  | .canonical => Request.addressFetchHistory2

def decode : HistoryVariant → Bytes → Traced (Except DecodeError (List HistoryRow))
  | .current => History.decode
  | .expanded => fun payload => .silent (ExpandedRow.decodeAll payload)
  | .canonical => History.decode

end HistoryVariant

end ChainQuery
