/-
  ChainQuery.Command — the calls and pushes of the query service, by dotted name.
-/

import ChainQuery.Text.Quoted

namespace ChainQuery

inductive Command where
  | broadcastTransaction
  | validateTransaction
  | poolFetchTransaction
  | fetchTransaction
  | fetchLastHeight
  | fetchBlockHeader
  | fetchTransactionIndex
  | fetchStealth
  | fetchHistory
  /-- History in expanded rows, from servers that know no compact ones. -/
  | addressFetchHistory
  | addressFetchHistory2
  | addressSubscribe
  | addressRenew
  | addressUpdate
  | addressStealthUpdate
  deriving DecidableEq, Repr

/-- The name belongs to no command. -/
structure UnknownCommand where
  name : String
  deriving DecidableEq, Repr

def UnknownCommand.message (e : UnknownCommand) : String := "unknown command " ++ Text.quote e.name

namespace Command

/-- Every command; a command's position here is its selector in a sample file. -/
def all : List Command := [
  .broadcastTransaction, .validateTransaction, .poolFetchTransaction, .fetchTransaction, .fetchLastHeight,
  .fetchBlockHeader, .fetchTransactionIndex, .fetchStealth, .fetchHistory, .addressFetchHistory,
  .addressFetchHistory2, .addressSubscribe, .addressRenew, .addressUpdate, .addressStealthUpdate]

def name : Command → String
  | .broadcastTransaction => "protocol.broadcast_transaction"
  | .validateTransaction => "transaction_pool.validate"
  | .poolFetchTransaction => "transaction_pool.fetch_transaction"
  | .fetchTransaction => "blockchain.fetch_transaction"
  | .fetchLastHeight => "blockchain.fetch_last_height"
  | .fetchBlockHeader => "blockchain.fetch_block_header"
  | .fetchTransactionIndex => "blockchain.fetch_transaction_index"
  | .fetchStealth => "blockchain.fetch_stealth"
  | .fetchHistory => "blockchain.fetch_history"
  | .addressFetchHistory => "address.fetch_history"
  | .addressFetchHistory2 => "address.fetch_history2"
  | .addressSubscribe => "address.subscribe"
  | .addressRenew => "address.renew"
  | .addressUpdate => "address.update"
  | .addressStealthUpdate => "address.stealth_update"

def ofName (name : String) : Except UnknownCommand Command :=
  match all.find? (·.name = name) with
  | some c => .ok c
  | none => .error ⟨name⟩

/-- Only servers without compact rows need it. -/
def isDeprecated (c : Command) : Bool := c = .addressFetchHistory

/-- Sent by the server of its own accord. -/
def isNotification (c : Command) : Bool := c = .addressUpdate || c = .addressStealthUpdate

def position (c : Command) : Nat := all.idxOf c

end Command

end ChainQuery
