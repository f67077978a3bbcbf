/-
  ChainQuery.Reply — what each command is answered with.

  Every reply must be used up by its layout: bytes left over are as wrong as bytes
  missing. A history reply may leave spends that belong to no output, and says so in
  the events beside the result.
-/

import ChainQuery.History.Variant
import ChainQuery.Notification
import ChainQuery.Stealth

namespace ChainQuery

/-- Where in the chain a transaction stands. -/
structure TransactionIndex where
  height : UInt32
  index : UInt32
  deriving DecidableEq, Repr

inductive Reply where
  /-- An acknowledgement. -/
  | empty
  | transaction (tx : Transaction)
  | height (n : UInt32)
  | blockHeader (h : Header)
  | transactionIndex (i : TransactionIndex)
  /-- Indexes of the inputs that spend unconfirmed outputs. -/
  | unconfirmedInputs (is : List UInt32)
  | history (rows : List HistoryRow)
  | stealth (rows : List StealthRow)
  | resultCode (n : UInt32)
  | notification (n : Notification)
  deriving DecidableEq, Repr

/-! ## One decoder for each layout -/

namespace Decode

def acknowledgement : Bytes → Except DecodeError Unit := (pure () : Reader Unit).whole

def transaction : Bytes → Except DecodeError Transaction := (Reader.consensus Transaction.decode).whole

def height : Bytes → Except DecodeError UInt32 := Reader.u32.whole

def blockHeader : Bytes → Except DecodeError Header := (Reader.consensus Header.decode).whole

def transactionIndex : Bytes → Except DecodeError TransactionIndex :=
  Reader.whole do
    let height ← Reader.u32
    let index ← Reader.u32
    return { height, index }

def unconfirmedInputs : Bytes → Except DecodeError (List UInt32) :=
  RowReader.all ⟨Reader.u32, Reader.takes_u32.mono (by decide)⟩

def resultCode : Bytes → Except DecodeError UInt32 := height

def addressUpdate : Bytes → Except DecodeError AddressUpdate := AddressUpdate.read.whole

def stealthUpdate : Bytes → Except DecodeError StealthUpdate := StealthUpdate.read.whole

end Decode

namespace Reply

def decode (command : Command) (payload : Bytes) : Traced (Except DecodeError Reply) :=
  match command with
  | .broadcastTransaction | .addressSubscribe => .silent ((Decode.acknowledgement payload).map fun _ => .empty)
  | .validateTransaction => .silent ((Decode.unconfirmedInputs payload).map .unconfirmedInputs)
  | .poolFetchTransaction | .fetchTransaction => .silent ((Decode.transaction payload).map .transaction)
  | .fetchLastHeight => .silent ((Decode.height payload).map .height)
  | .fetchBlockHeader => .silent ((Decode.blockHeader payload).map .blockHeader)
  | .fetchTransactionIndex => .silent ((Decode.transactionIndex payload).map .transactionIndex)
  | .fetchStealth => .silent ((StealthRow.decodeAll payload).map .stealth)
  | .fetchHistory | .addressFetchHistory2 => (History.decode payload).map (Except.map .history)
  | .addressFetchHistory => .silent ((ExpandedRow.decodeAll payload).map .history)
  | .addressRenew => .silent ((Decode.resultCode payload).map .resultCode)
  | .addressUpdate => .silent ((Decode.addressUpdate payload).map fun u => .notification (.address u))
  | .addressStealthUpdate => .silent ((Decode.stealthUpdate payload).map fun u => .notification (.stealth u))

end Reply

end ChainQuery
