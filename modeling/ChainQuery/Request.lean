/-
  ChainQuery.Request — what is sent for each call: a command and its payload.

  - A transaction travels in its consensus encoding, a transaction or block hash in
    wire order.
  - A history request is version, hash and first height. The hash's bytes are
    reversed, except for the command that takes them in canonical order.
  - A subscription is its kind, then the prefix: bit count and blocks. A prefix too
    long for the bit count is refused, and there is no request then.
-/

import ChainQuery.Address
import ChainQuery.Command
import ChainQuery.Header
import ChainQuery.Transaction

namespace ChainQuery

structure Request where
  command : Command
  payload : Bytes
  deriving DecidableEq, Repr

/-- What a subscription's prefix is matched against. -/
inductive SubscribeKind where
  | address
  | stealth
  deriving DecidableEq, Repr

namespace SubscribeKind

def code : SubscribeKind → UInt8
  | .address => 0
  | .stealth => 1

def name : SubscribeKind → String
  | .address => "address"
  | .stealth => "stealth"

def all : List SubscribeKind := [.address, .stealth]

def ofName? (name : String) : Option SubscribeKind := all.find? (·.name = name)

end SubscribeKind

inductive HeaderLocator where
  | height (n : UInt32)
  | hash (h : Hash)
  deriving DecidableEq, Repr

namespace HeaderLocator

def encode : HeaderLocator → Bytes
  | .height n => Bytes.u32 n
  | .hash h => h.1

end HeaderLocator

namespace Request

def broadcastTransaction (tx : Transaction) : Request := ⟨.broadcastTransaction, tx.encode⟩

def validateTransaction (tx : Transaction) : Request := ⟨.validateTransaction, tx.encode⟩

def poolFetchTransaction (h : Hash) : Request := ⟨.poolFetchTransaction, h.1⟩

def fetchTransaction (h : Hash) : Request := ⟨.fetchTransaction, h.1⟩

def fetchLastHeight : Request := ⟨.fetchLastHeight, []⟩

def fetchBlockHeader (l : HeaderLocator) : Request := ⟨.fetchBlockHeader, l.encode⟩

def fetchTransactionIndex (h : Hash) : Request := ⟨.fetchTransactionIndex, h.1⟩

def fetchStealth (p : Prefix) (fromHeight : UInt32) : Except PrefixTooLong Request := do
  let bs ← p.encode
  return ⟨.fetchStealth, bs ++ Bytes.u32 fromHeight⟩

/-! ## History -/

def historyPayload (version : UInt8) (hash : ShortHash) (fromHeight : UInt32) : Bytes :=
  version :: hash.1 ++ Bytes.u32 fromHeight

def fetchHistory (a : Address) (fromHeight : UInt32) : Request :=
  ⟨.fetchHistory, historyPayload a.version a.wireHash fromHeight⟩

def addressFetchHistory (a : Address) (fromHeight : UInt32) : Request :=
  ⟨.addressFetchHistory, historyPayload a.version a.wireHash fromHeight⟩

/-- The one history request with the hash in canonical order. -/
def addressFetchHistory2 (a : Address) (fromHeight : UInt32) : Request :=
  ⟨.addressFetchHistory2, historyPayload a.version a.hash fromHeight⟩

/-! ## Subscriptions -/

def subscription (kind : SubscribeKind) (p : Prefix) : Except PrefixTooLong Bytes := do
  let bs ← p.encode
  return kind.code :: bs

def subscribe (kind : SubscribeKind) (p : Prefix) : Except PrefixTooLong Request := do
  return ⟨.addressSubscribe, ← subscription kind p⟩

def renew (kind : SubscribeKind) (p : Prefix) : Except PrefixTooLong Request := do
  return ⟨.addressRenew, ← subscription kind p⟩

/-- The bit count of a prefix in one byte, or the largest byte if it does not fit. -/
def sizeByte (p : Prefix) : UInt8 := if p.bits ≤ 255 then p.bits.toUInt8 else 255

/-- A subscription to the whole hash of one address. -/
def subscribeAddress (a : Address) : Request :=
  let p := a.hashPrefix
  ⟨.addressSubscribe, SubscribeKind.address.code :: sizeByte p :: p.blocks⟩

end Request

end ChainQuery
