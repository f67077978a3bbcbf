/-
  ChainQuery.Session — a client's calls to a server, one after the other.

  A call is encoded, handed to the exchange with the server, and answered by its
  outcome: a reply payload, or a failure of the exchange. The outcomes are given
  beforehand, in order; once they are used up, the connection counts as lost.
  - A call whose prefix is too long ends there: nothing is sent, no outcome is used
    and nothing is said.
  - A failed exchange is passed on as it is.
  - A reply that does not decode is reported with its command.
  - A renewal is accepted by code zero and refused by any other.
-/

import ChainQuery.Reply

namespace ChainQuery

inductive ExchangeFailure where
  | timeout
  | connectionLost
  | other (text : String)
  deriving DecidableEq, Repr

def ExchangeFailure.message : ExchangeFailure → String
  | .timeout => "request timed out"
  | .connectionLost => "connection lost"
  | .other text => text

/-- What became of a request: the reply's payload, or why there is none. -/
abbrev Outcome := Except ExchangeFailure Bytes

inductive CallError where
  | prefixTooLong (cause : PrefixTooLong)
  | malformedResponse (command : Command) (cause : DecodeError)
  | rejected (command : Command) (code : UInt32)
  | exchange (cause : ExchangeFailure)
  deriving DecidableEq, Repr

namespace CallError

def message : CallError → String
  | .prefixTooLong cause => cause.message
  | .malformedResponse command cause => "malformed response to " ++ command.name ++ ": " ++ cause.message
  | .rejected command code => command.name ++ " rejected with code " ++ Nat.repr code.toNat
  | .exchange cause => "transport failure: " ++ cause.message

end CallError

inductive Call where
  | broadcastTransaction (tx : Transaction)
  | validateTransaction (tx : Transaction)
  | poolFetchTransaction (h : Hash)
  | fetchTransaction (h : Hash)
  | fetchLastHeight
  | fetchBlockHeader (l : HeaderLocator)
  | fetchTransactionIndex (h : Hash)
  | fetchStealth (p : Prefix) (fromHeight : UInt32)
  | fetchHistory (v : HistoryVariant) (a : Address) (fromHeight : UInt32)
  | subscribe (kind : SubscribeKind) (p : Prefix)
  | subscribeAddress (a : Address)
  | renew (kind : SubscribeKind) (p : Prefix)
  deriving DecidableEq

inductive Answer where
  | acknowledged
  | transaction (tx : Transaction)
  | height (n : UInt32)
  | blockHeader (h : Header)
  | transactionIndex (i : TransactionIndex)
  | unconfirmedInputs (is : List UInt32)
  | history (rows : List HistoryRow)
  | stealth (rows : List StealthRow)
  deriving DecidableEq, Repr

/-- What a reply that decodes says to a call. -/
inductive Verdict where
  | accepted (a : Answer)
  | refused (code : UInt32)
  deriving DecidableEq, Repr

structure Report where
  result : Except CallError Answer
  sent : Option Request
  events : List Event

namespace Call

def request : Call → Except PrefixTooLong Request
  | .broadcastTransaction tx => .ok (Request.broadcastTransaction tx)
  | .validateTransaction tx => .ok (Request.validateTransaction tx)
  | .poolFetchTransaction h => .ok (Request.poolFetchTransaction h)
  | .fetchTransaction h => .ok (Request.fetchTransaction h)
  | .fetchLastHeight => .ok Request.fetchLastHeight
  | .fetchBlockHeader l => .ok (Request.fetchBlockHeader l)
  | .fetchTransactionIndex h => .ok (Request.fetchTransactionIndex h)
  | .fetchStealth p fromHeight => Request.fetchStealth p fromHeight
  | .fetchHistory v a fromHeight => .ok (v.request a fromHeight)
  | .subscribe kind p => Request.subscribe kind p
  | .subscribeAddress a => .ok (Request.subscribeAddress a)
  | .renew kind p => Request.renew kind p

def renewal (code : UInt32) : Verdict := if code = 0 then .accepted .acknowledged else .refused code

def read (c : Call) (payload : Bytes) : Traced (Except DecodeError Verdict) :=
  let accept {α : Type} (f : α → Answer) (r : Except DecodeError α) := r.map fun a => Verdict.accepted (f a)
  match c with
  | .broadcastTransaction _ | .subscribe .. | .subscribeAddress _ =>
    .silent (accept (fun _ => .acknowledged) (Decode.acknowledgement payload))
  | .validateTransaction _ => .silent (accept .unconfirmedInputs (Decode.unconfirmedInputs payload))
  | .poolFetchTransaction _ | .fetchTransaction _ => .silent (accept .transaction (Decode.transaction payload))
  | .fetchLastHeight => .silent (accept .height (Decode.height payload))
  | .fetchBlockHeader _ => .silent (accept .blockHeader (Decode.blockHeader payload))
  | .fetchTransactionIndex _ => .silent (accept .transactionIndex (Decode.transactionIndex payload))
  | .fetchStealth .. => .silent (accept .stealth (StealthRow.decodeAll payload))
  | .fetchHistory v .. => (v.decode payload).map (accept .history)
  | .renew .. => .silent ((Decode.resultCode payload).map renewal)

/-- The result of a call whose request `r` was sent, with what is said after sending. -/
def conclude (c : Call) (r : Request) : Outcome → Traced (Except CallError Answer)
  | .error failure => .silent (.error (.exchange failure))
  | .ok payload =>
    let t := c.read payload
    match t.value with
    | .ok (.accepted answer) => ⟨.ok answer, t.events⟩
    | .ok (.refused code) => ⟨.error (.rejected r.command code), t.events⟩
    | .error e =>
      ⟨.error (.malformedResponse r.command e), t.events ++ [.malformedReply r.command e payload.length]⟩

/-- One call, and the outcomes left for later ones. -/
def perform (c : Call) (outcomes : List Outcome) : Report × List Outcome :=
  match c.request with
  | .error e => (⟨.error (.prefixTooLong e), none, []⟩, outcomes)
  | .ok r =>
    let t := c.conclude r (outcomes.headD (.error .connectionLost))
    (⟨t.value, some r, .sendingRequest r.command r.payload.length :: t.events⟩, outcomes.tail)

end Call

/-- The reports of `calls`, and the outcomes left over. -/
def Session.run : (calls : List Call) → List Outcome → List Report × List Outcome
  | [], outcomes => ([], outcomes)
  | c :: cs, outcomes =>
    let (report, outcomes) := c.perform outcomes
    let (reports, outcomes) := Session.run cs outcomes
    (report :: reports, outcomes)

end ChainQuery
