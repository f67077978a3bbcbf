/-
  ChainQuery.Event — what the library and the tool say while they work.

  An event has a level, the part of the program that speaks, a message and named
  values. `Traced` is a result together with the events on the way to it, in order.
-/

import ChainQuery.Command
import ChainQuery.Payload.Reader

namespace ChainQuery

/-- How much an event or a filter tells, the least first. -/
inductive Level where
  | error
  | warn
  | info
  | debug
  | trace
  deriving DecidableEq, Repr

def Level.name : Level → String
  | .error => "ERROR"
  | .warn => "WARN"
  | .info => "INFO"
  | .debug => "DEBUG"
  | .trace => "TRACE"

/-- Greater levels are more verbose. -/
def Level.rank : Level → Nat
  | .error => 1
  | .warn => 2
  | .info => 3
  | .debug => 4
  | .trace => 5

/-- A spend whose checksum no output waited for. -/
structure OrphanSpend where
  checksum : UInt64
  spend : OutPoint
  deriving DecidableEq, Repr

inductive Event where
  | encodedRequest (command : Command) (payloadLength : Nat)
  | sendingRequest (command : Command) (payloadLength : Nat)
  | malformedReply (command : Command) (error : DecodeError) (replyLength : Nat)
  | orphanSpend (orphan : OrphanSpend)
  deriving DecidableEq, Repr

namespace Event

def level : Event → Level
  | .malformedReply .. => .warn
  | _ => .debug

def message : Event → String
  | .encodedRequest .. => "encoded request"
  | .sendingRequest .. => "sending request"
  | .malformedReply .. => "malformed reply"
  | .orphanSpend .. => "spend matches no pending output"

/-- The part of the program an event comes from. -/
def target : Event → String
  | .encodedRequest .. => "obelisk_client::cli"
  | .sendingRequest .. => "obelisk_client::proxy"
  | .malformedReply .. => "obelisk_client::proxy"
  | .orphanSpend .. => "obelisk_client::history"

def fields : Event → List (String × String)
  | .encodedRequest command length => [("command", command.name), ("payload_len", Nat.repr length)]
  | .sendingRequest command length => [("command", command.name), ("payload_len", Nat.repr length)]
  | .malformedReply command error length =>
    [("command", command.name), ("error", error.message), ("reply_len", Nat.repr length)]
  | .orphanSpend orphan =>
    [("checksum", Nat.repr orphan.checksum.toNat), ("spend", orphan.spend.text)]

/-- One line of log, without the time. -/
def line (e : Event) : String :=
  e.level.name ++ " " ++ e.target ++ ": " ++ e.message ++
    String.join (e.fields.map fun (name, value) => " " ++ name ++ "=" ++ value)

end Event

structure Traced (α : Type) where
  value : α
  events : List Event
  deriving Repr

namespace Traced

variable {α β : Type}

/-- A result on the way to which nothing is said. -/
def silent (a : α) : Traced α := ⟨a, []⟩

def map (f : α → β) (t : Traced α) : Traced β := ⟨f t.value, t.events⟩

end Traced

end ChainQuery
