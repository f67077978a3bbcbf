/-
  ChainQuery.CommandLine.Argument — the values that arguments of the tool can have.

  An argument's kind says how its text is read. A height is read as a signed number
  of 64 bits first and its range checked then, so a number that no 64 bits hold and
  one that only 32 bits do not are refused differently.
-/

import ChainQuery.History.Variant
import ChainQuery.Text.Decimal

namespace ChainQuery.CommandLine

inductive ArgumentKind where
  | text
  | hash
  | bitCount
  | height
  | address
  | command
  | subscription
  | variant
  deriving DecidableEq, Repr

inductive ArgumentValue where
  /-- A flag that is there. -/
  | flag
  | text (s : String)
  | hash (h : Hash)
  | bitCount (n : UInt64)
  | height (n : UInt32)
  | address (a : Address)
  | command (c : Command)
  | subscription (k : SubscribeKind)
  | variant (v : HistoryVariant)
  deriving DecidableEq, Repr

/-- Why a text is no value of its argument. -/
inductive ValueFault where
  /-- Not one of the words that the argument can be. -/
  | notListed
  | decimal (e : DecimalError)
  /-- A number, but no height. -/
  | notHeight (n : Int)
  | hash (e : HashTextError)
  | address (e : AddressError)
  | command (e : UnknownCommand)
  deriving DecidableEq, Repr

/-- The reason shown with the refused text; a word that is not listed is refused without one. -/
def ValueFault.message? : ValueFault → Option String
  | .notListed => none
  | .decimal e => some e.message
  | .notHeight n => some (Int.repr n ++ " is not in 0..=4294967295")
  | .hash e => some e.message
  | .address e => some e.message
  | .command e => some e.message

def readHeight (s : String) : Except ValueFault UInt32 :=
  match Decimal.integer 0x7fffffffffffffff s with
  | .error e => .error (.decimal e)
  | .ok n => if 0 ≤ n ∧ n < 0x100000000 then .ok (UInt32.ofNat n.toNat) else .error (.notHeight n)

def readBitCount (s : String) : Except ValueFault UInt64 :=
  match Decimal.natural (UInt64.size - 1) s with
  | .error e => .error (.decimal e)
  | .ok n => .ok (UInt64.ofNat n)

def ArgumentKind.read (k : ArgumentKind) (s : String) : Except ValueFault ArgumentValue :=
  match k with
  | .text => .ok (.text s)
  | .hash =>
    match Hash.ofText s with
    | .ok h => .ok (.hash h)
    | .error e => .error (.hash e)
  | .bitCount => (readBitCount s).map .bitCount
  | .height => (readHeight s).map .height
  | .address =>
    match Address.ofText s with
    | .ok a => .ok (.address a)
    | .error e => .error (.address e)
  | .command =>
    match Command.ofName s with
    | .ok c => .ok (.command c)
    | .error e => .error (.command e)
  | .subscription =>
    match SubscribeKind.ofName? s with
    | some kind => .ok (.subscription kind)
    | none => .error .notListed
  | .variant =>
    match HistoryVariant.ofName? s with
    | some v => .ok (.variant v)
    | none => .error .notListed

end ChainQuery.CommandLine
