/-
  ChainQuery.Consensus.Decoder — reading the chain's own binary encoding.

  A decoder takes the unread bytes and gives a value with the bytes after it, or
  the first thing wrong with the encoding. Running out of bytes is one such fault
  and says nothing about where it happened; the others are faults of the bytes
  that were there.
-/

import ChainQuery.Bytes

namespace ChainQuery

inductive ConsensusError where
  | endOfInput
  /-- A compact size written in a longer form than it needs. -/
  | nonMinimalSize
  | oversizedAllocation (requested : Nat)
  | unsupportedSegwitFlag (flag : UInt8)
  /-- The segwit form, although no input has a witness. -/
  | noWitnesses
  /-- Bytes after a value that should have filled its text. -/
  | notConsumed
  deriving DecidableEq, Repr

/-- The most memory a decoded list of witness items may ask for, in bytes. -/
def allocationLimit : Nat := 4000000

def ConsensusError.message : ConsensusError → String
  | .endOfInput => "IO error"
  | .nonMinimalSize => "non-minimal varint"
  | .oversizedAllocation requested =>
    "allocation of oversized vector: requested " ++ Nat.repr requested ++ ", maximum " ++
      Nat.repr allocationLimit
  | .unsupportedSegwitFlag flag => "unsupported segwit version: " ++ Nat.repr flag.toNat
  | .noWitnesses => "parse failed: witness flag set but no witnesses present"
  | .notConsumed => "parse failed: data not consumed entirely when explicitly deserializing"

/-- What a report adds below the message: only a short input has a cause of its own. -/
def ConsensusError.causes : ConsensusError → List String
  | .endOfInput => ["I/O Error: UnexpectedEof"]
  | _ => []

abbrev Decoder := StateT Bytes (Except ConsensusError)

namespace Decoder

variable {α : Type}

def fixed (n : Nat) : Decoder (FixedBytes n) := fun input =>
  match Bytes.take? n input with
  | some (bs, rest) => .ok (bs, rest)
  | none => .error .endOfInput

def u8 : Decoder UInt8 := fun
  | b :: rest => .ok (b, rest)
  | [] => .error .endOfInput

def u32 : Decoder UInt32 := FixedBytes.toU32 <$> fixed 4

def u64 : Decoder UInt64 := FixedBytes.toU64 <$> fixed 8

def i32 : Decoder Int32 := FixedBytes.toI32 <$> fixed 4

/-- `n` values in a row. -/
def repeated (item : Decoder α) : (n : Nat) → Decoder { xs : List α // xs.length = n }
  | 0 => pure ⟨[], rfl⟩
  | n + 1 => do
    let x ← item
    let xs ← repeated item n
    pure ⟨x :: xs.1, by rw [List.length_cons, xs.2]⟩

/-- A value that fills the input. -/
def whole (d : Decoder α) (input : Bytes) : Except ConsensusError α :=
  match d input with
  | .ok (a, []) => .ok a
  | .ok (_, _ :: _) => .error .notConsumed
  | .error e => .error e

end Decoder

end ChainQuery
