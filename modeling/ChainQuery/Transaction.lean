/-
  ChainQuery.Transaction — transactions and their consensus encoding.

  The legacy form is version, inputs, outputs, lock time. The segwit form puts a
  zero byte and a flag before the inputs and the witnesses, one per input, after
  the outputs. A zero byte where the count of inputs stands announces the segwit
  form, so a transaction without inputs is always written in it; otherwise it is
  used exactly when some input has a witness, and a transaction in it whose inputs
  all lack one is refused.

  A witness may have at most four million items, and its items, each with its
  length, at most four million bytes; the check comes before an item's bytes are
  read.
-/

import ChainQuery.Consensus.Counted
import ChainQuery.OutPoint

namespace ChainQuery

/-- The items an input brings to satisfy the output it spends. -/
abbrev Witness := Counted Script

structure Input where
  previousOutput : OutPoint
  scriptSig : Script
  sequence : UInt32
  witness : Witness
  deriving DecidableEq, Repr

structure Output where
  value : UInt64
  scriptPubkey : Script
  deriving DecidableEq, Repr

structure Transaction where
  version : Int32
  lockTime : UInt32
  inputs : Counted Input
  outputs : Counted Output
  deriving DecidableEq, Repr

/-! ## Witnesses -/

namespace Witness

def encode (w : Witness) : Bytes := Counted.encode Script.encode w

/-- The bytes an item takes: its length and itself. -/
def itemCost (size : UInt64) : Nat := size.toNat + (CompactSize.encode size).length

/-- `n` items, of which `used` bytes of `limit` are taken already. -/
def items (limit : Nat) : (n used : Nat) → Decoder { xs : List Script // xs.length = n }
  | 0, _ => pure ⟨[], rfl⟩
  | n + 1, used => do
    let size ← CompactSize.decode
    let needed := used + itemCost size
    if UInt64.size ≤ needed then throw (.oversizedAllocation (UInt64.size - 1))
    else if limit < needed then throw (.oversizedAllocation needed)
    else
      let x ← Script.ofLength size
      let xs ← items limit n needed
      pure ⟨x :: xs.1, by rw [List.length_cons, xs.2]⟩

/-- Four bytes are set aside for each item on top of the limit. -/
def decode : Decoder Witness := do
  let count ← CompactSize.decode
  if allocationLimit < count.toNat then throw (.oversizedAllocation count.toNat)
  else
    let xs ← items (allocationLimit + 4 * count.toNat) count.toNat (4 * count.toNat)
    pure ⟨xs.1, by rw [xs.2]; exact count.toNat_lt⟩

end Witness

/-! ## Inputs and outputs -/

namespace Input

/-- The part of an input that stands among the inputs. -/
def encode (i : Input) : Bytes := i.previousOutput.encode ++ i.scriptSig.encode ++ Bytes.u32 i.sequence

def decode : Decoder Input := do
  let previousOutput ← OutPoint.decode
  let scriptSig ← Script.decode
  let sequence ← Decoder.u32
  pure { previousOutput, scriptSig, sequence, witness := Counted.empty }

/-- The inputs with the witnesses that follow the outputs. -/
def decodeWitnesses : (is : List Input) → Decoder { is' : List Input // is'.length = is.length }
  | [] => pure ⟨[], rfl⟩
  | i :: is => do
    let witness ← Witness.decode
    let is' ← decodeWitnesses is
    pure ⟨{ i with witness } :: is'.1, by rw [List.length_cons, List.length_cons, is'.2]⟩

end Input

namespace Output

def encode (o : Output) : Bytes := Bytes.u64 o.value ++ o.scriptPubkey.encode

def decode : Decoder Output := do
  let value ← Decoder.u64
  let scriptPubkey ← Script.decode
  pure { value, scriptPubkey }

end Output

/-! ## Transactions -/

namespace Transaction

def isSegwit (tx : Transaction) : Bool :=
  tx.inputs.isEmpty || tx.inputs.toList.any fun i => !i.witness.isEmpty

def encode (tx : Transaction) : Bytes :=
  Bytes.i32 tx.version ++
    (if tx.isSegwit then
      [0x00, 0x01] ++ Counted.encode Input.encode tx.inputs ++ Counted.encode Output.encode tx.outputs ++
        tx.inputs.toList.flatMap fun i => i.witness.encode
    else Counted.encode Input.encode tx.inputs ++ Counted.encode Output.encode tx.outputs) ++
    Bytes.u32 tx.lockTime

/-- What follows the flag of the segwit form. -/
def decodeSegwit (version : Int32) : Decoder Transaction := do
  let inputs ← Counted.decode Input.decode
  let outputs ← Counted.decode Output.decode
  let witnessed ← Input.decodeWitnesses inputs.toList
  if !witnessed.1.isEmpty && witnessed.1.all (fun i => i.witness.isEmpty) then throw .noWitnesses
  else
    let lockTime ← Decoder.u32
    pure { version, lockTime, outputs, inputs := ⟨witnessed.1, by rw [witnessed.2]; exact inputs.length_lt⟩ }

def decode : Decoder Transaction := do
  let version ← Decoder.i32
  let inputs ← Counted.decode Input.decode
  if inputs.isEmpty then
    let flag ← Decoder.u8
    if flag = 1 then decodeSegwit version else throw (.unsupportedSegwitFlag flag)
  else
    let outputs ← Counted.decode Output.decode
    let lockTime ← Decoder.u32
    pure { version, lockTime, inputs, outputs }

end Transaction

end ChainQuery
