/-
  ChainQuery.Proofs.Transaction.SelfDelimiting — a transaction says where it ends.

  Every part of a transaction is read by a decoder that bytes after it do not change, the
  parts that depend on earlier ones too: the flag after a count of zero, as many witnesses
  as there were inputs, the items of a witness with what is left of the limit. So is the
  transaction, and a reply that is one transaction can be neither longer nor shorter.

  Proved:
  - `Witness.stable_witness`, `Input.stable_witnesses`: the witnesses and their limit, which
    is checked before an item is read.
  - `stable_transaction`: both forms of a transaction.
  - `Reply.transaction_self_delimiting`: a reply that is a transaction, with more bytes and
    with fewer; and what a read in the middle of a payload makes of more bytes.
-/

import ChainQuery.Proofs.Payload.Stable
import ChainQuery.Proofs.Transaction.RoundTrip

namespace ChainQuery

open Decoder

/-! ## The parts of a transaction -/

theorem OutPoint.stable_point : Stable OutPoint.decode := by
  refine stable_bind (stable_fixed 32) ?_
  intro hash
  exact stable_bind stable_u32 fun index => stable_pure _

namespace Witness

theorem stable_items (limit n used : Nat) : Stable (items limit n used) := by
  induction n generalizing used with
  | zero => exact stable_pure _
  | succ n ih =>
    refine stable_bind CompactSize.stable_size ?_
    intro size
    -- the two refusals come before the item, and read no byte
    refine stable_ite (stable_throw _) (stable_ite (stable_throw _) ?_)
    refine stable_bind (Script.stable_ofLength size) ?_
    intro x
    exact stable_bind (ih _) fun xs => stable_pure _

theorem stable_witness : Stable decode := by
  refine stable_bind CompactSize.stable_size ?_
  intro count
  refine stable_ite (stable_throw _) ?_
  exact stable_bind (stable_items _ _ _) fun xs => stable_pure _

end Witness

namespace Input

theorem stable_input : Stable decode := by
  refine stable_bind OutPoint.stable_point ?_
  intro previousOutput
  refine stable_bind Script.stable_script ?_
  intro scriptSig
  exact stable_bind stable_u32 fun sequence => stable_pure _

theorem stable_witnesses (is : List Input) : Stable (decodeWitnesses is) := by
  induction is with
  | nil => exact stable_pure _
  | cons i is ih =>
    refine stable_bind Witness.stable_witness ?_
    intro witness
    exact stable_bind ih fun is' => stable_pure _

end Input

theorem Output.stable_output : Stable decode := by
  refine stable_bind stable_u64 ?_
  intro value
  exact stable_bind Script.stable_script fun scriptPubkey => stable_pure _

/-! ## Both forms -/

namespace Transaction

theorem stable_segwit (version : Int32) : Stable (decodeSegwit version) := by
  refine stable_bind (Counted.stable_counted Input.stable_input) ?_
  intro inputs
  refine stable_bind (Counted.stable_counted Output.stable_output) ?_
  intro outputs
  refine stable_bind (Input.stable_witnesses inputs.toList) ?_
  intro witnessed
  refine stable_ite (stable_throw _) ?_
  exact stable_bind stable_u32 fun lockTime => stable_pure _

theorem stable_transaction : Stable decode := by
  refine stable_bind stable_i32 ?_
  intro version
  refine stable_bind (Counted.stable_counted Input.stable_input) ?_
  intro inputs
  refine stable_ite ?_ ?_
  · refine stable_bind stable_u8 ?_
    intro flag
    exact stable_ite (stable_segwit version) (stable_throw _)
  · refine stable_bind (Counted.stable_counted Output.stable_output) ?_
    intro outputs
    exact stable_bind stable_u32 fun lockTime => stable_pure _

end Transaction

/-! ## Replies -/

theorem Decode.transaction_append {payload : Bytes} {tx : Transaction} (h : transaction payload = .ok tx) {more : Bytes}
    (hmore : more ≠ []) : transaction (payload ++ more) = .error (.trailingBytes more.length) :=
  Reader.whole_append (Reader.stable_consensus Transaction.stable_transaction) h hmore

theorem Decode.transaction_cut_short {payload : Bytes} {tx : Transaction} (h : transaction payload = .ok tx)
    {cut : Bytes} (hcut : cut <+: payload) (hne : cut ≠ payload) : transaction cut = .error (.consensus .endOfInput) :=
  Reader.whole_cut_short Transaction.stable_transaction h hcut hne

namespace Reply

theorem decode_of_transaction {command : Command} (h : command = .fetchTransaction ∨ command = .poolFetchTransaction)
    (payload : Bytes) : (decode command payload).value = (Decode.transaction payload).map .transaction := by
  rcases h with rfl | rfl
  · rfl
  · rfl

/-- A reply that is a transaction is the transaction and no more: bytes after it are all
    left over, and without its last bytes it ends too early, wherever it is cut. Inside a
    longer payload, more bytes at the end change neither the transaction that is read, nor
    the bytes it takes, nor a fault other than an early end. -/
theorem transaction_self_delimiting {command : Command}
    (hcommand : command = .fetchTransaction ∨ command = .poolFetchTransaction) :
    (∀ payload reply, (decode command payload).value = .ok reply →
      (∀ more, more ≠ [] → (decode command (payload ++ more)).value = .error (.trailingBytes more.length)) ∧
      ∀ cut, cut <+: payload → cut ≠ payload → (decode command cut).value = .error (.consensus .endOfInput)) ∧
    ∀ payload more,
      (∀ tx rest, (Reader.consensus Transaction.decode).run payload = (.ok tx, rest) →
        (Reader.consensus Transaction.decode).run (payload ++ more) = (.ok tx, rest ++ more)) ∧
      ∀ e rest, (Reader.consensus Transaction.decode).run payload = (.error (.consensus e), rest) → e ≠ .endOfInput →
        (Reader.consensus Transaction.decode).run (payload ++ more) = (.error (.consensus e), rest ++ more) := by
  constructor
  · intro payload reply h
    rw [decode_of_transaction hcommand] at h
    cases htx : Decode.transaction payload with
    | error e =>
      rw [htx] at h
      cases h
    | ok tx =>
      constructor
      · intro more hmore
        rw [decode_of_transaction hcommand, Decode.transaction_append htx hmore]
        rfl
      · intro cut hcut hne
        rw [decode_of_transaction hcommand, Decode.transaction_cut_short htx hcut hne]
        rfl
  · intro payload more
    have hstable := Reader.stable_consensus Transaction.stable_transaction
    constructor
    · intro tx rest h
      exact hstable.ok h more
    · intro e rest h he
      exact hstable.error h he more

/-- One input, whose witness is one item of two bytes, and one output. -/
def witnessed : Transaction :=
  { version := 2
    lockTime := 0
    inputs := ⟨[{
      previousOutput := ⟨FixedBytes.replicate 32 0xaa, 1⟩
      scriptSig := Counted.empty
      sequence := 0xffffffff
      witness := ⟨[⟨[7, 7], by decide⟩], by decide⟩ }], by decide⟩
    outputs := ⟨[{ value := 500, scriptPubkey := ⟨[0x6a], by decide⟩ }], by decide⟩ }

/-- Its reply, longer by a byte and cut within the witness; and a flag that is wrong with or
    without what would follow it. -/
theorem witnessed_delimited :
    (decode .fetchTransaction witnessed.encode).value = .ok (.transaction witnessed) ∧
    (decode .fetchTransaction (witnessed.encode ++ [0])).value = .error (.trailingBytes 1) ∧
    (decode .fetchTransaction (witnessed.encode.take 62)).value = .error (.consensus .endOfInput) ∧
    (Reader.consensus Transaction.decode).run ([1, 0, 0, 0, 0, 2] ++ [9]) =
      (.error (.consensus (.unsupportedSegwitFlag 2)), [1, 0, 0, 0, 0, 2] ++ [9]) := by
  have hfits : ∀ i ∈ witnessed.inputs.toList, Witness.itemBytes i.witness.toList ≤ 4000000 := by decide
  have hreply : (decode .fetchTransaction witnessed.encode).value = .ok (.transaction witnessed) := by
    rw [decode_of_transaction (Or.inl rfl), Decode.transaction_eq_ok_iff.mpr ⟨rfl, hfits⟩]
    rfl
  obtain ⟨hwhole, hmore⟩ := @transaction_self_delimiting .fetchTransaction (Or.inl rfl)
  obtain ⟨hlong, hcut⟩ := hwhole _ _ hreply
  refine ⟨hreply, hlong [0] (by decide), hcut _ (List.take_prefix _ _) (by decide), ?_⟩
  exact (hmore [1, 0, 0, 0, 0, 2] [9]).2 (.unsupportedSegwitFlag 2) _ rfl (by decide)

end Reply

end ChainQuery
