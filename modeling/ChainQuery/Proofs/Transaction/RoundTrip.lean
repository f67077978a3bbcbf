/-
  ChainQuery.Proofs.Transaction.RoundTrip — a transaction and its one encoding.

  The byte after the version tells the form: zero announces the segwit form, and in the
  legacy form it is the first byte of a count that is not zero. In the segwit form an input
  is determined by two places of the encoding, in the legacy form there is no witness to
  look for.

  Proved:
  - `decodes_transaction`: what decodes is the encoding of a transaction whose witnesses
    all fit, and the transaction is given back.
  - `decode_too_large`: the encoding of any other transaction fails by the limit.
  - `encode_injective`: transactions have different encodings, whether or not they fit.
  - `payload_round_trip`: so much for the payloads of requests that carry a transaction,
    and for the replies that do.
-/

import ChainQuery.Proofs.Payload.Reads
import ChainQuery.Proofs.Transaction.Parts
import ChainQuery.Reply
import ChainQuery.Request

namespace ChainQuery

open Decoder

/-! ## Transactions -/

namespace Transaction

/-- Whether the witnesses of all inputs are within the limit. -/
def WitnessesFit (tx : Transaction) : Prop := ∀ i ∈ tx.inputs.toList, i.witness.Fits

/-- The inputs as they stand among themselves. -/
def bareInputs (is : Counted Input) : Counted Input :=
  ⟨is.toList.map Input.bare, by rw [List.length_map]; exact is.length_lt⟩

def inputBytes (is : Counted Input) : Bytes := Counted.encode Input.encode is

def outputBytes (os : Counted Output) : Bytes := Counted.encode Output.encode os

theorem inputBytes_bareInputs (is : Counted Input) : inputBytes (bareInputs is) = inputBytes is := by
  have hsize : (bareInputs is).size = is.size := by
    rw [Counted.size, bareInputs, List.length_map]
    rfl
  have hitems : (bareInputs is).toList.flatMap Input.encode = is.toList.flatMap Input.encode := by
    rw [bareInputs, List.flatMap_map]
    rfl
  rw [inputBytes, Counted.encode, hsize, hitems]
  rfl

theorem decodes_inputs :
    Decodes (Counted.decode Input.decode) inputBytes fun is => ∀ i ∈ is.toList, i.witness = Counted.empty :=
  Counted.decodes_counted Input.decodes_input

theorem decodes_outputs : Decodes (Counted.decode Output.decode) outputBytes fun os => ∀ o ∈ os.toList, True :=
  Counted.decodes_counted Output.decodes_output

theorem decode_inputBytes (is : Counted Input) (rest : Bytes) :
    Counted.decode Input.decode (inputBytes is ++ rest) = .ok (bareInputs is, rest) := by
  rw [← inputBytes_bareInputs]
  exact decodes_inputs.append Input.bare_witness rest

/-- The zero of the segwit form is read as the number of no inputs. -/
theorem decode_marker (rest : Bytes) : Counted.decode Input.decode (0 :: rest) = .ok (Counted.empty, rest) :=
  decode_inputBytes Counted.empty rest

theorem decode_outputBytes (os : Counted Output) (rest : Bytes) :
    Counted.decode Output.decode (outputBytes os ++ rest) = .ok (os, rest) :=
  decodes_outputs.append (fun _ _ => trivial) rest

/-! ### The two forms -/

theorem encode_segwit {tx : Transaction} (h : tx.isSegwit = true) :
    tx.encode = Bytes.i32 tx.version ++ (0 :: 1 :: (inputBytes tx.inputs ++ (outputBytes tx.outputs ++
      (Input.witnessBytes tx.inputs.toList ++ Bytes.u32 tx.lockTime)))) := by
  rw [encode, if_pos h]
  simp [inputBytes, outputBytes, Input.witnessBytes]

theorem encode_legacy {tx : Transaction} (h : tx.isSegwit = false) :
    tx.encode = Bytes.i32 tx.version ++ (inputBytes tx.inputs ++ (outputBytes tx.outputs ++ Bytes.u32 tx.lockTime)) := by
  rw [encode, h, if_neg Bool.false_ne_true]
  simp [inputBytes, outputBytes]

theorem isSegwit_eq_false_iff {tx : Transaction} :
    tx.isSegwit = false ↔ tx.inputs.toList ≠ [] ∧ ∀ i ∈ tx.inputs.toList, i.witness = Counted.empty := by
  have hempty : ∀ w : Witness, w.isEmpty = true ↔ w = Counted.empty := by
    intro w
    constructor
    · intro h
      exact Counted.ext (List.isEmpty_iff.mp h)
    · rintro rfl
      rfl
  simp [isSegwit, Counted.isEmpty, ← hempty]

theorem fits_of_legacy {tx : Transaction} (h : tx.isSegwit = false) : tx.WitnessesFit := by
  intro i hi
  rw [(isSegwit_eq_false_iff.mp h).2 i hi]
  exact Nat.zero_le _

/-- Inputs, if there are any, are not written with a zero in front. -/
theorem inputBytes_head {is : Counted Input} (h : is.toList ≠ []) : ∃ b bs, inputBytes is = b :: bs ∧ b ≠ 0 := by
  obtain ⟨b, bs, hsize, hzero⟩ := CompactSize.encode_head is.size
  refine ⟨b, bs ++ is.toList.flatMap Input.encode, ?_, ?_⟩
  · rw [inputBytes, Counted.encode, hsize]
    rfl
  · intro hb
    have hlen := is.toNat_size
    rw [hzero hb] at hlen
    exact h (List.length_eq_zero_iff.mp hlen.symm)

theorem inputBytes_nil {is : Counted Input} (h : is.toList = []) : inputBytes is = [0] := by
  obtain rfl : is = Counted.empty := Counted.ext h
  rfl

/-! ### What decodes -/

theorem decode_segwit (version : Int32) (bs : Bytes) :
    decode (Bytes.i32 version ++ 0 :: 1 :: bs) = decodeSegwit version bs := by
  rw [decode, bind_of_ok (decodes_i32.append trivial _), bind_of_ok (decode_marker _)]
  rfl

theorem decodeSegwit_eq_ok_iff {version : Int32} {input rest : Bytes} {tx : Transaction} :
    decodeSegwit version input = .ok (tx, rest) ↔
      input = inputBytes tx.inputs ++ (outputBytes tx.outputs ++
        (Input.witnessBytes tx.inputs.toList ++ (Bytes.u32 tx.lockTime ++ rest))) ∧
      tx.version = version ∧ tx.isSegwit = true ∧ tx.WitnessesFit := by
  rw [decodeSegwit, bind_eq_ok_iff]
  constructor
  · rintro ⟨bare, mid, hinputs, h1⟩
    obtain ⟨outputs, mid', houtputs, h2⟩ := bind_eq_ok_iff.mp h1
    obtain ⟨is, mid'', hwitnesses, h3⟩ := bind_eq_ok_iff.mp h2
    obtain ⟨rfl, hbare⟩ := (decodes_inputs _ _ _).mp hinputs
    obtain ⟨rfl, -⟩ := (decodes_outputs _ _ _).mp houtputs
    obtain ⟨hsame, rfl, hfits⟩ := Input.decodeWitnesses_eq_ok_iff.mp hwitnesses
    by_cases hnone : (!is.1.isEmpty && is.1.all fun i => i.witness.isEmpty) = true
    · rw [if_pos hnone] at h3
      exact absurd h3 throw_ne_ok
    rw [if_neg hnone] at h3
    obtain ⟨lockTime, last, hlock, hp⟩ := bind_eq_ok_iff.mp h3
    obtain ⟨rfl, rfl⟩ := pure_eq_ok_iff.mp hp
    obtain ⟨rfl, -⟩ := (decodes_u32 _ _ _).mp hlock
    refine ⟨?_, rfl, ?_, hfits⟩
    · -- the inputs as read first are those given back, less their witnesses
      have hback : inputBytes bare = inputBytes ⟨is.1, by rw [is.2]; exact bare.length_lt⟩ := by
        rw [← inputBytes_bareInputs ⟨is.1, _⟩]
        refine congrArg inputBytes (Counted.ext ?_)
        show bare.toList = is.1.map Input.bare
        rw [hsame, Input.map_bare_eq_self hbare]
      rw [hback]
    · cases hseg : Transaction.isSegwit _ with
      | true => rfl
      | false =>
        obtain ⟨hne, hall⟩ := isSegwit_eq_false_iff.mp hseg
        refine absurd ?_ hnone
        rw [Bool.and_eq_true, List.all_eq_true]
        refine ⟨by simpa using hne, fun i hi => ?_⟩
        rw [hall i hi]
        rfl
  · rintro ⟨rfl, rfl, hseg, hfits⟩
    refine ⟨bareInputs tx.inputs, _, decode_inputBytes _ _, ?_⟩
    refine bind_eq_ok_iff.mpr ⟨tx.outputs, _, decode_outputBytes _ _, ?_⟩
    have hlen : tx.inputs.toList.length = (bareInputs tx.inputs).toList.length := (List.length_map _).symm
    refine bind_eq_ok_iff.mpr ⟨⟨tx.inputs.toList, hlen⟩, Bytes.u32 tx.lockTime ++ rest, ?_, ?_⟩
    · rw [Input.decodeWitnesses_eq_ok_iff]
      refine ⟨?_, rfl, hfits⟩
      exact (Input.map_bare_eq_self Input.bare_witness).symm
    · have hsome : ¬ (!tx.inputs.toList.isEmpty && tx.inputs.toList.all fun i => i.witness.isEmpty) = true := by
        intro h
        rw [Bool.and_eq_true, List.all_eq_true] at h
        have hlegacy : tx.isSegwit = false := by
          refine isSegwit_eq_false_iff.mpr ⟨by simpa using h.1, fun i hi => ?_⟩
          exact Counted.ext (List.isEmpty_iff.mp (h.2 i hi))
        rw [hlegacy] at hseg
        cases hseg
      rw [if_neg hsome]
      exact bind_eq_ok_iff.mpr ⟨tx.lockTime, rest, decodes_u32.append trivial rest, rfl⟩

theorem decodes_transaction : Decodes decode encode WitnessesFit := by
  intro input tx rest
  rw [decode, bind_eq_ok_iff]
  constructor
  · rintro ⟨version, mid, hversion, h1⟩
    obtain ⟨inputs, mid', hinputs, h2⟩ := bind_eq_ok_iff.mp h1
    obtain ⟨rfl, -⟩ := (decodes_i32 _ _ _).mp hversion
    obtain ⟨rfl, hbare⟩ := (decodes_inputs _ _ _).mp hinputs
    by_cases hempty : inputs.isEmpty = true
    · rw [if_pos hempty] at h2
      obtain ⟨flag, mid'', hflag, h3⟩ := bind_eq_ok_iff.mp h2
      obtain rfl := u8_eq_ok_iff.mp hflag
      by_cases hone : flag = 1
      · rw [if_pos hone] at h3
        obtain ⟨rfl, rfl, hseg, hfits⟩ := decodeSegwit_eq_ok_iff.mp h3
        refine ⟨?_, hfits⟩
        rw [inputBytes_nil (List.isEmpty_iff.mp hempty), hone, encode_segwit hseg]
        simp
      · rw [if_neg hone] at h3
        exact absurd h3 throw_ne_ok
    · rw [if_neg hempty] at h2
      obtain ⟨outputs, mid'', houtputs, h3⟩ := bind_eq_ok_iff.mp h2
      obtain ⟨lockTime, last, hlock, hp⟩ := bind_eq_ok_iff.mp h3
      obtain ⟨rfl, rfl⟩ := pure_eq_ok_iff.mp hp
      obtain ⟨rfl, -⟩ := (decodes_outputs _ _ _).mp houtputs
      obtain ⟨rfl, -⟩ := (decodes_u32 _ _ _).mp hlock
      have hlegacy : Transaction.isSegwit ⟨version, lockTime, inputs, outputs⟩ = false := by
        refine isSegwit_eq_false_iff.mpr ⟨?_, hbare⟩
        intro hnil
        exact hempty (List.isEmpty_iff.mpr hnil)
      refine ⟨?_, fits_of_legacy hlegacy⟩
      rw [encode_legacy hlegacy]
      simp
  · rintro ⟨rfl, hfits⟩
    cases hseg : tx.isSegwit with
    | true =>
      rw [← bind_eq_ok_iff]
      show decode (tx.encode ++ rest) = .ok (tx, rest)
      rw [encode_segwit hseg, List.append_assoc, List.cons_append, List.cons_append, decode_segwit,
        decodeSegwit_eq_ok_iff]
      exact ⟨by simp, rfl, hseg, hfits⟩
    | false =>
      obtain ⟨hne, hall⟩ := isSegwit_eq_false_iff.mp hseg
      rw [encode_legacy hseg, List.append_assoc, List.append_assoc, List.append_assoc]
      refine ⟨tx.version, _, decodes_i32.append trivial _, ?_⟩
      refine bind_eq_ok_iff.mpr ⟨tx.inputs, _, decodes_inputs.append hall _, ?_⟩
      have hsome : ¬ tx.inputs.isEmpty = true := by
        intro h
        exact hne (List.isEmpty_iff.mp h)
      rw [if_neg hsome]
      refine bind_eq_ok_iff.mpr ⟨tx.outputs, _, decode_outputBytes _ _, ?_⟩
      exact bind_eq_ok_iff.mpr ⟨tx.lockTime, rest, decodes_u32.append trivial rest, rfl⟩

/-- A witness past the limit is met before anything else can be wrong. -/
theorem decode_too_large {tx : Transaction} (h : ¬ tx.WitnessesFit) (rest : Bytes) :
    ∃ requested, 4000000 < requested ∧ decode (tx.encode ++ rest) = .error (.oversizedAllocation requested) := by
  have hseg : tx.isSegwit = true := by
    cases hseg : tx.isSegwit with
    | true => rfl
    | false => exact absurd (fits_of_legacy hseg) h
  obtain ⟨requested, hreq, herr⟩ := Input.decodeWitnesses_too_large h (Bytes.u32 tx.lockTime ++ rest)
  refine ⟨requested, hreq, ?_⟩
  rw [encode_segwit hseg, List.append_assoc, List.cons_append, List.cons_append, decode_segwit, decodeSegwit,
    List.append_assoc, bind_of_ok (decode_inputBytes _ _), List.append_assoc, bind_of_ok (decode_outputBytes _ _),
    List.append_assoc]
  exact bind_of_error herr

/-! ### One encoding for each transaction -/

theorem inputBytes_cancel {is is' : Counted Input} {xs ys : Bytes} (h : inputBytes is ++ xs = inputBytes is' ++ ys) :
    is.toList.map Input.bare = is'.toList.map Input.bare ∧ xs = ys := by
  rw [← inputBytes_bareInputs is, ← inputBytes_bareInputs is'] at h
  obtain ⟨hbare, hrest⟩ := decodes_inputs.cancel Input.bare_witness Input.bare_witness h
  exact ⟨congrArg Counted.toList hbare, hrest⟩

theorem encode_segwit_ne_legacy {tx tx' : Transaction} (h : tx.isSegwit = true) (h' : tx'.isSegwit = false) :
    tx.encode ≠ tx'.encode := by
  intro heq
  rw [encode_segwit h, encode_legacy h'] at heq
  obtain ⟨-, heq⟩ := decodes_i32.cancel trivial trivial heq
  obtain ⟨b, bs, hinputs, hb⟩ := inputBytes_head (isSegwit_eq_false_iff.mp h').1
  rw [hinputs] at heq
  exact hb (List.cons.inj heq).1.symm

theorem encode_injective {tx tx' : Transaction} (h : tx.encode = tx'.encode) : tx = tx' := by
  have hfields : tx.version = tx'.version ∧ tx.inputs = tx'.inputs ∧ tx.outputs = tx'.outputs ∧
      tx.lockTime = tx'.lockTime := by
    cases hseg : tx.isSegwit with
    | true =>
      cases hseg' : tx'.isSegwit with
      | false => exact absurd h (encode_segwit_ne_legacy hseg hseg')
      | true =>
        rw [encode_segwit hseg, encode_segwit hseg'] at h
        obtain ⟨hversion, h⟩ := decodes_i32.cancel trivial trivial h
        obtain ⟨hbare, h⟩ := inputBytes_cancel (List.cons.inj (List.cons.inj h).2).2
        obtain ⟨houtputs, h⟩ := decodes_outputs.cancel (fun _ _ => trivial) (fun _ _ => trivial) h
        obtain ⟨hinputs, h⟩ := Input.witnessBytes_cancel hbare h
        exact ⟨hversion, Counted.ext hinputs, houtputs, decodes_u32.encode_inj trivial trivial h⟩
    | false =>
      cases hseg' : tx'.isSegwit with
      | true => exact absurd h.symm (encode_segwit_ne_legacy hseg' hseg)
      | false =>
        have hnone := (isSegwit_eq_false_iff.mp hseg).2
        have hnone' := (isSegwit_eq_false_iff.mp hseg').2
        rw [encode_legacy hseg, encode_legacy hseg'] at h
        obtain ⟨hversion, h⟩ := decodes_i32.cancel trivial trivial h
        obtain ⟨hinputs, h⟩ := decodes_inputs.cancel hnone hnone' h
        obtain ⟨houtputs, h⟩ := decodes_outputs.cancel (fun _ _ => trivial) (fun _ _ => trivial) h
        exact ⟨hversion, hinputs, houtputs, decodes_u32.encode_inj trivial trivial h⟩
  obtain ⟨hversion, hinputs, houtputs, hlock⟩ := hfields
  cases tx
  cases tx'
  cases hversion
  cases hinputs
  cases houtputs
  cases hlock
  rfl

end Transaction

/-! ## Payloads -/

theorem Transaction.reads_transaction {tx : Transaction} (h : tx.WitnessesFit) :
    (Reader.consensus Transaction.decode).Reads tx.encode tx :=
  fun rest => Reader.consensus_of_ok (Transaction.decodes_transaction.append h rest)

theorem Decode.transaction_eq_ok_iff {payload : Bytes} {tx : Transaction} :
    Decode.transaction payload = .ok tx ↔ payload = tx.encode ∧ tx.WitnessesFit := by
  rw [Decode.transaction, Reader.whole_eq_ok_iff, Reader.consensus_eq_ok_iff, Transaction.decodes_transaction,
    List.append_nil]

theorem Decode.transaction_too_large {tx : Transaction} (h : ¬ tx.WitnessesFit) :
    ∃ requested, 4000000 < requested ∧
      Decode.transaction tx.encode = .error (.consensus (.oversizedAllocation requested)) := by
  obtain ⟨requested, hreq, herr⟩ := Transaction.decode_too_large h []
  rw [List.append_nil] at herr
  exact ⟨requested, hreq, Reader.whole_of_error (Reader.consensus_of_error herr)⟩

/-- A transaction sent for broadcasting or validation reads back exactly if every input's
    witness items, each with its length, come to at most four million bytes, and otherwise
    the read asks for too much; and no payload is read as a transaction other than the
    transaction's own. -/
theorem Transaction.payload_round_trip (tx : Transaction) :
    (∀ r ∈ [Request.broadcastTransaction tx, Request.validateTransaction tx],
      (Decode.transaction r.payload = .ok tx ↔
        ∀ i ∈ tx.inputs.toList, Witness.itemBytes i.witness.toList ≤ 4000000) ∧
      (Decode.transaction r.payload = .ok tx ∨
        ∃ requested, 4000000 < requested ∧
          Decode.transaction r.payload = .error (.consensus (.oversizedAllocation requested)))) ∧
    ∀ payload, Decode.transaction payload = .ok tx → tx.encode = payload := by
  have hread : Decode.transaction tx.encode = .ok tx ↔ tx.WitnessesFit := by
    rw [Decode.transaction_eq_ok_iff]
    exact and_iff_right rfl
  constructor
  · intro r hr
    have hpayload : r.payload = tx.encode := by
      rcases List.mem_cons.mp hr with rfl | hr
      · rfl
      · rw [List.mem_singleton.mp hr]
        rfl
    rw [hpayload]
    refine ⟨hread, ?_⟩
    by_cases hfit : tx.WitnessesFit
    · exact Or.inl (hread.mpr hfit)
    · exact Or.inr (Decode.transaction_too_large hfit)
  · intro payload h
    exact (Decode.transaction_eq_ok_iff.mp h).1.symm

/-- Without inputs, a transaction is in the segwit form. -/
theorem Transaction.inputless_round_trip :
    Decode.transaction [1, 0, 0, 0, 0, 1, 0, 0, 0, 0, 0, 0] = .ok ⟨1, 0, Counted.empty, Counted.empty⟩ :=
  ((payload_round_trip ⟨1, 0, Counted.empty, Counted.empty⟩).1 _ List.mem_cons_self).1.mpr
    fun _ hi => absurd hi List.not_mem_nil

end ChainQuery
