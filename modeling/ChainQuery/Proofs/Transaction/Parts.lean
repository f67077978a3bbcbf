/-
  ChainQuery.Proofs.Transaction.Parts — the inputs and outputs of a transaction.

  An input is written in two places: among the inputs without its witness (`bare`), and
  with its witness alone after the outputs. So the inputs are read in two rounds, and the
  second puts a witness to each of the inputs the first gave.

  Proved:
  - `decodes_input`, `decodes_output`: the first round, and the outputs.
  - `decodeWitnesses_eq_ok_iff`: the second round gives the inputs that are the given ones
    but for their witnesses, if these fit; `decodeWitnesses_too_large`: it fails by the
    limit otherwise.
  - `witnessBytes_cancel`: inputs equal but for their witnesses are told apart by these.
-/

import ChainQuery.Proofs.Transaction.Witness

namespace ChainQuery

open Decoder

theorem OutPoint.decodes_point : Decodes OutPoint.decode OutPoint.encode fun _ => True := by
  refine Decodes.congr ((decodes_fixed 32).field hash fun h => decodes_u32.field index fun i =>
    decodes_pure fun p => ?_) fun p => ?_
  · cases p
    simp
  · simp [encode]

/-! ## Inputs -/

namespace Input

/-- The part of an input that stands among the inputs. -/
def bare (i : Input) : Input := { i with witness := Counted.empty }

@[simp] theorem encode_bare (i : Input) : i.bare.encode = i.encode := rfl

theorem bare_eq_self {i : Input} (h : i.witness = Counted.empty) : i.bare = i := by
  rw [bare, ← h]

/-- An input is what it is but for its witness, and its witness. -/
theorem with_witness_eq {i i' : Input} (h : i'.bare = i.bare) : { i with witness := i'.witness } = i' := by
  show { i.bare with witness := i'.witness } = i'
  rw [← h]
  rfl

theorem map_bare_eq_self {is : List Input} (h : ∀ i ∈ is, i.witness = Counted.empty) : is.map bare = is :=
  (List.map_congr_left fun i hi => bare_eq_self (h i hi)).trans (List.map_id _)

theorem bare_witness {is : List Input} : ∀ i ∈ is.map bare, i.witness = Counted.empty := by
  intro i hi
  obtain ⟨j, -, rfl⟩ := List.mem_map.mp hi
  rfl

theorem decodes_input : Decodes decode encode fun i => i.witness = Counted.empty := by
  refine Decodes.congr (OutPoint.decodes_point.field previousOutput fun p =>
    Script.decodes_script.field scriptSig fun s => decodes_u32.field sequence fun n =>
      decodes_pure fun i => ?_) fun i => ?_
  · refine ⟨fun ⟨⟨⟨hwitness, hp⟩, hs⟩, hn⟩ => ?_, ?_⟩
    · rw [← bare_eq_self hwitness, ← hp, ← hs, ← hn]
      rfl
    · rintro rfl
      exact ⟨⟨⟨rfl, rfl⟩, rfl⟩, rfl⟩
  · simp [encode]

def witnessBytes (is : List Input) : Bytes := is.flatMap fun i => i.witness.encode

theorem decodeWitnesses_eq_ok_iff {is : List Input} {is' : { is' : List Input // is'.length = is.length }}
    {input rest : Bytes} :
    decodeWitnesses is input = .ok (is', rest) ↔
      is'.1.map bare = is.map bare ∧ input = witnessBytes is'.1 ++ rest ∧ ∀ i ∈ is'.1, i.witness.Fits := by
  induction is generalizing input with
  | nil =>
    obtain ⟨is', his'⟩ := is'
    obtain rfl := List.length_eq_zero_iff.mp his'
    rw [decodeWitnesses, pure_eq_ok_iff]
    simp [witnessBytes]
  | cons i is ih =>
    obtain ⟨is', his'⟩ := is'
    rw [decodeWitnesses, bind_eq_ok_iff]
    constructor
    · rintro ⟨w, mid, hw, h⟩
      obtain ⟨ws, mid', hws, hp⟩ := bind_eq_ok_iff.mp h
      obtain ⟨heq, rfl⟩ := pure_eq_ok_iff.mp hp
      obtain rfl := congrArg Subtype.val heq
      obtain ⟨rfl, hfits⟩ := (Witness.decodes_witness _ _ _).mp hw
      obtain ⟨hbare, rfl, hall⟩ := ih.mp hws
      refine ⟨?_, by simp [witnessBytes], List.forall_mem_cons.mpr ⟨hfits, hall⟩⟩
      rw [List.map_cons, List.map_cons, hbare]
      rfl
    · rintro ⟨hbare, rfl, hall⟩
      cases is' with
      | nil => simp at his'
      | cons i' is' =>
        have hlen : is'.length = is.length := by simpa using his'
        obtain ⟨hi, htail⟩ := List.cons.inj hbare
        obtain ⟨hfits, hall⟩ := List.forall_mem_cons.mp hall
        refine ⟨i'.witness, witnessBytes is' ++ rest, ?_, ?_⟩
        · rw [Witness.decodes_witness]
          exact ⟨by simp [witnessBytes], hfits⟩
        · refine bind_eq_ok_iff.mpr ⟨⟨is', hlen⟩, rest, ih.mpr ⟨htail, rfl, hall⟩, ?_⟩
          refine pure_eq_ok_iff.mpr ⟨Subtype.ext ?_, rfl⟩
          show { i with witness := i'.witness } :: is' = i' :: is'
          rw [with_witness_eq hi]

/-- The first witness that does not fit ends the reading. -/
theorem decodeWitnesses_too_large {is : List Input} (h : ¬ ∀ i ∈ is, i.witness.Fits) (rest : Bytes) :
    ∃ requested, 4000000 < requested ∧
      decodeWitnesses (is.map bare) (witnessBytes is ++ rest) = .error (.oversizedAllocation requested) := by
  induction is with
  | nil => simp at h
  | cons i is ih =>
    have happend : witnessBytes (i :: is) ++ rest = i.witness.encode ++ (witnessBytes is ++ rest) := by
      simp [witnessBytes]
    rw [List.map_cons, decodeWitnesses, happend]
    by_cases hi : i.witness.Fits
    · have htail : ¬ ∀ j ∈ is, j.witness.Fits := fun hall => h (List.forall_mem_cons.mpr ⟨hi, hall⟩)
      obtain ⟨requested, hreq, herr⟩ := ih htail
      refine ⟨requested, hreq, ?_⟩
      rw [bind_of_ok (Witness.decodes_witness.append hi _)]
      exact bind_of_error herr
    · obtain ⟨requested, hreq, herr⟩ := Witness.decode_too_large hi (witnessBytes is ++ rest)
      exact ⟨requested, hreq, bind_of_error herr⟩

theorem witnessBytes_cancel {is is' : List Input} (hbare : is.map bare = is'.map bare) {xs ys : Bytes}
    (h : witnessBytes is ++ xs = witnessBytes is' ++ ys) : is = is' ∧ xs = ys := by
  induction is generalizing is' with
  | nil =>
    obtain rfl := List.map_eq_nil_iff.mp hbare.symm
    exact ⟨rfl, h⟩
  | cons i is ih =>
    cases is' with
    | nil => cases hbare
    | cons i' is' =>
      obtain ⟨hi, htail⟩ := List.cons.inj hbare
      have h : i.witness.encode ++ (witnessBytes is ++ xs) = i'.witness.encode ++ (witnessBytes is' ++ ys) := by
        simpa [witnessBytes] using h
      obtain ⟨hw, hrest⟩ := Witness.encode_cancel h
      obtain ⟨rfl, hxs⟩ := ih htail hrest
      have : i = i' := by
        calc i = { i with witness := i'.witness } := by rw [← hw]
          _ = i' := with_witness_eq hi.symm
      exact ⟨by rw [this], hxs⟩

end Input

/-! ## Outputs -/

theorem Output.decodes_output : Decodes Output.decode Output.encode fun _ => True := by
  refine Decodes.congr (decodes_u64.field value fun v => Script.decodes_script.field scriptPubkey fun s =>
    decodes_pure fun o => ?_) fun o => ?_
  · cases o
    simp
  · simp [encode]

end ChainQuery
