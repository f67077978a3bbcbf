/-
  ChainQuery.Proofs.Payload.Fields — what a read of one field does.

  A kind reads the fields of its own type, and a point can be read in two ways
  (`FieldKind.Reads`). Not every field can be read: a transaction's witnesses must be
  within the limit, and an input is read without its witness (`Field.Readable`). Whatever
  the kind, a read that succeeds takes the written form of what it gives and no more. A
  read that fails takes nothing, but for a point whose hash is there and whose index is
  not: its hash is taken.

  Proved:
  - `decodes_read`: each kind gives exactly the readable fields it reads, off their written
    forms.
  - `read_eq_error_iff`: when a plain read fails, and how.
  - `rest_of_error`: what a failed read leaves.
-/

import ChainQuery.Payload.Field
import ChainQuery.Proofs.Payload.Decodes
import ChainQuery.Proofs.Transaction.RoundTrip

namespace ChainQuery

open Decoder in
theorem Header.decodes_header : Decodes Header.decode Header.encode fun _ => True := by
  refine Decodes.congr (decodes_i32.field version fun v => (decodes_fixed 32).field previousBlock fun p =>
    (decodes_fixed 32).field merkleRoot fun m => decodes_u32.field time fun t => decodes_u32.field bits fun b =>
      decodes_u32.field nonce fun n => decodes_pure fun h => ?_) fun h => ?_
  · cases h
    simp [and_assoc]
  · simp [encode]

/-! ## Readers whose value is wrapped -/

namespace Reader

variable {α β : Type}

theorem map_eq_ok_iff {r : Reader α} {g : α → β} {input rest : Bytes} {b : β} :
    (g <$> r).run input = (.ok b, rest) ↔ ∃ a, r.run input = (.ok a, rest) ∧ g a = b := by
  show (r >>= fun a => pure (g a)).run input = _ ↔ _
  rw [bind_eq_ok_iff]
  constructor
  · rintro ⟨a, mid, ha, hb⟩
    obtain ⟨rfl, rfl⟩ := pure_eq_ok_iff.mp hb
    exact ⟨a, ha, rfl⟩
  · rintro ⟨a, ha, rfl⟩
    exact ⟨a, rest, ha, rfl⟩

theorem map_eq_error_iff {r : Reader α} {g : α → β} {input rest : Bytes} {e : DecodeError} :
    (g <$> r).run input = (.error e, rest) ↔ r.run input = (.error e, rest) := by
  show (r >>= fun a => pure (g a)).run input = _ ↔ _
  rcases hr : r.run input with ⟨result, mid⟩
  cases result with
  | error e' => rw [bind_of_error hr]; simp
  | ok a =>
    rw [bind_of_ok hr]
    constructor
    · intro h
      cases h
    · intro h
      cases h

theorem Decodes.wrap {r : Reader α} {encode : α → Bytes} {P : α → Prop} (h : Decodes r encode P) {g : α → β}
    {encode' : β → Bytes} {Q : β → Prop} (hencode : ∀ a, encode' (g a) = encode a)
    (hQ : ∀ b, Q b ↔ ∃ a, P a ∧ g a = b) : Decodes (g <$> r) encode' Q := by
  intro input b rest
  rw [map_eq_ok_iff, hQ]
  constructor
  · rintro ⟨a, ha, rfl⟩
    obtain ⟨rfl, hP⟩ := (h _ _ _).mp ha
    rw [hencode]
    exact ⟨rfl, a, hP, rfl⟩
  · rintro ⟨rfl, a, hP, rfl⟩
    rw [hencode]
    exact ⟨a, (h _ _ _).mpr ⟨rfl, hP⟩, rfl⟩

/-! ## Reads that fail -/

theorem fixed_eq_error_iff {n : Nat} {input rest : Bytes} {e : DecodeError} :
    (fixed n).run input = (.error e, rest) ↔ input.length < n ∧ e = .truncated n input.length ∧ rest = input := by
  rw [← Bytes.take?_eq_none_iff]
  unfold run fixed
  cases Bytes.take? n input with
  | some p => simp
  | none => simp [eq_comm]

theorem u8_eq_error_iff {input rest : Bytes} {e : DecodeError} :
    u8.run input = (.error e, rest) ↔ input.length < 1 ∧ e = .truncated 1 input.length ∧ rest = input := by
  cases input with
  | nil => simp [run, u8, eq_comm]
  | cons b input => simp [run, u8]

theorem u32_eq_error_iff {input rest : Bytes} {e : DecodeError} :
    u32.run input = (.error e, rest) ↔ input.length < 4 ∧ e = .truncated 4 input.length ∧ rest = input :=
  map_eq_error_iff.trans fixed_eq_error_iff

theorem u64_eq_error_iff {input rest : Bytes} {e : DecodeError} :
    u64.run input = (.error e, rest) ↔ input.length < 8 ∧ e = .truncated 8 input.length ∧ rest = input :=
  map_eq_error_iff.trans fixed_eq_error_iff

theorem consensus_rest_of_error {d : Decoder α} {input rest : Bytes} {e : DecodeError}
    (h : (consensus d).run input = (.error e, rest)) : rest = input := by
  cases hd : d input with
  | ok p =>
    rw [consensus_of_ok hd] at h
    cases h
  | error cause =>
    rw [consensus_of_error hd] at h
    cases h
    rfl

/-- A point fails at its hash, or at the index after it. -/
theorem point_rest_of_error {input rest : Bytes} {e : DecodeError} (h : point.run input = (.error e, rest)) :
    rest = if 32 ≤ input.length then input.drop 32 else input := by
  rcases hhash : (fixed 32).run input with ⟨result, mid⟩
  cases result with
  | error e' =>
    have hpoint : point.run input = (.error e', mid) := bind_of_error hhash
    rw [hpoint] at h
    cases h
    obtain ⟨hshort, -, rfl⟩ := fixed_eq_error_iff.mp hhash
    rw [if_neg (Nat.not_le.mpr hshort)]
  | ok hash =>
    have hpoint : point.run input = ((OutPoint.mk hash ·) <$> u32).run mid := bind_of_ok hhash
    rw [hpoint] at h
    obtain ⟨-, -, rfl⟩ := u32_eq_error_iff.mp (map_eq_error_iff.mp h)
    obtain ⟨rfl, -⟩ := (decodes_fixed 32 _ _ _).mp hhash
    rw [if_pos (by simp [hash.2]), List.drop_left' hash.2]

end Reader

namespace Payload

/-! ## Which fields a kind reads -/

/-- The kind that reads a field; a point is read by `consensusPoint` too. -/
@[simp] def Field.kind : Field → FieldKind
  | .u8 _ => .u8
  | .u32 _ => .u32
  | .u64 _ => .u64
  | .raw bs => .raw bs.length
  | .transactionHash _ => .transactionHash
  | .blockHash _ => .blockHash
  | .point _ => .point
  | .transaction _ => .transaction
  | .header _ => .header
  | .input _ => .input
  | .output _ => .output
  | .script _ => .script
  | .size _ => .size

/-- The written form of the field can be read back. -/
@[simp] def Field.Readable : Field → Prop
  | .transaction tx => tx.WitnessesFit
  | .input i => i.witness = Counted.empty
  | _ => True

namespace FieldKind

/-- `k` is the kind of `f`, or the other way to read it if it is a point. -/
def Reads (k : FieldKind) (f : Field) : Prop := k = f.kind ∨ (k = .consensusPoint ∧ f.kind = .point)

theorem raw_reads_iff {n : Nat} {f : Field} : (raw n).Reads f ↔ ∃ bs : FixedBytes n, Field.raw bs.1 = f := by
  constructor
  · intro h
    cases f with
    | raw bs =>
      have hn : n = bs.length := by simpa [Reads] using h
      exact ⟨⟨bs, hn.symm⟩, rfl⟩
    | _ => simp [Reads] at h
  · rintro ⟨bs, rfl⟩
    simp [Reads, bs.2]

/-- Each kind gives exactly the readable fields it reads, off their written forms. -/
theorem decodes_read (k : FieldKind) : k.read.Decodes Field.encode fun f => k.Reads f ∧ f.Readable := by
  cases k with
  | u8 => exact Reader.decodes_u8.wrap (fun _ => rfl) fun f => by cases f <;> simp [Reads]
  | u32 => exact Reader.decodes_u32.wrap (fun _ => rfl) fun f => by cases f <;> simp [Reads]
  | u64 => exact Reader.decodes_u64.wrap (fun _ => rfl) fun f => by cases f <;> simp [Reads]
  | raw n =>
    refine (Reader.decodes_fixed n).wrap (fun _ => rfl) fun f => ?_
    rw [raw_reads_iff]
    cases f <;> simp
  | transactionHash => exact (Reader.decodes_fixed 32).wrap (fun _ => rfl) fun f => by cases f <;> simp [Reads]
  | blockHash => exact (Reader.decodes_fixed 32).wrap (fun _ => rfl) fun f => by cases f <;> simp [Reads]
  | point => exact Reader.decodes_point.wrap (fun _ => rfl) fun f => by cases f <;> simp [Reads]
  | consensusPoint =>
    have h := (Reader.agrees_consensus _).decodes OutPoint.decodes_point
    exact h.wrap (fun _ => rfl) fun f => by cases f <;> simp [Reads]
  | transaction =>
    have h := (Reader.agrees_consensus _).decodes Transaction.decodes_transaction
    exact h.wrap (fun _ => rfl) fun f => by cases f <;> simp [Reads]
  | header =>
    have h := (Reader.agrees_consensus _).decodes Header.decodes_header
    exact h.wrap (fun _ => rfl) fun f => by cases f <;> simp [Reads]
  | input =>
    have h := (Reader.agrees_consensus _).decodes Input.decodes_input
    exact h.wrap (fun _ => rfl) fun f => by cases f <;> simp [Reads]
  | output =>
    have h := (Reader.agrees_consensus _).decodes Output.decodes_output
    exact h.wrap (fun _ => rfl) fun f => by cases f <;> simp [Reads]
  | script =>
    have h := (Reader.agrees_consensus _).decodes Script.decodes_script
    exact h.wrap (fun _ => rfl) fun f => by cases f <;> simp [Reads]
  | size =>
    have h := (Reader.agrees_consensus _).decodes CompactSize.decodes_size
    exact h.wrap (fun _ => rfl) fun f => by cases f <;> simp [Reads]

/-! ## Reads that fail -/

/-- How many bytes a plain read takes. -/
def width? : FieldKind → Option Nat
  | u8 => some 1
  | u32 => some 4
  | u64 => some 8
  | raw n => some n
  | transactionHash => some 32
  | blockHash => some 32
  | _ => none

theorem read_eq_error_iff {k : FieldKind} {n : Nat} (hk : k.width? = some n) {input rest : Bytes} {e : DecodeError} :
    k.read.run input = (.error e, rest) ↔ input.length < n ∧ e = .truncated n input.length ∧ rest = input := by
  cases k with
  | u8 => cases hk; exact Reader.map_eq_error_iff.trans Reader.u8_eq_error_iff
  | u32 => cases hk; exact Reader.map_eq_error_iff.trans Reader.u32_eq_error_iff
  | u64 => cases hk; exact Reader.map_eq_error_iff.trans Reader.u64_eq_error_iff
  | raw n => cases hk; exact Reader.map_eq_error_iff.trans Reader.fixed_eq_error_iff
  | transactionHash => cases hk; exact Reader.map_eq_error_iff.trans Reader.fixed_eq_error_iff
  | blockHash => cases hk; exact Reader.map_eq_error_iff.trans Reader.fixed_eq_error_iff
  | _ => cases hk

/-- What a failed read of `k` takes: the hash of a point, if it is all there. -/
def lost (k : FieldKind) (input : Bytes) : Nat := if k = .point ∧ 32 ≤ input.length then 32 else 0

theorem rest_of_error {k : FieldKind} {input rest : Bytes} {e : DecodeError}
    (h : k.read.run input = (.error e, rest)) : rest = input.drop (k.lost input) := by
  by_cases hk : k = .point
  · subst hk
    have hrest := Reader.point_rest_of_error (Reader.map_eq_error_iff.mp h)
    rw [hrest]
    by_cases hlong : 32 ≤ input.length
    · simp [lost, hlong]
    · simp [lost, hlong]
  · have hlost : k.lost input = 0 := if_neg fun hpoint => hk hpoint.1
    rw [hlost, List.drop_zero]
    cases hw : k.width? with
    | some n => exact ((read_eq_error_iff hw).mp h).2.2
    | none =>
      cases k with
      | point => exact absurd rfl hk
      | consensusPoint | transaction | header | input | output | script | size =>
        exact Reader.consensus_rest_of_error (Reader.map_eq_error_iff.mp h)
      | _ => cases hw

end FieldKind

end Payload

end ChainQuery
