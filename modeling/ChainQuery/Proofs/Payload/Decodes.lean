/-
  ChainQuery.Proofs.Payload.Decodes — readers that accept the written forms of values, and
  nothing else.

  A reader of a payload and a decoder of the chain's encoding fail in different ways, but
  where the reader of a field succeeds a decoder does too, on the same bytes and with the
  same value (`Agrees`). So what holds of decoders that succeed holds of readers: each
  gives exactly the values with some property, off the payloads that start with their
  written form (`Decodes`).

  Proved:
  - `agrees_bind`, `agrees_fixed`, `agrees_point`: a point is read field by field where the
    chain's own decoder reads it as one value.
  - `decodes_u32`, `decodes_u64`, `decodes_point`: the plain fields; `Decodes.field`: a row
    of such fields.
  - `RowReader.all_eq_ok_iff`: the payloads of rows are the written forms of rows, one
    after another.
-/

import ChainQuery.Proofs.Payload.Reads
import ChainQuery.Proofs.Transaction.Parts

namespace ChainQuery

namespace Reader

variable {α β : Type}

/-! ## Opening a reader -/

theorem bind_eq_ok_iff {r : Reader α} {f : α → Reader β} {input rest : Bytes} {b : β} :
    (r >>= f).run input = (.ok b, rest) ↔ ∃ a mid, r.run input = (.ok a, mid) ∧ (f a).run mid = (.ok b, rest) := by
  constructor
  · intro h
    rcases hr : r.run input with ⟨result, mid⟩
    cases result with
    | error e =>
      rw [bind_of_error hr] at h
      cases h
    | ok a =>
      rw [bind_of_ok hr] at h
      exact ⟨a, mid, rfl, h⟩
  · rintro ⟨a, mid, hr, hf⟩
    rw [bind_of_ok hr, hf]

theorem pure_eq_ok_iff {a b : α} {input rest : Bytes} :
    (pure a : Reader α).run input = (.ok b, rest) ↔ a = b ∧ input = rest := by
  show (Except.ok a, input) = (Except.ok b, rest) ↔ _
  simp only [Prod.mk.injEq, Except.ok.injEq]

theorem fail_ne_ok {e : DecodeError} {a : α} {input rest : Bytes} : (fail e : Reader α).run input ≠ (.ok a, rest) := by
  intro h
  cases h

/-! ## Readers beside decoders -/

/-- `r` succeeds where `d` does, with the same value and the same bytes left. -/
def Agrees (r : Reader α) (d : Decoder α) : Prop := ∀ input a rest, r.run input = (.ok a, rest) ↔ d input = .ok (a, rest)

theorem agrees_pure (a : α) : Agrees (pure a) (pure a) := by
  intro input b rest
  rw [pure_eq_ok_iff, Decoder.pure_eq_ok_iff]

theorem agrees_bind {r : Reader α} {d : Decoder α} {f : α → Reader β} {g : α → Decoder β} (h : Agrees r d)
    (hf : ∀ a, Agrees (f a) (g a)) : Agrees (r >>= f) (d >>= g) := by
  intro input b rest
  rw [bind_eq_ok_iff, Decoder.bind_eq_ok_iff]
  constructor
  · rintro ⟨a, mid, hr, hthen⟩
    exact ⟨a, mid, (h _ _ _).mp hr, (hf a _ _ _).mp hthen⟩
  · rintro ⟨a, mid, hd, hthen⟩
    exact ⟨a, mid, (h _ _ _).mpr hd, (hf a _ _ _).mpr hthen⟩

theorem agrees_consensus (d : Decoder α) : Agrees (consensus d) d := fun _ _ _ => consensus_eq_ok_iff

theorem agrees_u8 : Agrees u8 Decoder.u8 := by
  intro input b rest
  cases input with
  | nil => simp [run, u8, Decoder.u8]
  | cons b' input => simp [run, u8, Decoder.u8]

theorem agrees_fixed (n : Nat) : Agrees (fixed n) (Decoder.fixed n) := by
  intro input bs rest
  unfold run fixed Decoder.fixed
  rcases Bytes.take? n input with _ | ⟨bs', rest'⟩
  · simp
  · simp

theorem agrees_u32 : Agrees u32 Decoder.u32 := by
  unfold Decoder.u32
  rw [← bind_pure_comp]
  exact agrees_bind (agrees_fixed 4) fun bs => agrees_pure bs.toU32

theorem agrees_u64 : Agrees u64 Decoder.u64 := by
  unfold Decoder.u64
  rw [← bind_pure_comp]
  exact agrees_bind (agrees_fixed 8) fun bs => agrees_pure bs.toU64

theorem agrees_point : Agrees point OutPoint.decode :=
  agrees_bind (agrees_fixed 32) fun hash => agrees_bind agrees_u32 fun index => agrees_pure (OutPoint.mk hash index)

/-! ## Written forms -/

/-- `r` gives exactly the values with `P`, each off the payloads that start with its written
    form. -/
def Decodes (r : Reader α) (encode : α → Bytes) (P : α → Prop) : Prop :=
  ∀ input a rest, r.run input = (.ok a, rest) ↔ input = encode a ++ rest ∧ P a

theorem Agrees.decodes {r : Reader α} {d : Decoder α} {encode : α → Bytes} {P : α → Prop} (h : Agrees r d)
    (hd : d.Decodes encode P) : Decodes r encode P :=
  fun input a rest => (h input a rest).trans (hd input a rest)

theorem Decodes.reads {r : Reader α} {encode : α → Bytes} {P : α → Prop} (h : Decodes r encode P) {a : α} (ha : P a) :
    Reads r (encode a) a :=
  fun _ => (h _ _ _).mpr ⟨rfl, ha⟩

theorem Decodes.congr {r : Reader α} {encode encode' : α → Bytes} {P : α → Prop} (h : Decodes r encode P)
    (he : ∀ a, encode' a = encode a) : Decodes r encode' P := by
  intro input a rest
  rw [he]
  exact h input a rest

/-- A row is read field by field, as a record of the chain is. -/
theorem Decodes.field {r : Reader α} {encode : α → Bytes} (h : Decodes r encode fun _ => True) (g : β → α)
    {f : α → Reader β} {encode' : β → Bytes} {Q : β → Prop} (hf : ∀ a, Decodes (f a) encode' fun b => Q b ∧ g b = a) :
    Decodes (r >>= f) (fun b => encode (g b) ++ encode' b) Q := by
  intro input b rest
  rw [bind_eq_ok_iff, List.append_assoc]
  constructor
  · rintro ⟨a, mid, hr, hthen⟩
    obtain ⟨rfl, -⟩ := (h _ _ _).mp hr
    obtain ⟨rfl, hQ, rfl⟩ := (hf _ _ _ _).mp hthen
    exact ⟨rfl, hQ⟩
  · rintro ⟨rfl, hQ⟩
    exact ⟨g b, encode' b ++ rest, (h _ _ _).mpr ⟨rfl, trivial⟩, (hf _ _ _ _).mpr ⟨rfl, hQ, rfl⟩⟩

theorem decodes_pure {a : α} {P : α → Prop} (h : ∀ b, P b ↔ b = a) : Decodes (pure a) (fun _ => []) P := by
  intro input b rest
  rw [pure_eq_ok_iff, h, List.nil_append, eq_comm, and_comm]

theorem decodes_u8 : Decodes u8 (fun b => [b]) fun _ => True := by
  intro input b rest
  rw [agrees_u8, Decoder.u8_eq_ok_iff]
  simp

theorem decodes_fixed (n : Nat) : Decodes (fixed n) Subtype.val fun _ => True :=
  (agrees_fixed n).decodes (Decoder.decodes_fixed n)

theorem decodes_u32 : Decodes u32 Bytes.u32 fun _ => True := agrees_u32.decodes Decoder.decodes_u32

theorem decodes_u64 : Decodes u64 Bytes.u64 fun _ => True := agrees_u64.decodes Decoder.decodes_u64

theorem decodes_point : Decodes point OutPoint.encode fun _ => True := agrees_point.decodes OutPoint.decodes_point

end Reader

/-! ## Rows -/

namespace RowReader

variable {α : Type} (r : RowReader α) {encode : α → Bytes} {P : α → Prop} (h : r.read.Decodes encode P)

include h in
theorem eq_flatMap_of_all {payload : Bytes} {xs : List α} (hall : r.all payload = .ok xs) :
    payload = xs.flatMap encode ∧ ∀ x ∈ xs, P x := by
  induction xs generalizing payload with
  | nil =>
    rw [all_eq_nil hall]
    simp
  | cons x xs ih =>
    obtain ⟨rest, hx, hrest⟩ := all_eq_cons hall
    obtain ⟨rfl, hPx⟩ := (h _ _ _).mp hx
    obtain ⟨rfl, hPxs⟩ := ih hrest
    exact ⟨List.flatMap_cons.symm, List.forall_mem_cons.mpr ⟨hPx, hPxs⟩⟩

include h in
/-- A payload of rows is the written forms of the rows, one after another. -/
theorem all_eq_ok_iff {payload : Bytes} {xs : List α} :
    r.all payload = .ok xs ↔ payload = xs.flatMap encode ∧ ∀ x ∈ xs, P x := by
  constructor
  · exact r.eq_flatMap_of_all h
  · rintro ⟨rfl, hxs⟩
    exact r.all_flatMap fun x hx => h.reads (hxs x hx)

end RowReader

end ChainQuery
