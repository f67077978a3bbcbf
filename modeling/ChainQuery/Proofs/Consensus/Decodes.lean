/-
  ChainQuery.Proofs.Consensus.Decodes — decoders that accept the written forms of values,
  and nothing else.

  A decoder decodes a written form when whatever it accepts starts with the written form
  of the value it gives, and when every input that starts with the form of a value is read
  as that value, with what follows the form left over (`Decodes`). Some decoders give only
  values with a property: an input of a transaction is read without its witness, a witness
  only up to a size. The property is part of the statement.

  Proved:
  - `bind_eq_ok_iff`: what two decoders in a row accept.
  - `Decodes.field`, `decodes_pure`: the decoder of a record, field by field.
  - `decodes_size`: a compact size has one written form, the shortest.
  - `decodes_counted`, `decodes_script`: lists and byte strings after their length.
  - `Decodes.cancel`: of two written forms at the start of one input neither goes further
    than the other, so they are of one value.
-/

import ChainQuery.Consensus.Counted

namespace ChainQuery

namespace Decoder

variable {α β : Type}

/-! ## Opening a decoder -/

theorem bind_of_ok {d : Decoder α} {f : α → Decoder β} {input mid : Bytes} {a : α} (h : d input = .ok (a, mid)) :
    (d >>= f) input = f a mid := by
  show (d input >>= fun p => f p.1 p.2) = _
  rw [h]
  rfl

theorem bind_of_error {d : Decoder α} {f : α → Decoder β} {input : Bytes} {e : ConsensusError}
    (h : d input = .error e) : (d >>= f) input = .error e := by
  show (d input >>= fun p => f p.1 p.2) = _
  rw [h]
  rfl

theorem bind_eq_ok_iff {d : Decoder α} {f : α → Decoder β} {input rest : Bytes} {b : β} :
    (d >>= f) input = .ok (b, rest) ↔ ∃ a mid, d input = .ok (a, mid) ∧ f a mid = .ok (b, rest) := by
  constructor
  · intro h
    cases hd : d input with
    | error e =>
      rw [bind_of_error hd] at h
      cases h
    | ok p =>
      obtain ⟨a, mid⟩ := p
      rw [bind_of_ok hd] at h
      exact ⟨a, mid, rfl, h⟩
  · rintro ⟨a, mid, hd, hf⟩
    rw [bind_of_ok hd, hf]

theorem pure_eq_ok_iff {a b : α} {input rest : Bytes} :
    (pure a : Decoder α) input = .ok (b, rest) ↔ a = b ∧ input = rest := by
  show Except.ok (a, input) = Except.ok (b, rest) ↔ _
  rw [Except.ok.injEq, Prod.mk.injEq]

theorem throw_ne_ok {e : ConsensusError} {a : α} {input rest : Bytes} :
    (throw e : Decoder α) input ≠ .ok (a, rest) := by
  show Except.error e ≠ _
  intro h
  cases h

/-! ## Written forms -/

/-- `d` gives exactly the values with `P`, each off the inputs that start with its written
    form. -/
def Decodes (d : Decoder α) (encode : α → Bytes) (P : α → Prop) : Prop :=
  ∀ input a rest, d input = .ok (a, rest) ↔ input = encode a ++ rest ∧ P a

namespace Decodes

variable {d : Decoder α} {encode : α → Bytes} {P : α → Prop}

theorem append (h : Decodes d encode P) {a : α} (ha : P a) (rest : Bytes) : d (encode a ++ rest) = .ok (a, rest) :=
  (h _ _ _).mpr ⟨rfl, ha⟩

/-- Written forms are told apart without a look at what follows them. -/
theorem cancel (h : Decodes d encode P) {a b : α} {xs ys : Bytes} (ha : P a) (hb : P b)
    (heq : encode a ++ xs = encode b ++ ys) : a = b ∧ xs = ys := by
  have hxs := h.append ha xs
  rw [heq, h.append hb ys, Except.ok.injEq, Prod.mk.injEq] at hxs
  exact ⟨hxs.1.symm, hxs.2.symm⟩

theorem encode_inj (h : Decodes d encode P) {a b : α} (ha : P a) (hb : P b) (heq : encode a = encode b) : a = b := by
  have heq : encode a ++ [] = encode b ++ [] := by rw [heq]
  exact (h.cancel ha hb heq).1

theorem congr (h : Decodes d encode P) {encode' : α → Bytes} (he : ∀ a, encode' a = encode a) : Decodes d encode' P := by
  intro input a rest
  rw [he]
  exact h input a rest

/-- A record is read field by field. What is left to read must be read as records with this
    field, so each step narrows down which record it is. -/
theorem field (h : Decodes d encode fun _ => True) (g : β → α) {f : α → Decoder β} {encode' : β → Bytes}
    {Q : β → Prop} (hf : ∀ a, Decodes (f a) encode' fun b => Q b ∧ g b = a) :
    Decodes (d >>= f) (fun b => encode (g b) ++ encode' b) Q := by
  intro input b rest
  rw [bind_eq_ok_iff, List.append_assoc]
  constructor
  · rintro ⟨a, mid, hd, hthen⟩
    obtain ⟨rfl, -⟩ := (h _ _ _).mp hd
    obtain ⟨rfl, hQ, rfl⟩ := (hf _ _ _ _).mp hthen
    exact ⟨rfl, hQ⟩
  · rintro ⟨rfl, hQ⟩
    exact ⟨g b, encode' b ++ rest, (h _ _ _).mpr ⟨rfl, trivial⟩, (hf _ _ _ _).mpr ⟨rfl, hQ, rfl⟩⟩

/-- A value that is one-to-one with what `d` gives. -/
theorem map (h : Decodes d encode fun _ => True) {f : α → β} {g : β → α} (hgf : ∀ a, g (f a) = a)
    (hfg : ∀ b, f (g b) = b) : Decodes (f <$> d) (fun b => encode (g b)) fun _ => True := by
  intro input b rest
  rw [← bind_pure_comp, bind_eq_ok_iff]
  constructor
  · rintro ⟨a, mid, hd, hp⟩
    obtain ⟨rfl, rfl⟩ := pure_eq_ok_iff.mp hp
    show input = encode (g (f a)) ++ mid ∧ True
    rw [hgf]
    exact (h _ _ _).mp hd
  · intro hb
    exact ⟨g b, rest, (h _ _ _).mpr hb, pure_eq_ok_iff.mpr ⟨hfg b, rfl⟩⟩

end Decodes

/-- A record whose fields are read is known. -/
theorem decodes_pure {a : α} {P : α → Prop} (h : ∀ b, P b ↔ b = a) : Decodes (pure a) (fun _ => []) P := by
  intro input b rest
  rw [pure_eq_ok_iff, h, List.nil_append, eq_comm, and_comm]

theorem u8_eq_ok_iff {b : UInt8} {input rest : Bytes} : u8 input = .ok (b, rest) ↔ input = b :: rest := by
  constructor
  · intro h
    cases input with
    | nil => cases h
    | cons b' input => cases h; rfl
  · rintro rfl
    rfl

theorem decodes_fixed (n : Nat) : Decodes (fixed n) Subtype.val fun _ => True := by
  intro input bs rest
  unfold fixed
  constructor
  · intro h
    split at h
    · rename_i hbs
      cases h
      exact ⟨Bytes.eq_append_of_take? hbs, trivial⟩
    · cases h
  · rintro ⟨rfl, -⟩
    rw [Bytes.take?_append]

theorem decodes_u32 : Decodes u32 Bytes.u32 fun _ => True := by
  have hlen : ∀ n, (Bytes.u32 n).length = 4 := fun n => Bytes.length_toLE _ _
  have h := (decodes_fixed 4).map (f := FixedBytes.toU32) (g := fun n => ⟨Bytes.u32 n, hlen n⟩)
    (fun bs => Subtype.ext (FixedBytes.u32_toU32 bs)) (fun n => FixedBytes.toU32_u32 n (hlen n))
  exact h

theorem decodes_u64 : Decodes u64 Bytes.u64 fun _ => True := by
  have hlen : ∀ n, (Bytes.u64 n).length = 8 := fun n => Bytes.length_toLE _ _
  have h := (decodes_fixed 8).map (f := FixedBytes.toU64) (g := fun n => ⟨Bytes.u64 n, hlen n⟩)
    (fun bs => Subtype.ext (FixedBytes.u64_toU64 bs)) (fun n => FixedBytes.toU64_u64 n (hlen n))
  exact h

theorem decodes_i32 : Decodes i32 Bytes.i32 fun _ => True := by
  have hlen : ∀ n, (Bytes.i32 n).length = 4 := fun n => Bytes.length_toLE _ _
  have h := (decodes_fixed 4).map (f := FixedBytes.toI32) (g := fun n => ⟨Bytes.i32 n, hlen n⟩)
    (fun bs => Subtype.ext (FixedBytes.u32_toU32 bs))
    (fun n => congrArg UInt32.toInt32 (FixedBytes.toU32_u32 n.toUInt32 (hlen n)))
  exact h

theorem decodes_repeated {item : Decoder α} {encode : α → Bytes} {P : α → Prop} (h : Decodes item encode P) (n : Nat) :
    Decodes (repeated item n) (fun xs => xs.1.flatMap encode) fun xs => ∀ x ∈ xs.1, P x := by
  induction n with
  | zero =>
    rintro input ⟨xs, hxs⟩ rest
    obtain rfl := List.length_eq_zero_iff.mp hxs
    rw [repeated, pure_eq_ok_iff]
    simp
  | succ n ih =>
    rintro input ⟨xs, hxs⟩ rest
    rw [repeated, bind_eq_ok_iff]
    constructor
    · rintro ⟨x, mid, hx, htail⟩
      obtain ⟨ys, mid', hys, hp⟩ := bind_eq_ok_iff.mp htail
      obtain ⟨heq, rfl⟩ := pure_eq_ok_iff.mp hp
      obtain ⟨rfl, hPx⟩ := (h _ _ _).mp hx
      obtain ⟨rfl, hPys⟩ := (ih _ _ _).mp hys
      obtain rfl := congrArg Subtype.val heq
      exact ⟨by simp, List.forall_mem_cons.mpr ⟨hPx, hPys⟩⟩
    · rintro ⟨rfl, hP⟩
      cases xs with
      | nil => simp at hxs
      | cons x xs =>
        have hlen : xs.length = n := by simpa using hxs
        obtain ⟨hPx, hPxs⟩ := List.forall_mem_cons.mp hP
        refine ⟨x, xs.flatMap encode ++ rest, (h _ _ _).mpr ⟨by simp, hPx⟩, ?_⟩
        exact bind_eq_ok_iff.mpr ⟨⟨xs, hlen⟩, rest, (ih _ _ _).mpr ⟨rfl, hPxs⟩, rfl⟩

end Decoder

/-! ## Compact sizes -/

namespace CompactSize

open Decoder

theorem marked_eq_ok_iff {w least : Nat} (hw : w ≤ 8) {input rest : Bytes} {n : UInt64} :
    marked w least input = .ok (n, rest) ↔
      input = Bytes.toLE w n.toNat ++ rest ∧ least ≤ n.toNat ∧ n.toNat < Nat.pow 256 w := by
  have hsize : Nat.pow 256 w ≤ UInt64.size := Nat.pow_le_pow_right (by decide) hw
  rw [marked, bind_eq_ok_iff]
  constructor
  · rintro ⟨bs, mid, hbs, h⟩
    obtain ⟨rfl, -⟩ := (decodes_fixed w _ _ _).mp hbs
    have hlt : Bytes.ofLE bs.1 < Nat.pow 256 w := by
      have := Bytes.ofLE_lt bs.1
      rwa [bs.2] at this
    have hback : Bytes.toLE w (Bytes.ofLE bs.1) = bs.1 := by
      have := Bytes.toLE_ofLE bs.1
      rwa [bs.2] at this
    by_cases hleast : Bytes.ofLE bs.1 < least
    · rw [if_pos hleast] at h
      exact absurd h throw_ne_ok
    · rw [if_neg hleast] at h
      obtain ⟨rfl, rfl⟩ := pure_eq_ok_iff.mp h
      have htoNat : (UInt64.ofNat (Bytes.ofLE bs.1)).toNat = Bytes.ofLE bs.1 :=
        UInt64.toNat_ofNat_of_lt' (Nat.lt_of_lt_of_le hlt hsize)
      rw [htoNat, hback]
      exact ⟨rfl, Nat.le_of_not_lt hleast, hlt⟩
  · rintro ⟨rfl, hleast, hlt⟩
    have hofLE : Bytes.ofLE (Bytes.toLE w n.toNat) = n.toNat := by
      rw [Bytes.ofLE_toLE, Nat.mod_eq_of_lt hlt]
    refine ⟨⟨Bytes.toLE w n.toNat, Bytes.length_toLE _ _⟩, rest, (decodes_fixed w _ _ _).mpr ⟨rfl, trivial⟩, ?_⟩
    rw [hofLE, if_neg (Nat.not_lt.mpr hleast), UInt64.ofNat_toNat]
    rfl

/-- A number that fits one byte is that byte. -/
theorem toUInt64_toUInt8 {n : UInt64} (hn : n.toNat < 256) : n.toUInt8.toUInt64 = n := by
  apply UInt64.toNat_inj.mp
  rw [UInt8.toNat_toUInt64, UInt64.toNat_toUInt8]
  exact Nat.mod_eq_of_lt hn

theorem encode_of_lt {n : UInt64} (hn : n < 0xfd) : encode n = [n.toUInt8] := if_pos hn

theorem encode_two {n : UInt64} (hlo : 0xfd ≤ n.toNat) (hhi : n.toNat < 0x10000) :
    encode n = 0xfd :: Bytes.toLE 2 n.toNat := by
  have h1 : ¬ n < 0xfd := by rw [UInt64.lt_iff_toNat_lt]; exact Nat.not_lt.mpr hlo
  have h2 : n < 0x10000 := UInt64.lt_iff_toNat_lt.mpr hhi
  rw [encode, if_neg h1, if_pos h2]

theorem encode_four {n : UInt64} (hlo : 0x10000 ≤ n.toNat) (hhi : n.toNat < 0x100000000) :
    encode n = 0xfe :: Bytes.toLE 4 n.toNat := by
  have h1 : ¬ n < 0xfd := by rw [UInt64.lt_iff_toNat_lt]; show ¬ n.toNat < 0xfd; omega
  have h2 : ¬ n < 0x10000 := by rw [UInt64.lt_iff_toNat_lt]; exact Nat.not_lt.mpr hlo
  have h3 : n < 0x100000000 := UInt64.lt_iff_toNat_lt.mpr hhi
  rw [encode, if_neg h1, if_neg h2, if_pos h3]

theorem encode_eight {n : UInt64} (hlo : 0x100000000 ≤ n.toNat) : encode n = 0xff :: Bytes.toLE 8 n.toNat := by
  have h1 : ¬ n < 0xfd := by rw [UInt64.lt_iff_toNat_lt]; show ¬ n.toNat < 0xfd; omega
  have h2 : ¬ n < 0x10000 := by rw [UInt64.lt_iff_toNat_lt]; show ¬ n.toNat < 0x10000; omega
  have h3 : ¬ n < 0x100000000 := by rw [UInt64.lt_iff_toNat_lt]; exact Nat.not_lt.mpr hlo
  rw [encode, if_neg h1, if_neg h2, if_neg h3]

theorem decodes_size : Decodes decode encode fun _ => True := by
  intro input n rest
  rw [decode, bind_eq_ok_iff]
  constructor
  · rintro ⟨b, mid, hb, h⟩
    obtain rfl := u8_eq_ok_iff.mp hb
    refine ⟨?_, trivial⟩
    by_cases h2 : b = 0xfd
    · rw [if_pos h2] at h
      obtain ⟨rfl, hlo, hhi⟩ := (marked_eq_ok_iff (by decide)).mp h
      rw [encode_two hlo hhi, h2]
      rfl
    rw [if_neg h2] at h
    by_cases h4 : b = 0xfe
    · rw [if_pos h4] at h
      obtain ⟨rfl, hlo, hhi⟩ := (marked_eq_ok_iff (by decide)).mp h
      rw [encode_four hlo hhi, h4]
      rfl
    rw [if_neg h4] at h
    by_cases h8 : b = 0xff
    · rw [if_pos h8] at h
      obtain ⟨rfl, hlo, -⟩ := (marked_eq_ok_iff (by decide)).mp h
      rw [encode_eight hlo, h8]
      rfl
    rw [if_neg h8] at h
    obtain ⟨rfl, rfl⟩ := pure_eq_ok_iff.mp h
    have hlt : b.toUInt64 < 0xfd := by
      have := b.toNat_lt
      have h2' : b.toNat ≠ 0xfd := fun e => h2 (UInt8.toNat_inj.mp e)
      have h4' : b.toNat ≠ 0xfe := fun e => h4 (UInt8.toNat_inj.mp e)
      have h8' : b.toNat ≠ 0xff := fun e => h8 (UInt8.toNat_inj.mp e)
      rw [UInt64.lt_iff_toNat_lt, UInt8.toNat_toUInt64]
      show b.toNat < 0xfd
      omega
    rw [encode_of_lt hlt, UInt8.toUInt8_toUInt64]
    rfl
  · rintro ⟨rfl, -⟩
    by_cases h1 : n.toNat < 0xfd
    · have hn : n < 0xfd := UInt64.lt_iff_toNat_lt.mpr h1
      have hb : n.toUInt8.toNat < 0xfd := by rw [UInt64.toNat_toUInt8]; omega
      have h2 : n.toUInt8 ≠ 0xfd := by intro e; rw [e] at hb; exact absurd hb (by decide)
      have h4 : n.toUInt8 ≠ 0xfe := by intro e; rw [e] at hb; exact absurd hb (by decide)
      have h8 : n.toUInt8 ≠ 0xff := by intro e; rw [e] at hb; exact absurd hb (by decide)
      refine ⟨n.toUInt8, rest, by rw [encode_of_lt hn]; rfl, ?_⟩
      rw [if_neg h2, if_neg h4, if_neg h8, toUInt64_toUInt8 (by omega)]
      rfl
    by_cases h2 : n.toNat < 0x10000
    · have hlo : 0xfd ≤ n.toNat := by omega
      rw [encode_two hlo h2]
      exact ⟨0xfd, _, rfl, (marked_eq_ok_iff (by decide)).mpr ⟨rfl, hlo, h2⟩⟩
    by_cases h3 : n.toNat < 0x100000000
    · have hlo : 0x10000 ≤ n.toNat := by omega
      rw [encode_four hlo h3]
      exact ⟨0xfe, _, rfl, (marked_eq_ok_iff (by decide)).mpr ⟨rfl, hlo, h3⟩⟩
    · have hlo : 0x100000000 ≤ n.toNat := by omega
      rw [encode_eight hlo]
      exact ⟨0xff, _, rfl, (marked_eq_ok_iff (by decide)).mpr ⟨rfl, hlo, n.toNat_lt⟩⟩

/-- Only zero is written with a zero in front. -/
theorem encode_head (n : UInt64) : ∃ b bs, encode n = b :: bs ∧ (b = 0 → n = 0) := by
  by_cases h1 : n.toNat < 0xfd
  · have hn : n < 0xfd := UInt64.lt_iff_toNat_lt.mpr h1
    refine ⟨n.toUInt8, [], encode_of_lt hn, ?_⟩
    intro h0
    have hback : n.toUInt8.toUInt64 = n := toUInt64_toUInt8 (by omega)
    rw [← hback, h0]
    rfl
  by_cases h2 : n.toNat < 0x10000
  · exact ⟨0xfd, _, encode_two (by omega) h2, fun h => by cases h⟩
  by_cases h3 : n.toNat < 0x100000000
  · exact ⟨0xfe, _, encode_four (by omega) h3, fun h => by cases h⟩
  · exact ⟨0xff, _, encode_eight (by omega), fun h => by cases h⟩

end CompactSize

/-! ## Lists and byte strings after their length -/

theorem Counted.toNat_size {α : Type} (xs : Counted α) : xs.size.toNat = xs.toList.length :=
  UInt64.toNat_ofNat_of_lt' xs.length_lt

theorem Counted.ext {α : Type} {xs ys : Counted α} (h : xs.toList = ys.toList) : xs = ys := by
  cases xs
  cases ys
  cases h
  rfl

open Decoder in
theorem Counted.decodes_counted {α : Type} {item : Decoder α} {encode : α → Bytes} {P : α → Prop}
    (h : Decodes item encode P) :
    Decodes (Counted.decode item) (Counted.encode encode) fun xs => ∀ x ∈ xs.toList, P x := by
  intro input xs rest
  rw [Counted.decode, bind_eq_ok_iff]
  constructor
  · rintro ⟨n, mid, hn, hrest⟩
    obtain ⟨ys, mid', hys, hp⟩ := bind_eq_ok_iff.mp hrest
    obtain ⟨rfl, rfl⟩ := pure_eq_ok_iff.mp hp
    obtain ⟨rfl, -⟩ := (CompactSize.decodes_size _ _ _).mp hn
    obtain ⟨rfl, hP⟩ := (decodes_repeated h _ _ _ _).mp hys
    refine ⟨?_, hP⟩
    rw [Counted.encode, Counted.size, ys.2, UInt64.ofNat_toNat, List.append_assoc]
  · rintro ⟨rfl, hP⟩
    rw [Counted.encode, List.append_assoc]
    refine ⟨xs.size, _, CompactSize.decodes_size.append trivial _, ?_⟩
    refine bind_eq_ok_iff.mpr ⟨⟨xs.toList, xs.toNat_size.symm⟩, rest, ?_, rfl⟩
    exact (decodes_repeated h _ _ _ _).mpr ⟨rfl, hP⟩

namespace Script

open Decoder

theorem ofLength_eq_ok_iff {n : UInt64} {input rest : Bytes} {s : Script} :
    ofLength n input = .ok (s, rest) ↔ input = s.toList ++ rest ∧ s.size = n := by
  rw [ofLength, bind_eq_ok_iff]
  constructor
  · rintro ⟨bs, mid, hbs, hp⟩
    obtain ⟨rfl, rfl⟩ := pure_eq_ok_iff.mp hp
    obtain ⟨rfl, -⟩ := (decodes_fixed _ _ _ _).mp hbs
    refine ⟨rfl, ?_⟩
    rw [Counted.size, bs.2, UInt64.ofNat_toNat]
  · rintro ⟨rfl, rfl⟩
    exact ⟨⟨s.toList, s.toNat_size.symm⟩, rest, (decodes_fixed _ _ _ _).mpr ⟨rfl, trivial⟩, rfl⟩

theorem decodes_script : Decodes decode encode fun _ => True := by
  intro input s rest
  rw [decode, bind_eq_ok_iff]
  constructor
  · rintro ⟨n, mid, hn, hs⟩
    obtain ⟨rfl, -⟩ := (CompactSize.decodes_size _ _ _).mp hn
    obtain ⟨rfl, rfl⟩ := ofLength_eq_ok_iff.mp hs
    rw [encode, List.append_assoc]
    exact ⟨rfl, trivial⟩
  · rintro ⟨rfl, -⟩
    rw [encode, List.append_assoc]
    exact ⟨s.size, _, CompactSize.decodes_size.append trivial _, ofLength_eq_ok_iff.mpr ⟨rfl, rfl⟩⟩

end Script

end ChainQuery
