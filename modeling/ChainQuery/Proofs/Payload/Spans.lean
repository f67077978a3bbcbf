/-
  ChainQuery.Proofs.Payload.Spans — payloads of one width, and the fields in them.

  Some readers take the same number of bytes off every payload that has as many, and fail on
  every shorter one (`Reader.Spans`). Fields of known widths do, and stop at the first that
  is not all there; a value of the chain with fields of known widths does, and has just ended
  too early. A payload that such a reader uses up has exactly that width: bytes beyond it are
  left over and are refused by their number.

  A payload that is written forms in a row has each of them at its offset, and a number's form
  is told by the number.

  Proved:
  - `drop_eq_fixed_append_iff`, `drop_eq_u32_append_iff`: a field at its offset, and the rest.
  - `Follows.spans`, `spans_consensus`: readers of fields and decoders of chain values span
    their widths; `spans_bind`: decoders in a row.
  - `exists_whole_iff`, `whole_of_long`, `whole_of_short`: the payloads of one width, and what
    is wrong with any other.
-/

import ChainQuery.Proofs.Payload.Layout

namespace ChainQuery

/-! ## Fields at their offsets -/

namespace Bytes

/-- The `width` bytes of a payload from `offset` on. -/
def field (payload : Bytes) (offset width : Nat) : Bytes := (payload.drop offset).take width

theorem drop_eq_append_iff {payload bs rest : Bytes} {offset width : Nat} (hbs : bs.length = width) :
    payload.drop offset = bs ++ rest ↔ bs = payload.field offset width ∧ payload.drop (offset + width) = rest := by
  rw [← List.drop_drop, field]
  constructor
  · intro h
    rw [h, List.take_left' hbs, List.drop_left' hbs]
    exact ⟨rfl, rfl⟩
  · intro ⟨htake, hdrop⟩
    rw [htake, ← hdrop, List.take_append_drop]

theorem drop_eq_cons_iff {payload rest : Bytes} {offset : Nat} {b : UInt8} :
    payload.drop offset = b :: rest ↔ [b] = payload.field offset 1 ∧ payload.drop (offset + 1) = rest := by
  show payload.drop offset = [b] ++ rest ↔ _
  exact drop_eq_append_iff rfl

theorem drop_eq_fixed_append_iff {payload rest : Bytes} {offset width : Nat} {bs : FixedBytes width} :
    payload.drop offset = bs.1 ++ rest ↔ bs.1 = payload.field offset width ∧ payload.drop (offset + width) = rest :=
  drop_eq_append_iff bs.2

theorem u32_eq_iff {n : UInt32} {bs : Bytes} (hbs : bs.length = 4) : u32 n = bs ↔ n.toNat = ofLE bs := by
  have hn : ofLE (u32 n) = n.toNat := by
    rw [u32, ofLE_toLE]
    exact Nat.mod_eq_of_lt n.toNat_lt
  constructor
  · intro h
    rw [← h, hn]
  · intro h
    rw [u32, h, ← hbs, toLE_ofLE]

theorem drop_eq_u32_append_iff {payload rest : Bytes} {offset : Nat} {n : UInt32} (h : offset + 4 ≤ payload.length) :
    payload.drop offset = u32 n ++ rest ↔
      n.toNat = ofLE (payload.field offset 4) ∧ payload.drop (offset + 4) = rest := by
  have hlen : (payload.field offset 4).length = 4 := by
    rw [field, List.length_take, List.length_drop]
    omega
  rw [← u32_eq_iff hlen]
  exact drop_eq_append_iff (length_toLE 4 n.toNat)

end Bytes

/-! ## Readers of one width -/

/-- `r` takes `width` bytes off every payload that has as many, and fails on a shorter one
    as `Short` says of the number of its bytes. -/
structure Reader.Spans {α : Type} (r : Reader α) (width : Nat) (Short : Nat → DecodeError → Prop) : Prop where
  ok : ∀ {input : Bytes}, width ≤ input.length → ∃ a, r.run input = (.ok a, input.drop width)
  error : ∀ {input : Bytes}, input.length < width → ∃ e rest, Short input.length e ∧ r.run input = (.error e, rest)

/-- A payload of `n` bytes breaks off at one of the fields. -/
def DecodeError.IsBreak (widths : List Nat) (n : Nat) (e : DecodeError) : Prop :=
  ∃ needed remaining, e = .truncated needed remaining ∧ BreaksOff widths n needed remaining

namespace Layout

theorem widths_plain (widths : List Nat) : Layout.widths (widths.map Cell.plain) = widths := by
  rw [Layout.widths, List.map_map]
  exact List.map_id widths

theorem heightOffsets_plain (widths : List Nat) : heightOffsets (widths.map Cell.plain) = [] := by
  induction widths with
  | nil => rfl
  | cons w ws ih =>
    rw [List.map_cons, heightOffsets, ih]
    rfl

end Layout

namespace Reader

variable {α : Type} {r : Reader α} {width : Nat} {Short : Nat → DecodeError → Prop}

/-- A reader of plain fields spans them all. -/
theorem Follows.spans {widths : List Nat} (h : Follows r (widths.map Cell.plain)) :
    Spans r widths.sum (DecodeError.IsBreak widths) := by
  have hwidth : Layout.width (widths.map Cell.plain) = widths.sum := by rw [Layout.width, Layout.widths_plain]
  have hnone : ∀ input, (Layout.heights (widths.map Cell.plain) input).find? tooHigh = none := fun input => by
    rw [Layout.heights_of_plain (Layout.heightOffsets_plain widths)]
    rfl
  constructor
  · intro input hlong
    have hfault : Layout.fault? (widths.map Cell.plain) input = none := by
      rw [Layout.fault?_eq_none_iff, hwidth]
      exact ⟨hnone input, hlong⟩
    rw [← hwidth]
    exact h.ok hfault
  · intro input hshort
    have hfault : Layout.fault? (widths.map Cell.plain) input ≠ none := by
      rw [ne_eq, Layout.fault?_eq_none_iff, hwidth]
      omega
    obtain ⟨e, he⟩ := Option.ne_none_iff_exists'.mp hfault
    obtain ⟨rest, hrun⟩ := h.error he
    rw [Layout.fault?_eq_some_iff, hnone, Layout.widths_plain] at he
    exact ⟨e, rest, he, hrun⟩

theorem whole_of_long (h : r.Spans width Short) {payload : Bytes} (hlong : width < payload.length) :
    r.whole payload = .error (.trailingBytes (payload.length - width)) := by
  obtain ⟨a, hrun⟩ := h.ok (Nat.le_of_lt hlong)
  have hleft : ¬ (payload.drop width).isEmpty := by
    rw [List.isEmpty_iff, List.drop_eq_nil_iff]
    omega
  rw [whole_of_ok hrun, if_neg hleft, List.length_drop]

theorem whole_of_short (h : r.Spans width Short) {payload : Bytes} (hshort : payload.length < width) :
    ∃ e, Short payload.length e ∧ r.whole payload = .error e := by
  obtain ⟨e, rest, he, hrun⟩ := h.error hshort
  exact ⟨e, he, whole_of_error hrun⟩

theorem exists_whole_iff (h : r.Spans width Short) {payload : Bytes} :
    (∃ a, r.whole payload = .ok a) ↔ payload.length = width := by
  constructor
  · intro ⟨a, ha⟩
    rcases Nat.lt_trichotomy payload.length width with hlt | heq | hgt
    · obtain ⟨e, -, he⟩ := whole_of_short h hlt
      rw [he] at ha
      cases ha
    · exact heq
    · rw [whole_of_long h hgt] at ha
      cases ha
  · intro hlen
    obtain ⟨a, hrun⟩ := h.ok (Nat.le_of_eq hlen.symm)
    rw [← hlen, List.drop_length] at hrun
    exact ⟨a, whole_eq_ok_iff.mpr hrun⟩

end Reader

/-! ## Decoders of one width -/

/-- `d` takes `width` bytes off every input that has as many, and finds any other too short. -/
structure Decoder.Spans {α : Type} (d : Decoder α) (width : Nat) : Prop where
  ok : ∀ {input : Bytes}, width ≤ input.length → ∃ a, d input = .ok (a, input.drop width)
  error : ∀ {input : Bytes}, input.length < width → d input = .error .endOfInput

namespace Decoder

variable {α β : Type}

theorem spans_pure (a : α) : Spans (pure a : Decoder α) 0 := by
  constructor
  · intro input _
    exact ⟨a, rfl⟩
  · intro input h
    exact absurd h (Nat.not_lt_zero _)

theorem spans_bind {d : Decoder α} {f : α → Decoder β} {m n : Nat} (hd : Spans d m) (hf : ∀ a, Spans (f a) n) :
    Spans (d >>= f) (m + n) := by
  constructor
  · intro input h
    have hfirst : m ≤ input.length := by omega
    have hrest : n ≤ (input.drop m).length := by
      rw [List.length_drop]
      omega
    obtain ⟨a, ha⟩ := hd.ok hfirst
    obtain ⟨b, hb⟩ := (hf a).ok hrest
    exact ⟨b, by rw [bind_of_ok ha, hb, List.drop_drop]⟩
  · intro input h
    by_cases hm : input.length < m
    · exact bind_of_error (hd.error hm)
    · have hrest : (input.drop m).length < n := by
        rw [List.length_drop]
        omega
      obtain ⟨a, ha⟩ := hd.ok (Nat.le_of_not_lt hm)
      rw [bind_of_ok ha]
      exact (hf a).error hrest

theorem spans_fixed (n : Nat) : Spans (fixed n) n := by
  constructor
  · intro input h
    have htake : Bytes.take? n input ≠ none := by
      rw [ne_eq, Bytes.take?_eq_none_iff]
      omega
    obtain ⟨⟨bs, rest⟩, hbs⟩ := Option.ne_none_iff_exists'.mp htake
    have hinput := Bytes.eq_append_of_take? hbs
    refine ⟨bs, ?_⟩
    rw [fixed, hbs, hinput, List.drop_left' bs.2]
  · intro input h
    rw [fixed, Bytes.take?_eq_none_iff.mpr h]

theorem spans_map {d : Decoder α} {n : Nat} (h : Spans d n) (f : α → β) : Spans (f <$> d) n := by
  rw [← bind_pure_comp]
  exact spans_bind h fun a => spans_pure (f a)

end Decoder

/-- A value of the chain that is cut short has just ended. -/
theorem Reader.spans_consensus {α : Type} {d : Decoder α} {width : Nat} (h : d.Spans width) :
    (consensus d).Spans width fun _ e => e = .consensus .endOfInput := by
  constructor
  · intro input hlong
    obtain ⟨a, ha⟩ := h.ok hlong
    exact ⟨a, consensus_of_ok ha⟩
  · intro input hshort
    exact ⟨_, input, rfl, consensus_of_error (h.error hshort)⟩

open Decoder in
theorem Header.spans_header : Decoder.Spans Header.decode 80 :=
  spans_bind (spans_map (spans_fixed 4) FixedBytes.toI32) fun _ => spans_bind (spans_fixed 32) fun _ =>
    spans_bind (spans_fixed 32) fun _ => spans_bind (spans_map (spans_fixed 4) FixedBytes.toU32) fun _ =>
      spans_bind (spans_map (spans_fixed 4) FixedBytes.toU32) fun _ =>
        spans_bind (spans_map (spans_fixed 4) FixedBytes.toU32) fun _ => spans_pure _

end ChainQuery
