/-
  ChainQuery.Proofs.History.Codec — the bytes of both history formats, exactly.

  A compact row is forty-nine bytes whatever they are, so the length of a payload says
  whether it is rows, and where it breaks off if it is not. Two rows can have the same
  bytes: a kind that is unknown by name and has the byte of an output or of a spend is
  written as one, and comes back as one (`CompactKind.asRead`).

  An expanded row is ninety-six bytes, with a height at 36 and one at 88. A payload has a
  height field wherever these stand complete, in a row that is cut short after it too
  (`ExpandedRow.heightFields`). The first of them that does not fit 32 bits is what is wrong
  with the payload, whatever follows it; only without one does its length count.

  Proved:
  - `follows_compact`, `follows_expanded`: the readers of both rows follow their layouts.
  - `compact_history_exact`: which payloads are compact rows, which rows they are, and what
    is wrong with every other payload.
  - `expanded_history_exact`: the same for expanded rows.
-/

import ChainQuery.Proofs.Payload.Layout
import ChainQuery.Proofs.Reply.Rows

namespace ChainQuery

open Reader

/-! ## Compact rows -/

/-- What a kind is read as once it is written. -/
def CompactKind.asRead : CompactKind → CompactKind
  | .output value => .output value
  | .spend previousChecksum => .spend previousChecksum
  | .unknown kind slot => if kind = 0 then .output slot else if kind = 1 then .spend slot else .unknown kind slot

theorem CompactKind.asRead_eq (k : CompactKind) : k.asRead = ofWire k.kindByte k.slot := by
  cases k with
  | output value => rfl
  | spend previousChecksum => rfl
  | unknown kind slot => rfl

namespace CompactRow

def asRead (r : CompactRow) : CompactRow := { r with kind := r.kind.asRead }

def layout : Layout := [.plain 1, .plain 32, .plain 4, .plain 4, .plain 8]

theorem follows_compact : read.Follows layout :=
  (follows_bind follows_u8 fun _ => follows_bind follows_point fun _ => follows_bind follows_u32 fun _ =>
    follows_bind follows_u64 fun _ => follows_pure _).congr rfl

theorem encode_asRead (r : CompactRow) : r.asRead.encode = r.encode := by
  simp only [encode, asRead, CompactKind.asRead_eq, CompactKind.kindByte_ofWire, CompactKind.slot_ofWire]

theorem two_le_of_asRead {r : CompactRow} {kind : UInt8} {slot : UInt64} (h : r.asRead.kind = .unknown kind slot) :
    2 ≤ kind := by
  have h : r.kind.asRead = .unknown kind slot := h
  rw [CompactKind.asRead_eq] at h
  exact CompactKind.two_le_of_ofWire h

theorem decodeAll_eq_ok_iff {payload : Bytes} {rows : List CompactRow} :
    decodeAll payload = .ok rows ↔
      payload = encodeAll rows ∧ ∀ r ∈ rows, ∀ kind slot, r.kind = .unknown kind slot → 2 ≤ kind :=
  reader.all_eq_ok_iff decodes_compact

theorem decodeAll_written (rows : List CompactRow) : decodeAll (encodeAll rows) = .ok (rows.map asRead) := by
  refine decodeAll_eq_ok_iff.mpr ⟨?_, ?_⟩
  · rw [encodeAll, encodeAll, List.flatMap_map]
    simp only [encode_asRead]
  · intro r hr kind slot hkind
    obtain ⟨x, -, rfl⟩ := List.mem_map.mp hr
    exact two_le_of_asRead hkind

end CompactRow

theorem History.decode_eq_error_iff {payload : Bytes} {e : DecodeError} :
    decode payload = .silent (.error e) ↔ CompactRow.decodeAll payload = .error e := by
  unfold decode
  cases CompactRow.decodeAll payload with
  | ok rows => simp [Traced.silent, Traced.map]
  | error e' => simp [Traced.silent]

open CompactRow in
/-- Payloads of compact rows are those of a multiple of forty-nine bytes, and each is what
    its rows are written as. Written rows come back as they are, but for kinds that are
    spelled as another one. Every other payload fails at the first field that is not all
    there, and a history is not reconciled from it. -/
theorem compact_history_exact :
    (∀ payload, (∃ rows, decodeAll payload = .ok rows) ↔ payload.length % 49 = 0) ∧
    (∀ payload rows, decodeAll payload = .ok rows ↔
      payload = encodeAll rows ∧ ∀ r ∈ rows, ∀ kind slot, r.kind = .unknown kind slot → 2 ≤ kind) ∧
    (∀ rows, decodeAll (encodeAll rows) = .ok (rows.map asRead)) ∧
    (∀ payload e, decodeAll payload = .error e ↔ payload.length % 49 ≠ 0 ∧
      ∃ needed remaining, e = .truncated needed remaining ∧
        BreaksOff [1, 32, 4, 4, 8] (payload.length % 49) needed remaining) ∧
    ∀ payload e, History.decode payload = .silent (.error e) ↔ decodeAll payload = .error e := by
  refine ⟨?_, ?_, decodeAll_written, ?_, ?_⟩
  · intro payload
    exact reader.exists_all_plain_iff follows_compact (by decide) rfl
  · intro payload rows
    exact decodeAll_eq_ok_iff
  · intro payload e
    exact reader.all_plain_eq_error_iff follows_compact (by decide) rfl
  · intro payload e
    exact History.decode_eq_error_iff

/-! ## Expanded rows -/

namespace ExpandedRow

def layout : Layout := [.plain 32, .plain 4, .height, .plain 8, .plain 32, .plain 4, .height]

/-- A height is refused as soon as it is read. -/
theorem follows_readHeight : readHeight.Follows [.height] := by
  have hfault : ∀ input : Bytes, Layout.fault? [.height] input =
      if input.length < 8 then some (.truncated 8 input.length)
      else if tooHigh (input.wordAt 0) then some (.heightOverflow (input.wordAt 0)) else none := fun input => by
    simp [Layout.fault?, Cell.width]
  constructor
  · intro input h
    rw [hfault] at h
    by_cases hshort : input.length < 8
    · rw [if_pos hshort] at h
      cases h
    rw [if_neg hshort] at h
    by_cases hhigh : tooHigh (input.wordAt 0)
    · rw [if_pos hhigh] at h
      cases h
    have hlow : input.wordAt 0 < 0x100000000 := tooHigh_eq_false_iff.mp (Bool.eq_false_iff.mpr hhigh)
    refine ⟨(input.wordAt 0).toUInt32, ?_⟩
    rw [readHeight, bind_of_ok (u64_of_long (Nat.le_of_not_lt hshort)), if_pos hlow]
    rfl
  · intro input e h
    rw [hfault] at h
    by_cases hshort : input.length < 8
    · rw [if_pos hshort] at h
      cases h
      exact ⟨input, bind_of_error (u64_eq_error_iff.mpr ⟨hshort, rfl, rfl⟩)⟩
    rw [if_neg hshort] at h
    by_cases hhigh : tooHigh (input.wordAt 0)
    · rw [if_pos hhigh] at h
      cases h
      have hlarge : ¬ input.wordAt 0 < 0x100000000 := fun hlow => by
        rw [tooHigh_eq_false_iff.mpr hlow] at hhigh
        cases hhigh
      refine ⟨input.drop 8, ?_⟩
      rw [readHeight, bind_of_ok (u64_of_long (Nat.le_of_not_lt hshort)), if_neg hlarge]
      rfl
    · rw [if_neg hhigh] at h
      cases h

theorem follows_expanded : read.Follows layout :=
  (follows_bind follows_point fun _ => follows_bind follows_readHeight fun _ => follows_bind follows_u64 fun _ =>
    follows_bind follows_point fun _ => follows_bind follows_readHeight fun _ => follows_pure _).congr rfl

/-- The heights of a payload that are all there, in order. -/
def heightFields (payload : Bytes) : List UInt64 :=
  (List.range (payload.length / 96 + 1)).flatMap fun i => payload.wordsAt [96 * i + 36, 96 * i + 88]

theorem rowHeights_layout (payload : Bytes) : layout.rowHeights payload = heightFields payload := by
  have hrow : ∀ i, layout.heights (payload.drop (96 * i)) = payload.wordsAt [96 * i + 36, 96 * i + 88] :=
    fun i => Bytes.wordsAt_drop payload (96 * i) [36, 88]
  show (List.range (payload.length / 96 + 1)).flatMap (fun i => layout.heights (payload.drop (96 * i))) = _
  simp only [hrow]
  rfl

end ExpandedRow

open ExpandedRow in
/-- Payloads of expanded rows are those of a multiple of ninety-six bytes whose heights all
    fit 32 bits, and each is what its rows are written as. What is wrong with any other
    payload is the first height that does not fit, or else the first field of the last row
    that is not all there. -/
theorem expanded_history_exact :
    (∀ payload, (∃ rows, decodeAll payload = .ok rows) ↔
      payload.length % 96 = 0 ∧ ∀ height ∈ heightFields payload, height < 0x100000000) ∧
    (∀ payload rows, decodeAll payload = .ok rows ↔ payload = encodeAll rows) ∧
    ∀ payload e, decodeAll payload = .error e ↔
      match (heightFields payload).find? (fun height => 0x100000000 ≤ height) with
      | some height => e = .heightOverflow height
      | none => payload.length % 96 ≠ 0 ∧ ∃ needed remaining, e = .truncated needed remaining ∧
          BreaksOff [32, 4, 8, 8, 32, 4, 8] (payload.length % 96) needed remaining := by
  refine ⟨?_, ?_, ?_⟩
  · intro payload
    have hrows := @RowReader.exists_all_iff _ reader _ follows_expanded (by decide) payload
    rw [rowHeights_layout, find?_tooHigh_eq_none_iff] at hrows
    exact hrows
  · intro payload rows
    exact (reader.all_eq_ok_iff decodes_expanded).trans (and_iff_left fun _ _ => trivial)
  · intro payload e
    have hrows := @RowReader.all_eq_error_iff _ reader _ follows_expanded (by decide) payload e
    rw [rowHeights_layout] at hrows
    exact hrows

end ChainQuery
