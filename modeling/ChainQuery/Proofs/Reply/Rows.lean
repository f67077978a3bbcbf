/-
  ChainQuery.Proofs.Reply.Rows — replies that are rows and nothing else.

  Four replies are rows of one width, without a count in front: indexes of inputs, compact
  and expanded history rows, and stealth rows. A row is read off the front, and what is left
  is read as if it were the whole payload, so nothing is carried from one row to the next:
  the rows of two payloads in a row are the rows of the first and then those of the second,
  and what is wrong with the second is wrong with both (`RowByRow`). A payload of whole rows
  falls into pieces of the width, each of which is its row by itself.

  Proved:
  - `decodes_compact`, `decodes_expanded`, `decodes_stealth`: each row is read off its
    written form and off nothing else; `length_encode`: the width of each.
  - `RowReader.rowByRow`, `RowByRow.map`: a reader of rows of one width reads row by row,
    also when every row is changed afterwards.
  - `Reply.rows_append`: so do the four replies; and a history height of more than 32 bits
    is what is wrong with every payload that goes on after it.
-/

import ChainQuery.Proofs.History.Formats
import ChainQuery.Proofs.Payload.Stable
import ChainQuery.Reply

namespace ChainQuery

/-! ## Row by row -/

section

variable {α β : Type}

/-- Rows of `width` bytes, each read as if it stood alone. -/
structure RowByRow (decode : Bytes → Except DecodeError (List α)) (width : Nat) : Prop where
  append_ok : ∀ {payload more xs ys}, decode payload = .ok xs → decode more = .ok ys →
    decode (payload ++ more) = .ok (xs ++ ys)
  append_error : ∀ {payload more xs e}, decode payload = .ok xs → decode more = .error e →
    decode (payload ++ more) = .error e
  /-- The rows of a payload are those of its pieces, and without a row for each there are none. -/
  pieces : ∀ payload xs, decode payload = .ok xs ↔ ∃ pieces : List Bytes, payload = pieces.flatten ∧
    (∀ piece ∈ pieces, piece.length = width) ∧ pieces.map decode = xs.map fun x => .ok [x]

namespace RowByRow

variable {decode : Bytes → Except DecodeError (List α)} {width : Nat}

theorem decode_nil (h : RowByRow decode width) : decode [] = .ok [] :=
  (h.pieces [] []).mpr ⟨[], rfl, by simp, rfl⟩

theorem decode_flatten (hnil : decode [] = .ok [])
    (happend : ∀ {payload more xs ys}, decode payload = .ok xs → decode more = .ok ys →
      decode (payload ++ more) = .ok (xs ++ ys))
    {pieces : List Bytes} {xs : List α} (h : pieces.map decode = xs.map fun x => .ok [x]) :
    decode pieces.flatten = .ok xs := by
  induction pieces generalizing xs with
  | nil =>
    rw [List.map_eq_nil_iff.mp h.symm]
    exact hnil
  | cons piece pieces ih =>
    cases xs with
    | nil => cases h
    | cons x xs =>
      obtain ⟨hpiece, hpieces⟩ := List.cons.inj h
      exact happend hpiece (ih hpieces)

theorem map (h : RowByRow decode width) (f : α → β) : RowByRow (fun payload => (decode payload).map (List.map f)) width := by
  have append_ok : ∀ {payload more ys ys'}, (decode payload).map (List.map f) = .ok ys →
      (decode more).map (List.map f) = .ok ys' → (decode (payload ++ more)).map (List.map f) = .ok (ys ++ ys') := by
    intro payload more ys ys' hys hys'
    obtain ⟨xs, hxs, rfl⟩ := Except.map_eq_ok_iff.mp hys
    obtain ⟨xs', hxs', rfl⟩ := Except.map_eq_ok_iff.mp hys'
    rw [h.append_ok hxs hxs']
    exact congrArg Except.ok List.map_append
  constructor
  · exact append_ok
  · intro payload more ys e hys he
    obtain ⟨xs, hxs, -⟩ := Except.map_eq_ok_iff.mp hys
    rw [h.append_error hxs (Except.map_eq_error_iff.mp he)]
    rfl
  · intro payload ys
    constructor
    · intro hys
      obtain ⟨xs, hxs, rfl⟩ := Except.map_eq_ok_iff.mp hys
      obtain ⟨pieces, hpayload, hwidth, hpieces⟩ := (h.pieces _ _).mp hxs
      refine ⟨pieces, hpayload, hwidth, ?_⟩
      have := congrArg (List.map fun result => Except.map (List.map f) result) hpieces
      simpa [List.map_map, Function.comp_def, Except.map] using this
    · rintro ⟨pieces, rfl, -, hpieces⟩
      have hnil : (decode []).map (List.map f) = .ok [] := by
        rw [h.decode_nil]
        rfl
      exact decode_flatten hnil append_ok hpieces

end RowByRow

theorem RowReader.rowByRow (r : RowReader α) {encode : α → Bytes} {P : α → Prop} {width : Nat} (hr : r.read.Stable)
    (h : r.read.Decodes encode P) (hwidth : ∀ x, (encode x).length = width) : RowByRow r.all width := by
  have append_ok : ∀ {payload more xs ys}, r.all payload = .ok xs → r.all more = .ok ys →
      r.all (payload ++ more) = .ok (xs ++ ys) := by
    intro payload more xs ys hxs hys
    rw [all_append hr hxs, hys]
    rfl
  constructor
  · exact append_ok
  · intro payload more xs e hxs he
    rw [all_append hr hxs, he]
    rfl
  · intro payload xs
    constructor
    · intro hxs
      obtain ⟨rfl, hP⟩ := (r.all_eq_ok_iff h).mp hxs
      refine ⟨xs.map encode, List.flatMap_def, by simp [hwidth], ?_⟩
      rw [List.map_map]
      refine List.map_congr_left fun x hx => ?_
      exact (r.all_eq_ok_iff h).mpr ⟨by simp, by simpa using hP x hx⟩
    · rintro ⟨pieces, rfl, -, hpieces⟩
      exact RowByRow.decode_flatten r.all_nil append_ok hpieces

end

/-! ## The rows of each layout -/

namespace CompactKind

theorem kindByte_ofWire (kind : UInt8) (slot : UInt64) : (ofWire kind slot).kindByte = kind := by
  unfold ofWire
  by_cases h0 : kind = 0
  · rw [if_pos h0, h0]
    rfl
  · by_cases h1 : kind = 1
    · rw [if_neg h0, if_pos h1, h1]
      rfl
    · rw [if_neg h0, if_neg h1]
      rfl

theorem slot_ofWire (kind : UInt8) (slot : UInt64) : (ofWire kind slot).slot = slot := by
  unfold ofWire
  by_cases h0 : kind = 0
  · rw [if_pos h0]
    rfl
  · by_cases h1 : kind = 1
    · rw [if_neg h0, if_pos h1]
      rfl
    · rw [if_neg h0, if_neg h1]
      rfl

/-- A kind byte is unknown only past those of outputs and spends. -/
theorem two_le_of_ofWire {kind kind' : UInt8} {slot slot' : UInt64} (h : ofWire kind slot = .unknown kind' slot') :
    2 ≤ kind' := by
  unfold ofWire at h
  by_cases h0 : kind = 0
  · rw [if_pos h0] at h
    cases h
  · by_cases h1 : kind = 1
    · rw [if_neg h0, if_pos h1] at h
      cases h
    · rw [if_neg h0, if_neg h1] at h
      cases h
      have h0' : kind.toNat ≠ 0 := fun e => h0 (UInt8.toNat_inj.mp e)
      have h1' : kind.toNat ≠ 1 := fun e => h1 (UInt8.toNat_inj.mp e)
      rw [UInt8.le_iff_toNat_le]
      show 2 ≤ kind.toNat
      omega

end CompactKind

theorem OutPoint.length_encode (p : OutPoint) : p.encode.length = 36 := by
  simp [encode, p.hash.2, Bytes.u32]

open Reader

namespace CompactRow

theorem decodes_compact : read.Decodes encode fun r => ∀ kind slot, r.kind = .unknown kind slot → 2 ≤ kind := by
  refine Decodes.congr (decodes_u8.field (fun r : CompactRow => r.kind.kindByte) fun k =>
    decodes_point.field point fun p => decodes_u32.field height fun h =>
      decodes_u64.field (fun r : CompactRow => r.kind.slot) fun s => decodes_pure fun r => ?_) fun r => ?_
  · constructor
    · rintro ⟨⟨⟨⟨hkind, rfl⟩, rfl⟩, rfl⟩, rfl⟩
      rw [ofWire_kindByte hkind]
    · rintro rfl
      refine ⟨⟨⟨⟨fun k' s' hunknown => CompactKind.two_le_of_ofWire hunknown, ?_⟩, rfl⟩, rfl⟩, ?_⟩
      · exact CompactKind.kindByte_ofWire k s
      · exact CompactKind.slot_ofWire k s
  · simp [encode]

theorem stable_compact : read.Stable :=
  stable_bind stable_u8 fun _ => stable_bind stable_point fun _ =>
    stable_bind stable_u32 fun _ => stable_bind stable_u64 fun _ => stable_pure _

theorem length_encode (r : CompactRow) : r.encode.length = 49 := by
  simp [encode, OutPoint.length_encode, Bytes.u32, Bytes.u64]

end CompactRow

namespace ExpandedRow

theorem decodes_readHeight : readHeight.Decodes (fun n => Bytes.u64 n.toUInt64) fun _ => True := by
  intro input n rest
  constructor
  · intro h
    obtain ⟨height, mid, hheight, hthen⟩ := bind_eq_ok_iff.mp h
    obtain ⟨rfl, -⟩ := (decodes_u64 _ _ _).mp hheight
    by_cases hlt : height < 0x100000000
    · rw [if_pos hlt] at hthen
      obtain ⟨rfl, rfl⟩ := pure_eq_ok_iff.mp hthen
      have hback : height.toUInt32.toUInt64 = height := by
        apply UInt64.toNat_inj.mp
        rw [UInt32.toNat_toUInt64, UInt64.toNat_toUInt32]
        exact Nat.mod_eq_of_lt (UInt64.lt_iff_toNat_lt.mp hlt)
      show Bytes.u64 height ++ mid = Bytes.u64 height.toUInt32.toUInt64 ++ mid ∧ True
      rw [hback]
      exact ⟨rfl, trivial⟩
    · rw [if_neg hlt] at hthen
      exact absurd hthen fail_ne_ok
  · rintro ⟨rfl, -⟩
    exact reads_readHeight n rest

theorem decodes_expanded : read.Decodes encode fun _ => True := by
  refine Decodes.congr (decodes_point.field HistoryRow.output fun o => decodes_readHeight.field
    HistoryRow.outputHeight fun h => decodes_u64.field HistoryRow.value fun v => decodes_point.field
      HistoryRow.spend fun s => decodes_readHeight.field HistoryRow.spendHeight fun h' =>
        decodes_pure fun r => ?_) fun r => ?_
  · cases r
    simp [and_assoc]
  · simp [encode]

theorem stable_readHeight : readHeight.Stable := by
  refine stable_bind stable_u64 ?_
  intro height
  exact stable_ite (stable_pure _) (stable_fail _)

theorem stable_expanded : read.Stable :=
  stable_bind stable_point fun _ => stable_bind stable_readHeight fun _ => stable_bind stable_u64 fun _ =>
    stable_bind stable_point fun _ => stable_bind stable_readHeight fun _ => stable_pure _

theorem length_encode (r : HistoryRow) : (encode r).length = 96 := by
  simp [encode, OutPoint.length_encode, Bytes.u64]

end ExpandedRow

namespace CompactStealthRow

theorem decodes_stealth : read.Decodes encode fun _ => True := by
  refine Decodes.congr ((decodes_fixed 32).field ephemeralKeyHash fun k => (decodes_fixed 20).field
    publicKeyHash fun h => (decodes_fixed 32).field transactionHash fun t => decodes_pure fun r => ?_) fun r => ?_
  · cases r
    simp [and_assoc]
  · simp [encode]

theorem stable_stealth : read.Stable :=
  stable_bind (stable_fixed 32) fun _ => stable_bind (stable_fixed 20) fun _ =>
    stable_bind (stable_fixed 32) fun _ => stable_pure _

theorem length_encode (r : CompactStealthRow) : r.encode.length = 84 := by
  simp [encode, r.ephemeralKeyHash.2, r.publicKeyHash.2, r.transactionHash.2]

end CompactStealthRow

/-! ## The replies -/

theorem StealthRow.rowByRow : RowByRow decodeAll 84 :=
  (CompactStealthRow.reader.rowByRow CompactStealthRow.stable_stealth CompactStealthRow.decodes_stealth
    CompactStealthRow.length_encode).map CompactStealthRow.expand

namespace Reply

/-- Replies of rows are read row by row: rows followed by the rows of another payload are
    both, rows followed by a payload with something wrong fail as that does, and a payload
    has rows only if it is whole rows, each of which is good by itself. A height that is too
    large for an expanded row is found however the payload goes on. -/
theorem rows_append :
    RowByRow Decode.unconfirmedInputs 4 ∧ RowByRow CompactRow.decodeAll 49 ∧ RowByRow ExpandedRow.decodeAll 96 ∧
    RowByRow StealthRow.decodeAll 84 ∧
    ∀ payload height, ExpandedRow.decodeAll payload = .error (.heightOverflow height) →
      ∀ more, ExpandedRow.decodeAll (payload ++ more) = .error (.heightOverflow height) := by
  refine ⟨?_, ?_, ?_, StealthRow.rowByRow, ?_⟩
  · exact RowReader.rowByRow _ stable_u32 decodes_u32 fun n => Bytes.length_toLE 4 n.toNat
  · exact CompactRow.reader.rowByRow CompactRow.stable_compact CompactRow.decodes_compact CompactRow.length_encode
  · exact ExpandedRow.reader.rowByRow ExpandedRow.stable_expanded ExpandedRow.decodes_expanded ExpandedRow.length_encode
  · intro payload height h more
    exact RowReader.all_append_of_error ExpandedRow.stable_expanded h id more

def goodRow : Bytes := ExpandedRow.encode (HistoryRow.unspent OutPoint.null 7 500)

/-- The start of a row whose height is 2^32. -/
def highRow : Bytes := OutPoint.null.encode ++ [0, 0, 0, 0, 1, 0, 0, 0]

theorem goodRow_highRow :
    ExpandedRow.decodeAll goodRow = .ok [HistoryRow.unspent OutPoint.null 7 500] ∧
    ExpandedRow.decodeAll highRow = .error (.heightOverflow 0x100000000) ∧
    ExpandedRow.decodeAll (goodRow ++ highRow) = .error (.heightOverflow 0x100000000) ∧
    ExpandedRow.decodeAll (highRow ++ goodRow) = .error (.heightOverflow 0x100000000) := by
  have hgood : ExpandedRow.decodeAll goodRow = .ok [HistoryRow.unspent OutPoint.null 7 500] := by
    have hrows := ExpandedRow.decodeAll_encodeAll [HistoryRow.unspent OutPoint.null 7 500]
    rwa [ExpandedRow.encodeAll, List.flatMap_singleton] at hrows
  have hhigh : ExpandedRow.decodeAll highRow = .error (.heightOverflow 0x100000000) := by
    have hrun : ExpandedRow.read.run highRow = (.error (.heightOverflow 0x100000000), []) := by decide
    exact ExpandedRow.reader.all_of_error (by decide) hrun
  obtain ⟨-, -, hexpanded, -, hoverflow⟩ := rows_append
  exact ⟨hgood, hhigh, hexpanded.append_error hgood hhigh, hoverflow _ _ hhigh goodRow⟩

end Reply

end ChainQuery
