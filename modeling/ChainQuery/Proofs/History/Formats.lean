/-
  ChainQuery.Proofs.History.Formats — one history in two formats.

  A history is told in expanded rows as it is, or in compact rows: an output row for each
  of its rows, and a spend row for each that is spent, which names its output by the
  checksum alone. The compact rows can come in any order that keeps the outputs in the
  order of the rows, and the spends of one checksum in the order of theirs
  (`Interleaves`); rows of unknown kind can stand anywhere.

  Proved:
  - `reads_compact`, `reads_expanded`: rows of both formats are read as they were written.
    A compact row whose kind is unknown but spelled like an output or a spend is read as
    that.
  - `formats_agree`: where among outputs that share a checksum the spent ones come first,
    both formats decode to the history, and no spend is left over.
-/

import ChainQuery.History.Expanded
import ChainQuery.Proofs.History.Lane
import ChainQuery.Proofs.Payload.Reads
import Mathlib.Data.List.Basic

namespace ChainQuery

/-! ## Rows of both formats -/

namespace CompactRow

/-- The kind byte decides how the slot is read. -/
theorem reads_compact (r : CompactRow) :
    read.Reads r.encode { r with kind := CompactKind.ofWire r.kind.kindByte r.kind.slot } := by
  have h : r.encode = [r.kind.kindByte] ++ (r.point.encode ++ (Bytes.u32 r.height ++ Bytes.u64 r.kind.slot)) := by
    simp [encode]
  rw [h]
  exact Reader.reads_bind (Reader.reads_u8 _) (Reader.reads_bind (Reader.reads_point _)
    (Reader.reads_bind (Reader.reads_u32 _) (Reader.reads_bind_pure (Reader.reads_u64 _))))

theorem ofWire_kindByte {k : CompactKind} (h : ∀ kind slot, k = .unknown kind slot → 2 ≤ kind) :
    CompactKind.ofWire k.kindByte k.slot = k := by
  cases k with
  | output value => rfl
  | spend previousChecksum => rfl
  | unknown kind slot =>
    have h2 : 2 ≤ kind.toNat := UInt8.le_iff_toNat_le.mp (h kind slot rfl)
    have h0 : kind ≠ 0 := by rintro rfl; simp at h2
    have h1 : kind ≠ 1 := by rintro rfl; simp at h2
    show CompactKind.ofWire kind slot = _
    rw [CompactKind.ofWire, if_neg h0, if_neg h1]

theorem decodeAll_encodeAll {rows : List CompactRow}
    (h : ∀ r ∈ rows, ∀ kind slot, r.kind = .unknown kind slot → 2 ≤ kind) : decodeAll (encodeAll rows) = .ok rows := by
  refine reader.all_flatMap fun r hr => ?_
  have := reads_compact r
  rwa [ofWire_kindByte (h r hr)] at this

end CompactRow

namespace ExpandedRow

theorem reads_readHeight (n : UInt32) : readHeight.Reads (Bytes.u64 n.toUInt64) n := by
  have hlt : n.toUInt64 < 0x100000000 := by
    rw [UInt64.lt_iff_toNat_lt]
    have := n.toNat_lt
    simpa using this
  have h : readHeight.Reads (Bytes.u64 n.toUInt64 ++ []) n := by
    refine Reader.reads_bind (Reader.reads_u64 _) ?_
    rw [if_pos hlt, UInt32.toUInt32_toUInt64]
    exact Reader.reads_pure n
  rwa [List.append_nil] at h

theorem reads_expanded (r : HistoryRow) : read.Reads (encode r) r := by
  rw [encode, List.append_assoc, List.append_assoc, List.append_assoc]
  exact Reader.reads_bind (Reader.reads_point _) (Reader.reads_bind (reads_readHeight _)
    (Reader.reads_bind (Reader.reads_u64 _) (Reader.reads_bind (Reader.reads_point _)
      (Reader.reads_bind_pure (reads_readHeight _)))))

theorem decodeAll_encodeAll (rows : List HistoryRow) : decodeAll (encodeAll rows) = .ok rows :=
  reader.all_flatMap fun r _ => reads_expanded r

end ExpandedRow

namespace History

/-! ## A compact reply of a history -/

/-- The compact rows of a history, in an order that keeps the outputs as they are and the
    spends of every checksum as they are. -/
structure Interleaves (reply : List CompactRow) (rows : List HistoryRow) : Prop where
  outputs : reply.filter CompactRow.isOutput = rows.map HistoryRow.outputRow
  spends : ∀ c, reply.filter (CompactRow.isSpendOf c) =
    ((lane c rows).filter fun r => r.spend.hash ≠ Hash.zero).map HistoryRow.spendRow
  unknown : ∀ r ∈ reply, ∀ kind slot, r.kind = .unknown kind slot → 2 ≤ kind

/-- The row before a spend is recorded in it. -/
def cleared (r : HistoryRow) : HistoryRow := HistoryRow.unspent r.output r.outputHeight r.value

def spendIn (r : HistoryRow) : Spend := ⟨r.spend, r.spendHeight, r.output.checksum⟩

/-! ## Serving a lane of a history -/

theorem serve_cleared {rows : List HistoryRow}
    (hrows : ∀ r ∈ rows, r = cleared r ∨ r.spend.hash ≠ Hash.zero)
    (hfirst : rows.Pairwise fun a b => b.spend.hash ≠ Hash.zero → a.spend.hash ≠ Hash.zero) :
    serve (rows.map cleared) ((rows.filter fun r => r.spend.hash ≠ Hash.zero).map spendIn) = rows := by
  induction rows with
  | nil => rfl
  | cons r rows ih =>
    have hrest := fun x hx => hrows x (List.mem_cons_of_mem _ hx)
    by_cases hr : r.spend.hash = Hash.zero
    · -- no row after `r` is spent, so no spend is left and every row is as it was opened
      have hzero : ∀ x ∈ r :: rows, x.spend.hash = Hash.zero := by
        intro x hx
        rcases List.mem_cons.mp hx with rfl | hx
        · exact hr
        · by_contra hx0
          exact List.rel_of_pairwise_cons hfirst hx hx0 hr
      have hnone : (r :: rows).filter (fun r => r.spend.hash ≠ Hash.zero) = [] :=
        List.filter_eq_nil_iff.mpr fun x hx => by simpa using hzero x hx
      have hsame : ∀ x ∈ r :: rows, cleared x = x := by
        intro x hx
        rcases hrows x hx with h | h
        · exact h.symm
        · exact absurd (hzero x hx) h
      rw [hnone]
      exact (List.map_congr_left hsame).trans (List.map_id _)
    · have hs : (spendIn r).hashed = true := decide_eq_true hr
      rw [List.filter_cons_of_pos (by simpa using hr), List.map_cons, List.map_cons, serve, if_pos hs,
        ih hrest (List.Pairwise.of_cons hfirst)]
      rfl

theorem unserved_eq_nil {n : Nat} {ss : List Spend} (hs : ∀ s ∈ ss, s.hashed = true) (hn : ss.length ≤ n) :
    unserved n ss = [] := by
  induction ss generalizing n with
  | nil => cases n <;> rfl
  | cons s ss ih =>
    cases n with
    | zero => simp at hn
    | succ n =>
      rw [unserved, if_pos (hs s List.mem_cons_self)]
      exact ih (fun t ht => hs t (List.mem_cons_of_mem _ ht)) (by simpa using hn)

/-! ## What a reply of a history reconciles to -/

section Outputs

variable {reply : List CompactRow} {rows : List HistoryRow}
  (ho : reply.filter CompactRow.isOutput = rows.map HistoryRow.outputRow)

include ho in
theorem opened_of_outputs (c : UInt64) : opened reply c = (lane c rows).map cleared := by
  have hrows : reply.filterMap openedBy = rows.map cleared := by
    rw [openings_of_outputs, ho, List.filterMap_map]
    show rows.filterMap (some ∘ cleared) = rows.map cleared
    rw [List.filterMap_eq_map]
  rw [opened, hrows]
  exact lane_map (f := cleared) c (fun _ => rfl) rows

include ho in
/-- Rows of these outputs that are the same in every lane are the same. -/
theorem rows_of_lanes (h : ∀ c, lane c (reconcile reply).rows = lane c rows) : (reconcile reply).rows = rows := by
  have hkeys : (reconcile reply).rows.map (fun r => r.output.checksum) = rows.map fun r => r.output.checksum := by
    have := congrArg (List.map fun r : CompactRow => r.point.checksum) ((rows_outputRow reply).trans ho)
    rwa [List.map_map, List.map_map] at this
  exact eq_of_filter_key _ hkeys h

theorem orphans_eq_nil (h : ∀ c, unserved (opened reply c).length (asked reply c) = []) :
    (reconcile reply).orphans = [] := by
  refine List.eq_nil_iff_forall_not_mem.mpr fun o ho => ?_
  have hlane : (reconcile reply).orphans.filter (fun x => x.checksum = o.checksum) = [] := by
    rw [lane_orphans, h, List.map_nil]
  exact List.filter_eq_nil_iff.mp hlane o ho (by simp)

end Outputs

section Interleaved

variable {reply : List CompactRow} {rows : List HistoryRow} (h : Interleaves reply rows)

include h

theorem opened_of_interleaves (c : UInt64) : opened reply c = (lane c rows).map cleared := opened_of_outputs h.outputs c

theorem asked_of_interleaves (c : UInt64) :
    asked reply c = ((lane c rows).filter fun r => r.spend.hash ≠ Hash.zero).map spendIn := by
  apply List.map_injective_iff.mpr row_injective
  rw [asked_row, h.spends, List.map_map]
  rfl

/-- Every spend finds its row. -/
theorem orphans_of_interleaves : (reconcile reply).orphans = [] := by
  refine orphans_eq_nil fun c => ?_
  have hlen : (asked reply c).length ≤ (opened reply c).length := by
    rw [opened_of_interleaves h, asked_of_interleaves h, List.length_map, List.length_map]
    exact List.length_filter_le _ _
  have hhash : ∀ s ∈ asked reply c, s.hashed = true := by
    intro s hs
    rw [asked_of_interleaves h] at hs
    obtain ⟨r, hr, rfl⟩ := List.mem_map.mp hs
    exact (List.mem_filter.mp hr).2
  exact unserved_eq_nil hhash hlen

variable (hrows : ∀ r ∈ rows, r = cleared r ∨ r.spend.hash ≠ Hash.zero)
  (hfirst : rows.Pairwise fun a b => a.output.checksum = b.output.checksum →
    b.spend.hash ≠ Hash.zero → a.spend.hash ≠ Hash.zero)

include hrows hfirst

theorem lane_of_interleaves (c : UInt64) : lane c (reconcile reply).rows = lane c rows := by
  have hserve : serve (opened reply c) (asked reply c) = lane c rows := by
    rw [opened_of_interleaves h, asked_of_interleaves h]
    refine serve_cleared (fun r hr => hrows r (mem_lane.mp hr).1) ?_
    refine (List.Pairwise.filter _ hfirst).imp_of_mem fun ha hb hab => hab ?_
    rw [(mem_lane.mp ha).2, (mem_lane.mp hb).2]
  have hsettle : ∀ r ∈ lane c rows, settle r = r := by
    intro r hr
    rcases hrows r (mem_lane.mp hr).1 with h | h
    · rw [h]; rfl
    · rw [settle, if_neg h]
  rw [lane_rows, hserve]
  exact (List.map_congr_left hsettle).trans (List.map_id _)

theorem rows_of_interleaves : (reconcile reply).rows = rows :=
  rows_of_lanes h.outputs (lane_of_interleaves h hrows hfirst)

end Interleaved

/-! ## Both formats -/

/-- A history in which among outputs that share a checksum the spent ones come first is
    decoded from both formats, and a compact reply of it leaves no spend over. -/
theorem formats_agree {reply : List CompactRow} {rows : List HistoryRow} (h : Interleaves reply rows)
    (hrows : ∀ r ∈ rows, r = HistoryRow.unspent r.output r.outputHeight r.value ∨ r.spend.hash ≠ Hash.zero)
    (hfirst : rows.Pairwise fun a b => a.output.checksum = b.output.checksum →
      b.spend.hash ≠ Hash.zero → a.spend.hash ≠ Hash.zero) :
    decode (CompactRow.encodeAll reply) = .silent (.ok rows) ∧
      ExpandedRow.decodeAll (ExpandedRow.encodeAll rows) = .ok rows := by
  refine ⟨?_, ExpandedRow.decodeAll_encodeAll rows⟩
  rw [decode, CompactRow.decodeAll_encodeAll h.unknown]
  show Traced.mk (Except.ok (reconcile reply).rows) ((reconcile reply).orphans.map Event.orphanSpend) = _
  rw [rows_of_interleaves h hrows hfirst, orphans_of_interleaves h]
  rfl

/-- Two outputs of one checksum, the first of them spent, with an output of another
    checksum between them. -/
def mixedRows : List HistoryRow :=
  let first : OutPoint := ⟨FixedBytes.replicate 32 0xaa, 1⟩
  let second : OutPoint := ⟨FixedBytes.replicate 32 0xaa, 32769⟩
  let other : OutPoint := ⟨FixedBytes.replicate 32 0xbb, 0⟩
  [⟨first, 10, 500, ⟨FixedBytes.replicate 32 0xcc, 2⟩, 12⟩, HistoryRow.unspent other 10 7, HistoryRow.unspent second 11 900]

/-- The spend comes before its output, and a row of unknown kind before everything. -/
def mixedReply : List CompactRow :=
  ⟨OutPoint.null, 0, .unknown 7 0⟩ :: (mixedRows.take 1).map HistoryRow.spendRow ++ mixedRows.map HistoryRow.outputRow

/-- The checksum of the first output, and of the third. -/
def mixedChecksum : UInt64 := (OutPoint.mk (FixedBytes.replicate 32 0xaa) 1).checksum

theorem mixedReply_interleaves : Interleaves mixedReply mixedRows := by
  have hkinds : ∀ r ∈ mixedReply, CompactRow.isOutput r = true ∨ r.kind = .spend mixedChecksum ∨ r.kind = .unknown 7 0 := by
    decide
  have hspent : ∀ r ∈ mixedRows, r.spend.hash ≠ Hash.zero → r.output.checksum = mixedChecksum := by decide
  refine ⟨by decide, fun c => ?_, fun r hr kind slot hkind => ?_⟩
  · by_cases hc : c = mixedChecksum
    · subst hc
      decide
    · have hreply : ∀ x ∈ mixedReply, ¬CompactRow.isSpendOf c x = true := by
        intro x hx hspend
        have hkind : x.kind = .spend c := of_decide_eq_true hspend
        have := hkinds x hx
        simp [CompactRow.isOutput, hkind, hc] at this
      have hrows : ∀ x ∈ lane c mixedRows, ¬decide (x.spend.hash ≠ Hash.zero) = true := by
        intro x hx hx0
        obtain ⟨hmem, hlane⟩ := mem_lane.mp hx
        exact hc (hlane.symm.trans (hspent x hmem (of_decide_eq_true hx0)))
      rw [List.filter_eq_nil_iff.mpr hreply, List.filter_eq_nil_iff.mpr hrows]
      rfl
  · have := hkinds r hr
    simp only [CompactRow.isOutput, hkind, reduceCtorEq, CompactKind.unknown.injEq, false_or] at this
    obtain ⟨rfl, -⟩ := this
    decide

theorem mixedReply_agrees :
    (Interleaves mixedReply mixedRows ∧
      (∀ r ∈ mixedRows, r = HistoryRow.unspent r.output r.outputHeight r.value ∨ r.spend.hash ≠ Hash.zero) ∧
      mixedRows.Pairwise fun a b => a.output.checksum = b.output.checksum →
        b.spend.hash ≠ Hash.zero → a.spend.hash ≠ Hash.zero) ∧
    decode (CompactRow.encodeAll mixedReply) = .silent (.ok mixedRows) ∧
      ExpandedRow.decodeAll (ExpandedRow.encodeAll mixedRows) = .ok mixedRows :=
  ⟨⟨mixedReply_interleaves, by decide, by decide⟩, formats_agree mixedReply_interleaves (by decide) (by decide)⟩

end History

end ChainQuery
