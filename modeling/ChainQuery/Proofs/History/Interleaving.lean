/-
  ChainQuery.Proofs.History.Interleaving — the order of a reply's rows.

  Two replies can tell the same outputs in the same order, and under every checksum the
  same spends in the same order, and still differ: in where the spends stand among the
  outputs, in the order of spends of different checksums, and in rows of unknown kind.
  In every lane they open the same rows and ask for the same spends, so they are served
  alike.

  Proved:
  - `opened_congr`, `asked_congr`: a lane depends on the outputs and on its own spends.
  - `interleaving_is_irrelevant`: both replies reconcile to the same rows and report the
    same orphans, in the same order where all spends come in the same order.
-/

import ChainQuery.Proofs.History.Lane

namespace ChainQuery

def CompactRow.isSpend (r : CompactRow) : Bool :=
  match r.kind with
  | .spend _ => true
  | _ => false

namespace History

theorem isSpend_eq (x : CompactRow) : x.isSpend = (spendOf x).isSome := by
  cases x with
  | mk point height kind => cases kind <;> rfl

theorem filterMap_spendOf (reply : List CompactRow) :
    (reply.filterMap spendOf).map Spend.row = reply.filter CompactRow.isSpend := by
  rw [map_filterMap row_of_spendOf]
  exact List.filter_congr fun x _ => (isSpend_eq x).symm

section Replies

variable {xs ys : List CompactRow}

theorem openings_congr (ho : xs.filter CompactRow.isOutput = ys.filter CompactRow.isOutput) :
    xs.filterMap openedBy = ys.filterMap openedBy := by
  rw [openings_of_outputs xs, openings_of_outputs ys, ho]

theorem opened_congr (ho : xs.filter CompactRow.isOutput = ys.filter CompactRow.isOutput) (c : UInt64) :
    opened xs c = opened ys c := by
  unfold opened
  rw [openings_congr ho]

theorem asked_congr {c : UInt64} (hs : xs.filter (CompactRow.isSpendOf c) = ys.filter (CompactRow.isSpendOf c)) :
    asked xs c = asked ys c := by
  apply List.map_injective_iff.mpr row_injective
  rw [asked_row, asked_row, hs]

theorem spends_congr (hs : xs.filter CompactRow.isSpend = ys.filter CompactRow.isSpend) :
    xs.filterMap spendOf = ys.filterMap spendOf := by
  apply List.map_injective_iff.mpr row_injective
  rw [filterMap_spendOf, filterMap_spendOf, hs]

theorem keys_rows (reply : List CompactRow) :
    (reconcile reply).rows.map (fun r => r.output.checksum) =
      (reply.filter CompactRow.isOutput).map fun x => x.point.checksum := by
  rw [← rows_outputRow, List.map_map]
  rfl

/-- What a reply reconciles to is decided by its outputs and, under each checksum, its
    spends; the order of all spends decides only in which order the orphans are
    reported. -/
theorem interleaving_is_irrelevant (ho : xs.filter CompactRow.isOutput = ys.filter CompactRow.isOutput)
    (hs : ∀ c, xs.filter (CompactRow.isSpendOf c) = ys.filter (CompactRow.isSpendOf c)) :
    (reconcile xs).traced.value = (reconcile ys).traced.value ∧
    (reconcile xs).traced.events.Perm (reconcile ys).traced.events ∧
    (xs.filter CompactRow.isSpend = ys.filter CompactRow.isSpend →
      (reconcile xs).traced.events = (reconcile ys).traced.events) := by
  refine ⟨?_, ?_, ?_⟩
  · have hkeys : (reconcile xs).rows.map (fun r => r.output.checksum) =
        (reconcile ys).rows.map fun r => r.output.checksum := by
      rw [keys_rows, keys_rows, ho]
    refine eq_of_filter_key (fun r : HistoryRow => r.output.checksum) hkeys fun c => ?_
    show lane c (reconcile xs).rows = lane c (reconcile ys).rows
    rw [lane_rows, lane_rows, opened_congr ho, asked_congr (hs c)]
  · have horphans : (reconcile xs).orphans.Perm (reconcile ys).orphans := by
      refine perm_of_filter_key OrphanSpend.checksum fun c => ?_
      rw [lane_orphans, lane_orphans, opened_congr ho, asked_congr (hs c)]
    exact horphans.map Event.orphanSpend
  · intro hspends
    have hscans : scans xs = scans ys := by
      unfold scans
      rw [openings_congr ho, spends_congr hspends]
    show (reconcile xs).orphans.map Event.orphanSpend = (reconcile ys).orphans.map Event.orphanSpend
    rw [reconcile_eq, reconcile_eq, hscans]

end Replies

/-! ## Two orders of one reply -/

def soleOutput : OutPoint := ⟨FixedBytes.replicate 32 0xaa, 1⟩

def spendBy (b : UInt8) (c : UInt64) : CompactRow := ⟨⟨FixedBytes.replicate 32 b, 0⟩, 20, .spend c⟩

/-- Two spends for one output, the second of them too many, and one for an output that is
    not there. -/
def spendsFirst : List CompactRow :=
  [spendBy 0xb1 soleOutput.checksum, spendBy 0xb2 soleOutput.checksum, spendBy 0xb3 42, ⟨soleOutput, 10, .output 5⟩]

/-- The spend without an output comes first, and a row of unknown kind is among the rest. -/
def spendsShuffled : List CompactRow :=
  [spendBy 0xb3 42, ⟨soleOutput, 10, .output 5⟩, ⟨soleOutput, 3, .unknown 9 soleOutput.checksum⟩,
    spendBy 0xb1 soleOutput.checksum, spendBy 0xb2 soleOutput.checksum]

theorem spends_shuffle (c : UInt64) :
    spendsFirst.filter (CompactRow.isSpendOf c) = spendsShuffled.filter (CompactRow.isSpendOf c) := by
  by_cases h42 : c = 42
  · subst h42
    decide
  by_cases hown : c = soleOutput.checksum
  · subst hown
    decide
  · have hkinds : ∀ r ∈ spendsFirst ++ spendsShuffled,
        r.kind = .spend 42 ∨ r.kind = .spend soleOutput.checksum ∨ r.isSpend = false := by
      decide
    have hnone : ∀ r ∈ spendsFirst ++ spendsShuffled, ¬CompactRow.isSpendOf c r = true := by
      intro r hr hspend
      have hkind : r.kind = .spend c := of_decide_eq_true hspend
      have := hkinds r hr
      simp [CompactRow.isSpend, hkind, h42, hown] at this
    rw [List.filter_eq_nil_iff.mpr fun r hr => hnone r (List.mem_append_left _ hr),
      List.filter_eq_nil_iff.mpr fun r hr => hnone r (List.mem_append_right _ hr)]

theorem shuffled_spends_reconcile :
    (spendsFirst.filter CompactRow.isOutput = spendsShuffled.filter CompactRow.isOutput ∧
      ∀ c, spendsFirst.filter (CompactRow.isSpendOf c) = spendsShuffled.filter (CompactRow.isSpendOf c)) ∧
    (reconcile spendsFirst).traced.value = (reconcile spendsShuffled).traced.value ∧
    (reconcile spendsFirst).traced.events.Perm (reconcile spendsShuffled).traced.events :=
  have h := @interleaving_is_irrelevant spendsFirst spendsShuffled (by decide) spends_shuffle
  ⟨⟨by decide, spends_shuffle⟩, h.1, h.2.1⟩

end History

end ChainQuery
