/-
  ChainQuery.Proofs.History.CompactForm — a reconciled history told again in compact rows.

  A history can be told as a reply of its own: an output row for each of its rows, and then
  a spend row for each that counts as spent. When the history came out of a reply, each lane
  of it has the rows with a claim first; of those behind them only the first can carry
  another point than the null one, that of a spend with a zero hash, and it shows the height
  of an unspent row (`Settled`). So the spends told again are claims, one for each row up to
  that row, and then at most the zero-hash spend, which finds the row where it was.

  Proved:
  - `settled_lane`: every lane of what a reply reconciles to is settled.
  - `serve_settled`: by induction on a settled lane, serving it with its own spends gives it
    again and leaves no spend over.
  - `reconcile_compactForm`: what a reply reconciles to, told in compact rows, reconciles to
    itself.
-/

import ChainQuery.Proofs.History.Extension
import ChainQuery.Proofs.History.Formats
import ChainQuery.Proofs.History.Settlement

namespace ChainQuery.History

/-- The compact rows of a history: its outputs, and then the spends of the rows that count
    as spent. -/
def compactForm (rows : List HistoryRow) : List CompactRow :=
  rows.map HistoryRow.outputRow ++ (rows.filter HistoryRow.isSpent).map HistoryRow.spendRow

/-! ## Settled lanes -/

/-- The rows with a claim come first, and of the others all but the first are unspent. -/
def Settled : List HistoryRow → Prop
  | [] => True
  | r :: rs => if r.spend.hash = Hash.zero then r.spendHeight = unspentHeight ∧ ∀ x ∈ rs, Sentinel x else Settled rs

theorem settled_append {done rows : List HistoryRow} (hd : ∀ r ∈ done, r.spend.hash ≠ Hash.zero) (h : Settled rows) :
    Settled (done ++ rows) := by
  induction done with
  | nil => exact h
  | cons r done ih =>
    rw [List.cons_append, Settled, if_neg (hd r List.mem_cons_self)]
    exact ih fun x hx => hd x (List.mem_cons_of_mem _ hx)

theorem sentinel_of_unclaimed {reply : List CompactRow} {c : UInt64} {r : HistoryRow} (h : r ∈ unclaimed reply c) :
    Sentinel r :=
  unspent_of_opened (List.mem_of_mem_drop h)

theorem settled_unclaimed (reply : List CompactRow) (c : UInt64) :
    Settled (((unclaimed reply c).modifyHead (touch (asked reply c))).map settle) := by
  cases hu : unclaimed reply c with
  | nil => trivial
  | cons o os =>
    have hopen : ∀ x ∈ o :: os, Sentinel x := fun x hx => sentinel_of_unclaimed (hu ▸ hx)
    have ho : o.spend.hash = Hash.zero := by
      rw [hopen o List.mem_cons_self]
      rfl
    have hhead : (touch (asked reply c) o).spend.hash = Hash.zero := touch_hash ho
    rw [List.modifyHead_cons, List.map_cons, Settled, settle_spend, if_pos hhead]
    refine ⟨by rw [settle, if_pos hhead], ?_⟩
    intro x hx
    obtain ⟨y, hy, rfl⟩ := List.mem_map.mp hx
    exact settle_sentinel (hopen y (List.mem_cons_of_mem _ hy))

theorem settled_lane (reply : List CompactRow) (c : UInt64) : Settled (lane c (reconcile reply).rows) := by
  rw [lane_split]
  exact settled_append (fun r => claimed_hash) (settled_unclaimed reply c)

/-! ## Serving a lane with its own spends -/

theorem isSpent_of_sentinel {r : HistoryRow} (h : Sentinel r) : r.isSpent = false := by
  rw [h]
  rfl

theorem eq_cleared_of_not_isSpent {r : HistoryRow} (h : r.isSpent = false) (hh : r.spendHeight = unspentHeight) :
    r = cleared r := by
  have hn : r.spend = OutPoint.null := by simpa [HistoryRow.isSpent] using h
  cases r
  simp only at hh hn
  subst hh hn
  rfl

theorem map_cleared {rows : List HistoryRow} (h : ∀ r ∈ rows, Sentinel r) : rows.map cleared = rows :=
  (List.map_congr_left fun r hr => (h r hr).symm).trans (List.map_id _)

theorem map_settle {rows : List HistoryRow}
    (h : ∀ r ∈ rows, r.spend.hash = Hash.zero → r.spendHeight = unspentHeight) : rows.map settle = rows := by
  refine (List.map_congr_left fun r hr => ?_).trans (List.map_id _)
  by_cases h0 : r.spend.hash = Hash.zero
  · rw [settle, if_pos h0, ← h r hr h0]
    rfl
  · exact settle_of_hash h0

/-- Where no row has a claim, at most the first counts as spent, and it gets its zero-hash
    spend again. -/
theorem serve_unclaimed {r : HistoryRow} {rs : List HistoryRow} (h0 : r.spend.hash = Hash.zero)
    (hh : r.spendHeight = unspentHeight) (hrs : ∀ x ∈ rs, Sentinel x) :
    serve ((r :: rs).map cleared) (((r :: rs).filter HistoryRow.isSpent).map spendIn) = r :: rs ∧
      unserved (rs.length + 1) (((r :: rs).filter HistoryRow.isSpent).map spendIn) = [] := by
  have hnone : rs.filter HistoryRow.isSpent = [] :=
    List.filter_eq_nil_iff.mpr fun x hx => by simp [isSpent_of_sentinel (hrs x hx)]
  rw [List.map_cons, map_cleared hrs]
  cases hs : r.isSpent with
  | true =>
    have hz : ¬ (spendIn r).hashed = true := by
      have hpoint : (spendIn r).point.hash = Hash.zero := h0
      simp [Spend.hashed, hpoint]
    rw [List.filter_cons_of_pos hs, hnone, List.map_cons, serve, if_neg hz, unserved, if_neg hz]
    exact ⟨rfl, rfl⟩
  | false =>
    have hclear : cleared r = r := (eq_cleared_of_not_isSpent hs hh).symm
    rw [List.filter_cons_of_neg (by simp [hs]), hnone, hclear]
    exact ⟨rfl, rfl⟩

theorem serve_settled {rows : List HistoryRow} (h : Settled rows) :
    (serve (rows.map cleared) ((rows.filter HistoryRow.isSpent).map spendIn)).map settle = rows ∧
      unserved rows.length ((rows.filter HistoryRow.isSpent).map spendIn) = [] := by
  induction rows with
  | nil => exact ⟨rfl, rfl⟩
  | cons r rs ih =>
    rw [Settled] at h
    by_cases h0 : r.spend.hash = Hash.zero
    · rw [if_pos h0] at h
      obtain ⟨hh, hrs⟩ := h
      obtain ⟨hserve, hleft⟩ := serve_unclaimed h0 hh hrs
      rw [hserve]
      refine ⟨map_settle fun x hx _ => ?_, hleft⟩
      rcases List.mem_cons.mp hx with rfl | hx
      · exact hh
      · rw [hrs x hx]
        rfl
    · rw [if_neg h0] at h
      obtain ⟨hserve, hleft⟩ := ih h
      have hs : (spendIn r).hashed = true := decide_eq_true h0
      rw [List.filter_cons_of_pos (isSpent_of_hash h0), List.map_cons, List.map_cons, serve, if_pos hs, List.map_cons,
        hserve, List.length_cons, unserved, if_pos hs]
      refine ⟨?_, hleft⟩
      show settle r :: rs = r :: rs
      rw [settle_of_hash h0]

/-! ## The compact form as a reply -/

section Rows

variable (rows : List HistoryRow) (c : UInt64)

theorem compactForm_outputs : (compactForm rows).filter CompactRow.isOutput = rows.map HistoryRow.outputRow := by
  have hout : (rows.map HistoryRow.outputRow).filter CompactRow.isOutput = rows.map HistoryRow.outputRow :=
    List.filter_eq_self.mpr fun x hx => by obtain ⟨r, -, rfl⟩ := List.mem_map.mp hx; rfl
  have hspend : ((rows.filter HistoryRow.isSpent).map HistoryRow.spendRow).filter CompactRow.isOutput = [] :=
    List.filter_eq_nil_iff.mpr fun x hx => by obtain ⟨r, -, rfl⟩ := List.mem_map.mp hx; exact Bool.false_ne_true
  rw [compactForm, List.filter_append, hout, hspend, List.append_nil]

theorem compactForm_spends : (compactForm rows).filter (CompactRow.isSpendOf c) =
    ((lane c rows).filter HistoryRow.isSpent).map HistoryRow.spendRow := by
  have hout : (rows.map HistoryRow.outputRow).filter (CompactRow.isSpendOf c) = [] :=
    List.filter_eq_nil_iff.mpr fun x hx => by
      obtain ⟨r, -, rfl⟩ := List.mem_map.mp hx
      simp [CompactRow.isSpendOf, HistoryRow.outputRow]
  have hown : CompactRow.isSpendOf c ∘ HistoryRow.spendRow = fun r => decide (r.output.checksum = c) := by
    funext r
    simp [CompactRow.isSpendOf, HistoryRow.spendRow]
  rw [compactForm, List.filter_append, hout, List.nil_append, List.filter_map, hown, List.filter_comm]
  rfl

theorem opened_compactForm : opened (compactForm rows) c = (lane c rows).map cleared :=
  opened_of_outputs (compactForm_outputs rows) c

theorem asked_compactForm : asked (compactForm rows) c = ((lane c rows).filter HistoryRow.isSpent).map spendIn := by
  apply List.map_injective_iff.mpr row_injective
  rw [asked_row, compactForm_spends, List.map_map]
  rfl

end Rows

/-- Reconciling again changes nothing: told in compact rows, the rows of a reply reconcile
    to themselves, and no spend is without a row. -/
theorem reconcile_compactForm (reply : List CompactRow) :
    (reconcile (compactForm (reconcile reply).rows)).traced = .silent (reconcile reply).rows := by
  have hrows : (reconcile (compactForm (reconcile reply).rows)).rows = (reconcile reply).rows := by
    refine rows_of_lanes (compactForm_outputs _) fun c => ?_
    rw [lane_rows, opened_compactForm, asked_compactForm]
    exact (serve_settled (settled_lane reply c)).1
  have horphans : (reconcile (compactForm (reconcile reply).rows)).orphans = [] := by
    refine orphans_eq_nil fun c => ?_
    rw [opened_compactForm, asked_compactForm, List.length_map]
    exact (serve_settled (settled_lane reply c)).2
  rw [Reconciled.traced, hrows, horphans]
  rfl

end ChainQuery.History
