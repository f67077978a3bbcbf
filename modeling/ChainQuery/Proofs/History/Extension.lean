/-
  ChainQuery.Proofs.History.Extension — a reply that goes on.

  A longer reply opens its further rows behind those it had, in every lane, and asks for
  its further spends after those it had. A lane is served from the front, so the rows it
  had take the spends first and the further rows get what is left of them
  (`serve_append`); and a row that has taken a spend with a hash takes no other, however
  many follow (`serve_more`). An output that comes later can claim a spend that was an
  orphan before, but no row that was there changes for it.

  Proved:
  - `lane_rows_append`: the rows a reply had, seen in one lane of the longer reply.
  - `resolved_spends_stay`: outputs, heights and values stay, rows with a spend that has a
    hash stay whole, and without further spends every row stays.
-/

import ChainQuery.Proofs.History.Interleaving

namespace ChainQuery.History

/-! ## Serving a longer lane -/

theorem length_serve (rows : List HistoryRow) (ss : List Spend) : (serve rows ss).length = rows.length := by
  fun_induction serve rows ss with
  | case1 rows => rfl
  | case2 s ss => rfl
  | case3 r rs s ss h ih => rw [List.length_cons, ih, List.length_cons]
  | case4 r rs s ss h ih => rw [ih, List.length_cons, List.length_cons]

/-- Further rows are served with what the rows before them leave over. -/
theorem serve_append (rows more : List HistoryRow) (ss : List Spend) :
    serve (rows ++ more) ss = serve rows ss ++ serve more (unserved rows.length ss) := by
  fun_induction serve rows ss with
  | case1 rows => cases rows <;> cases more <;> rfl
  | case2 s ss => rfl
  | case3 r rs s ss h ih =>
    rw [List.cons_append, serve, if_pos h, ih, List.length_cons, unserved, if_pos h]
    rfl
  | case4 r rs s ss h ih =>
    rw [List.cons_append, serve, if_neg h, List.length_cons, unserved, if_neg h]
    exact ih

/-- `r'` is `r`, if `r` has a spend with a hash. -/
def Kept (r r' : HistoryRow) : Prop := r.spend.hash ≠ Hash.zero → r' = r

theorem forall₂_kept {rows rows' : List HistoryRow} (h : ∀ r ∈ rows, r.spend.hash = Hash.zero)
    (hlen : rows'.length = rows.length) : List.Forall₂ Kept rows rows' := by
  induction rows generalizing rows' with
  | nil =>
    rw [List.length_eq_zero_iff.mp hlen]
    exact List.Forall₂.nil
  | cons r rows ih =>
    cases rows' with
    | nil => cases hlen
    | cons r' rows' =>
      have hr : Kept r r' := fun h0 => absurd (h r List.mem_cons_self) h0
      exact List.Forall₂.cons hr (ih (fun x hx => h x (List.mem_cons_of_mem _ hx)) (by simpa using hlen))

/-- Further spends pass the rows that have a spend with a hash. -/
theorem serve_more {rows : List HistoryRow} (h : ∀ r ∈ rows, r.spend.hash = Hash.zero) (ss more : List Spend) :
    List.Forall₂ Kept (serve rows ss) (serve rows (ss ++ more)) := by
  fun_induction serve rows ss with
  | case1 rows => exact forall₂_kept h (length_serve _ _)
  | case2 s ss =>
    rw [serve_nil]
    exact List.Forall₂.nil
  | case3 r rs s ss hs ih =>
    rw [List.cons_append, serve, if_pos hs]
    exact List.Forall₂.cons (fun _ => rfl) (ih fun x hx => h x (List.mem_cons_of_mem _ hx))
  | case4 r rs s ss hs ih =>
    rw [List.cons_append, serve, if_neg hs]
    refine ih fun x hx => ?_
    rcases List.mem_cons.mp hx with rfl | hx
    · have hz : s.point.hash = Hash.zero := by simpa [Spend.hashed] using hs
      exact hz
    · exact h x (List.mem_cons_of_mem _ hx)

theorem settle_spend (r : HistoryRow) : (settle r).spend = r.spend := by
  unfold settle
  split <;> rfl

theorem kept_settle {r r' : HistoryRow} (h : Kept r r') : Kept (settle r) (settle r') := by
  intro h0
  rw [settle_spend] at h0
  rw [h h0]

/-! ## Lanes of a longer reply -/

section Replies

variable (xs ys : List CompactRow)

theorem opened_append (c : UInt64) : opened (xs ++ ys) c = opened xs c ++ opened ys c := by
  unfold opened lane
  rw [List.filterMap_append, List.filter_append]

theorem asked_append (c : UInt64) : asked (xs ++ ys) c = asked xs c ++ asked ys c := by
  unfold asked
  rw [List.filterMap_append, List.filter_append]

theorem rows_append_outputRow :
    (reconcile (xs ++ ys)).rows.map HistoryRow.outputRow =
      (reconcile xs).rows.map HistoryRow.outputRow ++ ys.filter CompactRow.isOutput := by
  rw [rows_outputRow, rows_outputRow, List.filter_append]

/-- The rows of the longer reply that the shorter one has too. -/
def early : List HistoryRow := (reconcile (xs ++ ys)).rows.take (reconcile xs).rows.length

theorem early_outputRow : (early xs ys).map HistoryRow.outputRow = (reconcile xs).rows.map HistoryRow.outputRow := by
  rw [early, List.map_take, rows_append_outputRow, List.take_left' (List.length_map _)]

theorem length_lane {rows rows' : List HistoryRow} (h : rows'.map HistoryRow.outputRow = rows.map HistoryRow.outputRow)
    (c : UInt64) : (lane c rows').length = (lane c rows).length := by
  have hlane : ∀ l : List HistoryRow,
      (lane c l).length = ((l.map HistoryRow.outputRow).filter fun x => x.point.checksum = c).length := by
    intro l
    rw [List.filter_map, List.length_map]
    rfl
  rw [hlane, hlane, h]

/-- In a lane of the longer reply the rows that were there are served with all its
    spends. -/
theorem lane_rows_append (c : UInt64) :
    lane c (early xs ys) = (serve (opened xs c) (asked xs c ++ asked ys c)).map settle := by
  have hwhole : lane c (reconcile (xs ++ ys)).rows =
      lane c (early xs ys) ++ lane c ((reconcile (xs ++ ys)).rows.drop (reconcile xs).rows.length) := by
    unfold lane early
    rw [← List.filter_append, List.take_append_drop]
  have hserved := lane_rows (xs ++ ys) c
  rw [opened_append, asked_append, serve_append, List.map_append, hwhole] at hserved
  refine (List.append_inj hserved ?_).1
  rw [length_lane (early_outputRow xs ys) c, lane_rows, List.length_map, List.length_map, length_serve, length_serve]

theorem early_keys :
    (reconcile xs).rows.map (fun r => r.output.checksum) = (early xs ys).map fun r => r.output.checksum := by
  have := congrArg (List.map fun x : CompactRow => x.point.checksum) (early_outputRow xs ys)
  rw [List.map_map, List.map_map] at this
  exact this.symm

theorem early_kept : List.Forall₂ Kept (reconcile xs).rows (early xs ys) := by
  refine forall₂_of_filter_key (fun r : HistoryRow => r.output.checksum) (early_keys xs ys) fun c => ?_
  show List.Forall₂ Kept (lane c (reconcile xs).rows) (lane c (early xs ys))
  have hopened : ∀ r ∈ opened xs c, r.spend.hash = Hash.zero := by
    intro r hr
    obtain ⟨x, -, hx⟩ := List.mem_filterMap.mp (mem_lane.mp hr).1
    exact hash_of_openedBy hx
  rw [lane_rows, lane_rows_append, List.forall₂_map_left_iff, List.forall₂_map_right_iff]
  exact (serve_more hopened _ _).imp fun _ _ => kept_settle

theorem early_eq (h : ys.filter CompactRow.isSpend = []) : early xs ys = (reconcile xs).rows := by
  refine (eq_of_filter_key (fun r : HistoryRow => r.output.checksum) (early_keys xs ys) fun c => ?_).symm
  show lane c (reconcile xs).rows = lane c (early xs ys)
  have hspends : ys.filterMap spendOf = [] := by
    rw [← List.map_eq_nil_iff, filterMap_spendOf, h]
  have hnone : asked ys c = [] := by
    rw [asked, hspends]
    rfl
  rw [lane_rows, lane_rows_append, hnone, List.append_nil]

/-- A reply that goes on adds a row for each further output and changes no row that has a
    spend with a hash, nor the output, height and value of any row; if no further spend
    comes it changes none of the rows, whatever the further outputs claim. -/
theorem resolved_spends_stay :
    (reconcile (xs ++ ys)).rows.length = (reconcile xs).rows.length + (ys.filter CompactRow.isOutput).length ∧
    (reconcile (xs ++ ys)).rows.map HistoryRow.outputRow =
      (reconcile xs).rows.map HistoryRow.outputRow ++ ys.filter CompactRow.isOutput ∧
    (∀ (i : Nat) (r : HistoryRow), (reconcile xs).rows[i]? = some r →
      ∃ r' : HistoryRow, (reconcile (xs ++ ys)).rows[i]? = some r' ∧
      r'.output = r.output ∧ r'.outputHeight = r.outputHeight ∧ r'.value = r.value ∧
      (r.spend.hash ≠ Hash.zero → r' = r)) ∧
    (ys.filter CompactRow.isSpend = [] →
      (reconcile (xs ++ ys)).rows.take (reconcile xs).rows.length = (reconcile xs).rows) := by
  refine ⟨?_, rows_append_outputRow xs ys, ?_, early_eq xs ys⟩
  · have := congrArg List.length (rows_append_outputRow xs ys)
    simpa using this
  · intro i r hr
    have hi : i < (reconcile xs).rows.length := (List.getElem?_eq_some_iff.mp hr).1
    have hlen : i < (early xs ys).length := (early_kept xs ys).length_eq ▸ hi
    have hearly : (early xs ys)[i]? = (reconcile (xs ++ ys)).rows[i]? := List.getElem?_take_of_lt hi
    refine ⟨(early xs ys)[i], ?_, ?_⟩
    · rw [← hearly, List.getElem?_eq_getElem hlen]
    · have hout := congrArg (fun l => l[i]?) (early_outputRow xs ys)
      simp only [List.getElem?_map, hr, List.getElem?_eq_getElem hlen, Option.map_some, Option.some.injEq,
        HistoryRow.outputRow, CompactRow.mk.injEq, CompactKind.output.injEq] at hout
      obtain ⟨hpoint, hheight, hvalue⟩ := hout
      refine ⟨hpoint, hheight, hvalue, ?_⟩
      have hkept := (early_kept xs ys).get hi hlen
      rw [List.get_eq_getElem, List.get_eq_getElem] at hkept
      have hget : (reconcile xs).rows[i] = r := (List.getElem?_eq_some_iff.mp hr).2
      rwa [hget] at hkept

end Replies

/-- An output of the same checksum that comes later claims the spend that was too many; the
    row that was there stays. -/
theorem late_output_claims_an_orphan :
    (reconcile (spendsFirst ++ [⟨⟨soleOutput.hash, 32769⟩, 11, .output 8⟩])).rows.take
        (reconcile spendsFirst).rows.length = (reconcile spendsFirst).rows :=
  (resolved_spends_stay spendsFirst [⟨⟨soleOutput.hash, 32769⟩, 11, .output 8⟩]).2.2.2 (by decide)

end ChainQuery.History
