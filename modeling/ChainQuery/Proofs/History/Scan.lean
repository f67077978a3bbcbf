/-
  ChainQuery.Proofs.History.Scan — reconciliation without queues.

  The same matching by scanning: each spend, in reply order, walks the rows in output
  order and is recorded in the first whose output has its checksum and whose recorded
  spend still has a zero hash. A spend that finds no such row is an orphan.

  The queues of a matching are an index of that scan: under each checksum they hold
  the positions of the rows at which a scan for it could stop, in increasing order
  (`Indexed`).

  Proved:
  - `start_indexed`, `claim_indexed`: the index holds for fresh rows, and every claim
    keeps it, whether it takes its row out of the queue or leaves it there.
  - `claim_scans`: over an indexed matching a claim does what one scan does, so no
    position in a queue is without a row.
  - `reconcile_eq_scan`: a reply gives the rows and the orphans that scanning gives.
-/

import ChainQuery.History.Reconcile
import Mathlib.Data.List.Basic

namespace ChainQuery.History

/-! ## Scanning -/

/-- A spend of checksum `c` can still be recorded in the row. -/
def waitsFor (c : UInt64) (r : HistoryRow) : Bool := r.output.checksum = c ∧ r.spend.hash = Hash.zero

/-- The rows once the first that waits for the spend has recorded it, if one waits. -/
def place (s : Spend) : List HistoryRow → Option (List HistoryRow)
  | [] => none
  | r :: rs =>
    if waitsFor s.previousChecksum r then some ({ r with spend := s.point, spendHeight := s.height } :: rs)
    else (place s rs).map (r :: ·)

structure Scan where
  rows : List HistoryRow
  orphans : List OrphanSpend

namespace Scan

def spend (t : Scan) (s : Spend) : Scan :=
  match place s t.rows with
  | some rows => { t with rows }
  | none => { t with orphans := t.orphans ++ [⟨s.previousChecksum, s.point⟩] }

def visit (t : Scan) (r : CompactRow) : Scan :=
  match r.kind with
  | .spend previousChecksum => t.spend ⟨r.point, r.height, previousChecksum⟩
  | _ => t

end Scan

/-- What a reply reconciles to when every spend scans the rows from the first. -/
def scan (reply : List CompactRow) : Reconciled :=
  let opened := reply.filterMap fun r =>
    match r.kind with
    | .output value => some (HistoryRow.unspent r.point r.height value)
    | _ => none
  let t := reply.foldl Scan.visit ⟨opened, []⟩
  ⟨t.rows.map fun r => if r.spend.hash = Hash.zero then { r with spendHeight := unspentHeight } else r, t.orphans⟩

/-! ## Positions of waiting rows -/

/-- A scan stops at the first of the waiting positions. -/
theorem place_eq (s : Spend) (rows : List HistoryRow) :
    place s rows =
      (rows.findIdxs (waitsFor s.previousChecksum)).head?.map fun i => rows.modify i (Matching.record s) := by
  induction rows with
  | nil => rfl
  | cons r rows ih =>
    by_cases h : waitsFor s.previousChecksum r = true
    · simp only [place, h, if_true, List.findIdxs_cons, List.head?_cons, Option.map_some, List.modify_zero_cons]
      rfl
    · simp only [place, h, Bool.false_eq_true, if_false, ih, List.findIdxs_cons]
      rw [List.findIdxs_start (s := 0 + 1), List.head?_map, Option.map_map, Option.map_map]
      rfl

/-- Recording a spend removes its position, unless the spend's hash is zero; the
    positions under other checksums stay. -/
theorem findIdxs_place {s : Spend} {rows rows' : List HistoryRow} (h : place s rows = some rows') (c : UInt64)
    (n : Nat) :
    rows'.findIdxs (waitsFor c) n =
      if s.point.hash = Hash.zero ∨ c ≠ s.previousChecksum then rows.findIdxs (waitsFor c) n
      else (rows.findIdxs (waitsFor c) n).tail := by
  induction rows generalizing rows' n with
  | nil => cases h
  | cons r rows ih =>
    by_cases hw : waitsFor s.previousChecksum r = true
    · simp only [place, hw, if_true, Option.some.injEq] at h
      subst h
      have hr := of_decide_eq_true hw
      have hc : waitsFor c r = decide (s.previousChecksum = c) := by simp [waitsFor, hr]
      have hrec : waitsFor c { r with spend := s.point, spendHeight := s.height } =
          decide (s.previousChecksum = c ∧ s.point.hash = Hash.zero) := by rw [← hr.1]; rfl
      rw [List.findIdxs_cons, List.findIdxs_cons, hc, hrec]
      by_cases h0 : s.point.hash = Hash.zero
      · simp [h0]
      · by_cases hs : s.previousChecksum = c
        · simp [h0, hs]
        · simp [h0, hs, Ne.symm hs]
    · simp only [place, hw, Bool.false_eq_true, if_false, Option.map_eq_some_iff] at h
      obtain ⟨rest, hrest, rfl⟩ := h
      rw [List.findIdxs_cons, List.findIdxs_cons, ih hrest]
      by_cases hk : s.point.hash = Hash.zero ∨ c ≠ s.previousChecksum
      · simp only [hk, if_true]
      · simp only [hk, if_false]
        -- under the spend's own checksum `r` is no position, so the first one is among `rows`
        have hc : c = s.previousChecksum := by simpa using fun e => hk (Or.inr e)
        rw [hc, if_neg hw, if_neg hw]

/-! ## The queues index the scan -/

namespace Matching

def Indexed (m : Matching) : Prop := ∀ c, m.queues.getD c [] = m.rows.toList.findIdxs (waitsFor c)

def scanned (m : Matching) : Scan := ⟨m.rows.toList, m.orphans.toList⟩

theorem getD_ofRows (rows : List HistoryRow) (n : Nat) (c : UInt64) :
    (Queues.ofRows n rows).getD c [] = rows.findIdxs (fun r => r.output.checksum = c) n := by
  induction rows generalizing n with
  | nil => exact Std.HashMap.getD_empty
  | cons r rows ih =>
    simp only [Queues.ofRows, Std.HashMap.getD_insert, ih, List.findIdxs_cons, beq_iff_eq, decide_eq_true_eq]
    by_cases h : r.output.checksum = c
    · subst h; simp only [if_true, ih]
    · simp only [h, if_false]

theorem start_indexed {rows : List HistoryRow} (h : ∀ r ∈ rows, r.spend.hash = Hash.zero) : (start rows).Indexed := by
  intro c
  show (Queues.ofRows 0 rows).getD c [] = rows.findIdxs (waitsFor c)
  rw [getD_ofRows, List.findIdxs_eq_filterMap_zipIdx, List.findIdxs_eq_filterMap_zipIdx]
  apply List.filterMap_congr
  intro x hx
  have hr := h x.1 (List.fst_mem_of_mem_zipIdx hx)
  simp [waitsFor, hr]

/-- Every position in a queue is that of a row. -/
theorem Indexed.lt_size {m : Matching} (h : m.Indexed) {c : UInt64} {i : Nat} (hi : i ∈ m.queues.getD c []) :
    i < m.rows.size := by
  rw [h c] at hi
  obtain ⟨hlt, -⟩ := List.mem_findIdxs_iff_exists_getElem_pos.mp hi
  simpa using hlt

/-- The two ways a claim can go: the row at the head of the queue is where a scan would
    stop, and with an empty queue a scan would stop nowhere. -/
theorem Indexed.claim_cases {m : Matching} (h : m.Indexed) (s : Spend) :
    (∃ i rest, m.queues.getD s.previousChecksum [] = i :: rest ∧
      place s m.rows.toList = some (m.rows.modify i (record s)).toList ∧
      m.claim s = ⟨m.rows.modify i (record s),
        if s.point.hash = Hash.zero then m.queues else m.queues.insert s.previousChecksum rest, m.orphans⟩) ∨
    (m.queues.getD s.previousChecksum [] = [] ∧ place s m.rows.toList = none ∧
      m.claim s = ⟨m.rows, m.queues, m.orphans.push ⟨s.previousChecksum, s.point⟩⟩) := by
  have hplace := place_eq s m.rows.toList
  rw [← h s.previousChecksum] at hplace
  cases hq : m.queues.getD s.previousChecksum [] with
  | nil => exact Or.inr ⟨rfl, by rw [hplace, hq]; rfl, by simp only [claim, hq]⟩
  | cons i rest =>
    have hi : i < m.rows.size := h.lt_size (c := s.previousChecksum) (by rw [hq]; exact List.mem_cons_self)
    refine Or.inl ⟨i, rest, rfl, ?_, by simp only [claim, hq, hi, if_true]⟩
    rw [hplace, hq, Array.toList_modify]
    rfl

theorem claim_scans {m : Matching} (h : m.Indexed) (s : Spend) : (m.claim s).scanned = m.scanned.spend s := by
  rcases h.claim_cases s with ⟨i, rest, -, hplace, hclaim⟩ | ⟨-, hplace, hclaim⟩
  · simp only [hclaim, scanned, Scan.spend, hplace]
  · simp only [hclaim, scanned, Scan.spend, hplace, Array.toList_push]

theorem claim_indexed {m : Matching} (h : m.Indexed) (s : Spend) : (m.claim s).Indexed := by
  intro c
  rcases h.claim_cases s with ⟨i, rest, hq, hplace, hclaim⟩ | ⟨-, -, hclaim⟩
  · rw [hclaim]
    show Std.HashMap.getD (if s.point.hash = Hash.zero then _ else _) c [] = _
    rw [findIdxs_place hplace c 0, ← h c]
    by_cases h0 : s.point.hash = Hash.zero
    · rw [if_pos h0, if_pos (Or.inl h0)]
    · rw [if_neg h0, Std.HashMap.getD_insert]
      by_cases hc : s.previousChecksum = c
      · subst hc; simp [h0, hq]
      · simp [hc, Ne.symm hc]
  · rw [hclaim]; exact h c

/-- Claim after claim, the matching stays indexed and does what the scans do. -/
theorem claims_scan {m : Matching} (h : m.Indexed) (ss : List Spend) :
    (ss.foldl claim m).Indexed ∧ (ss.foldl claim m).scanned = ss.foldl Scan.spend m.scanned := by
  induction ss generalizing m with
  | nil => exact ⟨h, rfl⟩
  | cons s ss ih =>
    have := ih (claim_indexed h s)
    rw [claim_scans h s] at this
    exact this

end Matching

/-! ## Whole replies -/

theorem hash_of_openedBy {r : CompactRow} {h : HistoryRow} (hr : openedBy r = some h) : h.spend.hash = Hash.zero := by
  unfold openedBy at hr
  split at hr
  · cases hr; rfl
  · cases hr

/-- The scans of a reply's spends over the rows of its outputs. -/
def scans (reply : List CompactRow) : Scan :=
  (reply.filterMap spendOf).foldl Scan.spend ⟨reply.filterMap openedBy, []⟩

theorem opened_indexed (reply : List CompactRow) : (Matching.start (reply.filterMap openedBy)).Indexed := by
  apply Matching.start_indexed
  intro h hh
  obtain ⟨r, -, hr⟩ := List.mem_filterMap.mp hh
  exact hash_of_openedBy hr

theorem reconcile_eq (reply : List CompactRow) :
    reconcile reply = ⟨(scans reply).rows.map settle, (scans reply).orphans⟩ := by
  have hscan : Matching.scanned _ = scans reply :=
    (Matching.claims_scan (opened_indexed reply) (reply.filterMap spendOf)).2
  rw [← hscan]
  rfl

/-- The queues find for every spend the row that a scan from the first row finds, and
    report the spends for which a scan finds none, in the same order. -/
theorem reconcile_eq_scan (reply : List CompactRow) :
    (reconcile reply).traced = ⟨(scan reply).rows, (scan reply).orphans.map Event.orphanSpend⟩ := by
  have hvisit : ∀ t, (reply.filterMap spendOf).foldl Scan.spend t = reply.foldl Scan.visit t := by
    intro t
    rw [List.foldl_filterMap]
    congr 1
    funext t r
    cases r with
    | mk point height kind => cases kind <;> rfl
  rw [reconcile_eq, scans, hvisit]
  rfl

end ChainQuery.History
