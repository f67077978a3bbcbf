/-
  ChainQuery.Proofs.History.Lane — the rows and the spends of one checksum.

  A scan passes over the rows of every other checksum, so the scans of a reply fall
  apart into lanes, one per checksum, each with its own rows and its own spends in the
  order they came. In a lane the first row takes the spends up to and including the
  first with a hash, each written over the one before; the next row goes on from there
  (`serve`). What comes after all rows have a spend with a hash is left over
  (`unserved`).

  Proved:
  - `lane_run`: a run of scans seen in one lane is the run of that lane's spends.
  - `lane_rows`, `lane_orphans`: what a reply reconciles to, seen in one lane, is that
    lane served.
  - `serve_eq`, `unserved_hashed`: the k-th row of a lane ends with the k-th spend that
    has a hash; of the rows after those only the first is touched, and the spends with
    a hash that no row is left for are all left over.
-/

import ChainQuery.Proofs.History.Scan
import Mathlib.Data.List.Forall2

namespace ChainQuery

namespace HistoryRow

/-- The compact row of the output. -/
def outputRow (r : HistoryRow) : CompactRow := ⟨r.output, r.outputHeight, .output r.value⟩

/-- The compact row of the recorded spend. -/
def spendRow (r : HistoryRow) : CompactRow := ⟨r.spend, r.spendHeight, .spend r.output.checksum⟩

end HistoryRow

namespace CompactRow

def isOutput (r : CompactRow) : Bool :=
  match r.kind with
  | .output _ => true
  | _ => false

def isSpendOf (c : UInt64) (r : CompactRow) : Bool := r.kind = .spend c

end CompactRow

namespace History

/-! ## Lists told by their elements under each key -/

section Keys

variable {α β : Type} [DecidableEq β] (key : α → β) {xs ys : List α}

/-- Lists with the same elements under every key are permutations of each other. -/
theorem perm_of_filter_key [DecidableEq α]
    (h : ∀ k, xs.filter (fun x => key x = k) = ys.filter (fun y => key y = k)) : xs.Perm ys := by
  rw [List.perm_iff_count]
  intro a
  have hcount : ∀ l : List α, l.count a = (l.filter fun x => key x = key a).count a := fun l =>
    (List.count_filter (by simp)).symm
  rw [hcount xs, hcount ys, h]

/-- Lists with the same keys in order are related element by element if they are so under
    every key. -/
theorem forall₂_of_filter_key {R : α → α → Prop} (hk : xs.map key = ys.map key)
    (h : ∀ k, List.Forall₂ R (xs.filter fun x => key x = k) (ys.filter fun y => key y = k)) : List.Forall₂ R xs ys := by
  induction xs generalizing ys with
  | nil =>
    rw [List.map_eq_nil_iff.mp hk.symm]
    exact List.Forall₂.nil
  | cons x xs ih =>
    cases ys with
    | nil => cases hk
    | cons y ys =>
      obtain ⟨hxy, htail⟩ := List.cons.inj hk
      have hx := h (key x)
      rw [List.filter_cons_of_pos (by simp), List.filter_cons_of_pos (by simpa using hxy.symm)] at hx
      obtain ⟨hhead, -⟩ := List.forall₂_cons.mp hx
      refine List.Forall₂.cons hhead (ih htail fun k => ?_)
      have hk := h k
      by_cases hxk : key x = k
      · rw [List.filter_cons_of_pos (by simpa using hxk),
          List.filter_cons_of_pos (by simpa using hxy ▸ hxk)] at hk
        exact (List.forall₂_cons.mp hk).2
      · rwa [List.filter_cons_of_neg (by simpa using hxk),
          List.filter_cons_of_neg (by simpa using hxy ▸ hxk)] at hk

theorem eq_of_filter_key (hk : xs.map key = ys.map key)
    (h : ∀ k, xs.filter (fun x => key x = k) = ys.filter (fun y => key y = k)) : xs = ys := by
  have heq : List.Forall₂ (· = ·) xs ys := by
    refine forall₂_of_filter_key key hk fun k => ?_
    rw [h k]
    exact List.forall₂_refl _
  rwa [List.forall₂_eq_eq_eq] at heq

end Keys

/-! ## Lanes -/

def lane (c : UInt64) (rows : List HistoryRow) : List HistoryRow := rows.filter fun r => r.output.checksum = c

@[simp] theorem mem_lane {c : UInt64} {rows : List HistoryRow} {r : HistoryRow} :
    r ∈ lane c rows ↔ r ∈ rows ∧ r.output.checksum = c := by simp [lane]

def Scan.lane (c : UInt64) (t : Scan) : Scan :=
  ⟨History.lane c t.rows, t.orphans.filter fun o => o.checksum = c⟩

theorem place_lane (s : Spend) (rows : List HistoryRow) :
    place s (lane s.previousChecksum rows) = (place s rows).map (lane s.previousChecksum) := by
  induction rows with
  | nil => rfl
  | cons r rows ih =>
    by_cases hc : r.output.checksum = s.previousChecksum
    · have hl : ∀ rs, lane s.previousChecksum (r :: rs) = r :: lane s.previousChecksum rs := by
        intro rs; simp [lane, hc]
      rw [hl, place, place]
      split
      · simp [lane, hc]
      · rw [ih, Option.map_map, Option.map_map]
        congr 1
        funext rs
        exact (hl rs).symm
    · have hw : waitsFor s.previousChecksum r = false := by simp [waitsFor, hc]
      have hl : ∀ rs, lane s.previousChecksum (r :: rs) = lane s.previousChecksum rs := by
        intro rs; simp [lane, hc]
      rw [hl, ih, place, hw, if_neg Bool.false_ne_true, Option.map_map]
      congr 1
      funext rs
      exact (hl rs).symm

theorem lane_place {s : Spend} {rows rows' : List HistoryRow} (h : place s rows = some rows') {c : UInt64}
    (hc : s.previousChecksum ≠ c) : lane c rows' = lane c rows := by
  induction rows generalizing rows' with
  | nil => cases h
  | cons r rows ih =>
    rw [place] at h
    split at h
    · rename_i hw
      have hr : r.output.checksum ≠ c := by rw [(of_decide_eq_true hw).1]; exact hc
      cases h
      simp [lane, hr]
    · obtain ⟨rest, hrest, rfl⟩ := Option.map_eq_some_iff.mp h
      have := ih hrest
      simp only [lane, List.filter_cons] at this ⊢
      rw [this]

theorem spend_lane_own (t : Scan) (s : Spend) :
    (t.spend s).lane s.previousChecksum = (t.lane s.previousChecksum).spend s := by
  have hp : place s (t.lane s.previousChecksum).rows = (place s t.rows).map (lane s.previousChecksum) :=
    place_lane s t.rows
  unfold Scan.spend
  rw [hp]
  cases place s t.rows with
  | none => simp [Scan.lane]
  | some rows => rfl

theorem spend_lane_other (t : Scan) {s : Spend} {c : UInt64} (hc : s.previousChecksum ≠ c) :
    (t.spend s).lane c = t.lane c := by
  unfold Scan.spend
  split
  · rename_i rows hp
    simp only [Scan.lane, lane_place hp hc]
  · simp [Scan.lane, hc]

/-- Only the spends of its own checksum reach a lane. -/
theorem lane_run (ss : List Spend) (t : Scan) (c : UInt64) :
    (ss.foldl Scan.spend t).lane c = (ss.filter fun s => s.previousChecksum = c).foldl Scan.spend (t.lane c) := by
  induction ss generalizing t with
  | nil => rfl
  | cons s ss ih =>
    rw [List.foldl_cons, ih]
    by_cases hc : s.previousChecksum = c
    · subst hc
      rw [spend_lane_own, List.filter_cons_of_pos (by simp), List.foldl_cons]
    · rw [spend_lane_other t hc, List.filter_cons_of_neg (by simpa using hc)]

/-! ## Serving one lane -/

def Spend.hashed (s : Spend) : Bool := s.point.hash ≠ Hash.zero

def Spend.orphan (s : Spend) : OrphanSpend := ⟨s.previousChecksum, s.point⟩

def Spend.row (s : Spend) : CompactRow := ⟨s.point, s.height, .spend s.previousChecksum⟩

def serve : List HistoryRow → List Spend → List HistoryRow
  | rows, [] => rows
  | [], _ :: _ => []
  | r :: rs, s :: ss =>
    if s.hashed then Matching.record s r :: serve rs ss else serve (Matching.record s r :: rs) ss

@[simp] theorem serve_nil (ss : List Spend) : serve [] ss = [] := by cases ss <;> rfl

/-- The spends that come when each of `n` rows has one with a hash. -/
def unserved : (n : Nat) → List Spend → List Spend
  | 0, ss => ss
  | _ + 1, [] => []
  | n + 1, s :: ss => if s.hashed then unserved n ss else unserved (n + 1) ss

theorem place_append (s : Spend) {done : List HistoryRow} (hd : ∀ r ∈ done, r.spend.hash ≠ Hash.zero)
    (rows : List HistoryRow) : place s (done ++ rows) = (place s rows).map (done ++ ·) := by
  induction done with
  | nil => simp
  | cons r done ih =>
    have hw : waitsFor s.previousChecksum r = false := by simp [waitsFor, hd r List.mem_cons_self]
    rw [List.cons_append, place, hw, if_neg Bool.false_ne_true, ih fun r hr => hd r (List.mem_cons_of_mem _ hr),
      Option.map_map]
    rfl

theorem place_waiting {s : Spend} {done : List HistoryRow} (hd : ∀ r ∈ done, r.spend.hash ≠ Hash.zero)
    {r : HistoryRow} (hw : waitsFor s.previousChecksum r = true) (rows : List HistoryRow) :
    place s (done ++ r :: rows) = some (done ++ Matching.record s r :: rows) := by
  rw [place_append s hd, place, if_pos hw]
  rfl

/-- Over rows that all wait, behind rows that are done, the scans of one lane's spends
    serve the lane. -/
theorem run_serves {c : UInt64} {ss : List Spend} (hs : ∀ s ∈ ss, s.previousChecksum = c)
    {done rows : List HistoryRow} (hd : ∀ r ∈ done, r.spend.hash ≠ Hash.zero)
    (hr : ∀ r ∈ rows, waitsFor c r = true) (os : List OrphanSpend) :
    ss.foldl Scan.spend ⟨done ++ rows, os⟩ =
      ⟨done ++ serve rows ss, os ++ (unserved rows.length ss).map Spend.orphan⟩ := by
  induction ss generalizing done rows os with
  | nil => cases rows <;> simp [serve, unserved]
  | cons s ss ih =>
    have hc : s.previousChecksum = c := hs s List.mem_cons_self
    have ih := @ih fun s h => hs s (List.mem_cons_of_mem _ h)
    rw [List.foldl_cons, Scan.spend]
    cases rows with
    | nil =>
      rw [place_append s hd]
      show ss.foldl Scan.spend ⟨done ++ [], os ++ [s.orphan]⟩ = _
      rw [ih hd hr]
      simp [unserved]
    | cons r rows =>
      have hw : waitsFor s.previousChecksum r = true := by rw [hc]; exact hr r List.mem_cons_self
      have htail := fun r h => hr r (List.mem_cons_of_mem _ h)
      rw [place_waiting hd hw]
      show ss.foldl Scan.spend ⟨done ++ Matching.record s r :: rows, os⟩ = _
      by_cases h0 : s.hashed = true
      · have hdone : ∀ x ∈ done ++ [Matching.record s r], x.spend.hash ≠ Hash.zero := by
          intro x hx
          rcases List.mem_append.mp hx with hx | hx
          · exact hd x hx
          · rw [List.mem_singleton.mp hx]; exact of_decide_eq_true h0
        have := ih hdone htail os
        rw [List.append_assoc, List.append_assoc] at this
        simpa [serve, unserved, h0] using this
      · -- the row written to still waits: the hash it now records is zero
        have hz : s.point.hash = Hash.zero := by simpa [Spend.hashed] using h0
        have hrec : ∀ x ∈ Matching.record s r :: rows, waitsFor c x = true := by
          intro x hx
          rcases List.mem_cons.mp hx with rfl | hx
          · exact decide_eq_true ⟨hc ▸ (of_decide_eq_true hw).1, hz⟩
          · exact htail x hx
        have := ih hd hrec os
        simpa [serve, unserved, h0] using this

/-- A zero-hash spend that comes last stays recorded in the row it was written to. -/
def touch (ss : List Spend) (r : HistoryRow) : HistoryRow :=
  match ss.getLast? with
  | some s => if s.hashed then r else Matching.record s r
  | none => r

theorem touch_cons_hashed {s : Spend} (hs : s.hashed = true) (ss : List Spend) : touch (s :: ss) = touch ss := by
  funext r
  unfold touch
  rw [List.getLast?_cons]
  cases ss.getLast? with
  | none => simp [hs]
  | some l => rfl

theorem touch_cons_of_ne_nil (s : Spend) {ss : List Spend} (h : ss ≠ []) : touch (s :: ss) = touch ss := by
  funext r
  unfold touch
  rw [List.getLast?_cons, List.getLast?_eq_some_getLast h]
  rfl

/-- While no spend of a lane has a hash, each is written over the one before. -/
theorem touch_cons_zero {s : Spend} (hs : s.hashed = false) {ss : List Spend} (h : ss.filter Spend.hashed = [])
    (r : HistoryRow) : touch (s :: ss) r = touch ss (Matching.record s r) := by
  unfold touch
  rw [List.getLast?_cons]
  cases hl : ss.getLast? with
  | none => simp [hs]
  | some l =>
    have hl0 : l.hashed = false := by simpa using List.filter_eq_nil_iff.mp h l (List.mem_of_getLast? hl)
    simp [hl0, Matching.record]

theorem serve_eq (rows : List HistoryRow) (ss : List Spend) :
    serve rows ss = List.zipWith Matching.record (ss.filter Spend.hashed) rows ++
      (rows.drop (ss.filter Spend.hashed).length).modifyHead (touch ss) := by
  fun_induction serve rows ss with
  | case1 rows => cases rows <;> rfl
  | case2 s ss => simp
  | case3 r rs s ss h ih =>
    rw [ih, List.filter_cons_of_pos h, touch_cons_hashed h]
    rfl
  | case4 r rs s ss h ih =>
    rw [ih, List.filter_cons_of_neg h]
    cases hf : ss.filter Spend.hashed with
    | nil =>
      show touch ss (Matching.record s r) :: rs = touch (s :: ss) r :: rs
      rw [touch_cons_zero (by simpa using h) hf]
    | cons a as =>
      have hne : ss ≠ [] := by intro e; subst e; cases hf
      rw [touch_cons_of_ne_nil s hne]
      rfl

theorem unserved_hashed (n : Nat) (ss : List Spend) :
    (unserved n ss).filter Spend.hashed = (ss.filter Spend.hashed).drop n := by
  fun_induction unserved n ss with
  | case1 ss => rfl
  | case2 n => rfl
  | case3 n s ss h ih => rw [ih, List.filter_cons_of_pos h, List.drop_succ_cons]
  | case4 n s ss h ih => rw [ih, List.filter_cons_of_neg h]

/-! ## What a reply reconciles to, lane by lane -/

/-- Scans write over the spend of a row and over nothing else. -/
theorem place_outputRow {s : Spend} {rows rows' : List HistoryRow} (h : place s rows = some rows') :
    rows'.map HistoryRow.outputRow = rows.map HistoryRow.outputRow := by
  induction rows generalizing rows' with
  | nil => cases h
  | cons r rows ih =>
    rw [place] at h
    split at h
    · cases h; rfl
    · obtain ⟨rest, hrest, rfl⟩ := Option.map_eq_some_iff.mp h
      rw [List.map_cons, List.map_cons, ih hrest]

theorem run_outputRow (ss : List Spend) (t : Scan) :
    (ss.foldl Scan.spend t).rows.map HistoryRow.outputRow = t.rows.map HistoryRow.outputRow := by
  induction ss generalizing t with
  | nil => rfl
  | cons s ss ih =>
    rw [List.foldl_cons, ih]
    unfold Scan.spend
    split
    · rename_i rows h; exact place_outputRow h
    · rfl

theorem settle_outputRow (r : HistoryRow) : (settle r).outputRow = r.outputRow := by
  unfold settle; split <;> rfl

theorem outputRow_of_openedBy {x : CompactRow} {r : HistoryRow} (h : openedBy x = some r) : r.outputRow = x := by
  cases x with
  | mk point height kind => cases kind <;> cases h; rfl

theorem row_of_spendOf {x : CompactRow} {s : Spend} (h : spendOf x = some s) : s.row = x := by
  cases x with
  | mk point height kind => cases kind <;> cases h; rfl

theorem row_injective : Function.Injective Spend.row := by
  intro s t h
  cases s; cases t; cases h; rfl

theorem isOutput_eq (x : CompactRow) : x.isOutput = (openedBy x).isSome := by
  cases x with
  | mk point height kind => cases kind <;> rfl

theorem isSpendOf_eq (c : UInt64) (x : CompactRow) :
    x.isSpendOf c = ((spendOf x).filter fun s => s.previousChecksum = c).isSome := by
  cases x with
  | mk point height kind => cases kind <;> simp [CompactRow.isSpendOf, spendOf, Option.isSome_filter]

/-- Reading some of the elements as something and writing it back keeps just these. -/
theorem map_filterMap {α β : Type} {f : α → Option β} {g : β → α} (h : ∀ {x b}, f x = some b → g b = x) (l : List α) :
    (l.filterMap f).map g = l.filter fun x => (f x).isSome := by
  induction l with
  | nil => rfl
  | cons x l ih =>
    cases hx : f x with
    | none => rw [List.filterMap_cons_none hx, ih, List.filter_cons_of_neg (by rw [hx]; simp)]
    | some b => rw [List.filterMap_cons_some hx, List.map_cons, ih, h hx, List.filter_cons_of_pos (by rw [hx]; rfl)]

section Reply

variable (reply : List CompactRow) (c : UInt64)

theorem filterMap_openedBy : (reply.filterMap openedBy).map HistoryRow.outputRow = reply.filter CompactRow.isOutput := by
  rw [map_filterMap outputRow_of_openedBy]
  exact List.filter_congr fun x _ => (isOutput_eq x).symm

/-- Only the outputs open rows. -/
theorem openings_of_outputs : reply.filterMap openedBy = (reply.filter CompactRow.isOutput).filterMap openedBy := by
  rw [List.filterMap_filter]
  refine List.filterMap_congr fun x _ => ?_
  cases hx : openedBy x with
  | none => rw [ite_self]
  | some r => rw [isOutput_eq, hx]; rfl

/-- One row per output, in reply order, with the output's point, height and value. -/
theorem rows_outputRow : (reconcile reply).rows.map HistoryRow.outputRow = reply.filter CompactRow.isOutput := by
  rw [reconcile_eq, List.map_map, ← filterMap_openedBy]
  calc (scans reply).rows.map (HistoryRow.outputRow ∘ settle)
      = (scans reply).rows.map HistoryRow.outputRow := List.map_congr_left fun r _ => settle_outputRow r
    _ = (reply.filterMap openedBy).map HistoryRow.outputRow := run_outputRow _ _

def opened : List HistoryRow := lane c (reply.filterMap openedBy)

def asked : List Spend := (reply.filterMap spendOf).filter fun s => s.previousChecksum = c

variable {reply c}

theorem checksum_of_opened {r : HistoryRow} (h : r ∈ opened reply c) : r.output.checksum = c :=
  (mem_lane.mp h).2

theorem checksum_of_asked {s : Spend} (h : s ∈ asked reply c) : s.previousChecksum = c :=
  of_decide_eq_true (List.mem_filter.mp h).2

variable (reply c)

theorem asked_row : (asked reply c).map Spend.row = reply.filter (CompactRow.isSpendOf c) := by
  rw [asked, List.filter_filterMap, map_filterMap]
  · exact List.filter_congr fun x _ => (isSpendOf_eq c x).symm
  · intro x s h
    exact row_of_spendOf (Option.filter_eq_some_iff.mp h).1

theorem lane_scans :
    (scans reply).lane c =
      ⟨serve (opened reply c) (asked reply c),
        (unserved (opened reply c).length (asked reply c)).map Spend.orphan⟩ := by
  have hr : ∀ r ∈ opened reply c, waitsFor c r = true := by
    intro r h
    obtain ⟨x, -, hx⟩ := List.mem_filterMap.mp (mem_lane.mp h).1
    exact decide_eq_true ⟨checksum_of_opened h, hash_of_openedBy hx⟩
  have hdone : ∀ r ∈ ([] : List HistoryRow), r.spend.hash ≠ Hash.zero := by simp
  rw [scans, lane_run]
  exact run_serves (fun s => checksum_of_asked) hdone hr []

theorem lane_map {f : HistoryRow → HistoryRow} (hf : ∀ r, (f r).output = r.output) (rows : List HistoryRow) :
    lane c (rows.map f) = (lane c rows).map f := by
  unfold lane
  rw [List.filter_map]
  congr 2
  funext r
  simp only [Function.comp, hf]

theorem lane_rows : lane c (reconcile reply).rows = (serve (opened reply c) (asked reply c)).map settle := by
  have := congrArg Scan.rows (lane_scans reply c)
  rw [reconcile_eq, lane_map c fun r => congrArg CompactRow.point (settle_outputRow r)]
  exact congrArg (List.map settle) this

theorem lane_orphans : (reconcile reply).orphans.filter (fun o => o.checksum = c) =
    (unserved (opened reply c).length (asked reply c)).map Spend.orphan := by
  rw [reconcile_eq]
  exact congrArg Scan.orphans (lane_scans reply c)

end Reply

end History

end ChainQuery
