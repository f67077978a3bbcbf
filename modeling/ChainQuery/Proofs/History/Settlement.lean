/-
  ChainQuery.Proofs.History.Settlement — where each spend of a reply ends up.

  For a checksum `c`, the outputs of `c` and the claims of `c` (its spend rows that have
  a hash) are numbered in reply order. The rows of `c` are numbered with their outputs.

  Proved:
  - `every_claim_settles_once`: the k-th row of `c` records the k-th claim of `c`, point
    and height; rows beyond the claims record no hash; claims beyond the rows are
    reported, once each. So no claim is lost, doubled or moved, whatever zero-hash
    spends and unknown rows stand among them.
  - `sentinel_iff_no_stray`: a row without a claim carries the full sentinel exactly
    when no stray point is left: the spend that comes last under a checksum with more
    outputs than claims has a hash, or is the null point. A checksum that leaves one
    spoils only its own row. A zero-hash spend with another index leaves its point in a
    row, which then counts as spent (`a_stray_point_counts_as_spent`).
-/

import ChainQuery.Proofs.History.Lane

namespace ChainQuery.History

/-- When the second of a pair does not matter, pairing cuts off what has no partner. -/
theorem zipWith_fst {α β γ : Type} {f : α → β → γ} {g : α → γ} {xs : List α} {ys : List β}
    (h : ∀ x ∈ xs, ∀ y ∈ ys, f x y = g x) : List.zipWith f xs ys = (xs.take ys.length).map g := by
  induction xs generalizing ys with
  | nil => simp
  | cons x xs ih =>
    cases ys with
    | nil => simp
    | cons y ys =>
      have htail : List.zipWith f xs ys = (xs.take ys.length).map g :=
        ih fun x hx y hy => h x (List.mem_cons_of_mem _ hx) y (List.mem_cons_of_mem _ hy)
      rw [List.zipWith_cons_cons, h x List.mem_cons_self y List.mem_cons_self, htail]
      rfl

theorem map_orphan {c : UInt64} {ss : List Spend} (h : ∀ s ∈ ss, s.previousChecksum = c) :
    ss.map Spend.orphan = (ss.map Spend.row).map fun s => ⟨c, s.point⟩ := by
  rw [List.map_map]
  refine List.map_congr_left fun s hs => ?_
  show (⟨s.previousChecksum, s.point⟩ : OrphanSpend) = ⟨c, s.point⟩
  rw [h s hs]

theorem touch_hash {ss : List Spend} {r : HistoryRow} (h : r.spend.hash = Hash.zero) :
    (touch ss r).spend.hash = Hash.zero := by
  unfold touch
  split
  · split
    · exact h
    · rename_i s _ hs
      have hz : s.point.hash = Hash.zero := by simpa [Spend.hashed] using hs
      exact hz
  · exact h

section Reply

variable (reply : List CompactRow) (c : UInt64)

def outputsOf : List CompactRow := (reply.filter CompactRow.isOutput).filter fun o => o.point.checksum = c

def spendsOf : List CompactRow := reply.filter (CompactRow.isSpendOf c)

/-- The spends of `c` that have a hash. -/
def claimsOf : List CompactRow := (spendsOf reply c).filter fun s => s.point.hash ≠ Hash.zero

/-- The rows opened under `c` that a claim is left for, and the claims that a row is left
    for, are paired in order. -/
def claimed : List HistoryRow := List.zipWith Matching.record ((asked reply c).filter Spend.hashed) (opened reply c)

/-- The rows opened under `c` beyond its claims. -/
def unclaimed : List HistoryRow := (opened reply c).drop (claimsOf reply c).length

theorem claims_row : ((asked reply c).filter Spend.hashed).map Spend.row = claimsOf reply c := by
  rw [claimsOf, spendsOf, ← asked_row, List.filter_map]
  rfl

theorem length_claims : ((asked reply c).filter Spend.hashed).length = (claimsOf reply c).length := by
  rw [← claims_row, List.length_map]

theorem opened_outputRow : (opened reply c).map HistoryRow.outputRow = outputsOf reply c := by
  rw [outputsOf, ← filterMap_openedBy, List.filter_map]
  rfl

theorem length_opened : (opened reply c).length = (outputsOf reply c).length := by
  rw [← opened_outputRow, List.length_map]

variable {reply c}

theorem unspent_of_opened {r : HistoryRow} (h : r ∈ opened reply c) :
    r = HistoryRow.unspent r.output r.outputHeight r.value := by
  obtain ⟨x, -, hx⟩ := List.mem_filterMap.mp (mem_lane.mp h).1
  unfold openedBy at hx
  split at hx
  · cases hx; rfl
  · cases hx

theorem claimed_hash {r : HistoryRow} (h : r ∈ claimed reply c) : r.spend.hash ≠ Hash.zero := by
  rw [claimed, ← List.map_uncurry_zip_eq_zipWith] at h
  obtain ⟨⟨s, o⟩, hp, rfl⟩ := List.mem_map.mp h
  obtain ⟨hs, -⟩ := List.of_mem_zip hp
  exact of_decide_eq_true (List.mem_filter.mp hs).2

theorem settle_of_hash {r : HistoryRow} (h : r.spend.hash ≠ Hash.zero) : settle r = r := by
  rw [settle, if_neg h]

variable (reply c)

/-- The rows of `c`: first those with a claim, then the others, of which only the first
    can have been written to. -/
theorem lane_split : lane c (reconcile reply).rows =
    claimed reply c ++ ((unclaimed reply c).modifyHead (touch (asked reply c))).map settle := by
  rw [lane_rows, serve_eq, List.map_append, length_claims]
  congr 1
  exact (List.map_congr_left fun r h => settle_of_hash (claimed_hash h)).trans (List.map_id _)

theorem length_claimed :
    (claimed reply c).length = min (claimsOf reply c).length (outputsOf reply c).length := by
  rw [claimed, List.length_zipWith, length_claims, length_opened]

theorem take_lane : (lane c (reconcile reply).rows).take (claimsOf reply c).length = claimed reply c := by
  rw [lane_split, List.take_append, length_claimed]
  by_cases h : (claimsOf reply c).length ≤ (outputsOf reply c).length
  · rw [List.take_of_length_le (by rw [length_claimed]; omega), Nat.min_eq_left h, Nat.sub_self, List.take_zero,
      List.append_nil]
  · have hnil : unclaimed reply c = [] := List.drop_of_length_le (by rw [length_opened]; omega)
    rw [List.take_of_length_le (by rw [length_claimed]; omega), hnil]
    simp

theorem drop_lane : (lane c (reconcile reply).rows).drop (claimsOf reply c).length =
    ((unclaimed reply c).modifyHead (touch (asked reply c))).map settle := by
  have h := List.take_append_drop (claimsOf reply c).length (lane c (reconcile reply).rows)
  rw [take_lane] at h
  exact List.append_cancel_left (h.trans (lane_split reply c))

theorem claimed_spendRow :
    (claimed reply c).map HistoryRow.spendRow = (claimsOf reply c).take (outputsOf reply c).length := by
  have hpair : ∀ s ∈ (asked reply c).filter Spend.hashed, ∀ o ∈ opened reply c,
      (Matching.record s o).spendRow = s.row := by
    intro s hs o ho
    show CompactRow.mk s.point s.height (.spend o.output.checksum) = _
    rw [checksum_of_opened ho, ← checksum_of_asked (List.mem_filter.mp hs).1]
    rfl
  rw [claimed, List.map_zipWith, zipWith_fst hpair, ← claims_row, length_opened, List.map_take]

theorem unclaimed_hash {r : HistoryRow} (h : r ∈ (lane c (reconcile reply).rows).drop (claimsOf reply c).length) :
    r.spend.hash = Hash.zero := by
  rw [drop_lane] at h
  obtain ⟨x, hx, rfl⟩ := List.mem_map.mp h
  have hx : x.spend.hash = Hash.zero := by
    have hopen : ∀ o ∈ unclaimed reply c, o.spend.hash = Hash.zero := by
      intro o ho
      rw [unspent_of_opened (List.mem_of_mem_drop ho)]
      rfl
    cases hu : unclaimed reply c with
    | nil => rw [hu] at hx; cases hx
    | cons o os =>
      rw [hu] at hx hopen
      rcases List.mem_cons.mp hx with rfl | hx
      · exact touch_hash (hopen o List.mem_cons_self)
      · exact hopen x (List.mem_cons_of_mem _ hx)
  rw [settle, if_pos hx]
  exact hx

theorem orphans_claims :
    (reconcile reply).orphans.filter (fun o => o.checksum = c ∧ o.spend.hash ≠ Hash.zero) =
      ((claimsOf reply c).drop (outputsOf reply c).length).map fun s => ⟨c, s.point⟩ := by
  have hleft : (reconcile reply).orphans.filter (fun o => o.checksum = c ∧ o.spend.hash ≠ Hash.zero) =
      ((unserved (opened reply c).length (asked reply c)).filter Spend.hashed).map Spend.orphan := by
    rw [show (unserved _ _).filter Spend.hashed = (unserved _ _).filter
      ((fun o : OrphanSpend => decide (o.spend.hash ≠ Hash.zero)) ∘ Spend.orphan) from rfl,
      ← List.filter_map, ← lane_orphans, List.filter_filter]
    exact List.filter_congr fun o _ => by rw [Bool.decide_and, Bool.and_comm]
  have hown : ∀ s ∈ ((asked reply c).filter Spend.hashed).drop (outputsOf reply c).length, s.previousChecksum = c :=
    fun s hs => checksum_of_asked (List.mem_filter.mp (List.mem_of_mem_drop hs)).1
  rw [hleft, unserved_hashed, length_opened, map_orphan hown, List.map_drop, claims_row]

theorem lane_hashed : (lane c (reconcile reply).rows).filter (fun r => r.spend.hash ≠ Hash.zero) = claimed reply c := by
  rw [← List.take_append_drop (claimsOf reply c).length (lane c (reconcile reply).rows), List.filter_append,
    take_lane, List.filter_eq_self.mpr fun r h => decide_eq_true (claimed_hash h),
    List.filter_eq_nil_iff.mpr fun r h => by simpa using unclaimed_hash reply c h, List.append_nil]

/-! ## Every claim, once -/

theorem claims_lane :
    (((reply.filterMap spendOf).filter Spend.hashed).map Spend.orphan).filter (fun o => o.checksum = c) =
      (claimsOf reply c).map fun s => ⟨c, s.point⟩ := by
  rw [← claims_row, ← map_orphan fun s hs => checksum_of_asked (List.mem_filter.mp hs).1, asked, List.filter_map,
    List.filter_comm]
  rfl

theorem recorded_lane :
    (((reconcile reply).rows.filter fun r => r.spend.hash ≠ Hash.zero).map
        (fun r => (⟨r.output.checksum, r.spend⟩ : OrphanSpend))).filter (fun o => o.checksum = c) =
      ((claimsOf reply c).take (outputsOf reply c).length).map fun s => ⟨c, s.point⟩ := by
  have hlane : ((reconcile reply).rows.filter fun r => r.spend.hash ≠ Hash.zero).filter
      (fun r => r.output.checksum = c) = claimed reply c := by
    rw [List.filter_comm]
    exact lane_hashed reply c
  have hown : ∀ r ∈ claimed reply c, r.output.checksum = c := by
    intro r hr
    rw [← hlane] at hr
    exact of_decide_eq_true (List.mem_filter.mp hr).2
  rw [List.filter_map, ← claimed_spendRow, List.map_map]
  show (List.filter (fun r : HistoryRow => decide (r.output.checksum = c)) _).map _ = _
  rw [hlane]
  refine List.map_congr_left fun r hr => ?_
  show (⟨r.output.checksum, r.spend⟩ : OrphanSpend) = ⟨c, r.spend⟩
  rw [hown r hr]

theorem reported_lane :
    ((reconcile reply).orphans.filter fun o => o.spend.hash ≠ Hash.zero).filter (fun o => o.checksum = c) =
      ((claimsOf reply c).drop (outputsOf reply c).length).map fun s => ⟨c, s.point⟩ := by
  rw [List.filter_filter, ← orphans_claims]
  exact List.filter_congr fun o _ => by rw [Bool.decide_and]

/-- Of the spends that have a hash, each is recorded in one row or reported once: the
    k-th of a checksum in the k-th row of that checksum, and those without a row in the
    events. -/
theorem every_claim_settles_once :
    (reconcile reply).rows.map HistoryRow.outputRow = reply.filter CompactRow.isOutput ∧
    (∀ c,
      ((lane c (reconcile reply).rows).take (claimsOf reply c).length).map HistoryRow.spendRow =
        (claimsOf reply c).take (outputsOf reply c).length ∧
      (∀ r ∈ (lane c (reconcile reply).rows).drop (claimsOf reply c).length, r.spend.hash = Hash.zero) ∧
      (reconcile reply).orphans.filter (fun o => o.checksum = c ∧ o.spend.hash ≠ Hash.zero) =
        ((claimsOf reply c).drop (outputsOf reply c).length).map fun s => ⟨c, s.point⟩) ∧
    (((reply.filterMap spendOf).filter Spend.hashed).map Spend.orphan).Perm
      (((reconcile reply).rows.filter fun r => r.spend.hash ≠ Hash.zero).map
          (fun r => ⟨r.output.checksum, r.spend⟩) ++
        (reconcile reply).orphans.filter fun o => o.spend.hash ≠ Hash.zero) := by
  refine ⟨rows_outputRow reply, fun c => ⟨?_, fun r => unclaimed_hash reply c, orphans_claims reply c⟩, ?_⟩
  · rw [take_lane, claimed_spendRow]
  · -- seen in the lane of `c`, both sides list the claims of `c` in order
    refine perm_of_filter_key OrphanSpend.checksum fun c => ?_
    rw [List.filter_append, claims_lane, recorded_lane, reported_lane, ← List.map_append, List.take_append_drop]

/-! ## The sentinel of a row without a claim -/

/-- The row is that of an output with no spend recorded. -/
def Sentinel (r : HistoryRow) : Prop := r = HistoryRow.unspent r.output r.outputHeight r.value

/-- If `c` has more outputs than claims, the spend that comes last has a hash or is the null
    point. -/
def NoStrayOf : Prop :=
  (claimsOf reply c).length < (outputsOf reply c).length →
    ∀ s, (spendsOf reply c).getLast? = some s → s.point.hash = Hash.zero → s.point = OutPoint.null

def NoStray : Prop := ∀ c, NoStrayOf reply c

variable {reply c}

theorem spendHeight_of_zero {r : HistoryRow} (h : r ∈ (reconcile reply).rows) (h0 : r.spend.hash = Hash.zero) :
    r.spendHeight = unspentHeight := by
  rw [reconcile_eq] at h
  obtain ⟨x, -, rfl⟩ := List.mem_map.mp h
  unfold settle at h0 ⊢
  split
  · rfl
  · rename_i hx; rw [if_neg hx] at h0; exact absurd h0 hx

/-- Of the rows whose spend has no hash, those that do not count as spent are the ones
    with the full sentinel. -/
theorem sentinel_iff_isSpent {r : HistoryRow} (h : r ∈ (reconcile reply).rows) (h0 : r.spend.hash = Hash.zero) :
    Sentinel r ↔ r.isSpent = false := by
  have hh := spendHeight_of_zero h h0
  constructor
  · intro hs
    rw [hs]
    rfl
  · intro hs
    have hn : r.spend = OutPoint.null := by simpa [HistoryRow.isSpent] using hs
    cases r
    simp only at hh hn
    subst hh hn
    rfl

theorem isSpent_of_hash {r : HistoryRow} (h : r.spend.hash ≠ Hash.zero) : r.isSpent = true := by
  refine decide_eq_true fun e => h ?_
  rw [e]
  rfl

theorem settle_sentinel {r : HistoryRow} (h : Sentinel r) : Sentinel (settle r) := by
  rw [h]
  rfl

/-- What the first row without a claim ends as. -/
theorem sentinel_touch {o : HistoryRow} (ho : Sentinel o) (ss : List Spend) :
    Sentinel (settle (touch ss o)) ↔
      ∀ s, ss.getLast? = some s → s.point.hash = Hash.zero → s.point = OutPoint.null := by
  unfold touch
  cases ss.getLast? with
  | none => exact iff_of_true (settle_sentinel ho) (by simp)
  | some s =>
    by_cases h0 : s.point.hash = Hash.zero
    · rw [ho]
      simp [Spend.hashed, h0, Sentinel, settle, Matching.record, HistoryRow.unspent]
    · have hs : s.hashed = true := decide_eq_true h0
      simp only [hs, if_true]
      exact iff_of_true (settle_sentinel ho) (by simp [h0])

variable (reply c)

theorem sentinel_drop_iff :
    (∀ r ∈ (lane c (reconcile reply).rows).drop (claimsOf reply c).length, Sentinel r) ↔ NoStrayOf reply c := by
  have hlen : (unclaimed reply c).length = (outputsOf reply c).length - (claimsOf reply c).length := by
    rw [unclaimed, List.length_drop, length_opened]
  have hopen : ∀ o ∈ unclaimed reply c, Sentinel o := fun o ho => unspent_of_opened (List.mem_of_mem_drop ho)
  rw [NoStrayOf, drop_lane, spendsOf, ← asked_row, List.getLast?_map]
  cases hu : unclaimed reply c with
  | nil =>
    rw [hu] at hlen
    have hle : ¬ (claimsOf reply c).length < (outputsOf reply c).length := by simp at hlen; omega
    simp [hle]
  | cons o os =>
    rw [hu] at hlen hopen
    have hlt : (claimsOf reply c).length < (outputsOf reply c).length := by simp at hlen; omega
    have hos : ∀ r ∈ os.map settle, Sentinel r := by
      intro r hr
      obtain ⟨x, hx, rfl⟩ := List.mem_map.mp hr
      exact settle_sentinel (hopen x (List.mem_cons_of_mem _ hx))
    rw [List.modifyHead_cons, List.map_cons, List.forall_mem_cons, sentinel_touch (hopen o List.mem_cons_self)]
    constructor
    · rintro ⟨h, -⟩ - s hs h0
      obtain ⟨t, ht, rfl⟩ := Option.map_eq_some_iff.mp hs
      exact h t ht h0
    · intro h
      exact ⟨fun s hs h0 => h hlt s.row (Option.map_eq_some_iff.mpr ⟨s, hs, rfl⟩) h0, hos⟩

/-- The rows of `c` are claimed as far as its claims go. -/
theorem sentinel_lane_iff :
    (∀ r ∈ lane c (reconcile reply).rows, r.spend.hash ≠ Hash.zero ∨ Sentinel r) ↔
      ∀ r ∈ (lane c (reconcile reply).rows).drop (claimsOf reply c).length, Sentinel r := by
  constructor
  · intro h r hr
    rcases h r (List.mem_of_mem_drop hr) with hh | hp
    · exact absurd (unclaimed_hash reply c hr) hh
    · exact hp
  · intro h r hr
    rw [← List.take_append_drop (claimsOf reply c).length (lane c (reconcile reply).rows), take_lane] at hr
    rcases List.mem_append.mp hr with hr | hr
    · exact Or.inl (claimed_hash hr)
    · exact Or.inr (h r hr)

theorem isSpent_lane_iff :
    (∀ k r, (lane c (reconcile reply).rows)[k]? = some r → (r.isSpent = true ↔ k < (claimsOf reply c).length)) ↔
      ∀ r ∈ (lane c (reconcile reply).rows).drop (claimsOf reply c).length, Sentinel r := by
  constructor
  · intro h r hr
    obtain ⟨k, hk⟩ := List.mem_iff_getElem?.mp hr
    rw [List.getElem?_drop] at hk
    have hmem := (mem_lane.mp (List.mem_of_getElem? hk)).1
    rw [sentinel_iff_isSpent hmem (unclaimed_hash reply c hr), Bool.eq_false_iff]
    intro hs
    have := (h _ r hk).mp hs
    omega
  · intro h k r hk
    by_cases hlt : k < (claimsOf reply c).length
    · have hr : r ∈ claimed reply c := by
        rw [← take_lane]
        exact List.mem_of_getElem? (by rw [List.getElem?_take_of_lt hlt]; exact hk)
      exact iff_of_true (isSpent_of_hash (claimed_hash hr)) hlt
    · have hr : r ∈ (lane c (reconcile reply).rows).drop (claimsOf reply c).length := by
        refine List.mem_of_getElem? (i := k - (claimsOf reply c).length) ?_
        rw [List.getElem?_drop, show (claimsOf reply c).length + (k - (claimsOf reply c).length) = k by omega]
        exact hk
      have hmem := (mem_lane.mp (List.mem_of_getElem? hk)).1
      have hs := (sentinel_iff_isSpent hmem (unclaimed_hash reply c hr)).mp (h r hr)
      exact iff_of_false (by rw [hs]; exact Bool.false_ne_true) hlt

/-- A row of a checksum without a claim carries the full sentinel exactly when the checksum leaves
    no stray point, and exactly then the rows that count as spent are those with a claim; so for
    each checksum, whatever the others leave, and for the whole reply. A row that does not count
    as spent never shows the height of a spend. -/
theorem sentinel_iff_no_stray :
    (∀ c,
      ((∀ r ∈ lane c (reconcile reply).rows, r.spend.hash ≠ Hash.zero ∨
          r = HistoryRow.unspent r.output r.outputHeight r.value) ↔ NoStrayOf reply c) ∧
      ((∀ k r, (lane c (reconcile reply).rows)[k]? = some r → (r.isSpent = true ↔ k < (claimsOf reply c).length)) ↔
        NoStrayOf reply c)) ∧
    ((∀ r ∈ (reconcile reply).rows, r.spend.hash ≠ Hash.zero ∨
        r = HistoryRow.unspent r.output r.outputHeight r.value) ↔ NoStray reply) ∧
    ((∀ c k r, (lane c (reconcile reply).rows)[k]? = some r → (r.isSpent = true ↔ k < (claimsOf reply c).length)) ↔
      NoStray reply) ∧
    ∀ r ∈ (reconcile reply).rows, r.isSpent = false → r.spendHeight = unspentHeight := by
  have hsentinel := fun c => (sentinel_lane_iff reply c).trans (sentinel_drop_iff reply c)
  have hspent := fun c => (isSpent_lane_iff reply c).trans (sentinel_drop_iff reply c)
  refine ⟨fun c => ⟨hsentinel c, hspent c⟩, ?_, forall_congr' hspent, ?_⟩
  · have hlanes : (∀ r ∈ (reconcile reply).rows, r.spend.hash ≠ Hash.zero ∨ Sentinel r) ↔
        ∀ c, ∀ r ∈ lane c (reconcile reply).rows, r.spend.hash ≠ Hash.zero ∨ Sentinel r :=
      ⟨fun h c r hr => h r (mem_lane.mp hr).1, fun h r hr => h _ r (mem_lane.mpr ⟨hr, rfl⟩)⟩
    exact hlanes.trans (forall_congr' hsentinel)
  · intro r hr hs
    refine spendHeight_of_zero hr ?_
    by_contra h0
    rw [isSpent_of_hash h0] at hs
    cases hs

end Reply

/-- An output of five satoshis, and a spend of its checksum with a zero hash and index 0. -/
def strayReply : List CompactRow :=
  let output : OutPoint := ⟨FixedBytes.replicate 32 0xaa, 3⟩
  [⟨output, 10, .output 5⟩, ⟨⟨Hash.zero, 0⟩, 11, .spend output.checksum⟩]

/-- The output has no claim, and still counts as spent: by a point without a hash. -/
theorem a_stray_point_counts_as_spent :
    ∃ r, (reconcile strayReply).rows = [r] ∧ claimsOf strayReply r.output.checksum = [] ∧
      r.spend.hash = Hash.zero ∧ r.isSpent = true ∧
      r ≠ HistoryRow.unspent r.output r.outputHeight r.value := by
  refine ⟨⟨⟨FixedBytes.replicate 32 0xaa, 3⟩, 10, 5, ⟨Hash.zero, 0⟩, unspentHeight⟩, ?_, ?_⟩
  · rw [reconcile_eq]
    decide
  · decide

end ChainQuery.History
