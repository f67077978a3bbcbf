/-
  ChainQuery.Proofs.History.Queues — the queues at every point of a reconciliation.

  The rows of a reply are visited in order, and each spend among them makes its claim. A
  row waits under the checksum of its output as long as its recorded spend has a zero hash,
  so a spend without a hash, though recorded, leaves its row waiting. The queue of a
  checksum is to hold the positions of the rows that wait under it, the lowest first.

  A claim takes the head of its queue before it writes the row, and a position that no row
  had would be passed over in silence: the spend would be reported as if nothing waited. The
  invariant of the claims (`Indexed`) rules that out at each of them.

  Proved:
  - `Indexed.pairwise_queue`, `Indexed.mem_queue_iff`: over an indexed matching a queue is
    in increasing order and holds the positions that wait under its checksum.
  - `Indexed.claim_of_cons`, `Indexed.orphans_claim_iff`: a claim writes the row at the head
    of its queue, and is reported exactly when no row waits for it.
  - `queues_list_waiting_rows`: so it is at every point of the reply.
-/

import ChainQuery.Proofs.History.Scan

namespace ChainQuery.History

namespace Matching

/-- The positions in the queue of a checksum. -/
def queue (m : Matching) (c : UInt64) : List Nat := m.queues.getD c []

/-- The row at position `i` waits for a spend of checksum `c`. -/
def Waits (m : Matching) (c : UInt64) (i : Nat) : Prop :=
  ∃ r, m.rows[i]? = some r ∧ r.output.checksum = c ∧ r.spend.hash = Hash.zero

/-! ## What a queue holds -/

section Indexed

variable {m : Matching} (h : m.Indexed)

include h

theorem Indexed.pairwise_queue (c : UInt64) : (m.queue c).Pairwise (· < ·) := by
  rw [queue, h c]
  exact List.pairwise_findIdxs

theorem Indexed.mem_queue_iff {c : UInt64} {i : Nat} : i ∈ m.queue c ↔ m.Waits c i := by
  rw [queue, h c, List.mem_findIdxs_iff_exists_getElem_pos, Waits, ← Array.getElem?_toList]
  constructor
  · intro ⟨hlt, hw⟩
    exact ⟨m.rows.toList[i], List.getElem?_eq_getElem hlt, of_decide_eq_true hw⟩
  · intro ⟨r, hr, hw⟩
    obtain ⟨hlt, rfl⟩ := List.getElem?_eq_some_iff.mp hr
    exact ⟨hlt, decide_eq_true hw⟩

/-- A row has one checksum, so it is in one queue at most. -/
theorem Indexed.eq_of_mem_queue {c c' : UInt64} {i : Nat} (hi : i ∈ m.queue c) (hi' : i ∈ m.queue c') : c' = c := by
  obtain ⟨r, hr, hc, -⟩ := h.mem_queue_iff.mp hi
  obtain ⟨r', hr', hc', -⟩ := h.mem_queue_iff.mp hi'
  rw [hr] at hr'
  cases hr'
  rw [← hc, ← hc']

theorem Indexed.queue_eq_nil_iff {c : UInt64} : m.queue c = [] ↔ ∀ i, ¬ m.Waits c i := by
  rw [List.eq_nil_iff_forall_not_mem]
  exact forall_congr' fun i => not_congr h.mem_queue_iff

/-! ## What a claim does -/

/-- The position at the head of the queue is that of a row, and the claim writes it. -/
theorem Indexed.claim_of_cons {s : Spend} {i : Nat} {rest : List Nat} (hq : m.queue s.previousChecksum = i :: rest) :
    i < m.rows.size ∧ (m.claim s).rows = m.rows.modify i (record s) ∧ (m.claim s).orphans = m.orphans := by
  have hmem : i ∈ m.queue s.previousChecksum := by
    rw [hq]
    exact List.mem_cons_self
  refine ⟨h.lt_size hmem, ?_⟩
  rcases h.claim_cases s with ⟨j, rest', hq', -, hclaim⟩ | ⟨hnil, -, -⟩
  · obtain ⟨rfl, -⟩ := List.cons.inj (hq.symm.trans hq')
    rw [hclaim]
    exact ⟨rfl, rfl⟩
  · cases hq.symm.trans hnil

theorem Indexed.orphans_claim_iff (s : Spend) :
    (m.claim s).orphans = m.orphans.push ⟨s.previousChecksum, s.point⟩ ↔ ∀ i, ¬ m.Waits s.previousChecksum i := by
  rw [← h.queue_eq_nil_iff]
  rcases h.claim_cases s with ⟨i, rest, hq, -, hclaim⟩ | ⟨hq, -, hclaim⟩
  · have hcons : m.queue s.previousChecksum = i :: rest := hq
    have hmore : m.orphans ≠ m.orphans.push ⟨s.previousChecksum, s.point⟩ := fun e => by
      simpa using congrArg Array.size e
    rw [hclaim, hcons]
    exact iff_of_false hmore (List.cons_ne_nil i rest)
  · rw [hclaim]
    exact iff_of_true rfl hq

end Indexed

/-! ## Along a reply -/

/-- The matching when the first `n` rows of the reply have been visited. -/
def afterRows (reply : List CompactRow) (n : Nat) : Matching :=
  ((reply.take n).filterMap spendOf).foldl claim (start (reply.filterMap openedBy))

variable (reply : List CompactRow)

theorem afterRows_indexed (n : Nat) : (afterRows reply n).Indexed :=
  (claims_scan (opened_indexed reply) _).1

theorem afterRows_succ {n : Nat} {s : Spend} (hs : (reply[n]?).bind spendOf = some s) :
    afterRows reply (n + 1) = (afterRows reply n).claim s := by
  obtain ⟨r, hr, hs⟩ := Option.bind_eq_some_iff.mp hs
  rw [afterRows, List.take_add_one, hr, Option.toList_some, List.filterMap_append, List.foldl_append,
    List.filterMap_cons_some hs]
  rfl

end Matching

open Matching

/-- After any number of rows of a reply, the queue of each checksum lists in increasing order
    the positions of the rows that wait under it, so a row is in one queue at most. When the
    next row is a spend, the head of its queue is the position of a row, which records it,
    and it is reported exactly when no row waits under its checksum. What the reply
    reconciles to is read off after its last row. -/
theorem queues_list_waiting_rows (reply : List CompactRow) :
    (∀ n c,
      let m := afterRows reply n
      (m.queue c).Pairwise (· < ·) ∧ (m.queue c).Nodup ∧ (∀ i, i ∈ m.queue c ↔ m.Waits c i) ∧
      ∀ i ∈ m.queue c, i < m.rows.size ∧ ∀ c', i ∈ m.queue c' → c' = c) ∧
    (∀ n s, (reply[n]?).bind spendOf = some s →
      let m := afterRows reply n
      let m' := afterRows reply (n + 1)
      (∀ i rest, m.queue s.previousChecksum = i :: rest →
        i < m.rows.size ∧ m'.rows = m.rows.modify i (record s) ∧ m'.orphans = m.orphans) ∧
      (m'.orphans = m.orphans.push ⟨s.previousChecksum, s.point⟩ ↔ ∀ i, ¬ m.Waits s.previousChecksum i)) ∧
    reconcile reply = ⟨(afterRows reply reply.length).rows.toList.map settle,
      (afterRows reply reply.length).orphans.toList⟩ := by
  refine ⟨fun n c => ?_, fun n s hs => ?_, ?_⟩
  · have h := afterRows_indexed reply n
    have hinc := h.pairwise_queue c
    exact ⟨hinc, hinc.imp Nat.ne_of_lt, fun i => h.mem_queue_iff, fun i hi =>
      ⟨h.lt_size hi, fun c' hi' => h.eq_of_mem_queue hi hi'⟩⟩
  · have h := afterRows_indexed reply n
    rw [afterRows_succ reply hs]
    exact ⟨fun i rest hq => h.claim_of_cons hq, h.orphans_claim_iff s⟩
  · rw [afterRows, List.take_length]
    rfl

/-- Two outputs of one checksum: a spend without a hash leaves the first one waiting, and a
    spend with a hash takes it out. -/
example :
    let output : OutPoint := ⟨FixedBytes.replicate 32 0xaa, 1⟩
    let reply : List CompactRow :=
      [⟨output, 1, .output 10⟩, ⟨⟨output.hash, 32769⟩, 2, .output 20⟩,
        ⟨⟨Hash.zero, 0⟩, 3, .spend output.checksum⟩, ⟨⟨output.hash, 0⟩, 4, .spend output.checksum⟩]
    (afterRows reply 3).queue output.checksum = [0, 1] ∧ (afterRows reply 4).queue output.checksum = [1] := by
  cbv

end ChainQuery.History
