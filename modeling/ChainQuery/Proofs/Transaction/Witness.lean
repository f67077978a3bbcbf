/-
  ChainQuery.Proofs.Transaction.Witness — witnesses and their limit.

  The items of a witness are counted as they are read: each adds its own bytes and those
  of its length (`itemBytes`), and the first that takes the count past four million ends
  the reading. A witness of more than four million items is refused by its number alone,
  which comes to the same, for every item has a length of at least one byte. The four
  bytes set aside for each item are in the count and in the limit, and cancel out.

  Proved:
  - `items_eq_ok_iff`, `items_too_large`: items are read exactly within the limit.
  - `decodes_witness`: what decodes is the written form of a witness that fits.
  - `decode_too_large`: the written form of any other fails by the limit.
  - `encode_cancel`: the written forms of witnesses are told apart, whether or not they
    fit.
-/

import ChainQuery.Proofs.Consensus.Decodes
import ChainQuery.Transaction

namespace ChainQuery

open Decoder

/-! ## Witnesses -/

namespace Witness

/-- The bytes of some items, each with its length. -/
def itemBytes : List Script → Nat
  | [] => 0
  | x :: xs => x.toList.length + (CompactSize.encode x.size).length + itemBytes xs

def Fits (w : Witness) : Prop := itemBytes w.toList ≤ 4000000

theorem itemCost_size (x : Script) : itemCost x.size = x.toList.length + (CompactSize.encode x.size).length := by
  rw [itemCost, Counted.toNat_size]

theorem length_le_itemBytes (xs : List Script) : xs.length ≤ itemBytes xs := by
  induction xs with
  | nil => exact Nat.le_refl 0
  | cons x xs ih =>
    obtain ⟨b, bs, hx, -⟩ := CompactSize.encode_head x.size
    rw [itemBytes, hx, List.length_cons, List.length_cons]
    omega

theorem items_eq_ok_iff {limit n used : Nat} (hlimit : limit < UInt64.size) (hused : used ≤ limit)
    {input rest : Bytes} {xs : { xs : List Script // xs.length = n }} :
    items limit n used input = .ok (xs, rest) ↔
      input = xs.1.flatMap Script.encode ++ rest ∧ used + itemBytes xs.1 ≤ limit := by
  induction n generalizing used input with
  | zero =>
    obtain ⟨xs, hxs⟩ := xs
    obtain rfl := List.length_eq_zero_iff.mp hxs
    rw [items, pure_eq_ok_iff]
    simp [itemBytes, hused]
  | succ n ih =>
    obtain ⟨xs, hxs⟩ := xs
    rw [items, bind_eq_ok_iff]
    constructor
    · rintro ⟨size, mid, hsize, h⟩
      obtain ⟨rfl, -⟩ := (CompactSize.decodes_size _ _ _).mp hsize
      by_cases hover : UInt64.size ≤ used + itemCost size
      · rw [if_pos hover] at h
        exact absurd h throw_ne_ok
      rw [if_neg hover] at h
      by_cases hlarge : limit < used + itemCost size
      · rw [if_pos hlarge] at h
        exact absurd h throw_ne_ok
      rw [if_neg hlarge] at h
      obtain ⟨x, mid', hx, h⟩ := bind_eq_ok_iff.mp h
      obtain ⟨ys, mid'', hys, hp⟩ := bind_eq_ok_iff.mp h
      obtain ⟨heq, rfl⟩ := pure_eq_ok_iff.mp hp
      obtain rfl := congrArg Subtype.val heq
      obtain ⟨rfl, rfl⟩ := Script.ofLength_eq_ok_iff.mp hx
      obtain ⟨rfl, hle⟩ := (ih (Nat.le_of_not_lt hlarge)).mp hys
      rw [itemCost_size] at hle
      refine ⟨by simp [Script.encode], ?_⟩
      rw [itemBytes]
      omega
    · rintro ⟨rfl, hle⟩
      cases xs with
      | nil => simp at hxs
      | cons x xs =>
        have hlen : xs.length = n := by simpa using hxs
        rw [itemBytes] at hle
        have hcost := itemCost_size x
        have hover : ¬ UInt64.size ≤ used + itemCost x.size := by omega
        have hlarge : ¬ limit < used + itemCost x.size := by omega
        refine ⟨x.size, x.toList ++ (xs.flatMap Script.encode ++ rest), ?_, ?_⟩
        · rw [CompactSize.decodes_size]
          exact ⟨by simp [Script.encode], trivial⟩
        · rw [if_neg hover, if_neg hlarge]
          refine bind_eq_ok_iff.mpr ⟨x, _, Script.ofLength_eq_ok_iff.mpr ⟨rfl, rfl⟩, ?_⟩
          refine bind_eq_ok_iff.mpr ⟨⟨xs, hlen⟩, rest, (ih (by omega)).mpr ⟨rfl, ?_⟩, rfl⟩
          show used + itemCost x.size + itemBytes xs ≤ limit
          omega

/-- Items past the limit are refused, and what was asked for is more than the limit. -/
theorem items_too_large {limit used : Nat} (hlimit : limit < UInt64.size - 1) (hused : used ≤ limit) {xs : List Script}
    (h : limit < used + itemBytes xs) (rest : Bytes) :
    ∃ requested, limit < requested ∧
      items limit xs.length used (xs.flatMap Script.encode ++ rest) = .error (.oversizedAllocation requested) := by
  induction xs generalizing used with
  | nil =>
    rw [itemBytes] at h
    omega
  | cons x xs ih =>
    have hcost := itemCost_size x
    have hsize : CompactSize.decode ((x :: xs).flatMap Script.encode ++ rest) =
        .ok (x.size, x.toList ++ (xs.flatMap Script.encode ++ rest)) := by
      rw [CompactSize.decodes_size]
      exact ⟨by simp [Script.encode], trivial⟩
    rw [List.length_cons, items, bind_of_ok hsize]
    by_cases hover : UInt64.size ≤ used + itemCost x.size
    · rw [if_pos hover]
      exact ⟨UInt64.size - 1, hlimit, rfl⟩
    rw [if_neg hover]
    by_cases hlarge : limit < used + itemCost x.size
    · rw [if_pos hlarge]
      exact ⟨_, hlarge, rfl⟩
    rw [if_neg hlarge]
    rw [itemBytes] at h
    have hnext : used + itemCost x.size ≤ limit := Nat.le_of_not_lt hlarge
    obtain ⟨requested, hreq, hitems⟩ := ih hnext (by omega)
    refine ⟨requested, hreq, ?_⟩
    rw [bind_of_ok (Script.ofLength_eq_ok_iff.mpr ⟨rfl, rfl⟩)]
    exact bind_of_error hitems

theorem decodes_witness : Decodes decode encode Fits := by
  intro input w rest
  rw [decode, bind_eq_ok_iff]
  constructor
  · rintro ⟨count, mid, hcount, h⟩
    obtain ⟨rfl, -⟩ := (CompactSize.decodes_size _ _ _).mp hcount
    by_cases hmany : allocationLimit < count.toNat
    · rw [if_pos hmany] at h
      exact absurd h throw_ne_ok
    rw [if_neg hmany] at h
    obtain ⟨xs, mid', hxs, hp⟩ := bind_eq_ok_iff.mp h
    obtain ⟨rfl, rfl⟩ := pure_eq_ok_iff.mp hp
    have hcount : count.toNat ≤ 4000000 := Nat.le_of_not_lt hmany
    have hlimit : allocationLimit + 4 * count.toNat < UInt64.size := by
      show 4000000 + 4 * count.toNat < 18446744073709551616
      omega
    obtain ⟨rfl, hle⟩ := (items_eq_ok_iff hlimit (Nat.le_add_left _ _)).mp hxs
    constructor
    · rw [encode, Counted.encode, Counted.size, xs.2, UInt64.ofNat_toNat, List.append_assoc]
    · show itemBytes xs.1 ≤ allocationLimit
      omega
  · rintro ⟨rfl, hfits⟩
    have hle : itemBytes w.toList ≤ allocationLimit := hfits
    have hlen : w.size.toNat ≤ itemBytes w.toList := by
      rw [Counted.toNat_size]
      exact length_le_itemBytes _
    have hcount : w.size.toNat ≤ 4000000 := Nat.le_trans hlen hle
    have hlimit : allocationLimit + 4 * w.size.toNat < UInt64.size := by
      show 4000000 + 4 * w.size.toNat < 18446744073709551616
      omega
    rw [encode, Counted.encode, List.append_assoc]
    refine ⟨w.size, _, CompactSize.decodes_size.append trivial _, ?_⟩
    rw [if_neg (by omega)]
    refine bind_eq_ok_iff.mpr ⟨⟨w.toList, w.toNat_size.symm⟩, rest, ?_, rfl⟩
    rw [items_eq_ok_iff hlimit (Nat.le_add_left _ _)]
    exact ⟨rfl, by show 4 * w.size.toNat + itemBytes w.toList ≤ _; omega⟩

theorem decode_too_large {w : Witness} (h : ¬ w.Fits) (rest : Bytes) :
    ∃ requested, 4000000 < requested ∧ decode (w.encode ++ rest) = .error (.oversizedAllocation requested) := by
  have hlarge : allocationLimit < itemBytes w.toList := Nat.lt_of_not_le h
  rw [encode, Counted.encode, List.append_assoc, decode, bind_of_ok (CompactSize.decodes_size.append trivial _)]
  by_cases hmany : allocationLimit < w.size.toNat
  · rw [if_pos hmany]
    exact ⟨_, hmany, rfl⟩
  rw [if_neg hmany]
  have hcount : w.size.toNat ≤ 4000000 := Nat.le_of_not_lt hmany
  have hlimit : allocationLimit + 4 * w.size.toNat < UInt64.size - 1 := by
    show 4000000 + 4 * w.size.toNat < 18446744073709551616 - 1
    omega
  have htotal : allocationLimit + 4 * w.size.toNat < 4 * w.size.toNat + itemBytes w.toList := by omega
  obtain ⟨requested, hreq, hitems⟩ := items_too_large hlimit (Nat.le_add_left _ _) htotal rest
  refine ⟨requested, Nat.lt_of_le_of_lt (Nat.le_add_right _ _) hreq, ?_⟩
  rw [← Counted.toNat_size] at hitems
  exact bind_of_error hitems

/-- Without the limit, too, the written forms of witnesses are told apart. -/
theorem encode_cancel {w w' : Witness} {xs ys : Bytes} (h : w.encode ++ xs = w'.encode ++ ys) : w = w' ∧ xs = ys :=
  (Counted.decodes_counted Script.decodes_script).cancel (fun _ _ => trivial) (fun _ _ => trivial) h

end Witness

end ChainQuery
