/-
  ChainQuery.Proofs.OutPoint — which points share a checksum.

  A checksum is a number of three digits: the low fifteen bits of the index, above them the
  top bit of byte 13 of the hash, and above that the bytes 14 to 19, least significant
  first. The word taken from the hash begins at byte 12, but the mask ends inside byte 13:
  byte 12 and the low seven bits of byte 13 give way to the index.

  Proved:
  - `toNat_checksum`: the checksum as a number, from the word of the hash and the index.
  - `hashWord_div`: what the mask leaves of the word.
  - `checksum_collisions`: points share a checksum exactly when they have the same digits;
    every word is the checksum of a point; its low fifteen bits are those of the index.
-/

import ChainQuery.OutPoint
import Mathlib.Algebra.Ring.Nat

namespace ChainQuery

/-- As many bytes, read as a number, are told apart by it. -/
theorem Bytes.ofLE_inj {xs ys : Bytes} (hlen : xs.length = ys.length) : ofLE xs = ofLE ys ↔ xs = ys := by
  constructor
  · intro h
    rw [← toLE_ofLE xs, ← toLE_ofLE ys, hlen, h]
  · intro h
    rw [h]

/-! ## The bytes of a hash -/

namespace Hash

def byte (h : Hash) (i : Fin 32) : UInt8 := h.1.get (i.cast h.2.symm)

theorem getElem?_byte (h : Hash) (i : Fin 32) : h.1[i.1]? = some (h.byte i) :=
  List.getElem?_eq_getElem (i.cast h.2.symm).isLt

theorem drop_eq_cons (h : Hash) (i : Fin 32) : h.1.drop i.1 = h.byte i :: h.1.drop (i.1 + 1) :=
  List.drop_eq_getElem_cons (i.cast h.2.symm).isLt

theorem length_window (h : Hash) {offset width : Nat} (hfits : offset + width ≤ 32) :
    ((h.1.drop offset).take width).length = width := by
  rw [List.length_take, List.length_drop, h.2]
  omega

theorem window_eq_iff {h h' : Hash} {offset width : Nat} (hfits : offset + width ≤ 32) :
    (h.1.drop offset).take width = (h'.1.drop offset).take width ↔
      ∀ i : Fin 32, offset ≤ i.1 → i.1 < offset + width → h.byte i = h'.byte i := by
  have hget : ∀ (g : Hash) (j : Nat) (hj : j < width),
      ((g.1.drop offset).take width)[j]? = some (g.byte ⟨offset + j, by omega⟩) := by
    intro g j hj
    rw [List.getElem?_take_of_lt hj, List.getElem?_drop]
    exact g.getElem?_byte ⟨offset + j, by omega⟩
  constructor
  · intro e i hlo hhi
    have hj : i.1 - offset < width := by omega
    have hi : (⟨offset + (i.1 - offset), by omega⟩ : Fin 32) = i := Fin.ext (Nat.add_sub_cancel' hlo)
    have := congrArg (fun bs => bs[i.1 - offset]?) e
    simpa only [hget _ _ hj, hi, Option.some.injEq] using this
  · intro hbytes
    apply List.ext_getElem?
    intro j
    by_cases hj : j < width
    · rw [hget h j hj, hget h' j hj, hbytes _ (Nat.le_add_right offset j) (Nat.add_lt_add_left hj offset)]
    · have hpast : ∀ g : Hash, ((g.1.drop offset).take width)[j]? = none := fun g =>
        List.getElem?_eq_none (by rw [g.length_window hfits]; omega)
      rw [hpast h, hpast h']

end Hash

namespace OutPoint

/-! ## The word of a hash -/

theorem toNat_hashWord (h : Hash) : (hashWord h).toNat = Bytes.ofLE ((h.1.drop 12).take 8) := by
  have hlt := Bytes.ofLE_lt ((h.1.drop 12).take 8)
  rw [h.length_window (by decide)] at hlt
  exact UInt64.toNat_ofNat_of_lt hlt

/-- Of the word's first two bytes the mask leaves the top bit. -/
theorem hashWord_div (h : Hash) :
    (hashWord h).toNat / 2 ^ 15 = (h.byte 13).toNat / 2 ^ 7 + 2 * Bytes.ofLE ((h.1.drop 14).take 6) := by
  have hbytes : (h.1.drop 12).take 8 = h.byte 12 :: h.byte 13 :: (h.1.drop 14).take 6 := by
    have hfirst : h.1.drop 12 = h.byte 12 :: h.1.drop 13 := h.drop_eq_cons 12
    have hsecond : h.1.drop 13 = h.byte 13 :: h.1.drop 14 := h.drop_eq_cons 13
    rw [hfirst, hsecond, List.take_succ_cons, List.take_succ_cons]
  have h12 := (h.byte 12).toNat_lt
  have h13 := (h.byte 13).toNat_lt
  rw [toNat_hashWord, hbytes, Bytes.ofLE, Bytes.ofLE]
  omega

/-! ## The checksum as a number -/

theorem toNat_and_indexMask (n : UInt64) : (n &&& indexMask).toNat = n.toNat % 2 ^ 15 := by
  rw [UInt64.toNat_and]
  exact Nat.and_two_pow_sub_one_eq_mod n.toNat 15

theorem toNat_and_not_indexMask (n : UInt64) : (n &&& ~~~indexMask).toNat = 2 ^ 15 * (n.toNat / 2 ^ 15) := by
  have hmask : (~~~indexMask).toNat = (2 ^ 49 - 1) * 2 ^ 15 := by decide
  rw [UInt64.toNat_and, hmask]
  apply Nat.eq_of_testBit_eq
  intro j
  rw [Nat.testBit_and, Nat.testBit_mul_two_pow, Nat.testBit_two_pow_sub_one, Nat.testBit_two_pow_mul,
    Nat.testBit_div_two_pow]
  by_cases hj : 15 ≤ j
  · have hplace : j - 15 + 15 = j := Nat.sub_add_cancel hj
    rw [hplace]
    by_cases hword : j < 64
    · have hkept : j - 15 < 49 := by omega
      simp [hj, hkept]
    · -- past the word neither the mask nor `n` has a bit
      have hsize : n.toNat < 2 ^ j :=
        Nat.lt_of_lt_of_le n.toNat_lt (Nat.pow_le_pow_right (by decide) (Nat.le_of_not_lt hword))
      simp [Nat.testBit_lt_two_pow hsize]
  · simp [hj]

theorem toNat_checksum (p : OutPoint) :
    p.checksum.toNat = 2 ^ 15 * ((hashWord p.hash).toNat / 2 ^ 15) + p.index.toNat % 2 ^ 15 := by
  have hlow : p.index.toNat % 2 ^ 15 < 2 ^ 15 := Nat.mod_lt _ (by decide)
  rw [checksum, UInt64.toNat_or, toNat_and_not_indexMask, toNat_and_indexMask, UInt32.toNat_toUInt64]
  exact (Nat.two_pow_add_eq_or_of_lt hlow _).symm

/-- Byte 13 of this hash is 0x0d, so its top bit is not set. -/
example : checksum ⟨⟨(List.range 32).map UInt8.ofNat, by decide⟩, 0x12345⟩ = 0x131211100f0e2345 := by decide

/-! ## Collisions -/

theorem testBit_seven_eq_iff {a b : UInt8} :
    a.toNat.testBit 7 = b.toNat.testBit 7 ↔ a.toNat / 2 ^ 7 = b.toNat / 2 ^ 7 := by
  have ha := a.toNat_lt
  have hb := b.toNat_lt
  rw [Nat.testBit_eq_decide_div_mod_eq, Nat.testBit_eq_decide_div_mod_eq, decide_eq_decide]
  omega

theorem checksum_eq_iff {p q : OutPoint} :
    p.checksum = q.checksum ↔
      p.index.toNat % 2 ^ 15 = q.index.toNat % 2 ^ 15 ∧
      (∀ i : Fin 32, 14 ≤ i → i ≤ 19 → p.hash.byte i = q.hash.byte i) ∧
      (p.hash.byte 13).toNat.testBit 7 = (q.hash.byte 13).toNat.testBit 7 := by
  have hupper : (∀ i : Fin 32, 14 ≤ i → i ≤ 19 → p.hash.byte i = q.hash.byte i) ↔
      Bytes.ofLE ((p.hash.1.drop 14).take 6) = Bytes.ofLE ((q.hash.1.drop 14).take 6) := by
    have hlen : ∀ h : Hash, ((h.1.drop 14).take 6).length = 6 := fun h => h.length_window (by decide)
    rw [Bytes.ofLE_inj ((hlen p.hash).trans (hlen q.hash).symm), Hash.window_eq_iff (by decide)]
    exact forall_congr' fun i => imp_congr_right fun _ => imp_congr_left Nat.lt_succ_iff.symm
  have hp := (p.hash.byte 13).toNat_lt
  have hq := (q.hash.byte 13).toNat_lt
  rw [hupper, testBit_seven_eq_iff, ← UInt64.toNat_inj, toNat_checksum, toNat_checksum, hashWord_div, hashWord_div]
  -- numbers of three digits, the lowest below 2^15 and the next one below 2
  omega

/-- The point whose hash is zeros around the eight bytes of `c`. -/
def ofChecksum (c : UInt64) : OutPoint :=
  ⟨⟨List.replicate 12 0 ++ Bytes.u64 c ++ List.replicate 12 0, by simp [Bytes.u64]⟩, UInt32.ofNat (c.toNat % 2 ^ 15)⟩

theorem hashWord_ofChecksum (c : UInt64) : hashWord (ofChecksum c).hash = c := by
  have hlen : (Bytes.u64 c).length = 8 := Bytes.length_toLE 8 c.toNat
  have hbytes : ((ofChecksum c).hash.1.drop 12).take 8 = Bytes.u64 c := by
    show ((List.replicate 12 0 ++ Bytes.u64 c ++ List.replicate 12 0).drop 12).take 8 = _
    rw [List.append_assoc, List.drop_left' List.length_replicate, List.take_left' hlen]
  rw [hashWord, hbytes]
  exact FixedBytes.toU64_u64 c hlen

theorem checksum_ofChecksum (c : UInt64) : (ofChecksum c).checksum = c := by
  have hindex : (ofChecksum c).index.toNat = c.toNat % 2 ^ 15 % 2 ^ 32 := UInt32.toNat_ofNat'
  apply UInt64.toNat_inj.mp
  rw [toNat_checksum, hashWord_ofChecksum, hindex]
  omega

/-- Points share a checksum exactly when their indexes agree modulo 2^15, their hashes in
    the bytes 14 to 19 and in the top bit of byte 13. Every word is the checksum of a point,
    and its low fifteen bits are those of the index, however large the index is. -/
theorem checksum_collisions :
    (∀ p q : OutPoint, p.checksum = q.checksum ↔
      p.index.toNat % 2 ^ 15 = q.index.toNat % 2 ^ 15 ∧
      (∀ i : Fin 32, 14 ≤ i → i ≤ 19 → p.hash.byte i = q.hash.byte i) ∧
      (p.hash.byte 13).toNat.testBit 7 = (q.hash.byte 13).toNat.testBit 7) ∧
    (∀ c : UInt64, ∃ p : OutPoint, p.checksum = c) ∧
    ∀ p : OutPoint, p.checksum.toNat % 2 ^ 15 = p.index.toNat % 2 ^ 15 := by
  refine ⟨fun p q => checksum_eq_iff, fun c => ⟨ofChecksum c, checksum_ofChecksum c⟩, fun p => ?_⟩
  rw [toNat_checksum, Nat.mul_add_mod, Nat.mod_mod]

end OutPoint

end ChainQuery
