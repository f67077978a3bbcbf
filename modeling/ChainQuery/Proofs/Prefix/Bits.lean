/-
  ChainQuery.Proofs.Prefix.Bits — a prefix bit by bit.

  The bits of a byte string are counted from the most significant bit of its first byte, and
  those past its end are zero. The blocks of a prefix have the bits of its data as far as its
  bit count goes, up to 256, and zeros after that; with their number known they are
  determined by these bits. So a prefix is a canonical form of what it asks for.

  The blocks are made in machine words: the number of bits that are kept, the number of
  blocks that hold them, and the bits of the last block that do not count, over which a mask
  is shifted into place. With every step checked (`Prefix.blocks?`), none of them leaves a
  word and the shift is by fewer than eight bits.

  Proved:
  - `bit_leadingBlocks`: by induction on the blocks, the bits they hold.
  - `ext_of_bit`: by induction on the bytes, bytes of the same number and bits are the same.
  - `leadingBlocks_succ`: whole bytes as they are, then the last one under its mask.
  - `blocks?_eq`: the checked steps all succeed and make the blocks.
  - `canonical_form`: what a prefix holds, when two are equal, and that one rebuilt from its
    blocks is the same.
-/

import ChainQuery.Proofs.Prefix

namespace ChainQuery

/-! ## The bits of bytes -/

namespace Bytes

/-- Bit `i` of a byte string, from the most significant one of the first byte on. -/
def bit (bs : Bytes) (i : Nat) : Bool := (bs.getD (i / 8) 0).toNat.testBit (7 - i % 8)

@[simp] theorem bit_nil (i : Nat) : bit [] i = false := by
  rw [bit, List.getD_nil]
  exact Nat.zero_testBit _

theorem bit_of_lt (bs : Bytes) {i : Nat} (h : i < 8) : bs.bit i = (bs.headD 0).toNat.testBit (7 - i) := by
  have hbyte : i / 8 = 0 := Nat.div_eq_of_lt h
  have hplace : i % 8 = i := Nat.mod_eq_of_lt h
  rw [bit, hbyte, hplace]
  cases bs with
  | nil => rfl
  | cons b bs => rfl

theorem bit_of_le (bs : Bytes) {i : Nat} (h : 8 ≤ i) : bs.bit i = bit bs.tail (i - 8) := by
  have hbyte : i / 8 = (i - 8) / 8 + 1 := by omega
  have hplace : i % 8 = (i - 8) % 8 := by omega
  rw [bit, bit, hbyte, hplace]
  cases bs with
  | nil => rfl
  | cons b bs => rfl

theorem bit_of_length_le {bs : Bytes} {i : Nat} (h : 8 * bs.length ≤ i) : bs.bit i = false := by
  have hpast : bs.length ≤ i / 8 := by omega
  rw [bit, List.getD_eq_getElem?_getD, List.getElem?_eq_none hpast]
  exact Nat.zero_testBit _

theorem byte_ext {a b : UInt8} (h : ∀ i < 8, a.toNat.testBit (7 - i) = b.toNat.testBit (7 - i)) : a = b := by
  apply UInt8.toNat_inj.mp
  apply Nat.eq_of_testBit_eq
  intro j
  by_cases hj : j < 8
  · have hplace : 7 - (7 - j) = j := by omega
    have := h (7 - j) (by omega)
    rwa [hplace] at this
  · have hpow : 2 ^ 8 ≤ 2 ^ j := Nat.pow_le_pow_right (by decide) (by omega)
    rw [Nat.testBit_lt_two_pow (Nat.lt_of_lt_of_le a.toNat_lt hpow),
      Nat.testBit_lt_two_pow (Nat.lt_of_lt_of_le b.toNat_lt hpow)]

/-- Byte strings of one length are told apart by a bit. -/
theorem ext_of_bit {xs ys : Bytes} (hlen : xs.length = ys.length) (h : ∀ i, xs.bit i = ys.bit i) : xs = ys := by
  induction xs generalizing ys with
  | nil => exact (List.length_eq_zero_iff.mp hlen.symm).symm
  | cons x xs ih =>
    cases ys with
    | nil => cases hlen
    | cons y ys =>
      have hhead : x = y := byte_ext fun i hi => by
        have := h i
        rwa [bit_of_lt _ hi, bit_of_lt _ hi] at this
      have htail : ∀ i, bit xs i = bit ys i := fun i => by
        have := h (i + 8)
        rwa [bit_of_le _ (Nat.le_add_left 8 i), bit_of_le _ (Nat.le_add_left 8 i), Nat.add_sub_cancel] at this
      rw [hhead, ih (Nat.succ.inj hlen) htail]

theorem testBit_highBits {n i : Nat} (hn : n ≤ 8) (hi : i < 8) :
    (highBits n).toNat.testBit (7 - i) = decide (i < n) := by
  have hall : ∀ n < 9, ∀ i < 8, (highBits n).toNat.testBit (7 - i) = decide (i < n) := by decide
  exact hall n (Nat.lt_succ_of_le hn) i hi

/-- The blocks hold the bits that count and nothing else. -/
theorem bit_leadingBlocks {k n : Nat} (h : n ≤ 8 * k) (data : Bytes) (i : Nat) :
    (leadingBlocks k n data).bit i = (decide (i < n) && data.bit i) := by
  induction k generalizing n data i with
  | zero =>
    obtain rfl := Nat.le_zero.mp h
    simp [leadingBlocks]
  | succ k ih =>
    rw [leadingBlocks]
    by_cases hi : i < 8
    · have hcounts : i < min n 8 ↔ i < n := by omega
      rw [bit_of_lt _ hi, List.headD_cons, UInt8.toNat_and, Nat.testBit_and, testBit_highBits (Nat.min_le_right n 8) hi,
        decide_eq_decide.mpr hcounts, bit_of_lt data hi, Bool.and_comm]
    · have hcounts : i - 8 < n - 8 ↔ i < n := by omega
      have hlater : 8 ≤ i := Nat.le_of_not_lt hi
      rw [bit_of_le _ hlater, List.tail_cons, ih (by omega), decide_eq_decide.mpr hcounts, bit_of_le data hlater]

theorem bit_leading (n : Nat) (data : Bytes) (i : Nat) : (leading n data).bit i = (decide (i < n) && data.bit i) :=
  bit_leadingBlocks (by omega) data i

theorem length_leading (n : Nat) (data : Bytes) : (leading n data).length = (n + 7) / 8 :=
  length_leadingBlocks _ n data

theorem leading_eq_iff {n : Nat} {xs ys : Bytes} : leading n xs = leading n ys ↔ ∀ i < n, xs.bit i = ys.bit i := by
  constructor
  · intro h i hi
    have := congrArg (bit · i) h
    simpa [bit_leading, hi] using this
  · intro h
    apply ext_of_bit
    · rw [length_leading, length_leading]
    · intro i
      rw [bit_leading, bit_leading]
      by_cases hi : i < n
      · rw [h i hi]
      · simp [hi]

end Bytes

namespace Prefix

theorem bit_blocks (bits : UInt64) (data : Bytes) (i : Nat) :
    (ofBytes bits data).blocks.bit i = (decide (i < min bits.toNat 256) && data.bit i) :=
  Bytes.bit_leading _ data i

/-- Prefixes are equal when they ask for the same bits. -/
theorem ofBytes_eq_iff {bits bits' : UInt64} {data data' : Bytes} :
    ofBytes bits data = ofBytes bits' data' ↔
      bits = bits' ∧ ∀ i < min bits.toNat 256, data.bit i = data'.bit i := by
  unfold ofBytes
  rw [Prefix.mk.injEq]
  constructor
  · intro ⟨hbits, hblocks⟩
    subst hbits
    exact ⟨rfl, Bytes.leading_eq_iff.mp hblocks⟩
  · intro ⟨hbits, hdata⟩
    subst hbits
    exact ⟨rfl, Bytes.leading_eq_iff.mpr hdata⟩

end Prefix

/-! ## The construction in machine words -/

namespace Checked

/-- `a + b`, if a word holds it. -/
def add? (a b : UInt64) : Option UInt64 := if a.toNat + b.toNat < UInt64.size then some (a + b) else none

def mul? (a b : UInt64) : Option UInt64 := if a.toNat * b.toNat < UInt64.size then some (a * b) else none

def sub? (a b : UInt64) : Option UInt64 := if b ≤ a then some (a - b) else none

/-- The quotient, and one more if something is left of `a`. -/
def divCeil? (a b : UInt64) : Option UInt64 :=
  if b = 0 then none else if a % b = 0 then some (a / b) else add? (a / b) 1

/-- A byte shifted by fewer places than it has. -/
def shiftLeft? (b : UInt8) (n : UInt64) : Option UInt8 := if n < 8 then some (b <<< n.toUInt8) else none

theorem divCeil?_eight (a : UInt64) : ∃ c, divCeil? a 8 = some c ∧ c.toNat = (a.toNat + 7) / 8 := by
  have hquot : (a / 8).toNat = a.toNat / 8 := UInt64.toNat_div a 8
  have hrem : (a % 8).toNat = a.toNat % 8 := UInt64.toNat_mod a 8
  have ha := a.toNat_lt
  unfold divCeil?
  rw [if_neg (by decide)]
  by_cases hzero : a % 8 = 0
  · rw [hzero] at hrem
    have hrem : a.toNat % 8 = 0 := hrem.symm
    exact ⟨a / 8, if_pos hzero, by omega⟩
  · have hrem : a.toNat % 8 ≠ 0 := fun h => hzero (UInt64.toNat_inj.mp (hrem.trans h))
    have hfits : (a / 8).toNat + (1 : UInt64).toNat < UInt64.size := by
      rw [hquot]
      show a.toNat / 8 + 1 < 2 ^ 64
      omega
    refine ⟨a / 8 + 1, by rw [if_neg hzero, add?, if_pos hfits], ?_⟩
    rw [UInt64.toNat_add, Nat.mod_eq_of_lt hfits, hquot]
    show a.toNat / 8 + 1 = _
    omega

theorem mul?_eq {a b : UInt64} (h : a.toNat * b.toNat < UInt64.size) :
    ∃ c, mul? a b = some c ∧ c.toNat = a.toNat * b.toNat := by
  refine ⟨a * b, if_pos h, ?_⟩
  rw [UInt64.toNat_mul]
  exact Nat.mod_eq_of_lt h

theorem sub?_eq {a b : UInt64} (h : b.toNat ≤ a.toNat) : ∃ c, sub? a b = some c ∧ c.toNat = a.toNat - b.toNat := by
  have hle : b ≤ a := UInt64.le_iff_toNat_le.mpr h
  exact ⟨a - b, if_pos hle, UInt64.toNat_sub_of_le a b hle⟩

/-- The mask whose low places are shifted in. -/
theorem shiftLeft?_ones {n : UInt64} (h : n.toNat < 8) : shiftLeft? 0xff n = some (Bytes.highBits (8 - n.toNat)) := by
  have hlt : n < 8 := UInt64.lt_iff_toNat_lt.mpr h
  have hall : ∀ m < 8, (0xff : UInt8) <<< UInt8.ofNat m = Bytes.highBits (8 - m) := by decide
  have hn : n.toUInt8 = UInt8.ofNat n.toNat := by
    apply UInt8.toNat_inj.mp
    simp
  rw [shiftLeft?, if_pos hlt, hn, hall n.toNat h]

end Checked

namespace Bytes

/-- The first `k` bytes, zeros where there are fewer. -/
def padded (k : Nat) (data : Bytes) : Bytes := (data ++ List.replicate k 0).take k

theorem padded_succ_eq_cons (k : Nat) (data : Bytes) : padded (k + 1) data = data.headD 0 :: padded k data.tail := by
  cases data with
  | nil => simp [padded, List.replicate_succ]
  | cons b data =>
    have hrep : (data ++ List.replicate (k + 1) 0).take k = (data ++ List.replicate k 0).take k := by
      rw [List.replicate_succ', ← List.append_assoc, List.take_append_of_le_length (by simp)]
    simp [padded, hrep]

theorem padded_succ (k : Nat) (data : Bytes) : padded (k + 1) data = padded k data ++ [data.getD k 0] := by
  induction k generalizing data with
  | zero =>
    rw [padded_succ_eq_cons]
    cases data <;> rfl
  | succ k ih =>
    have hlater : data.tail.getD k 0 = data.getD (k + 1) 0 := by cases data <;> rfl
    rw [padded_succ_eq_cons, ih, padded_succ_eq_cons k, List.cons_append, hlater]

/-- All blocks but the last are whole bytes; the last one keeps the bits that are left. -/
theorem leadingBlocks_succ {k n : Nat} (hlo : 8 * k < n) (hhi : n ≤ 8 * (k + 1)) (data : Bytes) :
    leadingBlocks (k + 1) n data = padded k data ++ [data.getD k 0 &&& highBits (n - 8 * k)] := by
  induction k generalizing n data with
  | zero =>
    have hmin : min n 8 = n - 8 * 0 := by omega
    rw [leadingBlocks, hmin]
    cases data <;> rfl
  | succ k ih =>
    have hmin : min n 8 = 8 := by omega
    have hwhole : ∀ b : UInt8, b &&& highBits 8 = b := fun b => UInt8.and_neg_one
    have hlater : data.tail.getD k 0 = data.getD (k + 1) 0 := by cases data <;> rfl
    have hleft : n - 8 - 8 * k = n - 8 * (k + 1) := by omega
    rw [leadingBlocks, hmin, hwhole, ih (by omega) (by omega), padded_succ_eq_cons, List.cons_append, hlater, hleft]

end Bytes

namespace Prefix

/-- The blocks that hold `stored` bits, made in words and bytes. There are none if a step
    leaves its word or would shift a whole byte away. -/
def masked? (stored : UInt64) (data : Bytes) : Option Bytes := do
  let count ← Checked.divCeil? stored 8
  let held := Bytes.padded count.toNat data
  let spare ← Checked.sub? (← Checked.mul? count 8) stored
  match held.getLast? with
  | none => return held
  | some last => return held.dropLast ++ [last &&& (← Checked.shiftLeft? 0xff spare)]

def blocks? (bits : UInt64) (data : Bytes) : Option Bytes := masked? (min bits 256) data

theorem masked?_eq {stored : UInt64} (h : stored.toNat ≤ 256) (data : Bytes) :
    masked? stored data = some (Bytes.leading stored.toNat data) := by
  obtain ⟨count, hcount, hblocks⟩ := Checked.divCeil?_eight stored
  have hfits : count.toNat * (8 : UInt64).toNat < UInt64.size := by
    show count.toNat * 8 < 2 ^ 64
    omega
  obtain ⟨whole, hwhole, hplaces⟩ := Checked.mul?_eq hfits
  have hplaces : whole.toNat = count.toNat * 8 := hplaces
  obtain ⟨spare, hspare, hleft⟩ := Checked.sub?_eq (a := whole) (b := stored) (by omega)
  unfold masked? Bytes.leading
  simp only [hcount, hwhole, hspare, Option.bind_eq_bind, Option.bind_some, ← hblocks]
  cases hk : count.toNat with
  | zero => rfl
  | succ k =>
    have hn : stored.toNat - 8 * k = 8 - spare.toNat := by omega
    rw [Bytes.padded_succ, List.getLast?_concat, List.dropLast_concat, Checked.shiftLeft?_ones (by omega),
      Bytes.leadingBlocks_succ (by omega) (by omega), hn]
    rfl

/-- Every step succeeds. -/
theorem blocks?_eq (bits : UInt64) (data : Bytes) : blocks? bits data = some (ofBytes bits data).blocks := by
  have hstored : (min bits 256).toNat = min bits.toNat 256 := by
    show (if bits ≤ 256 then bits else 256 : UInt64).toNat = _
    by_cases h : bits ≤ 256
    · have hle : bits.toNat ≤ 256 := UInt64.le_iff_toNat_le.mp h
      rw [if_pos h, Nat.min_eq_left hle]
    · have hlt : 256 < bits.toNat := UInt64.lt_iff_toNat_lt.mp (UInt64.not_le.mp h)
      rw [if_neg h, Nat.min_eq_right (Nat.le_of_lt hlt)]
      rfl
  have hsmall : (min bits 256).toNat ≤ 256 := by omega
  rw [blocks?, masked?_eq hsmall, hstored]
  rfl

/-- A prefix keeps its bit count and as many blocks as hold it, or a whole hash. Its bits are
    those of the data, and zero beyond the count or the data; so it is determined by the bits
    it asks for, and rebuilt from its own blocks it is the same. It is made without leaving a
    word. -/
theorem canonical_form :
    (∀ bits data, (ofBytes bits data).bits = bits ∧
      (ofBytes bits data).blocks.length = (min bits.toNat 256 + 7) / 8 ∧
      (∀ i, (ofBytes bits data).blocks.bit i = (decide (i < min bits.toNat 256) && data.bit i)) ∧
      (∀ i, 8 * data.length ≤ i → (ofBytes bits data).blocks.bit i = false) ∧
      ofBytes bits (ofBytes bits data).blocks = ofBytes bits data ∧
      blocks? bits data = some (ofBytes bits data).blocks) ∧
    ∀ bits bits' data data', ofBytes bits data = ofBytes bits' data' ↔
      bits = bits' ∧ ∀ i < min bits.toNat 256, data.bit i = data'.bit i := by
  constructor
  · intro bits data
    have hpast : ∀ i, 8 * data.length ≤ i → (ofBytes bits data).blocks.bit i = false := by
      intro i hi
      rw [bit_blocks, Bytes.bit_of_length_le hi, Bool.and_false]
    exact ⟨rfl, Bytes.length_leading _ data, bit_blocks bits data, hpast, ofBytes_blocks (ofBytes bits data),
      blocks?_eq bits data⟩
  · intro bits bits' data data'
    exact ofBytes_eq_iff

example : (ofBytes 12 [0xab, 0xcd, 0xef]).blocks = [0xab, 0xc0] := by decide

end Prefix

end ChainQuery
