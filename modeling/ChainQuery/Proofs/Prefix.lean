/-
  ChainQuery.Proofs.Prefix — the written form of a prefix.

  A prefix of at most 255 bits is written as its bit count and its blocks, as many as hold
  the bits; a longer one is refused (`encode_eq_ok_iff`, `encode_eq_error_iff`).

  Proved:
  - `ofBytes_of_encode`: a prefix is what its bit count and blocks are read as.
-/

import ChainQuery.Prefix
import ChainQuery.Proofs.Consensus.Decodes

namespace ChainQuery

theorem Bytes.length_leadingBlocks (k n : Nat) (data : Bytes) : (Bytes.leadingBlocks k n data).length = k := by
  induction k generalizing n data with
  | zero => rfl
  | succ k ih => rw [Bytes.leadingBlocks, List.length_cons, ih]

namespace Prefix

theorem length_blocks {p : Prefix} (h : p.bits ≤ 255) : p.blocks.length = (p.bits.toNat + 7) / 8 := by
  have hle : p.bits.toNat ≤ 255 := UInt64.le_iff_toNat_le.mp h
  have hmin : min p.bits.toNat 256 = p.bits.toNat := by omega
  rw [← p.trimmed, Bytes.leading, Bytes.length_leadingBlocks, hmin]

theorem ofBytes_blocks (p : Prefix) : ofBytes p.bits p.blocks = p := by
  obtain ⟨bits, blocks, trimmed⟩ := p
  simp only [ofBytes, trimmed]

theorem encode_eq_ok_iff {p : Prefix} {bs : Bytes} :
    p.encode = .ok bs ↔ p.bits ≤ 255 ∧ bs = p.bits.toUInt8 :: p.blocks := by
  unfold encode
  by_cases h : p.bits ≤ 255
  · rw [if_pos h, Except.ok.injEq, eq_comm]
    exact (and_iff_right h).symm
  · rw [if_neg h]
    constructor
    · intro he
      cases he
    · rintro ⟨hle, -⟩
      exact absurd hle h

theorem encode_eq_error_iff {p : Prefix} {e : PrefixTooLong} :
    p.encode = .error e ↔ 255 < p.bits ∧ e = ⟨p.bits⟩ := by
  unfold encode
  by_cases h : p.bits ≤ 255
  · rw [if_pos h]
    constructor
    · intro he
      cases he
    · rintro ⟨hlt, -⟩
      exact absurd h (UInt64.not_le.mpr hlt)
  · rw [if_neg h, Except.error.injEq, eq_comm]
    exact (and_iff_right (UInt64.not_le.mp h)).symm

theorem toUInt64_bits {p : Prefix} (h : p.bits ≤ 255) : p.bits.toUInt8.toUInt64 = p.bits :=
  CompactSize.toUInt64_toUInt8 (Nat.lt_succ_of_le (UInt64.le_iff_toNat_le.mp h))

/-- A prefix is rebuilt from its bit count and its blocks. -/
theorem ofBytes_of_encode {p : Prefix} {bits : UInt8} {blocks : Bytes} (h : p.encode = .ok (bits :: blocks)) :
    ofBytes bits.toUInt64 blocks = p := by
  obtain ⟨hle, heq⟩ := encode_eq_ok_iff.mp h
  obtain ⟨rfl, rfl⟩ := List.cons.inj heq
  rw [toUInt64_bits hle, ofBytes_blocks]

end Prefix

end ChainQuery
