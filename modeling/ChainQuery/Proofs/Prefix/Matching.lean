/-
  ChainQuery.Proofs.Prefix.Matching — what a prefix matches.

  A prefix matches data that has as many bits as it asks for, and the same ones. The match
  is made by taking the same prefix of the data and comparing, so it says that their bits
  agree as far as they are kept (`matchesData_ofBytes_iff`). An update carries the first 32
  bits of a stealth output, which a subscription of more bits never matches; and a server
  that reads a subscription's bit count and blocks as a prefix has the prefix that was sent.

  Proved:
  - `matchesData_iff`: data is matched by its bits.
  - `matchesData_of_le`: a shorter prefix of the same data matches more.
  - `StealthUpdate.isCoveredBy_iff`: which subscriptions cover an update.
  - `payload_of_encode`: what is sent for a prefix is read back as that prefix.
  - `matching_is_bitwise`: the above for what is subscribed, renewed and pushed.
-/

import ChainQuery.Proofs.Notification
import ChainQuery.Proofs.Prefix.Bits
import ChainQuery.Proofs.Request.Server
import ChainQuery.Reply

namespace ChainQuery

namespace Prefix

theorem matchesData_ofBytes_iff {bits : UInt64} {data x : Bytes} :
    (ofBytes bits data).matchesData x = true ↔
      bits.toNat ≤ 8 * x.length ∧ ∀ i < min bits.toNat 256, x.bit i = data.bit i := by
  have hbits : (ofBytes bits data).bits = bits := rfl
  rw [matchesData, hbits, Bool.and_eq_true, decide_eq_true_iff, decide_eq_true_iff, ofBytes_eq_iff]
  exact and_congr_right fun _ => and_iff_right rfl

theorem matchesData_iff {p : Prefix} {x : Bytes} :
    p.matchesData x = true ↔ p.bits.toNat ≤ 8 * x.length ∧ ∀ i < min p.bits.toNat 256, x.bit i = p.blocks.bit i := by
  have h : (ofBytes p.bits p.blocks).matchesData x = true ↔ _ := matchesData_ofBytes_iff
  rwa [ofBytes_blocks] at h

theorem matchesData_of_le {m n : UInt64} (h : m ≤ n) {data x : Bytes} (hx : (ofBytes n data).matchesData x = true) :
    (ofBytes m data).matchesData x = true := by
  have hle : m.toNat ≤ n.toNat := UInt64.le_iff_toNat_le.mp h
  obtain ⟨hlong, hagree⟩ := matchesData_ofBytes_iff.mp hx
  refine matchesData_ofBytes_iff.mpr ⟨by omega, ?_⟩
  intro i hi
  exact hagree i (by omega)

end Prefix

/-! ## Updates and subscriptions -/

theorem StealthUpdate.isCoveredBy_iff {u : StealthUpdate} {s : Prefix} :
    u.isCoveredBy s = true ↔ s.bits.toNat ≤ 32 ∧ ∀ i < s.bits.toNat, u.leading.1.bit i = s.blocks.bit i := by
  unfold isCoveredBy
  rw [Prefix.matchesData_iff, u.leading.2]
  constructor
  · intro ⟨hbits, hagree⟩
    refine ⟨hbits, ?_⟩
    intro i hi
    exact hagree i (by omega)
  · intro ⟨hbits, hagree⟩
    refine ⟨hbits, ?_⟩
    intro i hi
    exact hagree i (by omega)

theorem Request.payload_of_encode {kind : SubscribeKind} {c : Command} {p : Prefix} {r : Request}
    (h : p.encode.map (fun bs => (⟨c, kind.code :: bs⟩ : Request)) = .ok r) :
    ∃ bits blocks, r.payload = kind.code :: bits :: blocks ∧ Prefix.ofBytes bits.toUInt64 blocks = p := by
  obtain ⟨bs, hencode, rfl⟩ := Except.map_eq_ok_iff.mp h
  obtain ⟨-, rfl⟩ := Prefix.encode_eq_ok_iff.mp hencode
  exact ⟨p.bits.toUInt8, p.blocks, rfl, Prefix.ofBytes_of_encode hencode⟩

namespace Prefix

/-- Data is matched by a prefix exactly when it has as many bits and the same ones, so what a
    prefix matches each shorter one does. An update is matched by the bits of its first four
    bytes, and a server that rebuilds a subscription's prefix matches what the subscriber does. -/
theorem matching_is_bitwise :
    (∀ bits data x, (ofBytes bits data).matchesData x = true ↔
      bits.toNat ≤ 8 * x.length ∧ ∀ i < min bits.toNat 256, x.bit i = data.bit i) ∧
    (∀ m n data x, m ≤ n → (ofBytes n data).matchesData x = true → (ofBytes m data).matchesData x = true) ∧
    (∀ payload u, (Reply.decode .addressStealthUpdate payload).value = .ok (.notification (.stealth u)) →
      ∀ s : Prefix, u.isCoveredBy s = true ↔
        s.bits.toNat ≤ 32 ∧ ∀ i < s.bits.toNat, Bytes.bit (payload.take 4) i = s.blocks.bit i) ∧
    ∀ kind p r, Request.subscribe kind p = .ok r ∨ Request.renew kind p = .ok r →
      ∃ bits blocks, r.payload = kind.code :: bits :: blocks ∧
        ∀ x, (ofBytes bits.toUInt64 blocks).matchesData x = p.matchesData x := by
  refine ⟨?_, ?_, ?_, ?_⟩
  · intro bits data x
    exact matchesData_ofBytes_iff
  · intro m n data x hle hx
    exact matchesData_of_le hle hx
  · intro payload u hu s
    obtain ⟨u', hread, hsame⟩ := Except.map_eq_ok_iff.mp hu
    cases hsame
    rw [StealthUpdate.isCoveredBy_iff, StealthUpdate.leading_of_read hread]
  · intro kind p r hr
    have hsent : ∃ bits blocks, r.payload = kind.code :: bits :: blocks ∧ ofBytes bits.toUInt64 blocks = p := by
      rcases hr with hr | hr
      · rw [Request.subscribe_eq] at hr
        exact Request.payload_of_encode hr
      · rw [Request.renew_eq] at hr
        exact Request.payload_of_encode hr
    obtain ⟨bits, blocks, hpayload, hback⟩ := hsent
    refine ⟨bits, blocks, hpayload, ?_⟩
    intro x
    rw [hback]

/-- The update of a stealth output that starts with the bytes de ad be ef. -/
def pushedUpdate : Bytes := [0xde, 0xad, 0xbe, 0xef, 1, 0, 0, 0] ++ List.replicate 32 0x5a

/-- Twelve of its bits are subscribed to. The update is covered, as it is by the first eight of
    them, and the server has the same subscription. -/
theorem a_subscription_of_twelve_bits :
    let p := ofBytes 12 [0xde, 0xa0]
    let u : StealthUpdate := ⟨⟨[0xde, 0xad, 0xbe, 0xef], rfl⟩, 1, ⟨List.replicate 32 0x5a, rfl⟩⟩
    (Reply.decode .addressStealthUpdate pushedUpdate).value = .ok (.notification (.stealth u)) ∧
      u.isCoveredBy p = true ∧ u.isCoveredBy (ofBytes 8 [0xde, 0xa0]) = true ∧
      ∃ bits blocks, [1, 12, 0xde, 0xa0] = SubscribeKind.stealth.code :: bits :: blocks ∧
        ∀ x, (ofBytes bits.toUInt64 blocks).matchesData x = p.matchesData x := by
  intro p u
  have hread : (Reply.decode .addressStealthUpdate pushedUpdate).value = .ok (.notification (.stealth u)) := rfl
  have hsent : Request.subscribe .stealth p = .ok ⟨.addressSubscribe, [1, 12, 0xde, 0xa0]⟩ := rfl
  obtain ⟨-, hshorter, hpushed, hserver⟩ := matching_is_bitwise
  have hcovered : u.isCoveredBy p = true := (hpushed pushedUpdate u hread p).mpr ⟨by decide, by decide⟩
  exact ⟨hread, hcovered, hshorter 8 12 [0xde, 0xa0] u.leading.1 (by decide) hcovered,
    hserver .stealth p _ (Or.inl hsent)⟩

end Prefix

end ChainQuery
