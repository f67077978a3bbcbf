/-
  ChainQuery.Proofs.Address — addresses and their texts.

  An address is twenty-one bytes, and its text is the checked form of these. A checked
  text is that of one byte string, so an address has one text, versions and hashes that
  begin with zeros included, and a text is that of one address at most.

  Proved:
  - `ofText_eq_ok_iff`: a text is read as the address it is the text of, and as no other.
  - `address_text_unique`: the same in both directions, and for every other text the one
    error it is refused with: a byte that is no letter, fewer than four bytes, a checksum
    that is wrong, a length other than twenty-one, the first that applies.
-/

import ChainQuery.Address
import ChainQuery.Proofs.Text.Base58

namespace ChainQuery.Address

theorem ofBytes?_val {n : Nat} (bs : FixedBytes n) : FixedBytes.ofBytes? n bs.1 = some bs := dif_pos bs.2

theorem ofText_of_body {s : String} {version : UInt8} {hash : ShortHash}
    (h : Base58Check.decode Sha256.checksum s = .ok (version :: hash.1)) : ofText s = .ok ⟨version, hash⟩ := by
  unfold ofText
  rw [h]
  simp only [ofBytes?_val]

theorem ofText_of_length {s : String} {body : Bytes} (h : Base58Check.decode Sha256.checksum s = .ok body)
    (hlen : body.length ≠ 21) : ofText s = .error (.badLength body.length) := by
  unfold ofText
  rw [h]
  cases body with
  | nil => rfl
  | cons version bs =>
    have hbs : bs.length ≠ 20 := by simpa using hlen
    simp only [FixedBytes.ofBytes?, dif_neg hbs, List.length_cons]

theorem ofText_of_error {s : String} {e : Base58Error} (h : Base58Check.decode Sha256.checksum s = .error e) :
    ofText s = .error (.base58 e) := by
  unfold ofText
  rw [h]

/-- Twenty-one bytes are an address. -/
theorem exists_of_length {body : Bytes} (h : body.length = 21) : ∃ a : Address, a.version :: a.hash.1 = body := by
  cases body with
  | nil => cases h
  | cons version bs => exact ⟨⟨version, bs, by simpa using h⟩, rfl⟩

theorem ofText_eq_ok_iff {s : String} {a : Address} : ofText s = .ok a ↔ a.text = s := by
  have htext : a.text = s ↔ Base58Check.decode Sha256.checksum s = .ok (a.version :: a.hash.1) :=
    (Base58Check.decode_eq_ok_iff Sha256.checksum).symm
  rw [htext]
  constructor
  · intro h
    cases hd : Base58Check.decode Sha256.checksum s with
    | error e =>
      rw [ofText_of_error hd] at h
      cases h
    | ok body =>
      by_cases hlen : body.length = 21
      · obtain ⟨b, rfl⟩ := exists_of_length hlen
        rw [ofText_of_body hd] at h
        cases h
        rfl
      · rw [ofText_of_length hd hlen] at h
        cases h
  · intro h
    exact ofText_of_body h

/-- An address has one text, and every other text is refused for the first of the faults it
    has: a byte that is no letter; too few bytes for a checksum; bytes before the checksum
    that have another one; too few or too many of them. -/
theorem address_text_unique :
    (∀ a : Address, ofText a.text = .ok a) ∧
    (∀ s a, ofText s = .ok a → a.text = s) ∧
    (∀ s, (∃ b ∈ Text.utf8 s, ∀ c ∈ Base58.alphabet, b.toNat ≠ c.toNat) →
      ofText s = .error (.base58 .badCharacter)) ∧
    ∀ s, (∀ b ∈ Text.utf8 s, ∃ c ∈ Base58.alphabet, b.toNat = c.toNat) →
      ∃ bs, Base58.encode bs = s ∧ (∀ bs', Base58.encode bs' = s → bs' = bs) ∧
        (bs.length < 4 → ofText s = .error (.base58 .tooShort)) ∧
        (4 ≤ bs.length → bs.drop (bs.length - 4) ≠ (Sha256.checksum (bs.take (bs.length - 4))).1 →
          ofText s = .error (.base58 .badChecksum)) ∧
        (4 ≤ bs.length → bs.drop (bs.length - 4) = (Sha256.checksum (bs.take (bs.length - 4))).1 →
          (bs.length - 4 ≠ 21 → ofText s = .error (.badLength (bs.length - 4))) ∧
          (bs.length - 4 = 21 → ∃ a, ofText s = .ok a ∧ a.version :: a.hash.1 = bs.take 21)) := by
  refine ⟨fun a => ofText_eq_ok_iff.mpr rfl, fun s a => ofText_eq_ok_iff.mp, ?_, ?_⟩
  · intro s h
    exact ofText_of_error (Base58Check.decode_of_foreign Sha256.checksum h)
  · intro s h
    have hletters : ¬∃ b ∈ Text.utf8 s, Base58.Foreign b := by
      rintro ⟨b, hb, hf⟩
      obtain ⟨c, hc, he⟩ := h b hb
      exact hf c hc he
    obtain ⟨bs, hbs⟩ : ∃ bs, Base58.decode? s = some bs := by
      rw [← Option.isSome_iff_exists, Option.isSome_iff_ne_none]
      exact fun hnone => hletters (Base58.decode?_eq_none_iff.mp hnone)
    obtain rfl := Base58.decode?_eq_some_iff.mp hbs
    have hdecode := Base58Check.decode_of_encode Sha256.checksum bs
    refine ⟨bs, rfl, fun bs' => Base58.encode_inj, ?_, ?_, ?_⟩
    · intro hshort
      rw [if_pos hshort] at hdecode
      exact ofText_of_error hdecode
    · intro hlong hsum
      rw [if_neg (by omega), if_neg hsum] at hdecode
      exact ofText_of_error hdecode
    · intro hlong hsum
      rw [if_neg (by omega), if_pos hsum] at hdecode
      have hbody : (bs.take (bs.length - 4)).length = bs.length - 4 := by
        rw [List.length_take]
        omega
      constructor
      · intro hlen
        have := ofText_of_length hdecode (by rw [hbody]; exact hlen)
        rwa [hbody] at this
      · intro hlen
        rw [hlen] at hdecode hbody
        obtain ⟨a, ha⟩ := exists_of_length hbody
        rw [← ha] at hdecode
        exact ⟨a, ofText_of_body hdecode, ha⟩

/-- Each text has all the faults that are named after its own: the first is too short as well, the
    second too short for a checksum, the third has the wrong checksum of nothing, and the last the
    right one. -/
theorem faults_in_turn :
    ofText "0" = .error (.base58 .badCharacter) ∧ ofText "111" = .error (.base58 .tooShort) ∧
      ofText "1111" = .error (.base58 .badChecksum) ∧ ofText "3QJmnh" = .error (.badLength 0) := by
  have hletters : ∀ s : String, (Text.utf8 s).all (fun b => Base58.alphabet.any fun c => b.toNat = c.toNat) = true →
      ∀ b ∈ Text.utf8 s, ∃ c ∈ Base58.alphabet, b.toNat = c.toNat := by
    intro s hs b hb
    obtain ⟨c, hc, he⟩ := List.any_eq_true.mp (List.all_eq_true.mp hs b hb)
    exact ⟨c, hc, of_decide_eq_true he⟩
  obtain ⟨-, -, hforeign, hlettered⟩ := address_text_unique
  refine ⟨hforeign "0" ⟨48, by decide, fun c hc h => ?_⟩, ?_, ?_, ?_⟩
  · have hall : Base58.alphabet.all (fun c => (48 : UInt8).toNat ≠ c.toNat) = true := by decide
    exact of_decide_eq_true (List.all_eq_true.mp hall c hc) h
  · obtain ⟨bs, -, hbs, hshort, -⟩ := hlettered "111" (hletters _ (by decide))
    obtain rfl := hbs [0, 0, 0] (by decide +kernel)
    exact hshort (by decide)
  · obtain ⟨bs, -, hbs, -, hsum, -⟩ := hlettered "1111" (hletters _ (by decide))
    obtain rfl := hbs [0, 0, 0, 0] (by decide +kernel)
    exact hsum (by decide) (by decide +kernel)
  · obtain ⟨bs, -, hbs, -, -, hlen⟩ := hlettered "3QJmnh" (hletters _ (by decide))
    obtain rfl := hbs [0x5d, 0xf6, 0xe0, 0xe2] (by decide +kernel)
    exact (hlen (by decide) (by decide +kernel)).1 (by decide)

end ChainQuery.Address
