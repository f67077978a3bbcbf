/-
  ChainQuery.Proofs.Text.Hex — which texts are hexadecimal, and of which bytes.

  Digits are read from the UTF-8 bytes of a text. A byte that is a digit is below 128, so a
  text that is read has only ASCII characters, and its bytes are these characters one for one.
  Two of them are the digits of a byte exactly if in lower case they are the two that the byte
  is written with.

  Proved:
  - `decode_eq_ok_iff`: a text is read as the bytes that it is the text of in lower case.
  - `exists_decode_iff`: a text is read exactly if it is an even number of digits.
-/

import ChainQuery.Hex
import ChainQuery.Proofs.Except
import ChainQuery.Text.CodePoint

namespace ChainQuery

namespace Text

theorem utf8_of_lt {c : Char} (h : c.toNat < 128) : String.utf8EncodeChar c = [UInt8.ofNat c.toNat] := by
  have hle : c.val.toNat ≤ 0x7f := Nat.le_of_lt_succ h
  unfold String.utf8EncodeChar
  rw [if_pos hle]
  rfl

/-- Only ASCII characters have ASCII bytes. -/
theorem le_of_mem_utf8 {c : Char} (h : 128 ≤ c.toNat) {b : UInt8} (hb : b ∈ String.utf8EncodeChar c) :
    128 ≤ b.toNat := by
  have hlt : ¬ c.val.toNat ≤ 0x7f := by
    show ¬ c.toNat ≤ 0x7f
    omega
  unfold String.utf8EncodeChar at hb
  rw [if_neg hlt] at hb
  split at hb
  · simp only [List.mem_cons, List.not_mem_nil, or_false] at hb
    rcases hb with rfl | rfl <;> simp only [UInt8.toNat_ofNat'] <;> omega
  · split at hb
    · simp only [List.mem_cons, List.not_mem_nil, or_false] at hb
      rcases hb with rfl | rfl | rfl <;> simp only [UInt8.toNat_ofNat'] <;> omega
    · simp only [List.mem_cons, List.not_mem_nil, or_false] at hb
      rcases hb with rfl | rfl | rfl | rfl <;> simp only [UInt8.toNat_ofNat'] <;> omega

/-- The bytes of ASCII characters are their code points. -/
theorem utf8_ascii {cs : List Char} (h : ∀ c ∈ cs, c.toNat < 128) :
    cs.flatMap String.utf8EncodeChar = cs.map fun c => UInt8.ofNat c.toNat := by
  induction cs with
  | nil => rfl
  | cons c cs ih =>
    rw [List.flatMap_cons, utf8_of_lt (h c List.mem_cons_self), ih fun d hd => h d (List.mem_cons_of_mem _ hd)]
    rfl

theorem ascii_of_utf8 {cs : List Char} (h : ∀ b ∈ cs.flatMap String.utf8EncodeChar, b.toNat < 128) :
    ∀ c ∈ cs, c.toNat < 128 := by
  intro c hc
  refine Decidable.byContradiction fun hge => ?_
  obtain ⟨b, bs, hb⟩ := List.exists_cons_of_ne_nil (String.utf8EncodeChar_ne_nil (c := c))
  have hmem : b ∈ String.utf8EncodeChar c := by simp [hb]
  have hlow := h b (List.mem_flatMap.mpr ⟨c, hc, hmem⟩)
  have hhigh := le_of_mem_utf8 (Nat.le_of_not_lt hge) hmem
  omega

end Text

namespace Hex

/-! ## One digit -/

theorem value?_lt {b : UInt8} {n : Nat} (h : value? b = some n) : b.toNat < 128 ∧ n < 16 := by
  unfold value? at h
  simp only [UInt8.le_iff_toNat_le] at h
  split at h
  · next hb =>
    obtain ⟨-, hle⟩ : 48 ≤ b.toNat ∧ b.toNat ≤ 57 := hb
    obtain rfl := Option.some.inj h
    omega
  · split at h
    · next hb =>
      obtain ⟨-, hle⟩ : 97 ≤ b.toNat ∧ b.toNat ≤ 102 := hb
      obtain rfl := Option.some.inj h
      omega
    · split at h
      · next hb =>
        obtain ⟨-, hle⟩ : 65 ≤ b.toNat ∧ b.toNat ≤ 70 := hb
        obtain rfl := Option.some.inj h
        omega
      · cases h

theorem value?_iff_of_lt : ∀ m < 128, ∀ n < 16, value? (UInt8.ofNat m) = some n ↔ (Char.ofNat m).toLower = digit n := by
  decide +kernel

theorem isHexDigit_of_lt :
    ∀ m < 128, Text.isHexDigit (Char.ofNat m) = true ↔ ∃ n < 16, (Char.ofNat m).toLower = digit n := by
  decide +kernel

theorem lt_of_toLower {c : Char} {n : Nat} (hn : n < 16) (h : c.toLower = digit n) : c.toNat < 128 := by
  have hdigit : ∀ n < 16, (digit n).toNat < 128 := by decide
  have hlow := hdigit n hn
  rw [← h] at hlow
  unfold Char.toLower at hlow
  split at hlow
  · next hupper =>
    have hle : c.toNat ≤ 90 := hupper.2
    omega
  · exact hlow

theorem lt_of_isHexDigit {c : Char} (h : Text.isHexDigit c = true) : c.toNat < 128 := by
  unfold Text.isHexDigit Text.hexDigit? at h
  split at h
  · next hdigit =>
    have hle : 48 ≤ c.toNat ∧ c.toNat ≤ 57 := by simpa [Char.isDigit, UInt32.le_iff_toNat_le] using hdigit
    omega
  · split at h
    · next hletter =>
      have hle : c.toNat ≤ 102 := hletter.2
      omega
    · split at h
      · next hletter =>
        have hle : c.toNat ≤ 70 := hletter.2
        omega
      · cases h

/-- A byte of a text is read as the digit that the character is in lower case. -/
theorem value?_iff {c : Char} (hc : c.toNat < 128) {n : Nat} (hn : n < 16) :
    value? (UInt8.ofNat c.toNat) = some n ↔ c.toLower = digit n := by
  have h := value?_iff_of_lt c.toNat hc n hn
  rwa [Char.ofNat_toNat] at h

theorem isHexDigit_iff {c : Char} : Text.isHexDigit c = true ↔ ∃ n < 16, c.toLower = digit n := by
  by_cases hc : c.toNat < 128
  · have h := isHexDigit_of_lt c.toNat hc
    rwa [Char.ofNat_toNat] at h
  · refine iff_of_false (fun h => hc (lt_of_isHexDigit h)) ?_
    rintro ⟨n, hn, h⟩
    exact hc (lt_of_toLower hn h)

/-! ## Two digits a byte -/

theorem decodePairs_cons_eq_ok_iff {position : Nat} {hi lo : UInt8} {rest bs : Bytes} :
    decodePairs position (hi :: lo :: rest) = .ok bs ↔
      ∃ h l bs', value? hi = some h ∧ value? lo = some l ∧ decodePairs (position + 2) rest = .ok bs' ∧
        UInt8.ofNat (16 * h + l) :: bs' = bs := by
  rw [decodePairs]
  cases hhi : value? hi with
  | none => simp
  | some h =>
    cases hlo : value? lo with
    | none => simp
    | some l => simp [Except.map_eq_ok_iff]

theorem ascii_of_decodePairs : ∀ {position : Nat} {text bs : Bytes}, decodePairs position text = .ok bs →
    ∀ b ∈ text, b.toNat < 128
  | _, [], _, _ => fun _ h => absurd h List.not_mem_nil
  | _, [_], _, h => by cases h
  | _, hi :: lo :: rest, _, h => by
    obtain ⟨_, _, _, hhi, hlo, hrest, -⟩ := decodePairs_cons_eq_ok_iff.mp h
    intro b hb
    rcases List.mem_cons.mp hb with rfl | hb
    · exact (value?_lt hhi).1
    rcases List.mem_cons.mp hb with rfl | hb
    · exact (value?_lt hlo).1
    · exact ascii_of_decodePairs hrest b hb

/-- The lower-case digits of one byte, then those of the others. -/
theorem flatMap_digits_iff {hi lo : Char} {cs : List Char} {bs : Bytes} :
    hi :: lo :: cs = bs.flatMap digits ↔
      ∃ h l bs', h < 16 ∧ l < 16 ∧ hi = digit h ∧ lo = digit l ∧ cs = bs'.flatMap digits ∧
        UInt8.ofNat (16 * h + l) :: bs' = bs := by
  constructor
  · intro heq
    cases bs with
    | nil => cases heq
    | cons b bs =>
      have hb : b.toNat < 256 := b.toNat_lt
      obtain ⟨hhi, hlo, hcs⟩ : hi = digit (b.toNat / 16) ∧ lo = digit (b.toNat % 16) ∧ cs = bs.flatMap digits := by
        simpa [digits] using heq
      refine ⟨_, _, bs, by omega, by omega, hhi, hlo, hcs, ?_⟩
      rw [Nat.div_add_mod, UInt8.ofNat_toNat]
  · rintro ⟨h, l, bs', hh, hl, rfl, rfl, rfl, rfl⟩
    have hbyte : (UInt8.ofNat (16 * h + l)).toNat = 16 * h + l := UInt8.toNat_ofNat_of_lt (by show _ < 256; omega)
    have hhigh : (16 * h + l) / 16 = h := by omega
    have hlow : (16 * h + l) % 16 = l := by omega
    rw [List.flatMap_cons, digits, hbyte, hhigh, hlow]
    rfl

theorem decodePairs_ascii_iff : ∀ {position : Nat} {cs : List Char} {bs : Bytes}, (∀ c ∈ cs, c.toNat < 128) →
    (decodePairs position (cs.map fun c => UInt8.ofNat c.toNat) = .ok bs ↔ cs.map Char.toLower = bs.flatMap digits)
  | _, [], bs, _ => by
    cases bs <;> simp [decodePairs, digits]
  | _, [c], bs, _ => by
    cases bs <;> simp [decodePairs, digits]
  | position, hi :: lo :: cs, bs, h => by
    have hhi := h hi List.mem_cons_self
    have hlo := h lo (List.mem_cons_of_mem _ List.mem_cons_self)
    have ih {bs' : Bytes} := @decodePairs_ascii_iff (position + 2) cs bs' fun c hc =>
      h c (List.mem_cons_of_mem _ (List.mem_cons_of_mem _ hc))
    simp only [List.map_cons, decodePairs_cons_eq_ok_iff, flatMap_digits_iff, ih]
    constructor
    · rintro ⟨m, n, bs', hm, hn, hcs, hbs⟩
      have hm16 := (value?_lt hm).2
      have hn16 := (value?_lt hn).2
      exact ⟨m, n, bs', hm16, hn16, (value?_iff hhi hm16).mp hm, (value?_iff hlo hn16).mp hn, hcs, hbs⟩
    · rintro ⟨m, n, bs', hm16, hn16, hm, hn, hcs, hbs⟩
      exact ⟨m, n, bs', (value?_iff hhi hm16).mpr hm, (value?_iff hlo hn16).mpr hn, hcs, hbs⟩

/-! ## Texts -/

theorem even_of_decodePairs : ∀ {position : Nat} {text bs : Bytes}, decodePairs position text = .ok bs →
    text.length % 2 = 0
  | _, [], _, _ => rfl
  | _, [_], _, h => by cases h
  | _, _ :: _ :: rest, _, h => by
    obtain ⟨_, _, _, -, -, hrest, -⟩ := decodePairs_cons_eq_ok_iff.mp h
    have heven := even_of_decodePairs hrest
    simp only [List.length_cons]
    omega

theorem decode_eq_decodePairs {t : String} {bs : Bytes} :
    decode t = .ok bs ↔ decodePairs 0 (t.toList.flatMap String.utf8EncodeChar) = .ok bs := by
  unfold decode decodeUtf8 Text.utf8
  split
  · exact Iff.rfl
  · next hodd => exact iff_of_false nofun fun h => hodd (even_of_decodePairs h)

theorem toLower_eq_encode_iff {t : String} {bs : Bytes} :
    t.toLower = encode bs ↔ t.toList.map Char.toLower = bs.flatMap digits := by
  have hlower : t.toLower.toList = t.toList.map Char.toLower := String.toList_map
  rw [← String.toList_inj, hlower, encode, String.toList_ofList]

theorem encode_injective {bs cs : Bytes} (h : encode bs = encode cs) : bs = cs := by
  have hread := decode_encode bs
  rw [h, decode_encode] at hread
  exact (Except.ok.inj hread).symm

theorem digit_of_mem_digits {c : Char} {bs : Bytes} (h : c ∈ bs.flatMap digits) : ∃ n < 16, c = digit n := by
  obtain ⟨b, -, hc⟩ := List.mem_flatMap.mp h
  have hb : b.toNat < 256 := b.toNat_lt
  simp only [digits, List.mem_cons, List.not_mem_nil, or_false] at hc
  rcases hc with rfl | rfl
  · exact ⟨_, by omega, rfl⟩
  · exact ⟨_, by omega, rfl⟩

/-- A text is read as the bytes that it is the text of in lower case. -/
theorem decode_eq_ok_iff {t : String} {bs : Bytes} : decode t = .ok bs ↔ t.toLower = encode bs := by
  rw [decode_eq_decodePairs, toLower_eq_encode_iff]
  constructor
  · intro h
    have hascii := Text.ascii_of_utf8 (ascii_of_decodePairs h)
    rw [Text.utf8_ascii hascii] at h
    exact (decodePairs_ascii_iff hascii).mp h
  · intro h
    have hascii : ∀ c ∈ t.toList, c.toNat < 128 := by
      intro c hc
      have hmem : c.toLower ∈ bs.flatMap digits := h ▸ List.mem_map_of_mem hc
      obtain ⟨n, hn, hdigit⟩ := digit_of_mem_digits hmem
      exact lt_of_toLower hn hdigit
    rw [Text.utf8_ascii hascii]
    exact (decodePairs_ascii_iff hascii).mpr h

theorem exists_digits_iff : ∀ {cs : List Char},
    (∃ bs : Bytes, cs.map Char.toLower = bs.flatMap digits) ↔
      cs.length % 2 = 0 ∧ ∀ c ∈ cs, Text.isHexDigit c = true
  | [] => iff_of_true ⟨[], rfl⟩ ⟨rfl, fun _ h => absurd h List.not_mem_nil⟩
  | [c] => by
    refine iff_of_false ?_ fun h => absurd h.1 (by simp)
    rintro ⟨bs, h⟩
    cases bs <;> simp [digits] at h
  | hi :: lo :: cs => by
    have ih := @exists_digits_iff cs
    simp only [List.map_cons, flatMap_digits_iff, List.forall_mem_cons, isHexDigit_iff, List.length_cons]
    simp only [isHexDigit_iff] at ih
    have heven : (cs.length + 1 + 1) % 2 = cs.length % 2 := by omega
    rw [heven]
    constructor
    · rintro ⟨_, m, n, bs, hm, hn, hhi, hlo, hcs, -⟩
      obtain ⟨hlen, hall⟩ := ih.mp ⟨bs, hcs⟩
      exact ⟨hlen, ⟨m, hm, hhi⟩, ⟨n, hn, hlo⟩, hall⟩
    · rintro ⟨hlen, ⟨m, hm, hhi⟩, ⟨n, hn, hlo⟩, hall⟩
      obtain ⟨bs, hcs⟩ := ih.mpr ⟨hlen, hall⟩
      exact ⟨_, m, n, bs, hm, hn, hhi, hlo, hcs, rfl⟩

/-- A text is read exactly if it is an even number of digits, in either case. -/
theorem exists_decode_iff {t : String} :
    (∃ bs, decode t = .ok bs) ↔ t.length % 2 = 0 ∧ ∀ c ∈ t.toList, Text.isHexDigit c = true := by
  simp only [decode_eq_ok_iff, toLower_eq_encode_iff]
  exact exists_digits_iff

end Hex

end ChainQuery
