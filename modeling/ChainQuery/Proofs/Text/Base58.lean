/-
  ChainQuery.Proofs.Text.Base58 — bytes and their text in base fifty-eight.

  A list of digits is its leading zeros and a number without them. Changing the base
  keeps the zeros one for one and the number as it is, so changing it back gives the
  digits again, however many zeros stand in front (`convert_convert`). The letters of
  the alphabet are told apart by their places, so bytes have one text, and a text over
  the alphabet is that of one byte string.

  Proved:
  - `decode?_eq_some_iff`: a text is read as the bytes it is the text of, and as no others.
  - `decode?_eq_none_iff`: a text is refused exactly if one of its bytes is no letter.
  - `Base58Check.decode_eq_ok_iff`: the same of the form with a checksum, whatever the
    checksum; `Base58Check.decode_of_encode` says what is wrong with any other text.
-/

import ChainQuery.Proofs.Text.Hex
import ChainQuery.Text.Base58
import Mathlib.Data.List.TakeWhile
import Mathlib.Data.Nat.Digits.Lemmas

namespace ChainQuery

namespace Base58

/-! ## Digits and numbers -/

theorem digits_eq {base : Nat} (hb : 2 ≤ base) (n : Nat) : digits base n = (Nat.digits base n).reverse := by
  induction n using Nat.strong_induction_on with
  | _ n ih =>
    rw [digits]
    by_cases hn : n = 0
    · simp [hn]
    · have hdef : Nat.digits base n = n % base :: Nat.digits base (n / base) :=
        Nat.digits_def' (by omega) (by omega)
      rw [dif_neg (by omega), ih (n / base) (Nat.div_lt_self (by omega) (by omega)), hdef, List.reverse_cons]

theorem value_append (base : Nat) (ds : List Nat) (d : Nat) : value base (ds ++ [d]) = base * value base ds + d := by
  simp [value]

theorem value_eq (base : Nat) (ds : List Nat) : value base ds = Nat.ofDigits base ds.reverse := by
  induction ds using List.reverseRecOn with
  | nil => rfl
  | append_singleton ds d ih =>
    rw [value_append, ih, List.reverse_append, List.reverse_singleton, List.singleton_append, Nat.ofDigits_cons]
    simp [Nat.add_comm]

theorem value_digits {base : Nat} (hb : 2 ≤ base) (n : Nat) : value base (digits base n) = n := by
  rw [value_eq, digits_eq hb, List.reverse_reverse, Nat.ofDigits_digits]

theorem digits_value {base : Nat} (hb : 2 ≤ base) {ds : List Nat} (hlt : ∀ d ∈ ds, d < base)
    (hhead : ds.head? ≠ some 0) : digits base (value base ds) = ds := by
  have hlast : ∀ h : ds.reverse ≠ [], ds.reverse.getLast h ≠ 0 := by
    intro h h0
    rw [List.getLast_reverse] at h0
    exact hhead (by rw [← h0, List.head?_eq_some_head])
  rw [value_eq, digits_eq hb,
    Nat.digits_ofDigits base (by omega) ds.reverse (fun d hd => hlt d (List.mem_reverse.mp hd)) hlast,
    List.reverse_reverse]

theorem head?_digits {base : Nat} (hb : 2 ≤ base) (n : Nat) : (digits base n).head? ≠ some 0 := by
  rw [digits_eq hb, List.head?_reverse]
  by_cases hn : n = 0
  · simp [hn]
  · intro h
    have hne : Nat.digits base n ≠ [] := Nat.digits_ne_nil_iff_ne_zero.mpr hn
    rw [List.getLast?_eq_some_getLast hne, Option.some.injEq] at h
    exact Nat.getLast_digit_ne_zero base hn h

theorem lt_of_mem_digits {base n d : Nat} (hb : 2 ≤ base) (h : d ∈ digits base n) : d < base := by
  rw [digits_eq hb, List.mem_reverse] at h
  exact Nat.digits_lt_base (by omega) h

/-! ## Another base -/

/-- Zeros in front do not count. -/
theorem value_zeros (base : Nat) {zs : List Nat} (hz : ∀ z ∈ zs, z = 0) (ds : List Nat) :
    value base (zs ++ ds) = value base ds := by
  induction zs with
  | nil => rfl
  | cons z zs ih =>
    rw [List.cons_append, hz z List.mem_cons_self]
    exact ih fun x hx => hz x (List.mem_cons_of_mem _ hx)

theorem zero_of_mem_takeWhile (ds : List Nat) : ∀ z ∈ ds.takeWhile (· = 0), z = 0 := by
  intro z hz
  simpa using List.mem_takeWhile_imp hz

theorem takeWhile_of_head? {ds : List Nat} (h : ds.head? ≠ some 0) : ds.takeWhile (· = 0) = [] := by
  cases ds with
  | nil => rfl
  | cons d ds =>
    have hd : d ≠ 0 := by simpa using h
    simp [hd]

theorem head?_dropWhile (ds : List Nat) : (ds.dropWhile (· = 0)).head? ≠ some 0 := by
  intro h
  have := List.head?_dropWhile_not (· = 0) ds
  rw [h] at this
  simp at this

theorem lt_of_mem_convert {source target : Nat} (ht : 2 ≤ target) {ds : List Nat} {d : Nat}
    (h : d ∈ convert source target ds) : d < target := by
  rcases List.mem_append.mp h with h | h
  · rw [zero_of_mem_takeWhile ds d h]
    omega
  · exact lt_of_mem_digits ht h

theorem convert_convert {source target : Nat} (hs : 2 ≤ source) (ht : 2 ≤ target) {ds : List Nat}
    (hlt : ∀ d ∈ ds, d < source) : convert target source (convert source target ds) = ds := by
  have hrest : ∀ d ∈ ds.dropWhile (· = 0), d < source := fun d hd => hlt d ((List.dropWhile_sublist _).subset hd)
  have hvalue : value source ds = value source (ds.dropWhile (· = 0)) := by
    have := value_zeros source (zero_of_mem_takeWhile ds) (ds.dropWhile (· = 0))
    rwa [List.takeWhile_append_dropWhile] at this
  have hzeros : (convert source target ds).takeWhile (· = 0) = ds.takeWhile (· = 0) := by
    rw [convert, List.takeWhile_append_of_pos (by simpa using zero_of_mem_takeWhile ds),
      takeWhile_of_head? (head?_digits ht _), List.append_nil]
  have hnumber : value target (convert source target ds) = value source ds := by
    rw [convert, value_zeros target (zero_of_mem_takeWhile ds), value_digits ht]
  rw [convert, hzeros, hnumber, hvalue, digits_value hs hrest (head?_dropWhile ds), List.takeWhile_append_dropWhile]

/-! ## Letters -/

def letter (d : Nat) : Char := alphabet.getD d '1'

/-- A letter is found at its own place, and is one ASCII byte. -/
theorem idxOf?_letter {d : Nat} (h : d < 58) : alphabet.idxOf? (letter d) = some d := by
  have hall : ∀ e : Fin 58, alphabet.idxOf? (letter e.1) = some e.1 := by decide
  exact hall ⟨d, h⟩

theorem letter_of_idxOf? {c : Char} {d : Nat} (h : alphabet.idxOf? c = some d) : d < 58 ∧ letter d = c := by
  obtain ⟨hlt, hc, -⟩ := List.idxOf?_eq_some_iff.mp h
  refine ⟨hlt, ?_⟩
  rw [letter, List.getD_eq_getElem?_getD, List.getElem?_eq_getElem hlt]
  exact hc

theorem mapM_letter {ds : List Nat} (h : ∀ d ∈ ds, d < 58) : (ds.map letter).mapM (alphabet.idxOf? ·) = some ds := by
  induction ds with
  | nil => rfl
  | cons d ds ih =>
    rw [List.map_cons, List.mapM_cons, idxOf?_letter (h d List.mem_cons_self),
      ih fun x hx => h x (List.mem_cons_of_mem _ hx)]
    rfl

theorem letter_of_mapM {cs : List Char} {ds : List Nat} (h : cs.mapM (alphabet.idxOf? ·) = some ds) :
    (∀ d ∈ ds, d < 58) ∧ ds.map letter = cs := by
  induction cs generalizing ds with
  | nil =>
    cases h
    exact ⟨by simp, rfl⟩
  | cons c cs ih =>
    rw [List.mapM_cons] at h
    simp only [Option.bind_eq_bind, Option.bind_eq_some_iff, Option.pure_def, Option.some.injEq] at h
    obtain ⟨d, hd, ds', hds, rfl⟩ := h
    obtain ⟨hlt, hc⟩ := letter_of_idxOf? hd
    obtain ⟨hlts, hcs⟩ := ih hds
    refine ⟨?_, by rw [List.map_cons, hc, hcs]⟩
    intro x hx
    rcases List.mem_cons.mp hx with rfl | hx
    · exact hlt
    · exact hlts x hx

theorem mapM_eq_none_iff {cs : List Char} : cs.mapM (alphabet.idxOf? ·) = none ↔ ∃ c ∈ cs, c ∉ alphabet := by
  induction cs with
  | nil => simp
  | cons c cs ih =>
    rw [List.mapM_cons]
    cases hc : alphabet.idxOf? c with
    | none =>
      refine iff_of_true rfl ⟨c, List.mem_cons_self, ?_⟩
      exact List.idxOf?_eq_none_iff.mp hc
    | some d =>
      have hmem : c ∈ alphabet := by
        rw [← List.isSome_idxOf?, hc]
        rfl
      cases hcs : cs.mapM (alphabet.idxOf? ·) with
      | none => simpa [hmem] using ih.mp hcs
      | some ds =>
        have : ¬∃ c ∈ cs, c ∉ alphabet := fun h => by simp [ih.mpr h] at hcs
        simpa [hmem] using this

/-! ## Texts -/

theorem encode_eq (bs : Bytes) : encode bs = String.ofList ((convert 256 58 (bs.map UInt8.toNat)).map letter) := rfl

theorem map_toNat_ofNat {ds : List Nat} (h : ∀ d ∈ ds, d < 256) : (ds.map UInt8.ofNat).map UInt8.toNat = ds := by
  rw [List.map_map]
  refine (List.map_congr_left fun d hd => ?_).trans (List.map_id _)
  exact UInt8.toNat_ofNat_of_lt (h d hd)

/-- A text is read as the bytes whose text it is. -/
theorem decode?_eq_some_iff {s : String} {bs : Bytes} : decode? s = some bs ↔ encode bs = s := by
  constructor
  · intro h
    obtain ⟨ds, hds, rfl⟩ := Option.map_eq_some_iff.mp h
    obtain ⟨hlt, hletters⟩ := letter_of_mapM hds
    rw [encode_eq, map_toNat_ofNat fun d hd => lt_of_mem_convert (by omega) hd,
      convert_convert (by omega) (by omega) hlt, hletters, String.ofList_toList]
  · intro h
    have hbytes : ∀ d ∈ bs.map UInt8.toNat, d < 256 := by
      intro d hd
      obtain ⟨b, -, rfl⟩ := List.mem_map.mp hd
      exact b.toNat_lt
    rw [← h, encode_eq, decode?, String.toList_ofList, mapM_letter fun d hd => lt_of_mem_convert (by omega) hd,
      Option.map_some, convert_convert (by omega) (by omega) hbytes, List.map_map]
    refine congrArg some ((List.map_congr_left fun b _ => ?_).trans (List.map_id _))
    exact UInt8.ofNat_toNat

theorem decode?_encode (bs : Bytes) : decode? (encode bs) = some bs := decode?_eq_some_iff.mpr rfl

/-- Bytes with the same text are the same. -/
theorem encode_inj {bs bs' : Bytes} (h : encode bs' = encode bs) : bs' = bs := by
  have := decode?_eq_some_iff.mpr h
  rw [decode?_encode] at this
  exact (Option.some.inj this).symm

theorem isLetter_encode (bs : Bytes) : ∀ c ∈ (encode bs).toList, c ∈ alphabet := by
  intro c hc
  by_contra h
  have hnone : decode? (encode bs) = none := by
    rw [decode?, mapM_eq_none_iff.mpr ⟨c, hc, h⟩]
    rfl
  rw [decode?_encode] at hnone
  cases hnone

/-! ## Bytes outside the alphabet -/

theorem lt_of_mem_alphabet {c : Char} (h : c ∈ alphabet) : c.toNat < 128 := by
  have hall : alphabet.all (fun c => c.toNat < 128) = true := by decide
  exact of_decide_eq_true (List.all_eq_true.mp hall c h)

/-- The byte is none of the letters. -/
def Foreign (b : UInt8) : Prop := ∀ c ∈ alphabet, b.toNat ≠ c.toNat

theorem foreign_iff {c : Char} : (∃ b ∈ String.utf8EncodeChar c, Foreign b) ↔ c ∉ alphabet := by
  by_cases hc : c.toNat < 128
  · have hbyte : (UInt8.ofNat c.toNat).toNat = c.toNat := UInt8.toNat_ofNat_of_lt (by show c.toNat < 256; omega)
    rw [Text.utf8_of_lt hc]
    simp only [List.mem_singleton, exists_eq_left, Foreign, hbyte]
    constructor
    · intro h hmem
      exact h c hmem rfl
    · intro h x hx he
      exact h (Char.toNat_inj.mp he ▸ hx)
  · have hout : c ∉ alphabet := fun h => hc (lt_of_mem_alphabet h)
    refine iff_of_true ?_ hout
    obtain ⟨b, bs, hb⟩ := List.exists_cons_of_ne_nil (String.utf8EncodeChar_ne_nil (c := c))
    have hmem : b ∈ String.utf8EncodeChar c := by simp [hb]
    refine ⟨b, hmem, fun x hx he => ?_⟩
    have hhigh := Text.le_of_mem_utf8 (by omega) hmem
    have := lt_of_mem_alphabet hx
    omega

theorem decode?_eq_none_iff {s : String} : decode? s = none ↔ ∃ b ∈ Text.utf8 s, Foreign b := by
  rw [decode?, Option.map_eq_none_iff, mapM_eq_none_iff]
  constructor
  · rintro ⟨c, hc, h⟩
    obtain ⟨b, hb, hf⟩ := foreign_iff.mpr h
    exact ⟨b, List.mem_flatMap.mpr ⟨c, hc, hb⟩, hf⟩
  · rintro ⟨b, hb, hf⟩
    obtain ⟨c, hc, hbc⟩ := List.mem_flatMap.mp hb
    exact ⟨c, hc, foreign_iff.mp ⟨b, hbc, hf⟩⟩

end Base58

/-! ## The checked form -/

namespace Base58Check

variable (checksum : Bytes → FixedBytes 4)

/-- What is made of the bytes of a text: too few, bytes before a checksum that is wrong, or
    bytes before their checksum. -/
theorem decode_of_encode (bs : Bytes) :
    decode checksum (Base58.encode bs) =
      if bs.length < 4 then .error .tooShort
      else if bs.drop (bs.length - 4) = (checksum (bs.take (bs.length - 4))).1 then .ok (bs.take (bs.length - 4))
      else .error .badChecksum := by
  rw [decode, Base58.decode?_encode]

theorem decode_of_foreign {s : String} (h : ∃ b ∈ Text.utf8 s, Base58.Foreign b) :
    decode checksum s = .error .badCharacter := by
  rw [decode, Base58.decode?_eq_none_iff.mpr h]

theorem decode_eq_ok_iff {s : String} {body : Bytes} : decode checksum s = .ok body ↔ encode checksum body = s := by
  constructor
  · intro h
    cases hs : Base58.decode? s with
    | none => simp [decode, hs] at h
    | some bs =>
      obtain rfl := Base58.decode?_eq_some_iff.mp hs
      rw [decode_of_encode] at h
      split at h
      · cases h
      · split at h
        · rename_i hsum
          obtain rfl := Except.ok.inj h
          rw [encode, ← hsum, List.take_append_drop]
        · cases h
  · intro h
    have hlen : (body ++ (checksum body).1).length - 4 = body.length := by
      rw [List.length_append, (checksum body).2, Nat.add_sub_cancel]
    have hshort : ¬ (body ++ (checksum body).1).length < 4 := by
      rw [List.length_append, (checksum body).2]
      omega
    rw [← h, encode, decode_of_encode, if_neg hshort, hlen, List.take_left, List.drop_left, if_pos rfl]

end Base58Check

end ChainQuery
