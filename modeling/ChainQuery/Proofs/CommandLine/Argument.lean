/-
  ChainQuery.Proofs.CommandLine.Argument — the word of an argument's value, read back.

  Every value but a flag has a word: a number its decimal digits, a hash its bytes in
  display order, an address its checked form, a name that name. None of them begins with
  a dash, but for texts, which stand for themselves.

  Proved:
  - `read_word`: a value is what its word is read as.
  - `not_dashed_word`: its word is no option.
-/

import ChainQuery.CommandLine.Argument
import ChainQuery.Proofs.Address
import ChainQuery.Proofs.Text.Decimal

namespace ChainQuery

theorem Hash.ofText_text (h : Hash) : Hash.ofText h.text = .ok h := by
  have hlen : (Text.utf8 h.text).length = 64 := by
    show ((String.ofList (h.reverse.1.flatMap Hex.digits)).toList.flatMap String.utf8EncodeChar).length = 64
    rw [String.toList_ofList, Hex.length_utf8_digits, h.reverse.2]
  have hback : h.reverse.reverse = h := FixedBytes.reverse_reverse h
  unfold Hash.ofText
  rw [if_neg (not_not.mpr hlen), Hash.text, Hex.decode_encode]
  simp only [Address.ofBytes?_val, hback]

theorem SubscribeKind.ofName?_name (k : SubscribeKind) : SubscribeKind.ofName? k.name = some k := by
  cases k <;> rfl

theorem HistoryVariant.ofName?_name (v : HistoryVariant) : HistoryVariant.ofName? v.name = some v := by
  cases v <;> rfl

namespace CommandLine

theorem readHeight_repr (n : UInt32) : readHeight (Nat.repr n.toNat) = .ok n := by
  have hn : n.toNat < 0x100000000 := n.toNat_lt
  have hread := @Decimal.integer_repr 0x7fffffffffffffff n.toNat (by omega)
  unfold readHeight
  rw [hread]
  have hrange : 0 ≤ (n.toNat : Int) ∧ (n.toNat : Int) < 0x100000000 := by omega
  simp only [if_pos hrange, Int.toNat_natCast, UInt32.ofNat_toNat]

theorem readBitCount_repr (n : UInt64) : readBitCount (Nat.repr n.toNat) = .ok n := by
  have hn : n.toNat < UInt64.size := n.toNat_lt
  have hread := @Decimal.natural_repr (UInt64.size - 1) n.toNat (by omega)
  unfold readBitCount
  rw [hread]
  simp only [UInt64.ofNat_toNat]

/-- An option or a mistake, and never a value. -/
def Dashed (s : String) : Prop := ∃ c cs, s.toList = '-' :: c :: cs

theorem not_dashed_of_head {s : String} (h : s.toList.head? ≠ some '-') : ¬Dashed s := by
  intro ⟨c, cs, hs⟩
  exact h (hs ▸ rfl)

theorem not_dashed_of_all {s : String} (h : ∀ c ∈ s.toList, c ≠ '-') : ¬Dashed s := by
  apply not_dashed_of_head
  intro hhead
  exact h '-' (List.mem_of_head? hhead) rfl

theorem not_dashed_repr (n : Nat) : ¬Dashed (Nat.repr n) := by
  apply not_dashed_of_all
  rw [Nat.toList_repr]
  intro c hc he
  have hdigit := Nat.isDigit_of_mem_toDigits (by decide) (by decide) hc
  exact absurd hdigit (he ▸ by decide)

theorem not_dashed_hex (bs : Bytes) : ¬Dashed (Hex.encode bs) := by
  have hdigit : ∀ n : Fin 16, Hex.digit n.1 ≠ '-' := by decide
  apply not_dashed_of_all
  rw [Hex.encode, String.toList_ofList]
  intro c hc
  obtain ⟨b, -, hb⟩ := List.mem_flatMap.mp hc
  have hlt : b.toNat < 256 := b.toNat_lt
  rcases List.mem_cons.mp hb with rfl | hb
  · exact hdigit ⟨b.toNat / 16, by omega⟩
  · obtain rfl := List.mem_singleton.mp hb
    exact hdigit ⟨b.toNat % 16, by omega⟩

theorem not_dashed_address (a : Address) : ¬Dashed a.text := by
  apply not_dashed_of_all
  intro c hc he
  have hletter := Base58.isLetter_encode _ c hc
  exact absurd hletter (he ▸ by decide)

namespace ArgumentValue

/-- The kind of the arguments that can have the value; a flag has none. -/
def kind? : ArgumentValue → Option ArgumentKind
  | .flag => none
  | .text _ => some .text
  | .hash _ => some .hash
  | .bitCount _ => some .bitCount
  | .height _ => some .height
  | .address _ => some .address
  | .command _ => some .command
  | .subscription _ => some .subscription
  | .variant _ => some .variant

/-- The word that says the value. -/
def word : ArgumentValue → String
  | .flag => ""
  | .text s => s
  | .hash h => h.text
  | .bitCount n => Nat.repr n.toNat
  | .height n => Nat.repr n.toNat
  | .address a => a.text
  | .command c => c.name
  | .subscription k => k.name
  | .variant v => v.name

theorem read_word {v : ArgumentValue} {k : ArgumentKind} (h : v.kind? = some k) : k.read v.word = .ok v := by
  cases v with
  | flag => cases h
  | text s =>
    cases h
    rfl
  | hash hash =>
    cases h
    simp only [ArgumentKind.read, word, Hash.ofText_text]
  | bitCount n =>
    cases h
    simp only [ArgumentKind.read, word, readBitCount_repr, Except.map]
  | height n =>
    cases h
    simp only [ArgumentKind.read, word, readHeight_repr, Except.map]
  | address a =>
    cases h
    simp only [ArgumentKind.read, word, Address.ofText_eq_ok_iff.mpr rfl]
  | command c =>
    cases h
    cases c <;> rfl
  | subscription kind =>
    cases h
    simp only [ArgumentKind.read, word, SubscribeKind.ofName?_name]
  | variant variant =>
    cases h
    simp only [ArgumentKind.read, word, HistoryVariant.ofName?_name]

theorem not_dashed_word {v : ArgumentValue} (h : v.kind? ≠ some .text) : ¬Dashed v.word := by
  cases v with
  | flag => exact not_dashed_of_head (by decide)
  | text s => exact absurd rfl h
  | hash hash => exact not_dashed_hex _
  | bitCount n => exact not_dashed_repr _
  | height n => exact not_dashed_repr _
  | address a => exact not_dashed_address a
  | command c => cases c <;> exact not_dashed_of_head (by decide)
  | subscription kind => cases kind <;> exact not_dashed_of_head (by decide)
  | variant variant => cases variant <;> exact not_dashed_of_head (by decide)

end ArgumentValue

theorem ArgumentKind.read_hash_eq_ok {s : String} {v : ArgumentValue} (h : ArgumentKind.hash.read s = .ok v) :
    ∃ hash, Hash.ofText s = .ok hash ∧ v = .hash hash := by
  simp only [read] at h
  cases hread : Hash.ofText s with
  | error e =>
    rw [hread] at h
    cases h
  | ok hash =>
    rw [hread] at h
    cases h
    exact ⟨hash, rfl, rfl⟩

end CommandLine

end ChainQuery
