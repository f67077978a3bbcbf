/-
  ChainQuery.Proofs.Text.Decimal — the decimal text of a number, read back.

  A text is read digit by digit against a limit. The number read so far is that of a
  shorter text, so it keeps to the limit where the whole number does.

  Proved:
  - `natural_repr`, `integer_repr`: a number within the limit is what its text is read as.
-/

import ChainQuery.Text.Decimal

namespace ChainQuery.Decimal

variable {limit : Nat} {beyond : DecimalError}

theorem digits_append (n : Nat) (cs ds : List Char) :
    digits limit beyond n (cs ++ ds) = (digits limit beyond n cs).bind fun m => digits limit beyond m ds := by
  induction cs generalizing n with
  | nil => rfl
  | cons c cs ih =>
    simp only [List.cons_append, digits]
    split
    · split
      · rfl
      · exact ih _
    · rfl

theorem digits_digitChar {n d : Nat} (hd : d < 10) (h : 10 * n + d ≤ limit) :
    digits limit beyond n [Nat.digitChar d] = .ok (10 * n + d) := by
  have hdigit : (Nat.digitChar d).isDigit = true := by
    rw [Nat.isDigit_digitChar]
    exact decide_eq_true hd
  have hvalue : (Nat.digitChar d).toNat - '0'.toNat = d := by
    rw [Nat.toNat_digitChar_of_lt_ten hd]
    show 48 + d - 48 = d
    omega
  simp only [digits, hdigit, if_true, hvalue, if_neg (Nat.not_lt.mpr h)]

theorem digits_toDigits {n : Nat} (h : n ≤ limit) : digits limit beyond 0 (Nat.toDigits 10 n) = .ok n := by
  induction n using Nat.strongRecOn with
  | _ n ih =>
    by_cases hn : n < 10
    · rw [Nat.toDigits_of_lt_base hn, digits_digitChar hn (by omega)]
      simp
    · have hread := ih (n / 10) (by omega) (by omega)
      rw [Nat.toDigits_of_base_le (by decide) (by omega), digits_append, hread]
      show digits limit beyond (n / 10) [Nat.digitChar (n % 10)] = .ok n
      rw [digits_digitChar (by omega) (by omega), Nat.div_add_mod]

/-- The text of a number begins with a digit, so it has no sign. -/
theorem repr_eq_cons (n : Nat) : ∃ c cs, (Nat.repr n).toList = c :: cs ∧ c.isDigit = true := by
  rw [Nat.toList_repr]
  cases h : Nat.toDigits 10 n with
  | nil => exact absurd h Nat.toDigits_ne_nil
  | cons c cs =>
    have hc : c ∈ Nat.toDigits 10 n := h ▸ List.mem_cons_self
    exact ⟨c, cs, rfl, Nat.isDigit_of_mem_toDigits (by decide) (by decide) hc⟩

theorem unsigned_repr {n : Nat} (h : n ≤ limit) : unsigned limit beyond (Nat.repr n).toList = .ok n := by
  have hread : digits limit beyond 0 (Nat.repr n).toList = .ok n := by
    rw [Nat.toList_repr]
    exact digits_toDigits h
  obtain ⟨c, cs, hcs, -⟩ := repr_eq_cons n
  rw [hcs] at hread ⊢
  exact hread

theorem natural_repr {n : Nat} (h : n ≤ limit) : natural limit (Nat.repr n) = .ok n := by
  have hread := @unsigned_repr limit .tooLarge n h
  obtain ⟨c, cs, hcs, hc⟩ := repr_eq_cons n
  rw [hcs] at hread
  unfold natural
  rw [hcs]
  split
  · next heq => cases heq
  · next heq =>
    obtain ⟨rfl, -⟩ := List.cons.inj heq
    exact absurd hc (by decide)
  · exact hread

theorem integer_repr {n : Nat} (h : n ≤ limit) : integer limit (Nat.repr n) = .ok (n : Int) := by
  have hread := @unsigned_repr limit .tooLarge n h
  obtain ⟨c, cs, hcs, hc⟩ := repr_eq_cons n
  rw [hcs] at hread
  unfold integer
  rw [hcs]
  split
  · next heq => cases heq
  · next heq =>
    obtain ⟨rfl, -⟩ := List.cons.inj heq
    exact absurd hc (by decide)
  · next heq =>
    obtain ⟨rfl, -⟩ := List.cons.inj heq
    exact absurd hc (by decide)
  · rw [hread]
    rfl

end ChainQuery.Decimal
