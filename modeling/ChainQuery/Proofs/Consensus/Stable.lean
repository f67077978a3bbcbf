/-
  ChainQuery.Proofs.Consensus.Stable — what a decoder makes of some bytes it makes of more.

  A decoder reads from the front and looks at no byte after the one it stops at. So bytes
  put after the input change nothing: a value stays the value, and a fault of bytes that
  are there stays the fault. Only running out of bytes can be mended by more of them
  (`Stable`). A decoder made of stable ones is stable, however its later parts depend on
  what the earlier ones gave.

  Proved:
  - `stable_bind`, `stable_ite`, `stable_repeated`: the ways decoders are put together.
  - `CompactSize.stable_size`, `Counted.stable_counted`, `Script.stable_script`.
  - `Stable.cut_short`: bytes that are used up lack their end when cut anywhere, and
    nothing else is wrong with them.
-/

import ChainQuery.Proofs.Consensus.Decodes

namespace ChainQuery

namespace Decoder

variable {α β : Type}

/-- What `d` gives, and what it finds wrong, stays whatever follows the input, unless the
    input was only too short. -/
structure Stable (d : Decoder α) : Prop where
  ok : ∀ {input rest a}, d input = .ok (a, rest) → ∀ more, d (input ++ more) = .ok (a, rest ++ more)
  error : ∀ {input e}, d input = .error e → e ≠ .endOfInput → ∀ more, d (input ++ more) = .error e

theorem Stable.cut_short {d : Decoder α} (h : Stable d) {whole : Bytes} {a : α} (hwhole : d whole = .ok (a, []))
    {cut : Bytes} (hcut : cut <+: whole) (hne : cut ≠ whole) : d cut = .error .endOfInput := by
  obtain ⟨more, rfl⟩ := hcut
  have hmore : more ≠ [] := by
    intro hnil
    simp [hnil] at hne
  cases hd : d cut with
  | ok p =>
    obtain ⟨b, rest⟩ := p
    have hlong := h.ok hd more
    rw [hwhole] at hlong
    simp only [Except.ok.injEq, Prod.mk.injEq] at hlong
    exact absurd (List.append_eq_nil_iff.mp hlong.2.symm).2 hmore
  | error e =>
    by_cases he : e = .endOfInput
    · rw [he]
    · have hlong := h.error hd he more
      rw [hwhole] at hlong
      cases hlong

/-! ## How decoders are put together -/

theorem stable_pure (a : α) : Stable (pure a : Decoder α) := by
  constructor
  · intro input rest b h more
    obtain ⟨rfl, rfl⟩ := pure_eq_ok_iff.mp h
    rfl
  · intro input e h
    cases h

theorem stable_throw (e : ConsensusError) : Stable (throw e : Decoder α) := by
  constructor
  · intro input rest a h
    exact absurd h throw_ne_ok
  · intro input e' h _ more
    cases h
    rfl

theorem stable_bind {d : Decoder α} {f : α → Decoder β} (hd : Stable d) (hf : ∀ a, Stable (f a)) :
    Stable (d >>= f) := by
  constructor
  · intro input rest b h more
    obtain ⟨a, mid, hfirst, hthen⟩ := bind_eq_ok_iff.mp h
    rw [bind_of_ok (hd.ok hfirst more)]
    exact (hf a).ok hthen more
  · intro input e h he more
    cases hfirst : d input with
    | error e' =>
      rw [bind_of_error hfirst] at h
      cases h
      exact bind_of_error (hd.error hfirst he more)
    | ok p =>
      obtain ⟨a, mid⟩ := p
      rw [bind_of_ok hfirst] at h
      rw [bind_of_ok (hd.ok hfirst more)]
      exact (hf a).error h he more

theorem stable_map {d : Decoder α} (hd : Stable d) (f : α → β) : Stable (f <$> d) := by
  rw [← bind_pure_comp]
  exact stable_bind hd fun a => stable_pure (f a)

theorem stable_ite {c : Prop} [Decidable c] {d d' : Decoder α} (h : Stable d) (h' : Stable d') :
    Stable (if c then d else d') := by
  by_cases hc : c
  · rwa [if_pos hc]
  · rwa [if_neg hc]

/-- A decoder that can only run out of bytes. -/
theorem stable_of_decodes {d : Decoder α} {encode : α → Bytes} {P : α → Prop} (h : Decodes d encode P)
    (hshort : ∀ {input e}, d input = .error e → e = .endOfInput) : Stable d := by
  constructor
  · intro input rest a hd more
    obtain ⟨rfl, ha⟩ := (h _ _ _).mp hd
    rw [List.append_assoc]
    exact h.append ha (rest ++ more)
  · intro input e hd he
    exact absurd (hshort hd) he

theorem stable_fixed (n : Nat) : Stable (fixed n) := by
  refine stable_of_decodes (decodes_fixed n) ?_
  intro input e h
  unfold fixed at h
  split at h
  · cases h
  · cases h
    rfl

theorem stable_u8 : Stable u8 := by
  constructor
  · intro input rest b h more
    rw [u8_eq_ok_iff.mp h]
    rfl
  · intro input e h he
    cases input with
    | nil =>
      cases h
      exact absurd rfl he
    | cons b input => cases h

theorem stable_u32 : Stable u32 := stable_map (stable_fixed 4) _

theorem stable_u64 : Stable u64 := stable_map (stable_fixed 8) _

theorem stable_i32 : Stable i32 := stable_map (stable_fixed 4) _

theorem stable_repeated {item : Decoder α} (h : Stable item) (n : Nat) : Stable (repeated item n) := by
  induction n with
  | zero => exact stable_pure _
  | succ n ih => exact stable_bind h fun x => stable_bind ih fun xs => stable_pure _

end Decoder

open Decoder

/-! ## Sizes, and what follows them -/

namespace CompactSize

theorem stable_marked (w least : Nat) : Stable (marked w least) := by
  refine stable_bind (stable_fixed w) ?_
  intro bs
  exact stable_ite (stable_throw _) (stable_pure _)

theorem stable_size : Stable decode := by
  refine stable_bind stable_u8 ?_
  intro marker
  exact stable_ite (stable_marked 2 _) (stable_ite (stable_marked 4 _) (stable_ite (stable_marked 8 _) (stable_pure _)))

end CompactSize

theorem Counted.stable_counted {α : Type} {item : Decoder α} (h : Stable item) : Stable (Counted.decode item) := by
  refine stable_bind CompactSize.stable_size ?_
  intro n
  exact stable_bind (stable_repeated h n.toNat) fun xs => stable_pure _

namespace Script

theorem stable_ofLength (n : UInt64) : Stable (ofLength n) := stable_bind (stable_fixed n.toNat) fun _ => stable_pure _

theorem stable_script : Stable decode := stable_bind CompactSize.stable_size stable_ofLength

end Script

end ChainQuery
