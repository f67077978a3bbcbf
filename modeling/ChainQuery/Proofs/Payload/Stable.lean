/-
  ChainQuery.Proofs.Payload.Stable — what a reader makes of some bytes it makes of more.

  As a decoder does, a reader of fields looks at nothing after the field it stops at: with
  more bytes at the end it gives the same value or the same error, and leaves the same bytes
  and the new ones (`Stable`). The exceptions are the errors of a payload that ends too
  early (`DecodeError.IsShort`). Rows are read by one reader after another, so an error that
  more bytes cannot mend is an error of every longer payload.

  Proved:
  - `stable_bind`, `stable_consensus`: stable readers in a row, and a stable decoder inside
    a payload.
  - `stable_u32`, `stable_u64`, `stable_point`: the plain fields.
  - `whole_append`, `whole_cut_short`: a payload that is used up, made longer or shorter.
  - `RowReader.all_append`: rows followed by more bytes are the rows and what the bytes are.
  - `RowReader.all_append_of_error`: rows that go wrong stay wrong, in the same way.
-/

import ChainQuery.Proofs.Consensus.Stable
import ChainQuery.Proofs.Payload.Decodes

namespace ChainQuery

/-- The payload ended too early; with more bytes there may be no error. -/
def DecodeError.IsShort : DecodeError → Prop
  | .truncated _ _ => True
  | .consensus cause => cause = .endOfInput
  | .trailingBytes _ => False
  | .heightOverflow _ => False

namespace Reader

variable {α β : Type}

/-- What `r` gives, and what it finds wrong, stays whatever follows the payload, unless the
    payload was only too short. -/
structure Stable (r : Reader α) : Prop where
  ok : ∀ {input rest a}, r.run input = (.ok a, rest) → ∀ more, r.run (input ++ more) = (.ok a, rest ++ more)
  error : ∀ {input rest e}, r.run input = (.error e, rest) → ¬ e.IsShort → ∀ more,
    r.run (input ++ more) = (.error e, rest ++ more)

theorem stable_pure (a : α) : Stable (pure a : Reader α) := by
  constructor
  · intro input rest b h more
    cases h
    rfl
  · intro input rest e h
    cases h

theorem stable_fail (e : DecodeError) : Stable (fail e : Reader α) := by
  constructor
  · intro input rest a h
    cases h
  · intro input rest e' h _ more
    cases h
    rfl

theorem stable_bind {r : Reader α} {f : α → Reader β} (hr : Stable r) (hf : ∀ a, Stable (f a)) :
    Stable (r >>= f) := by
  constructor
  · intro input rest b h more
    obtain ⟨a, mid, hfirst, hthen⟩ := bind_eq_ok_iff.mp h
    rw [bind_of_ok (hr.ok hfirst more)]
    exact (hf a).ok hthen more
  · intro input rest e h he more
    rcases hfirst : r.run input with ⟨result, mid⟩
    cases result with
    | error e' =>
      rw [bind_of_error hfirst] at h
      cases h
      exact bind_of_error (hr.error hfirst he more)
    | ok a =>
      rw [bind_of_ok hfirst] at h
      rw [bind_of_ok (hr.ok hfirst more)]
      exact (hf a).error h he more

theorem stable_ite {c : Prop} [Decidable c] {r r' : Reader α} (h : Stable r) (h' : Stable r') :
    Stable (if c then r else r') := by
  by_cases hc : c
  · rwa [if_pos hc]
  · rwa [if_neg hc]

theorem stable_u8 : Stable u8 := by
  constructor
  · intro input rest b h more
    obtain ⟨rfl, -⟩ := (decodes_u8 _ _ _).mp h
    rfl
  · intro input rest e h he
    cases input with
    | nil =>
      cases h
      exact absurd trivial he
    | cons b input => cases h

theorem stable_fixed (n : Nat) : Stable (fixed n) := by
  constructor
  · intro input rest bs h more
    obtain ⟨rfl, -⟩ := (decodes_fixed n _ _ _).mp h
    rw [List.append_assoc]
    exact reads_fixed bs (rest ++ more)
  · intro input rest e h he
    unfold run fixed at h
    split at h
    · cases h
    · cases h
      exact absurd trivial he

theorem stable_u32 : Stable u32 := stable_bind (stable_fixed 4) fun _ => stable_pure _

theorem stable_u64 : Stable u64 := stable_bind (stable_fixed 8) fun _ => stable_pure _

theorem stable_point : Stable point :=
  stable_bind (stable_fixed 32) fun _ => stable_bind stable_u32 fun _ => stable_pure _

theorem stable_consensus {d : Decoder α} (h : d.Stable) : Stable (consensus d) := by
  constructor
  · intro input rest a hd more
    exact consensus_of_ok (h.ok (consensus_eq_ok_iff.mp hd) more)
  · intro input rest e hd he more
    cases hinput : d input with
    | ok p =>
      rw [consensus_of_ok hinput] at hd
      cases hd
    | error cause =>
      rw [consensus_of_error hinput] at hd
      cases hd
      exact consensus_of_error (h.error hinput he more)

/-! ## Whole payloads -/

/-- Bytes after a payload that is used up are all left over. -/
theorem whole_append {r : Reader α} (hr : Stable r) {payload : Bytes} {a : α} (h : r.whole payload = .ok a)
    {more : Bytes} (hmore : more ≠ []) : r.whole (payload ++ more) = .error (.trailingBytes more.length) := by
  have hlong := hr.ok (whole_eq_ok_iff.mp h) more
  rw [List.nil_append] at hlong
  rw [whole_of_ok hlong, if_neg fun hnil => hmore (List.isEmpty_iff.mp hnil)]

theorem whole_cut_short {d : Decoder α} (hd : d.Stable) {payload : Bytes} {a : α}
    (h : (consensus d).whole payload = .ok a) {cut : Bytes} (hcut : cut <+: payload) (hne : cut ≠ payload) :
    (consensus d).whole cut = .error (.consensus .endOfInput) := by
  have hwhole := consensus_eq_ok_iff.mp (whole_eq_ok_iff.mp h)
  exact whole_of_error (consensus_of_error (hd.cut_short hwhole hcut hne))

end Reader

/-! ## Rows -/

namespace RowReader

variable {α : Type} {r : RowReader α} {payload : Bytes}

/-- Rows are read as they are, and then what follows them. -/
theorem all_append (hr : r.read.Stable) {xs : List α} (h : r.all payload = .ok xs) (more : Bytes) :
    r.all (payload ++ more) = (r.all more).map (xs ++ ·) := by
  induction xs generalizing payload with
  | nil =>
    rw [all_eq_nil h, List.nil_append]
    cases r.all more <;> rfl
  | cons x xs ih =>
    obtain ⟨rest, hx, hrest⟩ := all_eq_cons h
    rw [r.all_of_ok (hr.ok hx more), ih hrest]
    cases r.all more <;> rfl

theorem all_append_of_error (hr : r.read.Stable) {e : DecodeError} (h : r.all payload = .error e) (he : ¬ e.IsShort)
    (more : Bytes) : r.all (payload ++ more) = .error e := by
  -- by the length of the payload: a good row leaves less of it, and the error is in the rest
  induction hlen : payload.length using Nat.strongRecOn generalizing payload with
  | _ n ih =>
    have hne : payload ≠ [] := by
      intro hnil
      rw [hnil, all_nil] at h
      cases h
    rcases hrun : r.read.run payload with ⟨result, rest⟩
    cases result with
    | error e' =>
      rw [r.all_of_error hne hrun] at h
      cases h
      exact r.all_of_error (by simp [hne]) (hr.error hrun he more)
    | ok x =>
      rw [r.all_of_ok hrun] at h
      have hrest : r.all rest = .error e := Except.map_eq_error_iff.mp h
      have hlt := r.takes_one _ _ _ hrun
      rw [r.all_of_ok (hr.ok hrun more), ih rest.length (by omega) hrest rfl]
      rfl

end RowReader

end ChainQuery
