/-
  ChainQuery.Proofs.CommandLine.Step — one argument met, and one word taken.

  An argument waits for its value, or with it until the next one is met; it is settled once
  it is read (`Progress.Settles`). A word that is not refused is a subcommand, a double
  dash, an option in one of its spellings, or no option at all (`Grammar.Takes`).

  Proved:
  - `take_eq_ok_iff`, `resolve_eq_ok_iff`: an argument is read once, and must not have a
    value yet.
  - `takes_of_step`: what a word is that is taken.
  - `step_of_literal_or_plain`, `step_dashes`, `step_spelled`: each such word at a level
    without subcommands is taken.
-/

import ChainQuery.CommandLine.Usage
import ChainQuery.Proofs.CommandLine.Argument
import ChainQuery.Proofs.Except

namespace ChainQuery.CommandLine

/-! ## Values -/

namespace Values

def names (vs : Values) : List String := vs.map Prod.fst

theorem names_append (vs vs' : Values) : names (vs ++ vs') = vs.names ++ vs'.names := List.map_append

theorem has_eq_true_iff {vs : Values} {name : String} : vs.has name = true ↔ name ∈ vs.names := by
  unfold has get? names
  rw [List.lookup_isSome_iff, List.mem_map]
  constructor
  · intro ⟨e, he, hname⟩
    exact ⟨e, he, (beq_iff_eq.mp hname).symm⟩
  · intro ⟨e, he, hname⟩
    exact ⟨e, he, beq_iff_eq.mpr hname.symm⟩

theorem get?_eq_some_iff {vs : Values} (h : vs.names.Nodup) {name : String} {v : ArgumentValue} :
    vs.get? name = some v ↔ (name, v) ∈ vs := by
  unfold get?
  induction vs with
  | nil => simp
  | cons e vs ih =>
    obtain ⟨hfresh, hnodup⟩ := List.nodup_cons.mp h
    obtain ⟨n, w⟩ := e
    by_cases hn : name = n
    · subst hn
      have hout : (name, v) ∉ vs := by
        intro hmem
        exact hfresh (List.mem_map.mpr ⟨_, hmem, rfl⟩)
      simp [hout, eq_comm]
    · have hne : (name == n) = false := beq_eq_false_iff_ne.mpr hn
      simp [List.lookup_cons, hne, hn, ih hnodup]

/-- Without a name that stands twice, the order of values does not matter. -/
theorem get?_of_perm {vs vs' : Values} (h : List.Perm vs vs') (hnodup : vs'.names.Nodup) (name : String) :
    vs.get? name = vs'.get? name := by
  have hnodup' : vs.names.Nodup := (h.map Prod.fst).nodup_iff.mpr hnodup
  apply Option.ext
  intro v
  rw [get?_eq_some_iff hnodup', get?_eq_some_iff hnodup, h.mem_iff]

theorem not_mem_of_nodup {vs vs' : Values} {name : String} {v : ArgumentValue}
    (h : (names (vs ++ (name, v) :: vs')).Nodup) : name ∉ vs.names := by
  rw [names_append] at h
  intro hmem
  exact List.disjoint_of_nodup_append h hmem List.mem_cons_self

end Values

/-! ## One argument -/

/-- Where a level stands between two words: the positional arguments to come, and whether all
    words are positional from here on. -/
structure Place where
  positionals : List Argument
  literal : Bool

namespace Progress

variable {p q : Progress} {a : Argument} {k : ArgumentKind} {s : String}

theorem take_eq_ok_iff : p.take a k s = .ok q ↔
    a.name ∉ p.values.names ∧ ∃ v, k.read s = .ok v ∧ q = { p with values := p.values ++ [(a.name, v)] } := by
  unfold take
  by_cases hhas : p.values.has a.name = true
  · rw [if_pos hhas]
    constructor
    · intro h
      cases h
    · intro ⟨hfresh, _⟩
      exact absurd (Values.has_eq_true_iff.mp hhas) hfresh
  · rw [if_neg hhas]
    have hfresh : a.name ∉ p.values.names := fun h => hhas (Values.has_eq_true_iff.mpr h)
    cases hread : k.read s with
    | ok v => simp [hfresh, eq_comm]
    | error fault => cases hmessage : fault.message? <;> simp [hmessage]

/-- Whether an option was met whose value was not. -/
def owes (p : Progress) : Bool := p.waiting.any fun w => w.text.isNone

theorem wantsValue_eq (p : Progress) : p.wantsValue = (!p.literal && p.owes) := rfl

theorem wantsValue_of_owes (h : p.owes = false) : p.wantsValue = false := by
  rw [wantsValue_eq, h, Bool.and_false]

theorem resolve_of_owes (h : p.owes = true) : p.resolve = .error .invalidValue := by
  obtain ⟨vs, waiting, ps, lit⟩ := p
  cases waiting with
  | none => cases h
  | some w =>
    obtain ⟨a, k, text⟩ := w
    cases text with
    | none => rfl
    | some s => cases h

theorem owes_of_resolve (h : p.resolve = .ok q) : p.owes = false := by
  by_contra howes
  rw [resolve_of_owes (eq_true_of_ne_false howes)] at h
  cases h

/-- What waits has its text, or nothing waits. -/
theorem resolve_eq_ok_iff : p.resolve = .ok q ↔
    (p.waiting = none ∧ q = p) ∨
      ∃ a k s, p.waiting = some ⟨a, k, some s⟩ ∧ { p with waiting := none }.take a k s = .ok q := by
  obtain ⟨vs, waiting, ps, lit⟩ := p
  cases waiting with
  | none => simp [resolve, eq_comm]
  | some w =>
    obtain ⟨a, k, text⟩ := w
    cases text <;> simp [resolve]

/-- All that was met is read as `vs`, and more may come at `l`. -/
def Settles (p : Progress) (vs : Values) (l : Place) : Prop :=
  p.resolve = .ok ⟨vs, none, l.positionals, l.literal⟩

theorem settles_of_none {vs : Values} {l : Place} : Settles ⟨vs, none, l.positionals, l.literal⟩ vs l := rfl

theorem exists_settles (h : p.resolve = .ok q) :
    ∃ vs, q = ⟨vs, none, p.positionals, p.literal⟩ ∧ p.Settles vs ⟨p.positionals, p.literal⟩ := by
  have hq : q = ⟨q.values, none, p.positionals, p.literal⟩ := by
    rcases resolve_eq_ok_iff.mp h with ⟨hnone, rfl⟩ | ⟨a, k, s, -, htake⟩
    · rw [← hnone]
    · obtain ⟨-, v, -, rfl⟩ := take_eq_ok_iff.mp htake
      rfl
  exact ⟨q.values, hq, h.trans (congrArg _ hq)⟩

theorem Settles.place {vs : Values} {l : Place} (h : p.Settles vs l) :
    p.positionals = l.positionals ∧ p.literal = l.literal := by
  obtain ⟨vs', heq, -⟩ := exists_settles h
  simp only [mk.injEq] at heq
  exact ⟨heq.2.2.1.symm, heq.2.2.2.symm⟩

theorem Settles.wantsValue {vs : Values} {l : Place} (h : p.Settles vs l) : p.wantsValue = false :=
  wantsValue_of_owes (owes_of_resolve h)

/-- A double dash leaves what waits as it is. -/
theorem settles_dashes_iff {vs : Values} {ps : List Argument} (hl : p.literal = false) :
    Settles { p with literal := true } vs ⟨ps, true⟩ ↔ p.Settles vs ⟨ps, false⟩ := by
  obtain ⟨vs₀, waiting, ps₀, lit⟩ := p
  obtain rfl : lit = false := hl
  unfold Settles
  rw [resolve_eq_ok_iff, resolve_eq_ok_iff]
  simp only [take_eq_ok_iff, mk.injEq, and_true]

/-- An argument with its text is settled by reading it. -/
theorem settles_waiting_iff {vs vs' : Values} {l : Place} :
    Settles ⟨vs, some ⟨a, k, some s⟩, l.positionals, l.literal⟩ vs' l ↔
      a.name ∉ vs.names ∧ ∃ v, k.read s = .ok v ∧ vs' = vs ++ [(a.name, v)] := by
  unfold Settles
  show take ⟨vs, none, l.positionals, l.literal⟩ a k s = _ ↔ _
  rw [take_eq_ok_iff]
  simp

end Progress

namespace Grammar

variable {σ : Type} {g : Grammar σ}

/-! ## One word -/

/-- An option as a word, with the text attached to it, if any. -/
def spelled (name : String) : (attached : Option String) → String
  | none => "--" ++ name
  | some s => "--" ++ name ++ "=" ++ s

theorem toList_spelled_none (name : String) : (spelled name none).toList = '-' :: '-' :: name.toList := by
  simp [spelled]

theorem toList_spelled_some (name s : String) :
    (spelled name (some s)).toList = '-' :: '-' :: (name.toList ++ '=' :: s.toList) := by
  simp [spelled]

/-- A word of two dashes and more is an option, its name up to the first equals sign. -/
theorem eq_spelled {s : String} {cs : List Char} (h : s.toList = '-' :: '-' :: cs) :
    s = spelled (String.ofList (cs.takeWhile (· ≠ '=')))
      (match cs.dropWhile (· ≠ '=') with
        | [] => none
        | _ :: value => some (String.ofList value)) := by
  rw [← String.toList_inj, h]
  have hsplit := List.takeWhile_append_dropWhile (p := (· ≠ '=')) (l := cs)
  cases hdrop : cs.dropWhile (· ≠ '=') with
  | nil =>
    rw [hdrop, List.append_nil] at hsplit
    rw [toList_spelled_none, String.toList_ofList, hsplit]
  | cons c value =>
    have hc : c = '=' := by
      have := List.head?_dropWhile_not (p := (· ≠ '=')) (l := cs)
      rw [hdrop] at this
      simpa using this
    subst hc
    rw [hdrop] at hsplit
    rw [toList_spelled_some, String.toList_ofList, String.toList_ofList, hsplit]

theorem word_of_wantsValue {p : Progress} {s : String} (h : p.wantsValue = true) :
    g.word p s = .ok { p with waiting := p.waiting.map fun w => { w with text := some s } } := by
  unfold word
  rw [if_pos h]

theorem word_eq_ok_iff {p q : Progress} {s : String} (h : p.wantsValue = false) :
    g.word p s = .ok q ↔ ∃ a ps r, p.positionals = a :: ps ∧ p.resolve = .ok r ∧
      q = { r with waiting := some ⟨a, a.kind.getD .text, some s⟩, positionals := ps } := by
  unfold word
  rw [if_neg (by simp [h])]
  cases hps : p.positionals with
  | nil => simp
  | cons a ps =>
    simp only [Progress.meet]
    cases hr : p.resolve with
    | error e => simp [bind, Except.bind]
    | ok r => simp [bind, Except.bind, pure, Except.pure, eq_comm]

theorem owes_of_word {p q : Progress} {s : String} (howes : p.owes = false) (h : g.word p s = .ok q) :
    q.owes = false := by
  obtain ⟨_, _, _, -, -, rfl⟩ := (word_eq_ok_iff (Progress.wantsValue_of_owes howes)).mp h
  rfl

theorem stop_ne_ok {p q : Progress} {e : UsageError} : p.stop e ≠ .ok q := by
  intro h
  obtain ⟨r, -, hq⟩ := Except.bind_eq_ok_iff.mp h
  cases hq

theorem long_eq_ok {p q : Progress} {name : String} {attached : Option String}
    (h : g.long p name attached = .ok q) : ∃ a ∈ g.options, a.name = name ∧ ∃ r, p.resolve = .ok r ∧
      ((a.kind = none ∧ attached = none ∧ a.name ∉ r.values.names ∧
          q = { r with values := r.values ++ [(a.name, .flag)] }) ∨
        (∃ k, a.kind = some k ∧ attached = none ∧ q = { r with waiting := some ⟨a, k, none⟩ }) ∨
        ∃ k s, a.kind = some k ∧ attached = some s ∧ r.take a k s = .ok q) := by
  unfold long at h
  cases hfind : g.options.find? (·.name = name) with
  | none =>
    rw [hfind] at h
    dsimp only at h
    generalize (if name = "help" then some UsageError.help
      else if name = "version" && g.hasVersion then some .version else none) = asked at h
    cases asked with
    | none => cases h
    | some e =>
      cases attached with
      | none => exact absurd h stop_ne_ok
      | some s => cases h
  | some a =>
    rw [hfind] at h
    dsimp only at h
    have hname : a.name = name := by simpa using List.find?_some hfind
    refine ⟨a, List.mem_of_find?_eq_some hfind, hname, ?_⟩
    cases hk : a.kind with
    | none =>
      rw [hk] at h
      cases attached with
      | some s => cases h
      | none =>
        obtain ⟨r, hr, hq⟩ := Except.bind_eq_ok_iff.mp h
        by_cases hhas : r.values.has a.name = true
        · rw [if_pos hhas] at hq
          cases hq
        · rw [if_neg hhas] at hq
          cases hq
          exact ⟨r, hr, .inl ⟨rfl, rfl, fun hmem => hhas (Values.has_eq_true_iff.mpr hmem), rfl⟩⟩
    | some k =>
      rw [hk] at h
      cases attached with
      | none =>
        obtain ⟨r, hr, hq⟩ := Except.bind_eq_ok_iff.mp h
        cases hq
        exact ⟨r, hr, .inr (.inl ⟨k, rfl, rfl, rfl⟩)⟩
      | some s =>
        obtain ⟨r, hr, hq⟩ := Except.bind_eq_ok_iff.mp h
        exact ⟨r, hr, .inr (.inr ⟨k, s, rfl, rfl, hq⟩)⟩

theorem shorts_ne_ok {p q : Progress} {c : Char} : g.shorts p c ≠ .ok q := by
  unfold shorts
  cases g.short? c with
  | none => exact nofun
  | some asked => exact stop_ne_ok

/-- How a word is taken that is not refused. -/
inductive Takes (g : Grammar σ) (p : Progress) : String → Step σ → Prop where
  | enter {s : String} {c : σ} (hl : p.literal = false) (h : g.subcommands.lookup s = some c) : Takes g p s (.enter c)
  | help {s : String} (h : g.subcommands ≠ []) : Takes g p s .helpCommand
  | dashes (hl : p.literal = false) : Takes g p "--" (.next { p with literal := true })
  | option {name : String} {attached : Option String} {q : Progress} (hl : p.literal = false)
      (h : g.long p name attached = .ok q) : Takes g p (spelled name attached) (.next q)
  | word {s : String} {q : Progress} (hplain : p.literal = false → ¬Dashed s) (h : g.word p s = .ok q) :
      Takes g p s (.next q)

theorem takes_of_step {p : Progress} {s : String} {r : Step σ} (h : g.step p s = .ok r) : g.Takes p s r := by
  unfold step at h
  by_cases hl : p.literal = true
  · rw [if_pos hl] at h
    obtain ⟨q, hq, rfl⟩ := Except.map_eq_ok_iff.mp h
    exact .word (fun hf => absurd hl (by simp [hf])) hq
  · rw [if_neg hl] at h
    have hl : p.literal = false := eq_false_of_ne_true hl
    split at h
    · next c hc =>
      cases h
      cases hw : p.wantsValue with
      | true => simp [hw] at hc
      | false => exact .enter hl (by simpa [hw] using hc)
    · split at h
      · next hhelp =>
        cases h
        exact .help fun hnil => by simp [hnil] at hhelp
      · split at h
        · next hs =>
          cases h
          obtain rfl : s = "--" := String.toList_inj.mp hs
          exact .dashes hl
        · next cs _ hs =>
          obtain ⟨q, hq, rfl⟩ := Except.map_eq_ok_iff.mp h
          rw [eq_spelled hs]
          exact .option hl hq
        · obtain ⟨q, hq, -⟩ := Except.map_eq_ok_iff.mp h
          exact absurd hq shorts_ne_ok
        · next hword =>
          obtain ⟨q, hq, rfl⟩ := Except.map_eq_ok_iff.mp h
          have hplain : ¬Dashed s := by
            intro ⟨c, cs, hcs⟩
            exact hword c cs hcs
          exact .word (fun _ => hplain) hq

theorem step_enter {p : Progress} {s : String} {c : σ} (hl : p.literal = false) (hw : p.wantsValue = false)
    (h : g.subcommands.lookup s = some c) : g.step p s = .ok (.enter c) := by
  unfold step
  rw [if_neg (by simp [hl])]
  simp [hw, h]

section Leaf

variable {p : Progress} {s : String} (hleaf : g.subcommands = [])

include hleaf

theorem no_subcommand : (if p.wantsValue then none else g.subcommands.lookup s) = none := by simp [hleaf]

theorem no_helpCommand : (!p.wantsValue && !g.subcommands.isEmpty && decide (s = "help")) = false := by simp [hleaf]

theorem step_of_literal_or_plain (h : p.literal = false → ¬Dashed s) : g.step p s = (g.word p s).map .next := by
  unfold step
  by_cases hl : p.literal = true
  · rw [if_pos hl]
  · rw [if_neg hl]
    have hplain := h (eq_false_of_ne_true hl)
    simp only [no_subcommand hleaf, no_helpCommand hleaf, Bool.false_eq_true, if_false]
    split
    · next hs => exact absurd ⟨_, _, hs⟩ hplain
    · next hs => exact absurd ⟨_, _, hs⟩ hplain
    · next hs => exact absurd ⟨_, _, hs⟩ hplain
    · rfl

theorem step_dashes (hl : p.literal = false) : g.step p "--" = .ok (.next { p with literal := true }) := by
  unfold step
  simp [hl, hleaf]

theorem step_option {cs : List Char} (hl : p.literal = false) (hs : s.toList = '-' :: '-' :: cs) (hcs : cs ≠ []) :
    g.step p s = (g.long p (String.ofList (cs.takeWhile (· ≠ '='))) (match cs.dropWhile (· ≠ '=') with
      | [] => none
      | _ :: value => some (String.ofList value))).map .next := by
  unfold step
  rw [if_neg (by simp [hl])]
  simp only [no_subcommand hleaf, no_helpCommand hleaf, Bool.false_eq_true, if_false]
  cases cs with
  | nil => exact absurd rfl hcs
  | cons c cs =>
    rw [hs]
    rfl

theorem step_spelled {name : String} {attached : Option String} (hl : p.literal = false) (hname : name ≠ "")
    (hends : '=' ∉ name.toList) : g.step p (spelled name attached) = (g.long p name attached).map .next := by
  have hall : ∀ c ∈ name.toList, decide (c ≠ '=') = true := by
    intro c hc
    exact decide_eq_true fun he => hends (he ▸ hc)
  cases attached with
  | none =>
    have hne : name.toList ≠ [] := fun h => hname (String.toList_inj.mp h)
    rw [step_option hleaf hl (toList_spelled_none name) hne, List.takeWhile_eq_self_iff.mpr hall,
      List.dropWhile_eq_nil_iff.mpr hall, String.ofList_toList]
  | some t =>
    rw [step_option hleaf hl (toList_spelled_some name t) (by simp), List.takeWhile_append_of_pos hall,
      List.dropWhile_append_of_pos hall]
    simp

end Leaf

end Grammar

end ChainQuery.CommandLine
