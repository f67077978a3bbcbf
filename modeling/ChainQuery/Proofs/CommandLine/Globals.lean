/-
  ChainQuery.Proofs.CommandLine.Globals — the log filter and the layout that a line chooses.

  Every level takes the option for the log filter and the flag for the layout, each at most
  once. What a level inside settles counts before what the level around it does, and its
  words come later; so of the texts that the line gives for the filter the last one counts,
  and the flag is set when it stands anywhere before a double dash. A double dash, which
  makes words positional, can only stand on the innermost level.

  Proved:
  - `flagged_append`: by induction on what words are read as, when they set a flag.
  - `told_of_values`: a level without subcommands settles what its words say.
  - `told_before_subcommand`: a level around another adds what its own words say.
  - `told_of_parse`: so a whole line settles what all of its words say.
-/

import ChainQuery.Proofs.CommandLine.Invocation

namespace ChainQuery.CommandLine

/-- The words set the flag `name`: it stands among them, before a double dash if there is one. -/
def Flagged (name : String) (words : List String) : Prop := "--" ++ name ∈ words.takeWhile (· ≠ "--")

instance (name : String) (words : List String) : Decidable (Flagged name words) :=
  inferInstanceAs (Decidable (_ ∈ _))

open Grammar (spelled)

/-! ## One word -/

variable {name n s : String} {ws : List String}

theorem not_flagged_nil : ¬Flagged name [] := by
  unfold Flagged
  rw [List.takeWhile_nil]
  exact List.not_mem_nil

theorem not_flagged_dashes : ¬Flagged name ("--" :: ws) := by
  unfold Flagged
  rw [List.takeWhile_cons_of_neg (by simp)]
  exact List.not_mem_nil

theorem flagged_self (hname : name ≠ "") : Flagged name (spelled name none :: ws) := by
  have hdashes : decide (spelled name none ≠ "--") = true := decide_eq_true (spelled_ne_dashes hname)
  unfold Flagged
  rw [List.takeWhile_cons, if_pos hdashes]
  exact List.mem_cons_self

theorem flagged_cons_of_ne (hdashes : s ≠ "--") (hname : s ≠ "--" ++ name) : Flagged name (s :: ws) ↔ Flagged name ws := by
  have hdashes : decide (s ≠ "--") = true := decide_eq_true hdashes
  unfold Flagged
  rw [List.takeWhile_cons, if_pos hdashes, List.mem_cons, or_iff_right hname.symm]

theorem flagged_of_plain (h : ¬Dashed s) : Flagged name (s :: ws) ↔ Flagged name ws := by
  apply flagged_cons_of_ne
  · intro hs
    exact h ⟨'-', [], by rw [hs]; rfl⟩
  · intro hs
    exact h ⟨'-', name.toList, by simp [hs]⟩

theorem flagged_other (hn : n ≠ "") (hne : n ≠ name) : Flagged name (spelled n none :: ws) ↔ Flagged name ws := by
  apply flagged_cons_of_ne (spelled_ne_dashes hn)
  intro h
  exact hne ((String.append_right_inj _).mp h)

theorem flagged_attached (hn : n ≠ "") (hname : '=' ∉ name.toList) :
    Flagged name (spelled n (some s) :: ws) ↔ Flagged name ws :=
  flagged_cons_of_ne (spelled_ne_dashes hn) (spelled_some_ne hname)

/-! ## One level -/

namespace Grammar

variable {σ : Type} {g : Grammar σ} {vs : Values} {l l' : Place}

/-- Words set a flag that is among the values that they are read as, and leave it to the words
    after them unless those are all positional. -/
theorem flagged_append (hg : g.Distinct) (hname : name ≠ "" ∧ '=' ∉ name.toList)
    (hkind : ∀ a ∈ g.options, a.name = name → a.kind = none) (h : g.Reads l ws vs l') (hl : l.literal = false)
    (hps : ∀ a ∈ l.positionals, a.name ≠ name) (tail : List String) :
    Flagged name (ws ++ tail) ↔ name ∈ vs.names ∨ (l'.literal = false ∧ Flagged name tail) := by
  induction h with
  | nil => simp [Values.names, hl]
  | positional hplain hread h ih =>
    have hne := hps _ List.mem_cons_self
    rw [List.cons_append, flagged_of_plain (hplain hl), ih hl fun a ha => hps a (List.mem_cons_of_mem _ ha)]
    simp [Values.names, hne.symm]
  | @literal ps ws vs l' h ih =>
    obtain ⟨hunder, hl'⟩ := under_of_literal h rfl hps
    have hout : name ∉ vs.names := by
      intro hmem
      obtain ⟨e, he, hen⟩ := List.mem_map.mp hmem
      have hfound : e.2 ∈ vs.under name := List.mem_map.mpr ⟨e, List.mem_filter.mpr ⟨he, by simpa using hen⟩, rfl⟩
      rw [hunder] at hfound
      exact List.not_mem_nil hfound
    rw [List.cons_append, hl']
    simp [not_flagged_dashes, hout]
  | @flag a ps ws vs l' ha hk h ih =>
    rw [List.cons_append]
    by_cases he : a.name = name
    · subst he
      simp [flagged_self hname.1, Values.names]
    · rw [flagged_other (hg.ends a ha).1 he, ih hl hps]
      simp [Values.names, Ne.symm he]
  | @apart a k ps s ws v vs l' ha hk hplain hread h ih =>
    have he : a.name ≠ name := fun he => by
      rw [hkind a ha he] at hk
      cases hk
    rw [List.cons_append, List.cons_append, flagged_other (hg.ends a ha).1 he, flagged_of_plain hplain, ih hl hps]
    simp [Values.names, he.symm]
  | @attached a k ps s ws v vs l' ha hk hread h ih =>
    have he : a.name ≠ name := fun he => by
      rw [hkind a ha he] at hk
      cases hk
    rw [List.cons_append, flagged_attached (hg.ends a ha).1 hname.2, ih hl hps]
    simp [Values.names, he.symm]

/-- A level that has the option for the log filter and the flag for the layout. -/
structure Global (g : Grammar σ) : Prop where
  distinct : g.Distinct
  filter : ∀ a ∈ g.options, a.name = "log-filter" → a.kind = some .text
  pretty : ∀ a ∈ g.options, a.name = "pretty" → a.kind = none
  positionals : ∀ a ∈ g.positionals, a.name ≠ "log-filter" ∧ a.name ≠ "pretty"

end Grammar

/-- The globals are what the words say: the last text they give for the filter, and the layout
    if they set its flag. -/
structure Globals.ToldBy (globals : Globals) (words : List String) : Prop where
  logFilter : globals.logFilter = (given "log-filter" words).getLast?
  indented : globals.indented = true ↔ Flagged "pretty" words

namespace Grammar

variable {σ : Type} {g : Grammar σ} {vs : Values}

/-- The text given for the filter is the one that is settled. -/
theorem filter_of_gives (hg : g.Global) {ts : List String} (hnodup : vs.names.Nodup)
    (h : List.Forall₂ (g.Gives "log-filter") ts (vs.under "log-filter")) : vs.text? "log-filter" = ts.getLast? := by
  rw [Values.under_eq_get? hnodup] at h
  unfold Values.text?
  cases hget : vs.get? "log-filter" with
  | none =>
    rw [hget] at h
    rw [List.forall₂_nil_right_iff.mp h]
    rfl
  | some v =>
    rw [hget] at h
    obtain ⟨s, rfl, a, ha, hname, k, hk, hread⟩ := eq_singleton_of_gives h
    rw [hg.filter a ha hname] at hk
    cases hk
    cases hread
    rfl

theorem told_of_values (hleaf : g.subcommands = []) (hg : g.Global) {words : List String} (h : g.values words = .ok vs) :
    (Globals.ofValues vs).ToldBy words := by
  obtain ⟨hnodup, l, hreads⟩ := (values_eq_ok_iff hleaf hg.distinct).mp h
  have hflag := flagged_append hg.distinct (by decide) hg.pretty hreads rfl (fun a ha => (hg.positionals a ha).2) []
  obtain ⟨ts, hts, hgives⟩ := given_append hg.distinct (by decide) (fun a ha hname => by simp [hg.filter a ha hname])
    hreads rfl (fun a ha => (hg.positionals a ha).1) []
  rw [List.append_nil] at hts hflag
  constructor
  · have hgiven : given "log-filter" words = ts := by
      rw [hts]
      split <;> exact List.append_nil ts
    rw [hgiven]
    exact filter_of_gives hg hnodup hgives
  · rw [hflag, or_iff_left fun hrest => not_flagged_nil hrest.2]
    exact Values.has_eq_true_iff

theorem told_before_subcommand (hg : g.Global) (hps : g.positionals = []) (hcommands : ∀ e ∈ g.subcommands, ¬Dashed e.1)
    {words rest : List String} {c : σ} {p r : Progress} {inner : Globals}
    (h : g.scan g.start words = .ok (p, .subcommand c rest)) (hr : p.resolve = .ok r) (hinner : inner.ToldBy rest) :
    ((Globals.ofValues r.values).within inner).ToldBy words := by
  obtain ⟨outer, tail, vs, ⟨ps, lit⟩, rfl, hreads, rfl, hnodup, s, rfl, hc, hl⟩ := tells_of_scan h hr
  obtain rfl : lit = false := hl
  have hplain : ¬Dashed s := by
    obtain ⟨_, _, hsub, -⟩ := List.lookup_eq_some_iff.mp hc
    exact hcommands (s, c) (hsub ▸ by simp)
  have hnone : ∀ n, ∀ a ∈ g.positionals, a.name ≠ n := fun n => by simp [hps]
  have hflag := flagged_append hg.distinct (by decide) hg.pretty hreads rfl (hnone "pretty") (s :: rest)
  obtain ⟨ts, hts, hgives⟩ := given_append hg.distinct (by decide) (fun a ha hname => by simp [hg.filter a ha hname])
    hreads rfl (hnone "log-filter") (s :: rest)
  have hts : given "log-filter" (outer ++ s :: rest) = ts ++ given "log-filter" rest := by
    rw [hts, given_of_plain hplain]
    rfl
  constructor
  · have houter : Values.text? vs "log-filter" = ts.getLast? := filter_of_gives hg (hnodup List.nodup_nil) hgives
    rw [hts, List.getLast?_append, ← houter, ← hinner.logFilter]
    rfl
  · rw [hflag, flagged_of_plain hplain, ← hinner.indented]
    show (inner.indented || Values.has vs "pretty") = true ↔ _
    rw [Bool.or_eq_true, Values.has_eq_true_iff]
    simp [or_comm]

end Grammar

/-! ## The whole line -/

theorem global_topLevel : topLevel.Global := ⟨distinct_topLevel, by decide, by decide, by decide⟩

theorem global_requestLevel : requestLevel.Global := ⟨distinct_requestLevel, by decide, by decide, by decide⟩

theorem global_level (name : RequestName) : name.level.Global := by
  cases name <;> exact ⟨distinct_level _, by decide, by decide, by decide⟩

theorem global_decodeLevel : decodeLevel.Global := ⟨⟨by decide, by decide⟩, by decide, by decide, by decide⟩

theorem global_leaf : (leaf [] []).Global := ⟨⟨by decide, by decide⟩, by decide, by decide, by decide⟩

theorem told_of_leafAction {α : Type} {level : Grammar Empty} (hlevel : level.Global) (hleaf : level.subcommands = [])
    {words : List String} {f : Values → Except UsageError α} {globals : Globals} {a : α}
    (h : leafAction level words f = .ok (globals, a)) : globals.ToldBy words := by
  obtain ⟨vs, hvs, h⟩ := Except.bind_eq_ok_iff.mp h
  obtain ⟨a', -, h⟩ := Except.bind_eq_ok_iff.mp h
  cases h
  exact Grammar.told_of_values hleaf hlevel hvs

theorem told_of_parseRequest {words : List String} {globals : Globals} {action : RequestAction}
    (h : parseRequest words = .ok (globals, action)) : globals.ToldBy words := by
  obtain ⟨⟨p, d⟩, hscan, h⟩ := Except.bind_eq_ok_iff.mp h
  cases d with
  | ended => cases h
  | helpCommand rest => cases h
  | subcommand name rest =>
    obtain ⟨⟨inner, action'⟩, hinner, h⟩ := Except.bind_eq_ok_iff.mp h
    obtain ⟨r, hr, h⟩ := Except.bind_eq_ok_iff.mp h
    cases h
    exact Grammar.told_before_subcommand global_requestLevel rfl not_dashed_commands.2 hscan hr
      (told_of_leafAction (global_level name) (by cases name <;> rfl) hinner)

theorem told_of_parse {words : List String} {i : Invocation} (h : Invocation.parse words = .ok i) :
    Globals.ToldBy ⟨i.logFilter, i.indented⟩ words := by
  obtain ⟨⟨p, d⟩, hscan, h⟩ := Except.bind_eq_ok_iff.mp h
  cases d with
  | ended => cases h
  | helpCommand rest => cases h
  | subcommand name rest =>
    obtain ⟨⟨inner, action⟩, hparse, h⟩ := Except.bind_eq_ok_iff.mp h
    obtain ⟨r, hr, h⟩ := Except.bind_eq_ok_iff.mp h
    cases h
    apply Grammar.told_before_subcommand global_topLevel rfl not_dashed_commands.1 hscan hr
    cases name with
    | request =>
      obtain ⟨⟨_, _⟩, hrequest, hparse⟩ := Except.bind_eq_ok_iff.mp hparse
      cases hparse
      exact told_of_parseRequest hrequest
    | decode => exact told_of_leafAction global_decodeLevel rfl hparse
    | commands => exact told_of_leafAction global_leaf rfl hparse

end ChainQuery.CommandLine
