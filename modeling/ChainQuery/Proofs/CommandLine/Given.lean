/-
  ChainQuery.Proofs.CommandLine.Given — the texts that words give to an option.

  They are told by the words alone: the word after the option's name, or what an equals
  sign attaches to it, up to a double dash.

  Proved:
  - `given_append`: words that a level reads give an option the texts of its values there,
    one for each.
  - `given_of_values`: a level that has read its words knows of every text they give.
-/

import ChainQuery.Proofs.CommandLine.Words

namespace ChainQuery.CommandLine

/-- The text attached to the option `name`, if the word is that. -/
def attachedText? (name word : String) : Option String :=
  let start := ("--" ++ name ++ "=").toList
  if start.isPrefixOf word.toList then some (String.ofList (word.toList.drop start.length)) else none

/-- The texts that the words give to the option `name`. -/
def given (name : String) : List String → List String
  | [] => []
  | w :: ws =>
    if w = "--" then []
    else if w = "--" ++ name then ws.head?.toList ++ given name ws
    else (attachedText? name w).toList ++ given name ws

/-! ## One word -/

open Grammar (spelled toList_spelled_none toList_spelled_some)

theorem toList_start (name : String) : ("--" ++ name ++ "=").toList = '-' :: '-' :: (name.toList ++ ['=']) := by
  simp

/-- A name and an equals sign are the beginning of the same name alone. -/
theorem eq_of_start {xs ys zs : List Char} (hx : '=' ∉ xs) (hy : '=' ∉ ys)
    (h : xs ++ ['='] <+: ys ++ '=' :: zs) : xs = ys := by
  have htake {cs ds : List Char} (h : '=' ∉ cs) : (cs ++ '=' :: ds).takeWhile (· ≠ '=') = cs := by
    have hall : ∀ c ∈ cs, decide (c ≠ '=') = true := by
      intro c hc
      exact decide_eq_true fun he => h (he ▸ hc)
    rw [List.takeWhile_append_of_pos hall]
    simp
  obtain ⟨rest, hrest⟩ := h
  rw [List.append_assoc] at hrest
  have := congrArg (List.takeWhile (· ≠ '=')) hrest
  rw [List.singleton_append, htake hx, htake hy] at this
  exact this

variable {name n s : String} {ws : List String}

theorem attachedText?_spelled_some (hname : '=' ∉ name.toList) (hn : '=' ∉ n.toList) :
    attachedText? name (spelled n (some s)) = if n = name then some s else none := by
  unfold attachedText?
  simp only [toList_start, toList_spelled_some]
  by_cases he : n = name
  · subst he
    have hpre : ('-' :: '-' :: (n.toList ++ ['='])).isPrefixOf
        ('-' :: '-' :: (n.toList ++ '=' :: s.toList)) = true := by
      rw [List.isPrefixOf_iff_prefix]
      exact ⟨s.toList, by simp⟩
    rw [if_pos hpre, if_pos rfl]
    simp [List.drop_append]
  · have hpre : ¬('-' :: '-' :: (name.toList ++ ['='])).isPrefixOf
        ('-' :: '-' :: (n.toList ++ '=' :: s.toList)) = true := by
      rw [List.isPrefixOf_iff_prefix, List.prefix_cons_inj, List.prefix_cons_inj]
      intro h
      exact he (String.toList_inj.mp (eq_of_start hname hn h)).symm
    rw [if_neg hpre, if_neg he]

theorem attachedText?_of_not_mem (h : '=' ∉ s.toList) : attachedText? name s = none := by
  unfold attachedText?
  refine if_neg ?_
  rw [List.isPrefixOf_iff_prefix]
  intro hpre
  exact h (hpre.subset (by simp))

theorem attachedText?_of_plain (h : ¬Dashed s) : attachedText? name s = none := by
  unfold attachedText?
  refine if_neg ?_
  rw [List.isPrefixOf_iff_prefix, toList_start]
  intro ⟨rest, hrest⟩
  exact h ⟨'-', _, hrest.symm⟩

theorem given_dashes : given name ("--" :: ws) = [] := if_pos rfl

theorem given_of_plain (h : ¬Dashed s) : given name (s :: ws) = given name ws := by
  have hdashes : s ≠ "--" := by
    rintro rfl
    exact h ⟨'-', [], rfl⟩
  have hname : s ≠ "--" ++ name := by
    rintro rfl
    exact h ⟨'-', name.toList, by simp⟩
  rw [given, if_neg hdashes, if_neg hname, attachedText?_of_plain h]
  rfl

theorem spelled_ne_dashes (hn : n ≠ "") {attached : Option String} : spelled n attached ≠ "--" := by
  rw [← String.toList_inj.ne]
  cases attached with
  | none =>
    rw [toList_spelled_none]
    simpa using hn
  | some s =>
    rw [toList_spelled_some]
    simp

theorem spelled_some_ne (hname : '=' ∉ name.toList) : spelled n (some s) ≠ "--" ++ name := by
  rw [← String.toList_inj.ne, toList_spelled_some]
  intro h
  have hmem : '=' ∈ ("--" ++ name).toList := h ▸ by simp
  simp at hmem
  exact hname hmem

theorem given_other (hname : '=' ∉ name.toList) (hn : n ≠ "" ∧ '=' ∉ n.toList) (hne : n ≠ name)
    {attached : Option String} : given name (spelled n attached :: ws) = given name ws := by
  rw [given, if_neg (spelled_ne_dashes hn.1)]
  cases attached with
  | none =>
    have hspelled : spelled n none ≠ "--" ++ name := fun h => hne ((String.append_right_inj _).mp h)
    have hmem : '=' ∉ (spelled n none).toList := by
      rw [toList_spelled_none]
      simpa using hn.2
    rw [if_neg hspelled, attachedText?_of_not_mem hmem]
    rfl
  | some s =>
    rw [if_neg (spelled_some_ne hname), attachedText?_spelled_some hname hn.2, if_neg hne]
    rfl

theorem given_apart (hname : name ≠ "") (hs : ¬Dashed s) :
    given name (spelled name none :: s :: ws) = s :: given name ws := by
  rw [given, if_neg (spelled_ne_dashes hname)]
  show (if "--" ++ name = "--" ++ name then _ else _) = _
  rw [if_pos rfl, given_of_plain hs]
  rfl

theorem given_attached (hname : name ≠ "" ∧ '=' ∉ name.toList) :
    given name (spelled name (some s) :: ws) = s :: given name ws := by
  rw [given, if_neg (spelled_ne_dashes hname.1), if_neg (spelled_some_ne hname.2),
    attachedText?_spelled_some hname.2 hname.2, if_pos rfl]
  rfl

/-! ## One level -/

/-- All values under one name. -/
def Values.under (vs : Values) (name : String) : List ArgumentValue := (vs.filter (·.1 = name)).map Prod.snd

theorem Values.under_cons_self (v : ArgumentValue) (vs : Values) :
    Values.under ((name, v) :: vs) name = v :: vs.under name := by
  simp [Values.under]

theorem Values.under_cons_ne (hne : n ≠ name) (v : ArgumentValue) (vs : Values) :
    Values.under ((n, v) :: vs) name = vs.under name := by
  simp [Values.under, hne]

theorem Values.under_eq_get? {vs : Values} (h : vs.names.Nodup) : vs.under name = (vs.get? name).toList := by
  induction vs with
  | nil => rfl
  | cons e vs ih =>
    obtain ⟨hfresh, hnodup⟩ := List.nodup_cons.mp h
    obtain ⟨n, v⟩ := e
    by_cases hne : n = name
    · subst hne
      have hnone : Values.under vs n = [] := by
        rw [Values.under, List.map_eq_nil_iff, List.filter_eq_nil_iff]
        intro e he hen
        exact hfresh (List.mem_map.mpr ⟨e, he, by simpa using hen⟩)
      rw [Values.under_cons_self, hnone]
      simp [Values.get?]
    · have hbeq : (name == n) = false := beq_eq_false_iff_ne.mpr (Ne.symm hne)
      rw [Values.under_cons_ne hne, ih hnodup]
      simp [Values.get?, List.lookup_cons, hbeq]

namespace Grammar

variable {σ : Type} {g : Grammar σ} {ps : List Argument} {vs : Values} {l l' : Place}

/-- `s` is read as the value `v` of the option `name`. -/
def Gives (g : Grammar σ) (name s : String) (v : ArgumentValue) : Prop :=
  ∃ a ∈ g.options, a.name = name ∧ ∃ k, a.kind = some k ∧ k.read s = .ok v

theorem under_of_literal (h : g.Reads l ws vs l') (hl : l.literal = true) (hps : ∀ a ∈ l.positionals, a.name ≠ name) :
    vs.under name = [] ∧ l'.literal = true := by
  induction h with
  | nil => exact ⟨rfl, hl⟩
  | positional hplain hread h ih =>
    rw [Values.under_cons_ne (hps _ List.mem_cons_self)]
    exact ih hl fun a ha => hps a (List.mem_cons_of_mem _ ha)
  | _ => cases hl

/-- Words give an option the texts of its values among the values that they are read as. -/
theorem given_append (hg : g.Distinct) (hname : name ≠ "" ∧ '=' ∉ name.toList)
    (hflag : ∀ a ∈ g.options, a.name = name → a.kind ≠ none) (h : g.Reads l ws vs l') (hl : l.literal = false)
    (hps : ∀ a ∈ l.positionals, a.name ≠ name) (tail : List String) :
    ∃ ts, given name (ws ++ tail) = ts ++ (if l'.literal then [] else given name tail) ∧
      List.Forall₂ (g.Gives name) ts (vs.under name) := by
  induction h with
  | nil => exact ⟨[], by rw [hl]; rfl, .nil⟩
  | positional hplain hread h ih =>
    obtain ⟨ts, hts, hgives⟩ := ih hl fun a ha => hps a (List.mem_cons_of_mem _ ha)
    rw [List.cons_append, given_of_plain (hplain hl), Values.under_cons_ne (hps _ List.mem_cons_self)]
    exact ⟨ts, hts, hgives⟩
  | literal h ih =>
    obtain ⟨hunder, hl'⟩ := under_of_literal h rfl hps
    rw [List.cons_append, given_dashes, hunder, hl']
    exact ⟨[], rfl, .nil⟩
  | @flag a ps ws vs l' ha hk h ih =>
    obtain ⟨ts, hts, hgives⟩ := ih hl hps
    have hne : a.name ≠ name := fun he => hflag a ha he hk
    rw [List.cons_append, given_other hname.2 (hg.ends a ha) hne, Values.under_cons_ne hne]
    exact ⟨ts, hts, hgives⟩
  | @apart a k ps s ws v vs l' ha hk hplain hread h ih =>
    obtain ⟨ts, hts, hgives⟩ := ih hl hps
    by_cases he : a.name = name
    · subst he
      rw [List.cons_append, List.cons_append, given_apart hname.1 hplain, Values.under_cons_self, hts]
      exact ⟨s :: ts, rfl, .cons ⟨a, ha, rfl, k, hk, hread⟩ hgives⟩
    · rw [List.cons_append, List.cons_append, given_other hname.2 (hg.ends a ha) he, given_of_plain hplain,
        Values.under_cons_ne he]
      exact ⟨ts, hts, hgives⟩
  | @attached a k ps s ws v vs l' ha hk hread h ih =>
    obtain ⟨ts, hts, hgives⟩ := ih hl hps
    by_cases he : a.name = name
    · subst he
      rw [List.cons_append, given_attached hname, Values.under_cons_self, hts]
      exact ⟨s :: ts, rfl, .cons ⟨a, ha, rfl, k, hk, hread⟩ hgives⟩
    · rw [List.cons_append, given_other hname.2 (hg.ends a ha) he, Values.under_cons_ne he]
      exact ⟨ts, hts, hgives⟩

/-- A level without subcommands that has read its words knows of every text they give to an option. -/
theorem given_of_values (hleaf : g.subcommands = []) (hg : g.Distinct) (hname : name ≠ "" ∧ '=' ∉ name.toList)
    (hflag : ∀ a ∈ g.options, a.name = name → a.kind ≠ none) (hps : ∀ a ∈ g.positionals, a.name ≠ name)
    (h : g.values ws = .ok vs) : List.Forall₂ (g.Gives name) (given name ws) (vs.get? name).toList := by
  obtain ⟨hnodup, l, hreads⟩ := (values_eq_ok_iff hleaf hg).mp h
  obtain ⟨ts, hts, hgives⟩ := given_append hg hname hflag hreads rfl hps []
  have hgiven : given name ws = ts := by
    rw [List.append_nil] at hts
    rw [hts]
    split <;> exact List.append_nil ts
  rw [hgiven, ← Values.under_eq_get? hnodup]
  exact hgives

theorem eq_singleton_of_gives {ts : List String} {v : ArgumentValue}
    (h : List.Forall₂ (g.Gives name) ts (some v).toList) : ∃ s, ts = [s] ∧ g.Gives name s v := by
  obtain ⟨s, ts, hgives, hrest, rfl⟩ := List.forall₂_cons_right_iff.mp h
  obtain rfl := List.forall₂_nil_right_iff.mp hrest
  exact ⟨s, rfl, hgives⟩

/-- Words before a subcommand give nothing to an option that the level around it does not have. -/
theorem given_of_subcommand (hg : g.Distinct) (hps : g.positionals = []) (hcommands : ∀ e ∈ g.subcommands, ¬Dashed e.1)
    (hname : name ≠ "" ∧ '=' ∉ name.toList) (hforeign : ∀ a ∈ g.options, a.name ≠ name) {c : σ} {rest : List String}
    {p r : Progress} (h : g.scan g.start ws = .ok (p, .subcommand c rest)) (hr : p.resolve = .ok r) :
    given name ws = given name rest := by
  obtain ⟨outer, s, ps, rfl, hc, hreads⟩ := reads_before_subcommand h hr
  have hflag : ∀ a ∈ g.options, a.name = name → a.kind ≠ none := fun a ha he => absurd he (hforeign a ha)
  have hplain : ¬Dashed s := by
    obtain ⟨_, _, hsub, -⟩ := List.lookup_eq_some_iff.mp hc
    exact hcommands (s, c) (hsub ▸ by simp)
  obtain ⟨ts, hts, hgives⟩ := given_append hg hname hflag hreads rfl (by simp [hps]) (s :: rest)
  have hnil : ts = [] := by
    cases ts with
    | nil => rfl
    | cons t ts =>
      obtain ⟨_, _, ⟨a, ha, he, -⟩, -⟩ := List.forall₂_cons_left_iff.mp hgives
      exact absurd he (hforeign a ha)
  rw [hts, hnil, given_of_plain hplain]
  rfl

end Grammar

end ChainQuery.CommandLine
