/-
  ChainQuery.Proofs.CommandLine.Words — what the words of one level say.

  A level takes its words one at a time, and an argument waits for its value, or with it
  until the next argument is met. What comes of this is told here without the waiting
  (`Grammar.Reads`): a word that is no option is the next positional argument; an option
  has its value after it or attached to it; after a double dash all words are positional.
  Every argument is read where it stands, and none is given twice.

  Proved:
  - `scan_of_reads`: words that can be told like this are taken like this.
  - `reads_of_scan`: whatever is taken in the end, its words can be told like this.
  - `values_eq_ok_iff`: both, for a level without subcommands.
-/

import ChainQuery.Proofs.CommandLine.Step

namespace ChainQuery.CommandLine.Grammar

variable {σ : Type} {g : Grammar σ}

/-! ## What words say -/

/-- `g.Reads l ws vs l'`: from `l` on, the words `ws` are read as `vs`, and lead to `l'`. -/
inductive Reads (g : Grammar σ) : Place → List String → Values → Place → Prop where
  | nil {l : Place} : Reads g l [] [] l
  | positional {a : Argument} {ps : List Argument} {literal : Bool} {s : String} {ws : List String}
      {v : ArgumentValue} {vs : Values} {l : Place} (hplain : literal = false → ¬Dashed s)
      (hread : (a.kind.getD .text).read s = .ok v) (h : Reads g ⟨ps, literal⟩ ws vs l) :
      Reads g ⟨a :: ps, literal⟩ (s :: ws) ((a.name, v) :: vs) l
  | literal {ps : List Argument} {ws : List String} {vs : Values} {l : Place} (h : Reads g ⟨ps, true⟩ ws vs l) :
      Reads g ⟨ps, false⟩ ("--" :: ws) vs l
  | flag {a : Argument} {ps : List Argument} {ws : List String} {vs : Values} {l : Place} (ha : a ∈ g.options)
      (hk : a.kind = none) (h : Reads g ⟨ps, false⟩ ws vs l) :
      Reads g ⟨ps, false⟩ (spelled a.name none :: ws) ((a.name, .flag) :: vs) l
  | apart {a : Argument} {k : ArgumentKind} {ps : List Argument} {s : String} {ws : List String}
      {v : ArgumentValue} {vs : Values} {l : Place} (ha : a ∈ g.options) (hk : a.kind = some k)
      (hplain : ¬Dashed s) (hread : k.read s = .ok v) (h : Reads g ⟨ps, false⟩ ws vs l) :
      Reads g ⟨ps, false⟩ (spelled a.name none :: s :: ws) ((a.name, v) :: vs) l
  | attached {a : Argument} {k : ArgumentKind} {ps : List Argument} {s : String} {ws : List String}
      {v : ArgumentValue} {vs : Values} {l : Place} (ha : a ∈ g.options) (hk : a.kind = some k)
      (hread : k.read s = .ok v) (h : Reads g ⟨ps, false⟩ ws vs l) :
      Reads g ⟨ps, false⟩ (spelled a.name (some s) :: ws) ((a.name, v) :: vs) l

/-- The options of a level can be told apart, and where their names end. -/
structure Distinct (g : Grammar σ) : Prop where
  names : (g.options.map Argument.name).Nodup
  ends : ∀ a ∈ g.options, a.name ≠ "" ∧ '=' ∉ a.name.toList

theorem Distinct.find? (hg : g.Distinct) {a : Argument} (ha : a ∈ g.options) :
    g.options.find? (·.name = a.name) = some a := by
  obtain ⟨b, hb⟩ : ∃ b, g.options.find? (·.name = a.name) = some b := by
    rw [← Option.isSome_iff_exists, List.find?_isSome]
    exact ⟨a, ha, decide_eq_true rfl⟩
  have hname : b.name = a.name := by simpa using List.find?_some hb
  rw [hb, List.inj_on_of_nodup_map hg.names (List.mem_of_find?_eq_some hb) ha hname]

section Options

variable (hg : g.Distinct) {a : Argument} (ha : a ∈ g.options) {p : Progress} {vs : Values} {l : Place}
  (hp : p.Settles vs l)

include hg ha hp

theorem long_flag (hk : a.kind = none) (hfresh : a.name ∉ vs.names) :
    g.long p a.name none = .ok ⟨vs ++ [(a.name, .flag)], none, l.positionals, l.literal⟩ := by
  have hhas : vs.has a.name = false := by
    rw [← Bool.not_eq_true, Values.has_eq_true_iff]
    exact hfresh
  unfold long
  rw [hg.find? ha]
  simp only [hk]
  refine Except.bind_eq_ok_iff.mpr ⟨_, hp, ?_⟩
  rw [if_neg (by simp [hhas])]
  rfl

theorem long_apart {k : ArgumentKind} (hk : a.kind = some k) :
    g.long p a.name none = .ok ⟨vs, some ⟨a, k, none⟩, l.positionals, l.literal⟩ := by
  unfold long
  rw [hg.find? ha]
  simp only [hk]
  exact Except.bind_eq_ok_iff.mpr ⟨_, hp, rfl⟩

theorem long_attached {k : ArgumentKind} (hk : a.kind = some k) {s : String} {v : ArgumentValue}
    (hread : k.read s = .ok v) (hfresh : a.name ∉ vs.names) :
    g.long p a.name (some s) = .ok ⟨vs ++ [(a.name, v)], none, l.positionals, l.literal⟩ := by
  unfold long
  rw [hg.find? ha]
  simp only [hk]
  exact Except.bind_eq_ok_iff.mpr ⟨_, hp, Progress.take_eq_ok_iff.mpr ⟨hfresh, v, hread, rfl⟩⟩

end Options

/-- From `p` the words `ws` lead to `q`, whatever follows them. -/
def Leads (g : Grammar σ) (p : Progress) (ws : List String) (q : Progress) : Prop :=
  ∀ tail, g.scan p (ws ++ tail) = g.scan q tail

theorem leads_cons {p q r : Progress} {s : String} {ws : List String} (hstep : g.step p s = .ok (.next q))
    (h : g.Leads q ws r) : g.Leads p (s :: ws) r := by
  intro tail
  rw [List.cons_append, scan, hstep]
  exact h tail

theorem leads_nil (p : Progress) : g.Leads p [] p := fun _ => rfl

theorem leads_append {p q r : Progress} {ws ws' : List String} (h : g.Leads p ws q) (h' : g.Leads q ws' r) :
    g.Leads p (ws ++ ws') r := by
  intro tail
  rw [List.append_assoc, h, h']

section Items

variable (hleaf : g.subcommands = []) {a : Argument} {s : String} {v : ArgumentValue} {ps : List Argument}
  {p : Progress} {vs : Values} (hfresh : a.name ∉ vs.names)

include hleaf hfresh

theorem leads_positional {literal : Bool} (hp : p.Settles vs ⟨a :: ps, literal⟩) (hplain : literal = false → ¬Dashed s)
    (hread : (a.kind.getD .text).read s = .ok v) :
    ∃ q, g.Leads p [s] q ∧ q.Settles (vs ++ [(a.name, v)]) ⟨ps, literal⟩ := by
  have hstep : g.step p s = .ok (.next ⟨vs, some ⟨a, a.kind.getD .text, some s⟩, ps, literal⟩) := by
    rw [step_of_literal_or_plain hleaf (hp.place.2 ▸ hplain),
      (word_eq_ok_iff hp.wantsValue).mpr ⟨a, ps, _, hp.place.1, hp, rfl⟩]
    rfl
  exact ⟨_, leads_cons hstep (leads_nil _),
    (Progress.settles_waiting_iff (l := ⟨ps, literal⟩)).mpr ⟨hfresh, v, hread, rfl⟩⟩

variable (hg : g.Distinct) (ha : a ∈ g.options) (hp : p.Settles vs ⟨ps, false⟩)

include hg ha hp

theorem leads_flag (hk : a.kind = none) :
    ∃ q, g.Leads p [spelled a.name none] q ∧ q.Settles (vs ++ [(a.name, .flag)]) ⟨ps, false⟩ := by
  obtain ⟨hname, hends⟩ := hg.ends a ha
  have hstep : g.step p (spelled a.name none) = .ok (.next ⟨vs ++ [(a.name, .flag)], none, ps, false⟩) := by
    rw [step_spelled hleaf hp.place.2 hname hends, long_flag hg ha hp hk hfresh]
    rfl
  exact ⟨_, leads_cons hstep (leads_nil _), Progress.settles_of_none (l := ⟨ps, false⟩)⟩

variable {k : ArgumentKind} (hk : a.kind = some k) (hread : k.read s = .ok v)

include hk hread

theorem leads_apart (hplain : ¬Dashed s) :
    ∃ q, g.Leads p [spelled a.name none, s] q ∧ q.Settles (vs ++ [(a.name, v)]) ⟨ps, false⟩ := by
  obtain ⟨hname, hends⟩ := hg.ends a ha
  have hmet : g.step p (spelled a.name none) = .ok (.next ⟨vs, some ⟨a, k, none⟩, ps, false⟩) := by
    rw [step_spelled hleaf hp.place.2 hname hends, long_apart hg ha hp hk]
    rfl
  have hgiven : g.step ⟨vs, some ⟨a, k, none⟩, ps, false⟩ s = .ok (.next ⟨vs, some ⟨a, k, some s⟩, ps, false⟩) := by
    rw [step_of_literal_or_plain hleaf fun _ => hplain, word_of_wantsValue rfl]
    rfl
  exact ⟨_, leads_cons hmet (leads_cons hgiven (leads_nil _)),
    (Progress.settles_waiting_iff (l := ⟨ps, false⟩)).mpr ⟨hfresh, v, hread, rfl⟩⟩

theorem leads_attached :
    ∃ q, g.Leads p [spelled a.name (some s)] q ∧ q.Settles (vs ++ [(a.name, v)]) ⟨ps, false⟩ := by
  obtain ⟨hname, hends⟩ := hg.ends a ha
  have hstep : g.step p (spelled a.name (some s)) = .ok (.next ⟨vs ++ [(a.name, v)], none, ps, false⟩) := by
    rw [step_spelled hleaf hp.place.2 hname hends, long_attached hg ha hp hk hread hfresh]
    rfl
  exact ⟨_, leads_cons hstep (leads_nil _), Progress.settles_of_none (l := ⟨ps, false⟩)⟩

end Items

theorem leads_then {p : Progress} {ws ws' : List String} {vs₀ vs : Values} {e : String × ArgumentValue} {l l' : Place}
    (hfirst : ∃ q, g.Leads p ws q ∧ q.Settles (vs₀ ++ [e]) l)
    (hrest : ∀ q : Progress, q.Settles (vs₀ ++ [e]) l → ∃ r, g.Leads q ws' r ∧ r.Settles (vs₀ ++ [e] ++ vs) l') :
    ∃ r, g.Leads p (ws ++ ws') r ∧ r.Settles (vs₀ ++ e :: vs) l' := by
  obtain ⟨q, hlead, hq⟩ := hfirst
  obtain ⟨r, hlead', hr⟩ := hrest q hq
  rw [← List.append_cons] at hr
  exact ⟨r, leads_append hlead hlead', hr⟩

/-- Words that can be told are taken as what they are read as. -/
theorem scan_of_reads (hleaf : g.subcommands = []) (hg : g.Distinct) {l l' : Place} {ws : List String} {vs : Values}
    (h : g.Reads l ws vs l') {p : Progress} {vs₀ : Values} (hp : p.Settles vs₀ l)
    (hnodup : (Values.names (vs₀ ++ vs)).Nodup) : ∃ q, g.Leads p ws q ∧ q.Settles (vs₀ ++ vs) l' := by
  -- On what was settled before: each argument read is one more in it.
  induction h generalizing p vs₀ with
  | nil => exact ⟨p, leads_nil p, by rwa [List.append_nil]⟩
  | literal h ih =>
    obtain ⟨r, hlead, hr⟩ := ih ((Progress.settles_dashes_iff hp.place.2).mpr hp) hnodup
    exact ⟨r, leads_cons (step_dashes hleaf hp.place.2) hlead, hr⟩
  | positional hplain hread h ih =>
    have hfresh := Values.not_mem_of_nodup hnodup
    rw [List.append_cons] at hnodup
    exact leads_then (leads_positional hleaf hfresh hp hplain hread) fun q hq => ih hq hnodup
  | flag ha hk h ih =>
    have hfresh := Values.not_mem_of_nodup hnodup
    rw [List.append_cons] at hnodup
    exact leads_then (leads_flag hleaf hfresh hg ha hp hk) fun q hq => ih hq hnodup
  | apart ha hk hplain hread h ih =>
    have hfresh := Values.not_mem_of_nodup hnodup
    rw [List.append_cons] at hnodup
    exact leads_then (leads_apart hleaf hfresh hg ha hp hk hread hplain) fun q hq => ih hq hnodup
  | attached ha hk hread h ih =>
    have hfresh := Values.not_mem_of_nodup hnodup
    rw [List.append_cons] at hnodup
    exact leads_then (leads_attached hleaf hfresh hg ha hp hk hread) fun q hq => ih hq hnodup

/-! ## Whatever is taken -/

/-- What is left where the words of a level stop. -/
def Ends (g : Grammar σ) (l : Place) (tail : List String) : Destination σ → Prop
  | .ended => tail = []
  | .subcommand c rest => ∃ s, tail = s :: rest ∧ g.subcommands.lookup s = some c ∧ l.literal = false
  | .helpCommand rest => ∃ s, tail = s :: rest ∧ g.subcommands ≠ []

theorem scan_cons_eq_ok {p q : Progress} {s : String} {ws : List String} {d : Destination σ}
    (h : g.scan p (s :: ws) = .ok (q, d)) :
    (∃ p', g.step p s = .ok (.next p') ∧ g.scan p' ws = .ok (q, d)) ∨
      (∃ c, g.step p s = .ok (.enter c) ∧ q = p ∧ d = .subcommand c ws) ∨
      (g.step p s = .ok .helpCommand ∧ q = p ∧ d = .helpCommand ws) := by
  rw [scan] at h
  cases hstep : g.step p s with
  | error e =>
    rw [hstep] at h
    cases h
  | ok r =>
    rw [hstep] at h
    cases r with
    | next p' => exact .inl ⟨p', rfl, h⟩
    | enter c =>
      cases h
      exact .inr (.inl ⟨c, rfl, rfl, rfl⟩)
    | helpCommand =>
      cases h
      exact .inr (.inr ⟨rfl, rfl, rfl⟩)

/-- An option whose value is not met before a double dash never gets one. -/
theorem resolve_of_scan_literal {p q r : Progress} {ws : List String} {d : Destination σ} (howes : p.owes = true)
    (hl : p.literal = true) (h : g.scan p ws = .ok (q, d)) : q.resolve ≠ .ok r := by
  have hstuck {r : Progress} : p.resolve ≠ .ok r := by
    rw [Progress.resolve_of_owes howes]
    exact nofun
  cases ws with
  | nil =>
    cases h
    exact hstuck
  | cons s ws =>
    have hw : p.wantsValue = false := by rw [Progress.wantsValue_eq, hl]; rfl
    have hstep : g.step p s = (g.word p s).map .next := by
      unfold step
      rw [if_pos hl]
    rw [scan, hstep] at h
    cases hword : g.word p s with
    | error e =>
      rw [hword] at h
      cases h
    | ok p' =>
      obtain ⟨_, _, _, -, hresolve, -⟩ := (word_eq_ok_iff hw).mp hword
      exact absurd hresolve hstuck

/-- The value of an option is the word after it, and no option itself. -/
theorem scan_of_owes {vs : Values} {a : Argument} {k : ArgumentKind} {ps : List Argument} {q r : Progress}
    {ws : List String} {d : Destination σ} (h : g.scan ⟨vs, some ⟨a, k, none⟩, ps, false⟩ ws = .ok (q, d))
    (hr : q.resolve = .ok r) :
    ∃ s rest, ws = s :: rest ∧ ¬Dashed s ∧ g.scan ⟨vs, some ⟨a, k, some s⟩, ps, false⟩ rest = .ok (q, d) := by
  cases ws with
  | nil =>
    cases h
    cases hr
  | cons s ws =>
    rcases scan_cons_eq_ok h with ⟨p', hstep, hscan⟩ | ⟨c, hstep, rfl, -⟩ | ⟨hstep, rfl, -⟩
    · cases takes_of_step hstep with
      | dashes hl => exact absurd hr (resolve_of_scan_literal rfl rfl hscan)
      | option hl hlong =>
        obtain ⟨_, _, _, m, hm, -⟩ := long_eq_ok hlong
        cases hm
      | word hplain hword =>
        cases hword
        exact ⟨s, ws, rfl, hplain rfl, hscan⟩
    · cases hr
    · cases hr

/-- From `l` on the words `ws` can be told, and add to `vs₀` what `r` holds in the end. -/
def Tells (g : Grammar σ) (l : Place) (vs₀ : Values) (ws : List String) (r : Progress) (d : Destination σ) : Prop :=
  ∃ front tail vs l', ws = front ++ tail ∧ g.Reads l front vs l' ∧ r = ⟨vs₀ ++ vs, none, l'.positionals, l'.literal⟩ ∧
    (vs₀.names.Nodup → (Values.names (vs₀ ++ vs)).Nodup) ∧ g.Ends l' tail d

theorem tells_nil {vs₀ : Values} {l : Place} {ws : List String} {d : Destination σ} (h : g.Ends l ws d) :
    g.Tells l vs₀ ws ⟨vs₀, none, l.positionals, l.literal⟩ d :=
  ⟨[], ws, [], l, rfl, .nil, by rw [List.append_nil], fun hn => by rwa [List.append_nil], h⟩

theorem tells_append {l l₀ : Place} {vs₀ : Values} (item : List String) {ws : List String} {name : String}
    {v : ArgumentValue} {r : Progress} {d : Destination σ} (h : g.Tells l (vs₀ ++ [(name, v)]) ws r d)
    (hfresh : name ∉ vs₀.names)
    (hitem : ∀ {front vs l'}, g.Reads l front vs l' → g.Reads l₀ (item ++ front) ((name, v) :: vs) l') :
    g.Tells l₀ vs₀ (item ++ ws) r d := by
  obtain ⟨front, tail, vs, l', rfl, hreads, rfl, hnodup, hends⟩ := h
  refine ⟨item ++ front, tail, (name, v) :: vs, l', (List.append_assoc _ _ _).symm, hitem hreads, ?_, ?_, hends⟩
  · rw [List.append_assoc]
    rfl
  · intro hn
    rw [List.append_cons]
    apply hnodup
    rw [Values.names_append]
    exact List.Nodup.append hn (List.nodup_singleton _) (List.disjoint_singleton.mpr hfresh)

/-- What was met before and what the words say add up to what `r` holds. -/
def Accounts (g : Grammar σ) (p : Progress) (ws : List String) (r : Progress) (d : Destination σ) : Prop :=
  ∃ vs₀, p.Settles vs₀ ⟨p.positionals, p.literal⟩ ∧ g.Tells ⟨p.positionals, p.literal⟩ vs₀ ws r d

section Accounts

variable {p p' q r : Progress} {s t : String} {ws : List String} {d : Destination σ} {a : Argument} {k : ArgumentKind}

theorem accounts_end (hr : p.resolve = .ok r) (h : g.Ends ⟨p.positionals, p.literal⟩ ws d) : g.Accounts p ws r d := by
  obtain ⟨vs₀, rfl, hp⟩ := Progress.exists_settles hr
  exact ⟨vs₀, hp, tells_nil h⟩

theorem accounts_word (howes : p.owes = false) (hplain : p.literal = false → ¬Dashed s) (hword : g.word p s = .ok p')
    (h : g.Accounts p' ws r d) : g.Accounts p (s :: ws) r d := by
  obtain ⟨a, ps, m, hps, hm, rfl⟩ := (word_eq_ok_iff (Progress.wantsValue_of_owes howes)).mp hword
  obtain ⟨vs₀, rfl, hp⟩ := Progress.exists_settles hm
  obtain ⟨vs₁, hvs₁, htells⟩ := h
  obtain ⟨hfresh, v, hread, rfl⟩ := (Progress.settles_waiting_iff (l := ⟨ps, p.literal⟩)).mp hvs₁
  refine ⟨vs₀, hp, ?_⟩
  rw [hps]
  exact tells_append [s] htells hfresh (.positional hplain hread)

theorem accounts_dashes (hl : p.literal = false) (h : g.Accounts { p with literal := true } ws r d) :
    g.Accounts p ("--" :: ws) r d := by
  obtain ⟨vs₀, hvs₀, front, tail, vs, l', rfl, hreads, hrest⟩ := h
  unfold Accounts
  rw [hl]
  exact ⟨vs₀, (Progress.settles_dashes_iff hl).mp hvs₀, "--" :: front, tail, vs, l', rfl, .literal hreads, hrest⟩

variable (hl : p.literal = false) (ha : a ∈ g.options) {m : Progress} (hm : p.resolve = .ok m)

include hl ha hm

theorem accounts_flag (hk : a.kind = none) (hfresh : a.name ∉ m.values.names)
    (h : g.Accounts { m with values := m.values ++ [(a.name, .flag)] } ws r d) :
    g.Accounts p (spelled a.name none :: ws) r d := by
  obtain ⟨vs₀, rfl, hp⟩ := Progress.exists_settles hm
  unfold Accounts
  rw [hl] at hp h ⊢
  obtain ⟨vs₁, hvs₁, htells⟩ := h
  cases hvs₁
  exact ⟨vs₀, hp, tells_append [_] htells hfresh (.flag ha hk)⟩

theorem accounts_apart (hk : a.kind = some k) (hplain : ¬Dashed t)
    (h : g.Accounts { m with waiting := some ⟨a, k, some t⟩ } ws r d) :
    g.Accounts p (spelled a.name none :: t :: ws) r d := by
  obtain ⟨vs₀, rfl, hp⟩ := Progress.exists_settles hm
  unfold Accounts
  rw [hl] at hp h ⊢
  obtain ⟨vs₁, hvs₁, htells⟩ := h
  obtain ⟨hfresh, v, hread, rfl⟩ := (Progress.settles_waiting_iff (l := ⟨p.positionals, false⟩)).mp hvs₁
  exact ⟨vs₀, hp, tells_append [_, t] htells hfresh (.apart ha hk hplain hread)⟩

theorem accounts_attached (hk : a.kind = some k) (htake : m.take a k t = .ok q) (h : g.Accounts q ws r d) :
    g.Accounts p (spelled a.name (some t) :: ws) r d := by
  obtain ⟨vs₀, rfl, hp⟩ := Progress.exists_settles hm
  obtain ⟨hfresh, v, hread, rfl⟩ := Progress.take_eq_ok_iff.mp htake
  unfold Accounts
  rw [hl] at hp h ⊢
  obtain ⟨vs₁, hvs₁, htells⟩ := h
  cases hvs₁
  exact ⟨vs₀, hp, tells_append [_] htells hfresh (.attached ha hk hread)⟩

end Accounts

/-- Words that are taken can be told. -/
theorem reads_of_scan {p q r : Progress} {ws : List String} {d : Destination σ} (h : g.scan p ws = .ok (q, d))
    (hr : q.resolve = .ok r) (howes : p.owes = false) : g.Accounts p ws r d := by
  -- On the number of words: an option may take two of them.
  induction hn : ws.length using Nat.strong_induction_on generalizing p ws with
  | _ n ih =>
    subst hn
    cases ws with
    | nil =>
      cases h
      exact accounts_end hr rfl
    | cons s ws =>
      have hrest {p' : Progress} (hscan : g.scan p' ws = .ok (q, d)) (howes : p'.owes = false) :
          g.Accounts p' ws r d := ih ws.length (by simp) hscan howes rfl
      rcases scan_cons_eq_ok h with ⟨p', hstep, hscan⟩ | ⟨c, hstep, rfl, rfl⟩ | ⟨hstep, rfl, rfl⟩
      · cases takes_of_step hstep with
        | dashes hl => exact accounts_dashes hl (hrest hscan howes)
        | word hplain hword => exact accounts_word howes hplain hword (hrest hscan (owes_of_word howes hword))
        | option hl hlong =>
          obtain ⟨a, ha, rfl, m, hm, hcase⟩ := long_eq_ok hlong
          obtain ⟨vs₀, rfl, -⟩ := Progress.exists_settles hm
          rcases hcase with ⟨hk, rfl, hfresh, rfl⟩ | ⟨k, hk, rfl, rfl⟩ | ⟨k, t, hk, rfl, htake⟩
          · exact accounts_flag hl ha hm hk hfresh (hrest hscan rfl)
          · rw [hl] at hm hscan
            obtain ⟨t, rest, rfl, hplain, hscan⟩ := scan_of_owes hscan hr
            exact accounts_apart hl ha hm hk hplain (ih rest.length (by simp) hscan rfl rfl)
          · obtain ⟨-, v, -, rfl⟩ := Progress.take_eq_ok_iff.mp htake
            exact accounts_attached hl ha hm hk htake (hrest hscan rfl)
      · cases takes_of_step hstep with
        | enter hl hc => exact accounts_end hr ⟨s, rfl, hc, hl⟩
      · cases takes_of_step hstep with
        | help hc => exact accounts_end hr ⟨s, rfl, hc⟩

theorem tells_of_scan {ws : List String} {p r : Progress} {d : Destination σ} (h : g.scan g.start ws = .ok (p, d))
    (hr : p.resolve = .ok r) : g.Tells ⟨g.positionals, false⟩ [] ws r d := by
  obtain ⟨vs₀, hvs₀, htells⟩ := reads_of_scan h hr rfl
  cases hvs₀
  exact htells

/-- The words of a level without subcommands give the values that they are read as. -/
theorem values_eq_ok_iff (hleaf : g.subcommands = []) (hg : g.Distinct) {ws : List String} {vs : Values} :
    g.values ws = .ok vs ↔ vs.names.Nodup ∧ ∃ l, g.Reads ⟨g.positionals, false⟩ ws vs l := by
  constructor
  · intro h
    obtain ⟨⟨p, d⟩, hscan, h⟩ := Except.bind_eq_ok_iff.mp h
    obtain ⟨r, hr, hvs⟩ := Except.bind_eq_ok_iff.mp h
    obtain ⟨front, tail, vs', l, rfl, hreads, rfl, hnodup, hends⟩ := tells_of_scan hscan hr
    cases hvs
    cases d with
    | ended =>
      obtain rfl : tail = [] := hends
      rw [List.append_nil]
      exact ⟨hnodup List.nodup_nil, l, hreads⟩
    | subcommand c rest =>
      obtain ⟨s, -, hc, -⟩ := hends
      rw [hleaf] at hc
      cases hc
    | helpCommand rest =>
      obtain ⟨s, -, hc⟩ := hends
      exact absurd hleaf hc
  · intro ⟨hnodup, l, hreads⟩
    have hstart : g.start.Settles [] ⟨g.positionals, false⟩ := rfl
    obtain ⟨q, hlead, hq⟩ := scan_of_reads hleaf hg hreads hstart hnodup
    have hscan := hlead []
    rw [List.append_nil] at hscan
    refine Except.bind_eq_ok_iff.mpr ⟨(q, .ended), hscan, ?_⟩
    exact Except.bind_eq_ok_iff.mpr ⟨_, hq, rfl⟩

/-- The words before a subcommand are options of the level around it. -/
theorem reads_before_subcommand {ws rest : List String} {c : σ} {p r : Progress}
    (h : g.scan g.start ws = .ok (p, .subcommand c rest)) (hr : p.resolve = .ok r) :
    ∃ outer s ps, ws = outer ++ s :: rest ∧ g.subcommands.lookup s = some c ∧
      g.Reads ⟨g.positionals, false⟩ outer r.values ⟨ps, false⟩ := by
  obtain ⟨front, tail, vs, ⟨ps, lit⟩, rfl, hreads, rfl, -, s, rfl, hc, hl⟩ := tells_of_scan h hr
  obtain rfl : lit = false := hl
  exact ⟨front, s, ps, rfl, hc, hreads⟩

theorem scan_enter {s : String} {c : σ} (h : g.subcommands.lookup s = some c) (ws : List String) :
    g.scan g.start (s :: ws) = .ok (g.start, .subcommand c ws) := by
  have hstep : g.step g.start s = .ok (.enter c) := step_enter rfl rfl h
  rw [scan, hstep]

end ChainQuery.CommandLine.Grammar
