/-
  ChainQuery.Proofs.Settings.Precedence — the source that each setting is taken from.

  A source chooses a filter, a layout, both or neither. Each setting is to come from the first
  source that chooses it, in the order words, environment, file, and from the defaults where
  none does. So it is with the filter. The layout is lost on the way: the words are read a
  second time into a layer that says no where their flag is absent, and this layer stands above
  all others. Whether the flag stands among the words is all that decides; that agrees with the
  first source exactly if the flag is there, or the first other source that chooses a layout
  does not ask for lines.

  How the text of a file makes a choice does not matter here. Any reader will do: the one that
  reads a file by itself, or one that goes on to the file that this one names.

  Proved:
  - `values_of_words`: the second reading of the words gives what the first one took from them.
  - `resolve_of_choices`: the settings that choices of the environment and the file lead to;
    `resolve_alone`: the settings without either.
  - `each_setting_from_its_source`: both settings of a line, and when the layout is the one its
    first source chooses.
-/

import ChainQuery.Proofs.Settings

namespace ChainQuery.Settings

open CommandLine

/-- What a source chooses; it may leave either setting to the sources after it. -/
structure Choice where
  logFilter : Option String
  indented : Option Bool

namespace Choice

/-- How a source is read that makes the choice. -/
def layer (c : Choice) : Layer := ⟨c.logFilter.map .text, c.indented.map .truth⟩

/-- The last filter that the words give, and lines if they set the flag. -/
def ofWords (words : List String) : Choice :=
  ⟨(given "log-filter" words).getLast?, if Flagged "pretty" words then some true else none⟩

end Choice

variable {read : FileReader} {i : Invocation} {sources : Sources} {env file : Choice}

/-- Choices are read back from the words that say them again. -/
theorem values_of_words (hplain : ∀ f, i.logFilter = some f → ¬Dashed f) :
    ∃ vs, level.values (words i) = .ok vs ∧ vs.text? "log-filter" = i.logFilter ∧ vs.has "pretty" = i.indented := by
  cases hfilter : i.logFilter with
  | some f =>
    refine ⟨_, values_of_plain hfilter (hplain f hfilter), rfl, ?_⟩
    cases i.indented <;> rfl
  | none =>
    have hwords : words i = if i.indented then ["--pretty"] else [] := by
      unfold words
      rw [hfilter]
      rfl
    rw [hwords]
    cases i.indented with
    | true => exact ⟨[("pretty", .flag)], rfl, rfl, rfl⟩
    | false => exact ⟨[], rfl, rfl, rfl⟩

theorem resolve_of_layers {above below : Layer} {vs : Values} (henv : environmentLayer sources = .ok above)
    (hfile : fileLayer read sources = .ok below) (hvs : level.values (words i) = .ok vs) :
    resolveWith read i sources = ((wordsLayer vs).or (above.or (below.or .defaults))).settings := by
  unfold resolveWith
  rw [henv, hfile, hvs]
  rfl

theorem texts_or (f g h : Option String) (s : String) :
    (f.map Value.text).or ((g.map Value.text).or ((h.map Value.text).or (some (.text s)))) =
      some (.text ((f.or (g.or h)).getD s)) := by
  cases f <;> cases g <;> cases h <;> rfl

theorem resolve_of_choices (henv : environmentLayer sources = .ok env.layer)
    (hfile : fileLayer read sources = .ok file.layer) (hplain : ∀ f, i.logFilter = some f → ¬Dashed f) :
    resolveWith read i sources = .ok ⟨(i.logFilter.or (env.logFilter.or file.logFilter)).getD "warn", i.indented⟩ := by
  obtain ⟨vs, hvs, hfilter, hpretty⟩ := values_of_words hplain
  have hmerged : (wordsLayer vs).or (env.layer.or (file.layer.or .defaults)) =
      ⟨some (.text ((i.logFilter.or (env.logFilter.or file.logFilter)).getD "warn")), some (.truth i.indented)⟩ := by
    rw [← texts_or, ← hfilter, ← hpretty]
    rfl
  rw [resolve_of_layers henv hfile hvs, hmerged]
  rfl

/-- With nothing else to go by, the settings are those of the words, over the defaults. -/
theorem resolve_alone (hplain : ∀ f, i.logFilter = some f → ¬Dashed f) :
    resolve i ⟨[], none⟩ = .ok ⟨i.logFilter.getD default.logFilter, i.indented⟩ := by
  have henv : environmentLayer ⟨[], none⟩ = .ok (Choice.layer ⟨none, none⟩) := rfl
  have hfile : fileLayer readAlone ⟨[], none⟩ = .ok (Choice.layer ⟨none, none⟩) := rfl
  have hresolve := resolve_of_choices henv hfile hplain
  rwa [Option.or_none, Option.or_none] at hresolve

/-! ## The first source -/

theorem filter_of_sources (c d e : Choice) :
    [c, d, e].findSome? Choice.logFilter = c.logFilter.or (d.logFilter.or e.logFilter) := by
  simp only [List.findSome?_cons, List.findSome?_nil]
  cases c.logFilter <;> cases d.logFilter <;> cases e.logFilter <;> rfl

/-- However files are read, each setting of a line comes from the first source that chooses it: the
    filter always, and the layout exactly if the line has its flag, or the first of environment
    and file that chooses one does not ask for lines. For without the flag nothing does. -/
theorem each_setting_from_its_source {words : List String} (hparse : Invocation.parse words = .ok i)
    (henv : environmentLayer sources = .ok env.layer) (hfile : fileLayer read sources = .ok file.layer)
    (hplain : ∀ f ∈ given "log-filter" words, ¬Dashed f) :
    ∃ settings, resolveWith read i sources = .ok settings ∧
      settings.logFilter = ([Choice.ofWords words, env, file].findSome? Choice.logFilter).getD "warn" ∧
      (settings.indented = ([Choice.ofWords words, env, file].findSome? Choice.indented).getD false ↔
        Flagged "pretty" words ∨ [env, file].findSome? Choice.indented ≠ some true) ∧
      (settings.indented = true ↔ Flagged "pretty" words) := by
  have htold := told_of_parse hparse
  have hlast : i.logFilter = (given "log-filter" words).getLast? := htold.logFilter
  have hresolve := resolve_of_choices henv hfile fun f hf => hplain f (List.mem_of_getLast? (hlast.symm.trans hf))
  refine ⟨_, hresolve, ?_, ?_, htold.indented⟩
  · rw [filter_of_sources, hlast]
    rfl
  · have hindented : i.indented = true ↔ Flagged "pretty" words := htold.indented
    rw [List.findSome?_cons]
    by_cases hflag : Flagged "pretty" words
    · simp [Choice.ofWords, hflag, hindented.mpr hflag]
    · have hlines : i.indented = false := Bool.eq_false_iff.mpr fun h => hflag (hindented.mp h)
      simp only [Choice.ofWords, hlines, hflag, false_or]
      rcases [env, file].findSome? Choice.indented with _ | b
      · simp
      · cases b <;> simp

/-- A variable says no where the file says yes, and both give a filter. The file holds more than that. -/
theorem a_variable_before_the_file :
    let words := ["request", "fetch-last-height"]
    let i : Invocation := ⟨none, false, .request .fetchLastHeight⟩
    let text := "log_filter = \"error\"\npretty = true\nlimits = [1.5e3, 0x7F,\n]\n" ++
      "[[server]]\nsince = 1979-05-27 07:32:00Z\npretty = \x7b after = -inf \x7d # ever\n"
    let sources : Sources := ⟨[("OBELISK_LOG_FILTER", " info "), ("OBELISK_PRETTY", "false")], some (.text text)⟩
    let env : Choice := ⟨some "info", some false⟩
    let file : Choice := ⟨some "error", some true⟩
    Invocation.parse words = .ok i ∧ environmentLayer sources = .ok env.layer ∧
      fileLayer readAlone sources = .ok file.layer ∧ (∀ f ∈ given "log-filter" words, ¬Dashed f) ∧
      ∃ settings, resolve i sources = .ok settings ∧
        settings.logFilter = ([Choice.ofWords words, env, file].findSome? Choice.logFilter).getD "warn" ∧
        (settings.indented = ([Choice.ofWords words, env, file].findSome? Choice.indented).getD false ↔
          Flagged "pretty" words ∨ [env, file].findSome? Choice.indented ≠ some true) ∧
        (settings.indented = true ↔ Flagged "pretty" words) := by
  intro words i text sources env file
  have hparse : Invocation.parse words = .ok i := by decide +kernel
  have henv : environmentLayer sources = .ok env.layer := by decide +kernel
  have hfile : fileLayer readAlone sources = .ok file.layer := by decide +kernel
  have hnone : given "log-filter" words = [] := by decide +kernel
  have hplain : ∀ f ∈ given "log-filter" words, ¬Dashed f := by
    rw [hnone]
    exact fun _ h => absurd h List.not_mem_nil
  exact ⟨hparse, henv, hfile, hplain, each_setting_from_its_source hparse henv hfile hplain⟩

/-- A variable asks for lines, the line has no flag and there is no file, and there are no lines. -/
theorem a_layout_without_flag_is_lost :
    let words := ["request", "fetch-last-height"]
    let i : Invocation := ⟨none, false, .request .fetchLastHeight⟩
    let sources : Sources := ⟨[("OBELISK_PRETTY", "true")], none⟩
    let env : Choice := ⟨none, some true⟩
    let file : Choice := ⟨none, none⟩
    Invocation.parse words = .ok i ∧ environmentLayer sources = .ok env.layer ∧
      fileLayer readAlone sources = .ok file.layer ∧
      ([Choice.ofWords words, env, file].findSome? Choice.indented).getD false = true ∧
      resolve i sources = .ok ⟨"warn", false⟩ := by
  intro words i sources env file
  refine ⟨?_, ?_, ?_, ?_, ?_⟩ <;> decide +kernel

end ChainQuery.Settings
