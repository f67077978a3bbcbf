/-
  ChainQuery.Proofs.Settings — the choices of the command line, read a second time.

  What the command line chose is written out as words again, the filter as the word after its
  option, and the words are read by a level that has nothing but these two choices. A word
  after an option is its value only if it does not begin with a dash, or is a single one. So a
  filter is taken over as it was given unless it begins with a dash, which it can when an
  equals sign attaches it to its option; such a filter is a mistake the second time, and there
  are no settings then.

  Proved:
  - `plain_of_reads`: the word after the name of an option is its value, and no option.
  - `resolve_of_plain`, `resolve_of_dashed`: what the second reading makes of a filter.
  - `filter_given_once`: the settings of a line that gives the filter once, with no other
    source beside it.
-/

import ChainQuery.Proofs.CommandLine.Globals
import ChainQuery.Settings.Resolve

namespace ChainQuery

namespace CommandLine.Grammar

/-- Where an option that takes a value is named, the next word is that value. -/
theorem plain_of_reads {σ : Type} {g : Grammar σ} {name s : String} {ws : List String} {ps : List Argument} {vs : Values}
    {l : Place} (hname : name ≠ "" ∧ '=' ∉ name.toList) (hkind : ∀ a ∈ g.options, a.name = name → a.kind ≠ none)
    (h : g.Reads ⟨ps, false⟩ (spelled name none :: s :: ws) vs l) : ¬Dashed s := by
  generalize hwords : spelled name none :: s :: ws = words at h
  cases h with
  | nil => cases hwords
  | positional hplain hread h =>
    obtain ⟨rfl, -⟩ := List.cons.inj hwords
    exact absurd ⟨'-', name.toList, toList_spelled_none name⟩ (hplain rfl)
  | literal h => exact absurd (List.cons.inj hwords).1 (spelled_ne_dashes hname.1)
  | flag ha hk h =>
    have heq := (String.append_right_inj _).mp (List.cons.inj hwords).1
    exact absurd hk (hkind _ ha heq.symm)
  | apart ha hk hplain hread h =>
    obtain ⟨-, hrest⟩ := List.cons.inj hwords
    obtain ⟨rfl, -⟩ := List.cons.inj hrest
    exact hplain
  | attached ha hk hread h => exact absurd (List.cons.inj hwords).1.symm (spelled_some_ne hname.2)

end CommandLine.Grammar

namespace Settings

open CommandLine
open CommandLine.Grammar (spelled)

variable {i : Invocation} {f : String}

theorem distinct_words : level.Distinct := ⟨by decide, by decide⟩

theorem words_of_filter (h : i.logFilter = some f) :
    words i = spelled "log-filter" none :: f :: if i.indented then ["--pretty"] else [] := by
  unfold words
  rw [h]
  rfl

/-- A filter that is no option is read again as it is. -/
theorem values_of_plain (h : i.logFilter = some f) (hf : ¬Dashed f) :
    level.values (words i) = .ok (("log-filter", .text f) :: if i.indented then [("pretty", .flag)] else []) := by
  rw [words_of_filter h, Grammar.values_eq_ok_iff rfl distinct_words]
  cases i.indented with
  | false =>
    refine ⟨List.nodup_singleton _, ⟨[], false⟩, ?_⟩
    exact .apart (a := .option "log-filter" "LOG_FILTER" .text) (by decide) rfl hf rfl .nil
  | true =>
    refine ⟨by show List.Nodup ["log-filter", "pretty"]; decide, ⟨[], false⟩, ?_⟩
    exact .apart (a := .option "log-filter" "LOG_FILTER" .text) (by decide) rfl hf rfl
      (.flag (a := .flag "pretty") (by decide) rfl .nil)

theorem values_of_dashed (h : i.logFilter = some f) (hf : Dashed f) : ∃ e, level.values (words i) = .error e := by
  cases hvs : level.values (words i) with
  | error e => exact ⟨e, rfl⟩
  | ok vs =>
    rw [words_of_filter h] at hvs
    obtain ⟨-, l, hreads⟩ := (Grammar.values_eq_ok_iff rfl distinct_words).mp hvs
    exact absurd hf (Grammar.plain_of_reads (by decide) (by decide) hreads)

theorem resolve_of_plain (h : i.logFilter = some f) (hf : ¬Dashed f) : resolve i ⟨[], none⟩ = .ok ⟨f, i.indented⟩ := by
  unfold resolve resolveWith
  rw [values_of_plain h hf]
  cases i.indented <;> rfl

theorem resolve_of_dashed (h : i.logFilter = some f) (hf : Dashed f) :
    ∃ e, resolve i ⟨[], none⟩ = .error (.words e) := by
  obtain ⟨e, he⟩ := values_of_dashed h hf
  refine ⟨e, ?_⟩
  unfold resolve resolveWith
  rw [he]
  rfl

/-- The filter that a line gives once, in either spelling, is the filter of its settings, with
    the layout it asks for, unless it begins with a dash and goes on: then there are none. -/
theorem filter_given_once {words : List String} (hparse : Invocation.parse words = .ok i)
    (hgiven : given "log-filter" words = [f]) :
    i.logFilter = some f ∧
    (¬Dashed f → ∃ settings, resolve i ⟨[], none⟩ = .ok settings ∧ settings.logFilter = f ∧
      (settings.indented = true ↔ Flagged "pretty" words)) ∧
    (Dashed f → ∃ e, resolve i ⟨[], none⟩ = .error (.words e)) := by
  have htold := told_of_parse hparse
  have hfilter : i.logFilter = some f := by
    have := htold.logFilter
    rwa [hgiven] at this
  refine ⟨hfilter, ?_, resolve_of_dashed hfilter⟩
  intro hf
  exact ⟨_, resolve_of_plain hfilter hf, rfl, htold.indented⟩

/-- A filter with an equals sign in it, attached to its option by another one. -/
theorem an_attached_filter_is_kept :
    let words := ["--log-filter=a=-b", "request", "--pretty", "fetch-last-height"]
    let i : Invocation := ⟨some "a=-b", true, .request .fetchLastHeight⟩
    Invocation.parse words = .ok i ∧ given "log-filter" words = ["a=-b"] ∧
      ∃ settings, resolve i ⟨[], none⟩ = .ok settings ∧ settings.logFilter = "a=-b" ∧
        (settings.indented = true ↔ Flagged "pretty" words) := by
  intro words i
  have hparse : Invocation.parse words = .ok i := by decide +kernel
  have hgiven : given "log-filter" words = ["a=-b"] := by decide +kernel
  have hplain : ¬Dashed "a=-b" := not_dashed_of_head (by decide)
  exact ⟨hparse, hgiven, (filter_given_once hparse hgiven).2.1 hplain⟩

/-- A filter that begins with a dash is parsed, and then there are no settings. -/
theorem a_dashed_filter_is_lost :
    let words := ["--log-filter=-x", "request", "fetch-last-height"]
    let i : Invocation := ⟨some "-x", false, .request .fetchLastHeight⟩
    Invocation.parse words = .ok i ∧ given "log-filter" words = ["-x"] ∧
      ∀ settings, resolve i ⟨[], none⟩ ≠ .ok settings := by
  intro words i
  have hparse : Invocation.parse words = .ok i := by decide +kernel
  have hgiven : given "log-filter" words = ["-x"] := by decide +kernel
  have hdashed : Dashed "-x" := ⟨'x', [], rfl⟩
  obtain ⟨e, he⟩ : ∃ e, resolve i ⟨[], none⟩ = .error (.words e) := resolve_of_dashed rfl hdashed
  refine ⟨hparse, hgiven, ?_⟩
  intro settings hsettings
  rw [he] at hsettings
  cases hsettings

end Settings

end ChainQuery
