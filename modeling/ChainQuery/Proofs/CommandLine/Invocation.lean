/-
  ChainQuery.Proofs.CommandLine.Invocation — a whole line of words, level by level.

  A line names a level inside a level, and the words after the last name are read there.
  Those before it are options that every level has, so that an option of the last level
  alone is given its texts by the last words alone.

  Proved:
  - `values_of_parse`: the words of a request are, in the end, those of its own level.
  - `locator_of_parse`: a header is asked for by a height or by a hash that the line gives,
    and it gives no other.
  - `parse_of_values`: the values at a request's level are the request that is parsed.
-/

import ChainQuery.CommandLine.Invocation
import ChainQuery.Proofs.CommandLine.Given

namespace ChainQuery.CommandLine

/-! ## The levels -/

theorem distinct_topLevel : topLevel.Distinct := ⟨by decide, by decide⟩

theorem distinct_requestLevel : requestLevel.Distinct := ⟨by decide, by decide⟩

theorem distinct_level (name : RequestName) : name.level.Distinct := by
  cases name <;> exact ⟨by decide, by decide⟩

theorem not_dashed_commands :
    (∀ e ∈ topLevel.subcommands, ¬Dashed e.1) ∧ ∀ e ∈ requestLevel.subcommands, ¬Dashed e.1 := by
  constructor
  all_goals
    intro e he
    apply not_dashed_of_head
    revert e
    decide

/-! ## What a line says -/

theorem values_of_leafAction {α : Type} {level : Grammar Empty} {words : List String}
    {f : Values → Except UsageError α} {globals : Globals} {a : α} (h : leafAction level words f = .ok (globals, a)) :
    ∃ vs, level.values words = .ok vs ∧ f vs = .ok a := by
  obtain ⟨vs, hvs, h⟩ := Except.bind_eq_ok_iff.mp h
  obtain ⟨a', ha, h⟩ := Except.bind_eq_ok_iff.mp h
  cases h
  exact ⟨vs, hvs, ha⟩

/-- A name that no option of every level has. -/
def Foreign (name : String) : Prop := (name ≠ "" ∧ '=' ∉ name.toList) ∧ ∀ a ∈ globalOptions, a.name ≠ name

theorem values_of_parseRequest {words : List String} {globals : Globals} {action : RequestAction}
    (h : parseRequest words = .ok (globals, action)) :
    ∃ name inner vs, (RequestName.level name).values inner = .ok vs ∧ vs.requestAction name = .ok action ∧
      ∀ n, Foreign n → given n words = given n inner := by
  obtain ⟨⟨p, d⟩, hscan, h⟩ := Except.bind_eq_ok_iff.mp h
  cases d with
  | ended => cases h
  | helpCommand rest => cases h
  | subcommand name rest =>
    obtain ⟨⟨inner, action'⟩, hleaf, h⟩ := Except.bind_eq_ok_iff.mp h
    obtain ⟨r, hr, h⟩ := Except.bind_eq_ok_iff.mp h
    cases h
    obtain ⟨vs, hvs, haction⟩ := values_of_leafAction hleaf
    refine ⟨name, rest, vs, hvs, haction, fun n hn => ?_⟩
    exact Grammar.given_of_subcommand distinct_requestLevel rfl not_dashed_commands.2 hn.1 hn.2 hscan hr

/-- The words of a request that is parsed are those of one level in the end, and what they give to
    options of that level alone they give there. -/
theorem values_of_parse {words : List String} {i : Invocation} {action : RequestAction}
    (h : Invocation.parse words = .ok i) (hi : i.action = .request action) :
    ∃ name inner vs, (RequestName.level name).values inner = .ok vs ∧ vs.requestAction name = .ok action ∧
      ∀ n, Foreign n → given n words = given n inner := by
  obtain ⟨⟨p, d⟩, hscan, h⟩ := Except.bind_eq_ok_iff.mp h
  cases d with
  | ended => cases h
  | helpCommand rest => cases h
  | subcommand name rest =>
    obtain ⟨⟨globals, action'⟩, hparse, h⟩ := Except.bind_eq_ok_iff.mp h
    obtain ⟨r, hr, h⟩ := Except.bind_eq_ok_iff.mp h
    cases h
    obtain rfl : action' = .request action := hi
    cases name with
    | request =>
      obtain ⟨⟨_, _⟩, hrequest, h⟩ := Except.bind_eq_ok_iff.mp hparse
      cases h
      obtain ⟨name, inner, vs, hvs, haction, hgiven⟩ := values_of_parseRequest hrequest
      refine ⟨name, inner, vs, hvs, haction, fun n hn => ?_⟩
      rw [← hgiven n hn]
      exact Grammar.given_of_subcommand distinct_topLevel rfl not_dashed_commands.1 hn.1 hn.2 hscan hr
    | decode =>
      obtain ⟨vs, -, haction⟩ := values_of_leafAction hparse
      obtain ⟨_, -, haction⟩ := Except.bind_eq_ok_iff.mp haction
      obtain ⟨_, -, haction⟩ := Except.bind_eq_ok_iff.mp haction
      cases haction
    | commands =>
      obtain ⟨vs, -, haction⟩ := values_of_leafAction hparse
      cases haction

/-! ## A header's height or hash -/

section BlockHeader

variable {vs : Values} {height : Option UInt32} {hash : Option Hash}

theorem blockHeader_of_requestAction {name : RequestName}
    (h : vs.requestAction name = .ok (.fetchBlockHeader height hash)) :
    name = .fetchBlockHeader ∧ vs.blockHeader = .ok (.fetchBlockHeader height hash) := by
  cases name with
  | fetchBlockHeader => exact ⟨rfl, h⟩
  | fetchLastHeight => cases h
  | fetchStealth =>
    obtain ⟨_, -, h⟩ := Except.bind_eq_ok_iff.mp h
    obtain ⟨_, -, h⟩ := Except.bind_eq_ok_iff.mp h
    cases h
  | subscribe | renew =>
    obtain ⟨_, -, h⟩ := Except.bind_eq_ok_iff.mp h
    obtain ⟨_, -, h⟩ := Except.bind_eq_ok_iff.mp h
    obtain ⟨_, -, h⟩ := Except.bind_eq_ok_iff.mp h
    cases h
  | _ =>
    obtain ⟨_, -, h⟩ := Except.bind_eq_ok_iff.mp h
    cases h

theorem one_of_blockHeader (h : vs.blockHeader = .ok (.fetchBlockHeader height hash)) :
    height = vs.height? ∧ hash = vs.hash? ∧
      ((∃ v, vs.get? "height" = some v ∧ vs.get? "hash" = none) ∨
        ∃ v, vs.get? "hash" = some v ∧ vs.get? "height" = none) := by
  unfold Values.blockHeader Values.has at h
  cases hheight : vs.get? "height" with
  | none =>
    cases hhash : vs.get? "hash" with
    | none =>
      rw [hheight, hhash] at h
      cases h
    | some v =>
      rw [hheight, hhash] at h
      cases h
      exact ⟨rfl, rfl, .inr ⟨v, rfl, rfl⟩⟩
  | some v =>
    cases hhash : vs.get? "hash" with
    | none =>
      rw [hheight, hhash] at h
      cases h
      exact ⟨rfl, rfl, .inl ⟨v, rfl, rfl⟩⟩
    | some w =>
      rw [hheight, hhash] at h
      cases h

/-- What a text is read as that is given to an option of `kind`. -/
theorem read_of_gives (kind : ArgumentKind) {name s : String} {v : ArgumentValue}
    (hkind : ∀ a ∈ RequestName.fetchBlockHeader.level.options, a.name = name → a.kind = some kind)
    (h : RequestName.fetchBlockHeader.level.Gives name s v) : kind.read s = .ok v := by
  obtain ⟨a, ha, hname, k, hk, hread⟩ := h
  have := (hkind a ha hname).symm.trans hk
  cases this
  exact hread

/-- A header is asked for by what is given to one option, and nothing is given to the other. -/
theorem locator_of_parse {words : List String} {i : Invocation} (h : Invocation.parse words = .ok i)
    (hi : i.action = .request (.fetchBlockHeader height hash)) :
    (∃ s n, given "height" words = [s] ∧ given "hash" words = [] ∧ readHeight s = .ok n ∧ height = some n ∧
        hash = none) ∨
      ∃ s h, given "hash" words = [s] ∧ given "height" words = [] ∧ Hash.ofText s = .ok h ∧ height = none ∧
        hash = some h := by
  obtain ⟨name, inner, vs, hvs, haction, hgiven⟩ := values_of_parse h hi
  obtain ⟨rfl, hheader⟩ := blockHeader_of_requestAction haction
  obtain ⟨rfl, rfl, hone⟩ := one_of_blockHeader hheader
  have hdistinct := distinct_level .fetchBlockHeader
  have hheight : List.Forall₂ (RequestName.fetchBlockHeader.level.Gives "height") (given "height" inner)
      (vs.get? "height").toList := Grammar.given_of_values rfl hdistinct (by decide) (by decide) (by decide) hvs
  have hhash : List.Forall₂ (RequestName.fetchBlockHeader.level.Gives "hash") (given "hash" inner)
      (vs.get? "hash").toList := Grammar.given_of_values rfl hdistinct (by decide) (by decide) (by decide) hvs
  rw [hgiven "height" ⟨by decide, by decide⟩, hgiven "hash" ⟨by decide, by decide⟩]
  rcases hone with ⟨v, hsome, hnone⟩ | ⟨v, hsome, hnone⟩
  · rw [hsome] at hheight
    rw [hnone] at hhash
    obtain ⟨s, hs, hgives⟩ := Grammar.eq_singleton_of_gives hheight
    obtain ⟨n, hn, rfl⟩ := Except.map_eq_ok_iff.mp (read_of_gives .height (by decide) hgives)
    exact .inl ⟨s, n, hs, List.forall₂_nil_right_iff.mp hhash, hn, by rw [Values.height?, hsome],
      by rw [Values.hash?, hnone]⟩
  · rw [hnone] at hheight
    rw [hsome] at hhash
    obtain ⟨s, hs, hgives⟩ := Grammar.eq_singleton_of_gives hhash
    obtain ⟨h, hh, rfl⟩ := ArgumentKind.read_hash_eq_ok (read_of_gives .hash (by decide) hgives)
    exact .inr ⟨s, h, hs, List.forall₂_nil_right_iff.mp hheight, hh, by rw [Values.height?, hnone],
      by rw [Values.hash?, hsome]⟩

end BlockHeader

/-! ## What a request's words come to -/

theorem within_nothing (inner : Globals) : (Globals.ofValues []).within inner = inner := by
  show (⟨inner.logFilter.or none, inner.indented || false⟩ : Globals) = inner
  rw [Option.or_none, Bool.or_false]

/-- A request is what the values at its level make it, and its settings are given there. -/
theorem parse_of_values {s : String} {name : RequestName} {words : List String} {vs : Values} {action : RequestAction}
    (hs : requestLevel.subcommands.lookup s = some name) (hvs : name.level.values words = .ok vs)
    (haction : vs.requestAction name = .ok action) :
    Invocation.parse ("request" :: s :: words) =
      .ok ⟨vs.text? "log-filter", vs.has "pretty", .request action⟩ := by
  have hleaf : leafAction name.level words (fun vs => vs.requestAction name) = .ok (Globals.ofValues vs, action) :=
    Except.bind_eq_ok_iff.mpr ⟨vs, hvs, Except.bind_eq_ok_iff.mpr ⟨action, haction, rfl⟩⟩
  have hrequest : parseRequest (s :: words) = .ok ((Globals.ofValues []).within (Globals.ofValues vs), action) :=
    Except.bind_eq_ok_iff.mpr ⟨_, Grammar.scan_enter hs words,
      Except.bind_eq_ok_iff.mpr ⟨_, hleaf, Except.bind_eq_ok_iff.mpr ⟨_, rfl, rfl⟩⟩⟩
  have htop : topLevel.scan topLevel.start ("request" :: s :: words) =
      .ok (topLevel.start, .subcommand .request (s :: words)) := Grammar.scan_enter rfl _
  have hparse : TopName.request.parse (s :: words) =
      .ok ((Globals.ofValues []).within (Globals.ofValues vs), .request action) :=
    Except.bind_eq_ok_iff.mpr ⟨_, hrequest, rfl⟩
  have hwhole : Invocation.parse ("request" :: s :: words) =
      .ok (let globals := (Globals.ofValues []).within ((Globals.ofValues []).within (Globals.ofValues vs))
        ⟨globals.logFilter, globals.indented, .request action⟩) :=
    Except.bind_eq_ok_iff.mpr ⟨_, htop, Except.bind_eq_ok_iff.mpr ⟨_, hparse,
      Except.bind_eq_ok_iff.mpr ⟨_, rfl, rfl⟩⟩⟩
  rw [hwhole, within_nothing, within_nothing]
  rfl

end ChainQuery.CommandLine
