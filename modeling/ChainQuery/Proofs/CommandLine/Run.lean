/-
  ChainQuery.Proofs.CommandLine.Run — what a run of the tool prints, and what it does not.

  An action comes to a document or fails, and only then is anything put out. So a failure
  leaves the output as it was, and the document of a request is all that its words print.

  Proved:
  - `execute_of_perform_ok`, `execute_of_perform_error`: an action and its output.
  - `stdout_of_failed_process`: a process that fails prints nothing.
  - `perform_ne_noLocator`: no words lead to a header's request without a height or a hash.
  - `prepare_of_parse`: with no variables and no file, words that choose no filter lack nothing.
  - `tool_encodes_requests`: the words of every call print the request that its encoder
    builds, and the two above.
-/

import ChainQuery.Proofs.CommandLine.Request
import ChainQuery.Proofs.Settings.Precedence

namespace ChainQuery.CommandLine

variable {a : Action} {s : Settings} {f : Failure}

theorem execute_of_perform_ok {t : Traced Json} (h : a.perform = .ok t) (out : String) :
    (execute a s).run out = (.ok t.events, out ++ t.value.print (layoutOf s)) := by
  unfold execute
  rw [h]
  rfl

theorem execute_of_perform_error (h : a.perform = .error f) (out : String) :
    (execute a s).run out = (.error f, out) := by
  unfold execute
  rw [h]
  rfl

theorem execute_eq_error {out out' : String} (h : (execute a s).run out = (.error f, out')) :
    a.perform = .error f ∧ out' = out := by
  cases hp : a.perform with
  | ok t =>
    rw [execute_of_perform_ok hp] at h
    cases h
  | error e =>
    rw [execute_of_perform_error hp] at h
    cases h
    exact ⟨rfl, rfl⟩

theorem failureExit_code (f : Failure) (h : (failureExit f).code ≠ 0) : (failureExit f).stdout = "" := by
  cases f with
  | usage e => cases e <;> first | rfl | exact absurd rfl h
  | settings e => cases e <;> rfl
  | logFilter text e => cases e <;> rfl
  | _ => rfl

theorem stdout_of_failed_process {words : List String} {sources : Sources} (h : (process words sources).code ≠ 0) :
    (process words sources).stdout = "" := by
  unfold process at h ⊢
  cases hprepare : prepare words sources with
  | error f =>
    rw [hprepare] at h
    exact failureExit_code f h
  | ok ready =>
    obtain ⟨i, s, filter⟩ := ready
    rw [hprepare] at h
    cases hp : i.action.perform with
    | ok t =>
      simp only [execute_of_perform_ok hp] at h
      exact absurd rfl h
    | error f => simp only [execute_of_perform_error hp]

/-! ## No header without a locator -/

theorem parseHex_ne_noLocator (what : HexArgument) (hex : String) : parseHex what hex ≠ .error .noLocator := by
  unfold parseHex
  cases Hex.decode hex <;> exact nofun

theorem parseTransaction_ne_noLocator (hex : String) : parseTransaction hex ≠ .error .noLocator := by
  refine Except.bind_ne_error (parseHex_ne_noLocator _ hex) fun bs => ?_
  cases Transaction.decode.whole bs <;> exact nofun

theorem parsePrefix_ne_noLocator (bits : UInt64) (hex : String) : parsePrefix bits hex ≠ .error .noLocator :=
  Except.bind_ne_error (parseHex_ne_noLocator _ hex) fun _ => nofun

theorem checked_ne_noLocator (r : Except PrefixTooLong Request) : checked r ≠ .error .noLocator := by
  cases r <;> exact nofun

theorem build_eq_noLocator {r : RequestAction} (h : r.build = .error .noLocator) : r = .fetchBlockHeader none none := by
  cases r with
  | fetchBlockHeader height hash =>
    cases height with
    | some n => cases h
    | none =>
      cases hash with
      | some h' => cases h
      | none => rfl
  | broadcastTransaction hex => exact absurd h (Except.bind_ne_error (parseTransaction_ne_noLocator hex) fun _ => nofun)
  | validateTransaction hex => exact absurd h (Except.bind_ne_error (parseTransaction_ne_noLocator hex) fun _ => nofun)
  | fetchStealth bits hex n =>
    exact absurd h (Except.bind_ne_error (parsePrefix_ne_noLocator bits hex) fun _ => checked_ne_noLocator _)
  | subscribe kind bits hex =>
    exact absurd h (Except.bind_ne_error (parsePrefix_ne_noLocator bits hex) fun _ => checked_ne_noLocator _)
  | renew kind bits hex =>
    exact absurd h (Except.bind_ne_error (parsePrefix_ne_noLocator bits hex) fun _ => checked_ne_noLocator _)
  | _ => cases h

theorem perform_ne_noLocator {words : List String} {i : Invocation} (h : Invocation.parse words = .ok i) :
    i.action.perform ≠ .error .noLocator := by
  cases haction : i.action with
  | request r =>
    refine Except.bind_ne_error (fun hbuild => ?_) fun _ => nofun
    rw [build_eq_noLocator hbuild] at haction
    rcases locator_of_parse h haction with ⟨_, _, -, -, -, hnone, -⟩ | ⟨_, _, -, -, -, -, hnone⟩
    · cases hnone
    · cases hnone
  | decode c hex =>
    refine Except.bind_ne_error (parseHex_ne_noLocator _ hex) fun bs => ?_
    dsimp only
    cases (Reply.decode c bs).value <;> exact nofun
  | commands => exact nofun

/-! ## Requests -/

theorem perform_of_build_ok {action : RequestAction} {r : Request} (h : action.build = .ok r) :
    (Action.request action).perform = .ok ⟨r.toJson, [.encodedRequest r.command r.payload.length]⟩ :=
  Except.bind_eq_ok_iff.mpr ⟨r, h, rfl⟩

theorem perform_of_build_error {action : RequestAction} (h : action.build = .error f) :
    (Action.request action).perform = .error f := by
  show (action.build >>= fun r => _) = _
  rw [h]
  rfl

theorem process_of_prepare {words : List String} {sources : Sources} {i : Invocation} {filter : LogFilter}
    (h : prepare words sources = .ok (i, s, filter)) :
    process words sources =
      match i.action.perform with
      | .ok t => ⟨0, t.value.print (layoutOf s), "", (t.events.filter filter.shows).map Event.line⟩
      | .error f => ⟨1, "", reportText f, []⟩ := by
  unfold process
  rw [h]
  cases hp : i.action.perform with
  | ok t => simp only [execute_of_perform_ok hp, String.empty_append]
  | error f => simp only [execute_of_perform_error hp]

theorem invocation_of_prepare {words : List String} {sources : Sources} {i i' : Invocation} {filter : LogFilter}
    (h : prepare words sources = .ok (i, s, filter)) (hparse : Invocation.parse words = .ok i') : i = i' := by
  obtain ⟨⟨j, t⟩, hresolve, h⟩ := Except.bind_eq_ok_iff.mp h
  obtain ⟨_, -, h⟩ := Except.bind_eq_ok_iff.mp h
  cases h
  unfold resolve at hresolve
  rw [hparse] at hresolve
  dsimp only at hresolve
  split at hresolve
  · cases hresolve
  · cases hresolve
    rfl

/-- The default filter can be read. -/
theorem exists_default_filter : ∃ filter, LogFilter.parse Settings.default.logFilter = .ok filter := by
  cases h : LogFilter.parse Settings.default.logFilter with
  | ok filter => exact ⟨filter, rfl⟩
  | error e =>
    have hok : (LogFilter.parse Settings.default.logFilter).isOk = true := by decide +kernel
    rw [h] at hok
    cases hok

theorem prepare_of_parse {words : List String} {i : Invocation} (hparse : Invocation.parse words = .ok i)
    (hfilter : i.logFilter = none) :
    ∃ filter, prepare words ⟨[], none⟩ = .ok (i, ⟨Settings.default.logFilter, i.indented⟩, filter) := by
  have hresolve : Settings.resolve i ⟨[], none⟩ = .ok ⟨Settings.default.logFilter, i.indented⟩ := by
    have := Settings.resolve_alone fun f hf => by rw [hfilter] at hf; cases hf
    rwa [hfilter] at this
  have hready : resolve words ⟨[], none⟩ = .ok (i, ⟨Settings.default.logFilter, i.indented⟩) := by
    unfold resolve
    rw [hparse]
    dsimp only
    rw [hresolve]
  obtain ⟨filter, hread⟩ := exists_default_filter
  have hfiltered : readFilter ⟨Settings.default.logFilter, i.indented⟩ = .ok filter := by
    unfold readFilter
    rw [hread]
  exact ⟨filter, Except.bind_eq_ok_iff.mpr ⟨_, hready, Except.bind_eq_ok_iff.mpr ⟨_, hfiltered, rfl⟩⟩⟩

/-- The tool encodes what the encoders encode. Every call can be said in words, and these are parsed;
    carried out, they print one document of the request that the call's encoder builds, and fail as it
    fails for a prefix that is too long. Without variables and a file nothing keeps them from being
    carried out. A header is asked for by what is given to just one of height
    and hash, and no words ask for one without both. What fails prints nothing. -/
theorem tool_encodes_requests :
    (∀ c : Call, ∃ words, c.Spelled words) ∧
    (∀ (c : Call) words, c.Spelled words → c.WitnessesFit →
      ∃ action, Invocation.parse ("request" :: words) = .ok ⟨none, false, .request action⟩ ∧
        (∀ s out, (execute (.request action) s).run out =
          match c.request with
          | .ok r => (.ok [.encodedRequest r.command r.payload.length],
              out ++ (Json.object [("command", .string r.command.name), ("payload", .string (Hex.encode r.payload))]).print
                (layoutOf s))
          | .error e => (.error (.prefixTooLong e), out)) ∧
        (∃ filter, prepare ("request" :: words) ⟨[], none⟩ =
          .ok (⟨none, false, .request action⟩, Settings.default, filter)) ∧
        ∀ sources i s filter, prepare ("request" :: words) sources = .ok (i, s, filter) →
          match c.request with
          | .ok r => (process ("request" :: words) sources).code = 0 ∧ (process ("request" :: words) sources).stdout =
              (Json.object [("command", .string r.command.name), ("payload", .string (Hex.encode r.payload))]).print
                (layoutOf s)
          | .error e => process ("request" :: words) sources = ⟨1, "", reportText (.prefixTooLong e), []⟩) ∧
    (∀ words i height hash, Invocation.parse words = .ok i → i.action = .request (.fetchBlockHeader height hash) →
      (∃ s n, given "height" words = [s] ∧ given "hash" words = [] ∧ readHeight s = .ok n ∧
        RequestAction.build (.fetchBlockHeader height hash) = .ok (Request.fetchBlockHeader (.height n))) ∨
      ∃ s h, given "hash" words = [s] ∧ given "height" words = [] ∧ Hash.ofText s = .ok h ∧
        RequestAction.build (.fetchBlockHeader height hash) = .ok (Request.fetchBlockHeader (.hash h))) ∧
    (∀ words i s out, Invocation.parse words = .ok i → ((execute i.action s).run out).1 ≠ .error .noLocator) ∧
    (∀ a s f out out', (execute a s).run out = (.error f, out') → out' = out) ∧
    ∀ words sources, (process words sources).code ≠ 0 → (process words sources).stdout = "" := by
  refine ⟨Call.exists_spelled, ?_, ?_, ?_, ?_, fun words sources => stdout_of_failed_process⟩
  · intro c words hspelled hfit
    obtain ⟨action, hparse, hbuild⟩ := parse_of_spelled hspelled hfit
    have halone := prepare_of_parse hparse rfl
    cases hr : c.request with
    | ok r =>
      rw [hr] at hbuild
      have hperform := perform_of_build_ok hbuild
      refine ⟨action, hparse, fun s out => execute_of_perform_ok hperform out, halone, fun sources i s filter hprepare => ?_⟩
      obtain rfl := invocation_of_prepare hprepare hparse
      rw [process_of_prepare hprepare, hperform]
      exact ⟨rfl, rfl⟩
    | error e =>
      rw [hr] at hbuild
      have hperform := perform_of_build_error hbuild
      refine ⟨action, hparse, fun s out => execute_of_perform_error hperform out, halone, fun sources i s filter hprepare => ?_⟩
      obtain rfl := invocation_of_prepare hprepare hparse
      rw [process_of_prepare hprepare, hperform]
  · intro words i height hash hparse haction
    rcases locator_of_parse hparse haction with ⟨s, n, hs, hnone, hread, rfl, rfl⟩ | ⟨s, h, hs, hnone, hread, rfl, rfl⟩
    · exact .inl ⟨s, n, hs, hnone, hread, rfl⟩
    · exact .inr ⟨s, h, hs, hnone, hread, rfl⟩
  · intro words i s out hparse h
    exact perform_ne_noLocator hparse (execute_eq_error (Prod.ext h rfl)).1
  · intro a s f out out' h
    exact (execute_eq_error h).2

/-- A search for twelve bits is printed; one for 256 bits is parsed and prepared like it, and refused
    by its encoder. -/
theorem a_search_and_an_oversized_one :
    let words := ["request", "fetch-stealth", "12", "abcd", "--from-height=500"]
    let long := ["request", "fetch-stealth", "256", "ff", "--from-height=5"]
    ((process words ⟨[], none⟩).code = 0 ∧ (process words ⟨[], none⟩).stdout =
      "\x7b\"command\":\"blockchain.fetch_stealth\",\"payload\":\"0cabc0f4010000\"\x7d\n") ∧
    (∃ action, Invocation.parse long = .ok ⟨none, false, .request action⟩ ∧
      ∀ s out, (execute (.request action) s).run out = (.error (.prefixTooLong ⟨256⟩), out)) ∧
    process long ⟨[], none⟩ = ⟨1, "", "Error: prefix of 256 bits exceeds the 255-bit limit\n", []⟩ := by
  intro words long
  have hspelled : (Call.fetchStealth (Prefix.ofBytes 12 [0xab, 0xcd]) 500).Spelled words.tail :=
    ⟨"fetch-stealth", _, _, _, .fetchStealth 12 [0xab, 0xcd] 500 .given, .positional (.positional (.attached .nil)),
      by decide +kernel⟩
  have hlong : (Call.fetchStealth (Prefix.ofBytes 256 [0xff]) 5).Spelled long.tail :=
    ⟨"fetch-stealth", _, _, _, .fetchStealth 256 [0xff] 5 .given, .positional (.positional (.attached .nil)),
      by decide +kernel⟩
  obtain ⟨_, -, -, ⟨_, hready⟩, hprinted⟩ := tool_encodes_requests.2.1 _ _ hspelled trivial
  obtain ⟨action, hparse, hrun, ⟨_, hlongReady⟩, hrefused⟩ := tool_encodes_requests.2.1 _ _ hlong trivial
  obtain ⟨hcode, hstdout⟩ := hprinted _ _ _ _ hready
  have hprint : (Json.object [("command", .string "blockchain.fetch_stealth"),
      ("payload", .string (Hex.encode [12, 0xab, 0xc0, 0xf4, 0x01, 0x00, 0x00]))]).print .compact =
      "\x7b\"command\":\"blockchain.fetch_stealth\",\"payload\":\"0cabc0f4010000\"\x7d\n" := by decide +kernel
  have hreport : reportText (.prefixTooLong ⟨256⟩) = "Error: prefix of 256 bits exceeds the 255-bit limit\n" := by
    decide +kernel
  refine ⟨⟨hcode, hstdout.trans hprint⟩, ⟨action, hparse, hrun⟩, ?_⟩
  rw [← hreport]
  exact hrefused _ _ _ _ hlongReady

example : process ["request", "fetch-block-header", "--height", "100"] ⟨[], none⟩ =
    ⟨0, "\x7b\"command\":\"blockchain.fetch_block_header\",\"payload\":\"64000000\"\x7d\n", "", []⟩ := by
  decide +kernel

end ChainQuery.CommandLine
