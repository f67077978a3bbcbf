/-
  ChainQuery.Proofs.CommandLine.Printed — what an action prints, and what it leaves out.

  The layout is chosen when the document is put out, and not before. So it decides neither
  whether an action fails nor what it finds, and what it changes are the blanks outside strings.

  A reply that is decoded is printed with all that was read, so the payload is known from the
  text: the text is that of one document, the document that of one reply, and the reply is
  read from one payload, unless it was reconciled. Of the text given, only the payload counts.

  Proved:
  - `layouts_differ_in_blanks`: an action in both layouts.
  - `run_of_decode_ok`: the text of a reply.
  - `decoded_text_tells_payload`: texts of two payloads, and of one payload given in two ways.
-/

import ChainQuery.Proofs.CommandLine.Run
import ChainQuery.Proofs.Document
import ChainQuery.Proofs.Json.Injective
import ChainQuery.Proofs.Reply.Written

namespace ChainQuery.CommandLine

/-! ## Two layouts -/

/-- An action in lines and without them: it fails in both alike, or puts out the same document with the
    same events. One line has no blanks outside its strings but for its end, and is what the lines are
    without theirs. Either ends with one newline. -/
theorem layouts_differ_in_blanks (a : Action) (f g out : String) :
    match (execute a ⟨f, true⟩).run out, (execute a ⟨g, false⟩).run out with
    | (.ok events, lines), (.ok events', line) => events = events' ∧
        ∃ x y, lines = out ++ (x ++ "\n") ∧ line = out ++ (y ++ "\n") ∧
          Json.withoutBlanks (x ++ "\n") = Json.withoutBlanks (y ++ "\n") ∧
          Json.withoutBlanks y = y ∧ x.toList.getLast? ≠ some '\n' ∧ y.toList.getLast? ≠ some '\n'
    | (.error e, lines), (.error e', line) => e = e' ∧ lines = out ∧ line = out
    | _, _ => False := by
  cases h : a.perform with
  | error e =>
    rw [execute_of_perform_error h, execute_of_perform_error h]
    exact ⟨rfl, rfl, rfl⟩
  | ok t =>
    rw [execute_of_perform_ok h, execute_of_perform_ok h]
    refine ⟨rfl, t.value.text .indented, t.value.text .compact, ?_, ?_, ?_, ?_, ?_, ?_⟩
    · rw [← Json.print_eq]
      rfl
    · rw [← Json.print_eq]
      rfl
    · rw [← Json.print_eq, ← Json.print_eq, Json.withoutBlanks_print, Json.withoutBlanks_print]
    · exact Json.withoutBlanks_text .compact t.value
    · exact Json.getLast?_text .indented t.value
    · exact Json.getLast?_text .compact t.value

/-! ## Decoded replies -/

variable {c : Command} {p : Bytes} {t : String}

theorem not_dashed_of_hex (ht : t.toLower = Hex.encode p) : ¬Dashed t := by
  have hdigits := (Hex.exists_decode_iff.mp ⟨p, Hex.decode_eq_ok_iff.mpr ht⟩).2
  refine not_dashed_of_all fun c hc hdash => ?_
  have hdigit := hdigits c hc
  rw [hdash] at hdigit
  exact absurd hdigit (by decide)

theorem distinct_decodeLevel : decodeLevel.Distinct := ⟨by decide, by decide⟩

theorem parse_of_decode (ht : ¬Dashed t) : Invocation.parse ["decode", c.name, t] = .ok ⟨none, false, .decode c t⟩ := by
  have hwords : Arranged [.command c, .text t] [] [c.name, t] := .positional (.positional .nil)
  have hcommand : Suits (.positional "COMMAND" .command) (.command c) := suits_of_kind rfl rfl (by decide)
  have htext : Suits (.positional "PAYLOAD" .text) (.text t) := ⟨⟨.text, rfl, rfl⟩, ht⟩
  have hnames : ["COMMAND", "PAYLOAD"].Nodup := by decide
  obtain ⟨vs, hvs, hget⟩ := values_of_arranged (g := decodeLevel) rfl distinct_decodeLevel hwords
    (.cons hcommand (.cons htext .nil)) (fun _ ho => absurd ho List.not_mem_nil) (.refl _) hnames
  have haction : vs.decodeAction = .ok (.decode c t) := by
    simp only [Values.decodeAction, Values.command, Values.text, hget]
    rfl
  have hglobals : Globals.ofValues vs = ⟨none, false⟩ := by
    simp only [Globals.ofValues, Values.text?, Values.has, hget]
    rfl
  have htop : topLevel.scan topLevel.start ["decode", c.name, t] =
      .ok (topLevel.start, .subcommand .decode [c.name, t]) := Grammar.scan_enter rfl _
  have hleaf : TopName.decode.parse [c.name, t] = .ok (⟨none, false⟩, .decode c t) :=
    Except.bind_eq_ok_iff.mpr ⟨vs, hvs, Except.bind_eq_ok_iff.mpr ⟨_, haction, by rw [hglobals]; rfl⟩⟩
  exact Except.bind_eq_ok_iff.mpr ⟨_, htop, Except.bind_eq_ok_iff.mpr ⟨_, hleaf,
    Except.bind_eq_ok_iff.mpr ⟨_, rfl, rfl⟩⟩⟩

/-- Of the text of a payload, only the payload counts. -/
theorem perform_of_hex (ht : t.toLower = Hex.encode p) :
    (Action.decode c t).perform =
      match (Reply.decode c p).value with
      | .ok r => .ok ⟨r.toJson, (Reply.decode c p).events⟩
      | .error e => .error (.malformedResponse c e) := by
  have hhex : parseHex .reply t = .ok p := by
    unfold parseHex
    rw [Hex.decode_eq_ok_iff.mpr ht]
  show (parseHex .reply t >>= _) = _
  rw [hhex]
  rfl

theorem execute_congr {a a' : Action} (h : a.perform = a'.perform) (s : Settings) : execute a s = execute a' s := by
  unfold execute
  rw [h]

theorem run_of_decode_ok {r : Reply} (ht : t.toLower = Hex.encode p) (hr : (Reply.decode c p).value = .ok r)
    (s : Settings) (out : String) :
    (execute (.decode c t) s).run out = (.ok (Reply.decode c p).events, out ++ r.toJson.print (layoutOf s)) := by
  have hperform := perform_of_hex (c := c) ht
  rw [hr] at hperform
  exact execute_of_perform_ok hperform out

/-- The text of an accepted payload shows all of it. Where replies are not reconciled, accepted payloads
    are printed alike only if they are the same. And a payload is printed, or refused, alike however its
    digits are given. -/
theorem decoded_text_tells_payload :
    (∀ c p t, t.toLower = Hex.encode p → Invocation.parse ["decode", c.name, t] = .ok ⟨none, false, .decode c t⟩) ∧
    (∀ c p t r, t.toLower = Hex.encode p → (Reply.decode c p).value = .ok r → ∀ s out,
      (execute (.decode c t) s).run out = (.ok (Reply.decode c p).events, out ++ r.toJson.print (layoutOf s))) ∧
    (∀ c p p' t t' r r', c ≠ .fetchHistory → c ≠ .addressFetchHistory2 →
      t.toLower = Hex.encode p → (Reply.decode c p).value = .ok r →
      t'.toLower = Hex.encode p' → (Reply.decode c p').value = .ok r' → ∀ s out,
        (((execute (.decode c t) s).run out).2 = ((execute (.decode c t') s).run out).2 ↔ p = p')) ∧
    ∀ c p t t', t.toLower = Hex.encode p → t'.toLower = Hex.encode p → ∀ s,
      execute (.decode c t) s = execute (.decode c t') s := by
  have halike : ∀ c p t t', t.toLower = Hex.encode p → t'.toLower = Hex.encode p → ∀ s,
      execute (.decode c t) s = execute (.decode c t') s := by
    intro c p t t' ht ht' s
    exact execute_congr ((perform_of_hex ht).trans (perform_of_hex ht').symm) s
  refine ⟨fun c p t ht => parse_of_decode (not_dashed_of_hex ht), fun c p t r => run_of_decode_ok, ?_, halike⟩
  intro c p p' t t' r r' hcurrent hlegacy ht hr ht' hr' s out
  constructor
  · intro hsame
    rw [run_of_decode_ok ht hr, run_of_decode_ok ht' hr'] at hsame
    have hprint : r.toJson.print (layoutOf s) = r'.toJson.print (layoutOf s) := (String.append_right_inj out).mp hsame
    obtain rfl : r = r' := Reply.toJson_inj.mp (Json.print_injective hprint)
    exact (Reply.payload_of_decode hcurrent hlegacy hr).trans (Reply.payload_of_decode hcurrent hlegacy hr').symm
  · rintro rfl
    rw [halike c p t t' ht ht']

/-- Two heights are told apart, and one of them is the same height in upper case. -/
theorem heights_are_told_apart :
    Invocation.parse ["decode", "blockchain.fetch_last_height", "0A000000"] =
        .ok ⟨none, false, .decode .fetchLastHeight "0A000000"⟩ ∧
      ∀ s out, ((execute (.decode .fetchLastHeight "0a000000") s).run out).2 ≠
          ((execute (.decode .fetchLastHeight "0b000000") s).run out).2 ∧
        execute (.decode .fetchLastHeight "0a000000") s = execute (.decode .fetchLastHeight "0A000000") s := by
  have ha : "0a000000".toLower = Hex.encode [10, 0, 0, 0] := by decide +kernel
  have hupper : "0A000000".toLower = Hex.encode [10, 0, 0, 0] := by decide +kernel
  have hb : "0b000000".toLower = Hex.encode [11, 0, 0, 0] := by decide +kernel
  have hread : (Reply.decode .fetchLastHeight [10, 0, 0, 0]).value = .ok (.height 10) := by decide +kernel
  have hread' : (Reply.decode .fetchLastHeight [11, 0, 0, 0]).value = .ok (.height 11) := by decide +kernel
  obtain ⟨hparse, -, htold, halike⟩ := decoded_text_tells_payload
  refine ⟨hparse .fetchLastHeight _ _ hupper, fun s out => ⟨fun hsame => ?_, halike _ _ _ _ ha hupper s⟩⟩
  exact absurd ((htold _ _ _ _ _ _ _ (by decide) (by decide) ha hread hb hread' s out).mp hsame) (by decide)

end ChainQuery.CommandLine
