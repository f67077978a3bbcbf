/-
  ChainQuery.Proofs.CommandLine.Submission — a transaction given to be sent on.

  The transaction that a request carries is given in hexadecimal, read, and written again. Its
  bytes are read as those of a reply are, and differ only in what is said of bytes after it.
  What is read is written with the bytes it was read from, so the text given is also the text
  printed, in lower case.

  Proved:
  - `whole_cases`: what a decoder makes of its whole input, beside what a reply is found to be.
  - `build_cases`: what becomes of the text of any bytes.
  - `submission_echoes`: what a run prints for a text, and when and how it fails.
-/

import ChainQuery.Proofs.CommandLine.Run
import ChainQuery.Proofs.Text.Hex
import ChainQuery.Proofs.Transaction.RoundTrip

namespace ChainQuery

/-- A decoder that is to use up its input agrees with a reply that the decoder is all of. -/
theorem Decoder.whole_cases {α : Type} (d : Decoder α) (input : Bytes) :
    (∃ a, (Reader.consensus d).whole input = .ok a ∧ d.whole input = .ok a) ∨
      (∃ e, (Reader.consensus d).whole input = .error (.consensus e) ∧ d.whole input = .error e) ∨
      ∃ n, (Reader.consensus d).whole input = .error (.trailingBytes n) ∧ d.whole input = .error .notConsumed := by
  unfold Decoder.whole
  cases h : d input with
  | error e => exact .inr (.inl ⟨e, Reader.whole_of_error (Reader.consensus_of_error h), rfl⟩)
  | ok p =>
    obtain ⟨a, rest⟩ := p
    rw [Reader.whole_of_ok (Reader.consensus_of_ok h)]
    cases rest with
    | nil => exact .inl ⟨a, rfl, rfl⟩
    | cons b rest => exact .inr (.inr ⟨_, rfl, rfl⟩)

namespace CommandLine

/-- The requests that carry a transaction: the word for it, what is done with the text, and the command. -/
inductive Submits (t : String) : String → RequestAction → Command → Prop where
  | broadcast : Submits t "broadcast-transaction" (.broadcastTransaction t) .broadcastTransaction
  | validate : Submits t "validate-transaction" (.validateTransaction t) .validateTransaction

variable {t word : String} {action : RequestAction} {command : Command} {bs : Bytes}

theorem parse_of_submits (h : Submits t word action command) (ht : ¬Dashed t) :
    Invocation.parse ["request", word, t] = .ok ⟨none, false, .request action⟩ := by
  have hwords : Arranged [.text t] [] [t] := .positional .nil
  have hsuits : Suits (.positional "TRANSACTION" .text) (.text t) := ⟨⟨.text, rfl, rfl⟩, ht⟩
  obtain ⟨vs, hvs, hget⟩ := values_of_arranged (g := leaf [.positional "TRANSACTION" .text] []) rfl
    (distinct_level .broadcastTransaction) hwords (.cons hsuits .nil) (fun _ ho => absurd ho List.not_mem_nil) (.refl _)
    (List.nodup_singleton _)
  have hfilter : vs.text? "log-filter" = none := by
    rw [Values.text?, hget]
    rfl
  have hpretty : vs.has "pretty" = false := by
    rw [Values.has, hget]
    rfl
  have haction (name : RequestName) := Values.requestAction_congr hget name
  rw [← hfilter, ← hpretty]
  cases h with
  | broadcast => exact parse_of_values rfl hvs (haction .broadcastTransaction)
  | validate => exact parse_of_values rfl hvs (haction .validateTransaction)

/-- The text is read as a transaction, and the transaction is written. -/
theorem build_of_submits (h : Submits t word action command) :
    action.build = (parseTransaction t).map fun tx => ⟨command, tx.encode⟩ := by
  cases h with
  | broadcast =>
    show (parseTransaction t >>= fun tx => pure (Request.broadcastTransaction tx)) = _
    cases parseTransaction t <;> rfl
  | validate =>
    show (parseTransaction t >>= fun tx => pure (Request.validateTransaction tx)) = _
    cases parseTransaction t <;> rfl

theorem parseTransaction_of_hex (ht : t.toLower = Hex.encode bs) :
    parseTransaction t = (Transaction.decode.whole bs).mapError .transaction := by
  have hhex : parseHex .transaction t = .ok bs := by
    unfold parseHex
    rw [Hex.decode_eq_ok_iff.mpr ht]
  unfold parseTransaction
  rw [hhex]
  dsimp only [bind, Except.bind]
  cases Transaction.decode.whole bs <;> rfl

theorem parseTransaction_of_no_hex (ht : ∀ bs, t.toLower ≠ Hex.encode bs) :
    ∃ e, parseTransaction t = .error (.hex .transaction e) := by
  cases h : Hex.decode t with
  | ok bs => exact absurd (Hex.decode_eq_ok_iff.mp h) (ht bs)
  | error e =>
    refine ⟨e, ?_⟩
    unfold parseTransaction parseHex
    rw [h]
    rfl

/-- What a submission comes to, by what its bytes are as a reply. -/
theorem build_cases (h : Submits t word action command) (ht : t.toLower = Hex.encode bs) :
    (∃ tx, Decode.transaction bs = .ok tx ∧ action.build = .ok ⟨command, bs⟩) ∨
      (∃ e, Decode.transaction bs = .error (.consensus e) ∧ action.build = .error (.transaction e)) ∨
      ∃ n, Decode.transaction bs = .error (.trailingBytes n) ∧ action.build = .error (.transaction .notConsumed) := by
  rw [build_of_submits h, parseTransaction_of_hex ht]
  rcases Decoder.whole_cases Transaction.decode bs with ⟨tx, hread, hwhole⟩ | ⟨e, hread, hwhole⟩ | ⟨n, hread, hwhole⟩
  · refine .inl ⟨tx, hread, ?_⟩
    rw [hwhole, (Decode.transaction_eq_ok_iff.mp hread).1]
    rfl
  · refine .inr (.inl ⟨e, hread, ?_⟩)
    rw [hwhole]
    rfl
  · refine .inr (.inr ⟨n, hread, ?_⟩)
    rw [hwhole]
    rfl

/-- A transaction's text is given as an even number of digits, and printed in lower case. A text of digits
    is taken exactly if its bytes are a reply with a transaction; otherwise the same is wrong with it,
    where bytes that are left over are data not consumed. No other text is taken. -/
theorem submission_echoes (h : Submits t word action command) :
    (¬Dashed t → Invocation.parse ["request", word, t] = .ok ⟨none, false, .request action⟩) ∧
    ((∃ bs, t.toLower = Hex.encode bs) ↔ t.length % 2 = 0 ∧ ∀ c ∈ t.toList, Text.isHexDigit c = true) ∧
    ∀ s out,
      ((∃ events, ((execute (.request action) s).run out).1 = .ok events) ↔
        ∃ bs tx, t.toLower = Hex.encode bs ∧ Decode.transaction bs = .ok tx) ∧
      ∀ bs, t.toLower = Hex.encode bs →
        match Decode.transaction bs with
        | .ok _ => (execute (.request action) s).run out = (.ok [.encodedRequest command bs.length],
            out ++ (Json.object [("command", .string command.name), ("payload", .string t.toLower)]).print (layoutOf s))
        | .error (.consensus e) => (execute (.request action) s).run out = (.error (.transaction e), out)
        | .error (.trailingBytes _) => (execute (.request action) s).run out = (.error (.transaction .notConsumed), out)
        | .error _ => False := by
  refine ⟨parse_of_submits h, ?_, fun s out => ⟨?_, fun bs ht => ?_⟩⟩
  · simp only [← Hex.decode_eq_ok_iff]
    exact Hex.exists_decode_iff
  · constructor
    · rintro ⟨events, hok⟩
      by_cases hhex : ∃ bs, t.toLower = Hex.encode bs
      · obtain ⟨bs, ht⟩ := hhex
        rcases build_cases h ht with ⟨tx, hread, -⟩ | ⟨e, -, hbuild⟩ | ⟨n, -, hbuild⟩
        · exact ⟨bs, tx, ht, hread⟩
        · rw [execute_of_perform_error (perform_of_build_error hbuild)] at hok
          cases hok
        · rw [execute_of_perform_error (perform_of_build_error hbuild)] at hok
          cases hok
      · obtain ⟨e, hnone⟩ := parseTransaction_of_no_hex fun bs ht => hhex ⟨bs, ht⟩
        have hbuild : action.build = .error (.hex .transaction e) := by
          rw [build_of_submits h, hnone]
          rfl
        rw [execute_of_perform_error (perform_of_build_error hbuild)] at hok
        cases hok
    · rintro ⟨bs, tx, ht, hread⟩
      have hbuild : action.build = .ok ⟨command, bs⟩ := by
        rcases build_cases h ht with ⟨_, -, hbuild⟩ | ⟨e, hread', -⟩ | ⟨n, hread', -⟩
        · exact hbuild
        · cases hread.symm.trans hread'
        · cases hread.symm.trans hread'
      rw [execute_of_perform_ok (perform_of_build_ok hbuild)]
      exact ⟨_, rfl⟩
  · rcases build_cases h ht with ⟨tx, hread, hbuild⟩ | ⟨e, hread, hbuild⟩ | ⟨n, hread, hbuild⟩
    · rw [hread, ht]
      exact execute_of_perform_ok (perform_of_build_ok hbuild) out
    · rw [hread]
      exact execute_of_perform_error (perform_of_build_error hbuild) out
    · rw [hread]
      exact execute_of_perform_error (perform_of_build_error hbuild) out

/-- A transaction without inputs, in the segwit form, whose lock time is given in upper case. -/
theorem an_upper_case_transaction :
    let t := "0100000000010000FFFFFFFF"
    Invocation.parse ["request", "broadcast-transaction", t] = .ok ⟨none, false, .request (.broadcastTransaction t)⟩ ∧
      ∀ s out, (execute (.request (.broadcastTransaction t)) s).run out =
        (.ok [.encodedRequest .broadcastTransaction 12],
          out ++ (Json.object [("command", .string "protocol.broadcast_transaction"),
            ("payload", .string "0100000000010000ffffffff")]).print (layoutOf s)) := by
  intro t
  have htext : t.toLower = Hex.encode [1, 0, 0, 0, 0, 1, 0, 0, 0xff, 0xff, 0xff, 0xff] := by decide +kernel
  have hread : Decode.transaction [1, 0, 0, 0, 0, 1, 0, 0, 0xff, 0xff, 0xff, 0xff] =
      .ok ⟨1, 0xffffffff, Counted.empty, Counted.empty⟩ := by decide +kernel
  obtain ⟨hparse, -, hrun⟩ := submission_echoes (Submits.broadcast : Submits t _ _ _)
  refine ⟨hparse (not_dashed_of_head (by decide)), fun s out => ?_⟩
  have hprinted := (hrun s out).2 _ htext
  rw [hread, htext] at hprinted
  exact hprinted

end CommandLine

end ChainQuery
