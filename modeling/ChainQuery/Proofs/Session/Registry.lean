/-
  ChainQuery.Proofs.Session.Registry — a call understands a reply as the registry of
  replies does.

  Every call names the decoder of its reply, and `Reply.decode` has one for each command.
  The two use the same one and wrap what it gives, the call in its verdict and the
  registry in a reply (`Call.read_and_decode`, one case for each call). The verdict accepts
  the value the registry wraps; only a renewal looks at it first, and is refused by any
  code but zero (`Call.Draws`). So a call fails on the payloads on which the registry
  fails, with the same error, and says in between what the registry says.

  Proved:
  - `Reply.events_decode`: only a compact history is spoken of while it is decoded, and
    only when all its rows are good (`History.events_decode_of_error`).
  - `call_agrees_with_registry`: the result and the events of a call whose request is
    sent, for every reply.
-/

import ChainQuery.Proofs.Session.Run

namespace ChainQuery

/-! ## What the registry says -/

/-- What is said while the rows of a compact history are reconciled. -/
def History.reconciliation (payload : Bytes) : List Event :=
  match CompactRow.decodeAll payload with
  | .ok rows => (reconcile rows).orphans.map .orphanSpend
  | .error _ => []

/-- Its reply has outputs and spends in rows of their own. -/
def Command.isCompactHistory (c : Command) : Bool := c = .fetchHistory || c = .addressFetchHistory2

theorem History.events_decode (payload : Bytes) : (decode payload).events = reconciliation payload := by
  unfold decode reconciliation
  cases CompactRow.decodeAll payload <;> rfl

theorem History.events_decode_of_error {payload : Bytes} {e : DecodeError} (h : (decode payload).value = .error e) :
    (decode payload).events = [] := by
  unfold decode at h ⊢
  cases hrows : CompactRow.decodeAll payload with
  | error e => rfl
  | ok rows =>
    rw [hrows] at h
    cases h

namespace Reply

theorem events_decode (command : Command) (payload : Bytes) :
    (decode command payload).events = if command.isCompactHistory then History.reconciliation payload else [] := by
  cases command with
  | fetchHistory => exact History.events_decode payload
  | addressFetchHistory2 => exact History.events_decode payload
  | _ => rfl

theorem events_decode_of_error {command : Command} {payload : Bytes} {e : DecodeError}
    (h : (decode command payload).value = .error e) : (decode command payload).events = [] := by
  have compact (h : (History.decode payload).value.map history = .error e) : (History.decode payload).events = [] :=
    History.events_decode_of_error (Except.map_eq_error_iff.mp h)
  cases command with
  | fetchHistory => exact compact h
  | addressFetchHistory2 => exact compact h
  | _ => rfl

end Reply

/-! ## What a call makes of a reply -/

/-- The reply that carries an answer. -/
def Answer.wrapped : Answer → Reply
  | .acknowledged => .empty
  | .transaction tx => .transaction tx
  | .height n => .height n
  | .blockHeader h => .blockHeader h
  | .transactionIndex i => .transactionIndex i
  | .unconfirmedInputs is => .unconfirmedInputs is
  | .history rows => .history rows
  | .stealth rows => .stealth rows

namespace Call

/-- The verdict a call draws from a reply: it accepts what the reply carries, and a renewal
    goes by the result code. -/
def Draws : Call → Reply → Verdict → Prop
  | .renew .., reply, verdict => ∃ code, reply = .resultCode code ∧ verdict = renewal code
  | _, reply, verdict => ∃ answer : Answer, reply = answer.wrapped ∧ verdict = .accepted answer

theorem answer_of_draws {c : Call} {reply : Reply} {verdict : Verdict} (hc : ∀ kind p, c ≠ .renew kind p)
    (h : c.Draws reply verdict) : ∃ answer : Answer, reply = answer.wrapped ∧ verdict = .accepted answer := by
  cases c with
  | renew kind p => exact absurd rfl (hc kind p)
  | _ => exact h

/-- Call and registry wrap what one decoder gives. -/
theorem read_and_decode (c : Call) (payload : Bytes) :
    ∃ (α : Type) (t : Traced (Except DecodeError α)) (verdict : α → Verdict) (reply : α → Reply),
      c.read payload = t.map (Except.map verdict) ∧
      Reply.decode c.command payload = t.map (Except.map reply) ∧
      ∀ a, c.Draws (reply a) (verdict a) := by
  cases c with
  | broadcastTransaction tx =>
    exact ⟨_, .silent (Decode.acknowledgement payload), _, _, rfl, rfl, fun _ => ⟨.acknowledged, rfl, rfl⟩⟩
  | validateTransaction tx =>
    exact ⟨_, .silent (Decode.unconfirmedInputs payload), _, _, rfl, rfl, fun is => ⟨.unconfirmedInputs is, rfl, rfl⟩⟩
  | poolFetchTransaction h =>
    exact ⟨_, .silent (Decode.transaction payload), _, _, rfl, rfl, fun tx => ⟨.transaction tx, rfl, rfl⟩⟩
  | fetchTransaction h =>
    exact ⟨_, .silent (Decode.transaction payload), _, _, rfl, rfl, fun tx => ⟨.transaction tx, rfl, rfl⟩⟩
  | fetchLastHeight =>
    exact ⟨_, .silent (Decode.height payload), _, _, rfl, rfl, fun n => ⟨.height n, rfl, rfl⟩⟩
  | fetchBlockHeader l =>
    exact ⟨_, .silent (Decode.blockHeader payload), _, _, rfl, rfl, fun h => ⟨.blockHeader h, rfl, rfl⟩⟩
  | fetchTransactionIndex h =>
    exact ⟨_, .silent (Decode.transactionIndex payload), _, _, rfl, rfl, fun i => ⟨.transactionIndex i, rfl, rfl⟩⟩
  | fetchStealth p fromHeight =>
    exact ⟨_, .silent (StealthRow.decodeAll payload), _, _, rfl, rfl, fun rows => ⟨.stealth rows, rfl, rfl⟩⟩
  | fetchHistory v a fromHeight =>
    cases v with
    | current => exact ⟨_, History.decode payload, _, _, rfl, rfl, fun rows => ⟨.history rows, rfl, rfl⟩⟩
    | expanded =>
      exact ⟨_, .silent (ExpandedRow.decodeAll payload), _, _, rfl, rfl, fun rows => ⟨.history rows, rfl, rfl⟩⟩
    | canonical => exact ⟨_, History.decode payload, _, _, rfl, rfl, fun rows => ⟨.history rows, rfl, rfl⟩⟩
  | subscribe kind p =>
    exact ⟨_, .silent (Decode.acknowledgement payload), _, _, rfl, rfl, fun _ => ⟨.acknowledged, rfl, rfl⟩⟩
  | subscribeAddress a =>
    exact ⟨_, .silent (Decode.acknowledgement payload), _, _, rfl, rfl, fun _ => ⟨.acknowledged, rfl, rfl⟩⟩
  | renew kind p =>
    exact ⟨_, .silent (Decode.resultCode payload), _, _, rfl, rfl, fun code => ⟨code, rfl, rfl⟩⟩

variable {c : Call} {r : Request} {payload : Bytes}

theorem events_read (h : c.request = .ok r) (payload : Bytes) :
    (c.read payload).events = (Reply.decode r.command payload).events := by
  obtain ⟨α, t, verdict, reply, hread, hdecode, -⟩ := c.read_and_decode payload
  rw [command_of_request h, hread, hdecode]
  rfl

theorem read_of_error (h : c.request = .ok r) {e : DecodeError} (he : (Reply.decode r.command payload).value = .error e) :
    (c.read payload).value = .error e := by
  obtain ⟨α, t, verdict, reply, hread, hdecode, -⟩ := c.read_and_decode payload
  rw [command_of_request h, hdecode] at he
  rw [hread]
  exact Except.map_eq_error_iff.mpr (Except.map_eq_error_iff.mp he)

theorem read_of_reply (h : c.request = .ok r) {reply : Reply}
    (hreply : (Reply.decode r.command payload).value = .ok reply) :
    ∃ verdict, (c.read payload).value = .ok verdict ∧ c.Draws reply verdict := by
  obtain ⟨α, t, verdict, reply', hread, hdecode, hdraws⟩ := c.read_and_decode payload
  rw [command_of_request h, hdecode] at hreply
  obtain ⟨a, ha, rfl⟩ := Except.map_eq_ok_iff.mp hreply
  rw [hread]
  exact ⟨verdict a, Except.map_eq_ok_iff.mpr ⟨a, ha, rfl⟩, hdraws a⟩

/-! ## What a call concludes -/

variable (r)

theorem conclude_of_error {e : DecodeError} (h : (c.read payload).value = .error e) :
    c.conclude r (.ok payload) = ⟨.error (.malformedResponse r.command e),
      (c.read payload).events ++ [.malformedReply r.command e payload.length]⟩ := by
  simp only [conclude, h]

theorem conclude_of_accepted {answer : Answer} (h : (c.read payload).value = .ok (.accepted answer)) :
    c.conclude r (.ok payload) = ⟨.ok answer, (c.read payload).events⟩ := by
  simp only [conclude, h]

theorem conclude_of_refused {code : UInt32} (h : (c.read payload).value = .ok (.refused code)) :
    c.conclude r (.ok payload) = ⟨.error (.rejected r.command code), (c.read payload).events⟩ := by
  simp only [conclude, h]

theorem events_conclude_of_ok {verdict : Verdict} (h : (c.read payload).value = .ok verdict) :
    (c.conclude r (.ok payload)).events = (c.read payload).events := by
  cases verdict with
  | accepted answer => rw [conclude_of_accepted r h]
  | refused code => rw [conclude_of_refused r h]

theorem conclude_of_renewal {code : UInt32} (h : (c.read payload).value = .ok (renewal code)) :
    (c.conclude r (.ok payload)).value = if code = 0 then .ok .acknowledged else .error (.rejected r.command code) := by
  unfold renewal at h
  split at h
  · rename_i hzero
    rw [conclude_of_accepted r h, if_pos hzero]
  · rename_i hcode
    rw [conclude_of_refused r h, if_neg hcode]

end Call

/-- A reply is to a call what it is to the registry, under the command of the request sent.
    The registry's error is the call's, reported once as a warning; the value in the
    registry's reply is the call's answer, except that a renewal is accepted by code zero
    and refused by any other. Between the request and the warning only the reconciliation
    of a good compact history is heard. -/
theorem call_agrees_with_registry {c : Call} {r : Request} (h : c.request = .ok r) (payload : Bytes)
    (outcomes : List Outcome) :
    let decoded := (Reply.decode r.command payload).value
    let report := (c.perform (.ok payload :: outcomes)).1
    let sending := Event.sendingRequest r.command r.payload.length
    report.sent = some r ∧
    (∀ e, decoded = .error e →
      report.result = .error (.malformedResponse r.command e) ∧
      report.events = [sending, .malformedReply r.command e payload.length]) ∧
    (∀ reply, decoded = .ok reply →
      ((∀ kind p, c ≠ .renew kind p) → ∃ answer : Answer, reply = answer.wrapped ∧ report.result = .ok answer) ∧
      (∀ kind p, c = .renew kind p → ∃ code, reply = .resultCode code ∧
        report.result = if code = 0 then .ok .acknowledged else .error (.rejected .addressRenew code)) ∧
      report.events = sending :: if r.command.isCompactHistory then History.reconciliation payload else []) ∧
    (sending.level = .debug ∧ sending.message = "sending request" ∧
      sending.fields = [("command", r.command.name), ("payload_len", Nat.repr r.payload.length)]) ∧
    ∀ e, let warning := Event.malformedReply r.command e payload.length
      warning.level = .warn ∧ warning.message = "malformed reply" ∧
      warning.fields =
        [("command", r.command.name), ("error", e.message), ("reply_len", Nat.repr payload.length)] := by
  have hreport := Call.perform_of_ok h (.ok payload) outcomes
  intro decoded report sending
  refine ⟨?_, ?_, ?_, ⟨rfl, rfl, rfl⟩, fun e => ⟨rfl, rfl, rfl⟩⟩
  · exact congrArg Report.sent hreport
  · intro e he
    have hread : (c.read payload).value = .error e := Call.read_of_error h he
    have hsilent : (c.read payload).events = [] := by
      rw [Call.events_read h, Reply.events_decode_of_error he]
    show (c.perform _).1.result = _ ∧ (c.perform _).1.events = _
    rw [hreport, Call.conclude_of_error r hread, hsilent]
    exact ⟨rfl, rfl⟩
  · intro reply hreply
    obtain ⟨verdict, hread, hdraws⟩ := Call.read_of_reply h hreply
    refine ⟨?_, ?_, ?_⟩
    · intro hc
      obtain ⟨answer, hwrapped, rfl⟩ := Call.answer_of_draws hc hdraws
      refine ⟨answer, hwrapped, ?_⟩
      show (c.perform _).1.result = _
      rw [hreport, Call.conclude_of_accepted r hread]
    · rintro kind p rfl
      obtain ⟨code, hcode, rfl⟩ := hdraws
      refine ⟨code, hcode, ?_⟩
      have hname : r.command = .addressRenew := Call.command_of_request h
      show ((Call.renew kind p).perform _).1.result = _
      rw [hreport, ← hname]
      exact Call.conclude_of_renewal r hread
    · show (c.perform _).1.events = _
      rw [hreport]
      show _ :: (c.conclude r (.ok payload)).events = _
      rw [Call.events_conclude_of_ok r hread, Call.events_read h, Reply.events_decode]

/-- A renewal answered with code three. -/
theorem renewal_is_refused :
    ((Call.renew .stealth (Prefix.ofBytes 8 [0xab])).perform [.ok [3, 0, 0, 0]]).1.result =
      .error (.rejected .addressRenew 3) := by
  obtain ⟨code, hcode, hresult⟩ := ((call_agrees_with_registry (r := ⟨.addressRenew, [1, 8, 0xab]⟩) rfl
    [3, 0, 0, 0] []).2.2.1 (.resultCode 3) rfl).2.1 .stealth (Prefix.ofBytes 8 [0xab]) rfl
  cases hcode
  exact hresult

end ChainQuery
