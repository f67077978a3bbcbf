/-
  ChainQuery.Proofs.Session.Run — a session gives every call the outcome of its own
  request.

  A call either has no request, because its prefix is too long, or it has one and takes
  the next outcome. So the outcomes are dealt out to the calls that have a request, in
  order, and the others are passed over (`report_of_call`). What a call reports is then
  its report for that outcome, taken alone (`Call.answered`): nothing is carried from one
  call to the next but the outcomes not used yet.

  Proved:
  - `request_eq_error_iff`: a call has no request exactly when it is given a prefix of
    more than 255 bits.
  - `perform_fst`, `left_of_ok`, `left_of_error`: one call reads one outcome at most.
  - `run_left`, `sent_of_run`, `report_of_call`: what a whole session reads, sends and
    reports.
  - `calls_answered_in_order`: all of it, for every session.
-/

import ChainQuery.Proofs.Request.Server

namespace ChainQuery

/-! ## Calls without a request -/

namespace Call

/-- The prefix a call is given, to search or to subscribe by. -/
def givenPrefix? : Call → Option Prefix
  | .fetchStealth p _ | .subscribe _ p | .renew _ p => some p
  | _ => none

theorem request_eq_error_iff {c : Call} {e : PrefixTooLong} :
    c.request = .error e ↔ ∃ p, c.givenPrefix? = some p ∧ 255 < p.bits ∧ e = ⟨p.bits⟩ := by
  have given (p : Prefix) : p.encode = .error e ↔ ∃ q, some p = some q ∧ 255 < q.bits ∧ e = ⟨q.bits⟩ := by
    rw [Prefix.encode_eq_error_iff]
    simp only [Option.some.injEq, exists_eq_left']
  cases c with
  | fetchStealth p fromHeight =>
    rw [request, Request.fetchStealth_eq, Except.map_eq_error_iff]
    exact given p
  | subscribe kind p =>
    rw [request, Request.subscribe_eq, Except.map_eq_error_iff]
    exact given p
  | renew kind p =>
    rw [request, Request.renew_eq, Except.map_eq_error_iff]
    exact given p
  | _ => simp [request, givenPrefix?]

theorem request_eq_error_of_long {c : Call} {p : Prefix} (hp : c.givenPrefix? = some p) (h : 255 < p.bits) :
    c.request = .error ⟨p.bits⟩ :=
  request_eq_error_iff.mpr ⟨p, hp, h, rfl⟩

end Call

/-! ## One call -/

/-- What a request meets when no outcome is left. -/
def Outcome.lost : Outcome := .error .connectionLost

namespace Call

/-- The report of a call made alone, with `outcome` for its request. -/
def answered (c : Call) (outcome : Outcome) : Report := (c.perform [outcome]).1

variable {c : Call} {r : Request} {e : PrefixTooLong}

theorem answered_of_error (h : c.request = .error e) (outcome : Outcome) :
    c.answered outcome = ⟨.error (.prefixTooLong e), none, []⟩ := by
  simp only [answered, perform, h]

theorem perform_of_ok (h : c.request = .ok r) (outcome : Outcome) (outcomes : List Outcome) :
    (c.perform (outcome :: outcomes)).1 = ⟨(c.conclude r outcome).value, some r,
      .sendingRequest r.command r.payload.length :: (c.conclude r outcome).events⟩ := by
  simp only [perform, h, List.headD_cons]

theorem answered_of_ok (h : c.request = .ok r) (outcome : Outcome) :
    c.answered outcome = ⟨(c.conclude r outcome).value, some r,
      .sendingRequest r.command r.payload.length :: (c.conclude r outcome).events⟩ :=
  perform_of_ok h outcome []

theorem sent_answered (c : Call) (outcome : Outcome) : (c.answered outcome).sent = c.request.toOption := by
  cases h : c.request with
  | error e => rw [answered_of_error h]; rfl
  | ok r => rw [answered_of_ok h]; rfl

theorem request_of_sent {outcome : Outcome} (h : (c.answered outcome).sent = some r) : c.request = .ok r := by
  rw [sent_answered] at h
  cases hc : c.request with
  | error e =>
    rw [hc] at h
    cases h
  | ok r' =>
    rw [hc] at h
    cases h
    rfl

theorem sent_answered_eq_none_iff {outcome : Outcome} :
    (c.answered outcome).sent = none ↔ ∃ p, c.givenPrefix? = some p ∧ 255 < p.bits := by
  rw [sent_answered]
  constructor
  · intro h
    cases hc : c.request with
    | error e =>
      obtain ⟨p, hp, hlong, -⟩ := request_eq_error_iff.mp hc
      exact ⟨p, hp, hlong⟩
    | ok r =>
      rw [hc] at h
      cases h
  · rintro ⟨p, hp, hlong⟩
    rw [request_eq_error_of_long hp hlong]
    rfl

theorem perform_fst (c : Call) (outcomes : List Outcome) :
    (c.perform outcomes).1 = c.answered (outcomes.headD .lost) := by
  cases h : c.request with
  | error e =>
    rw [answered_of_error h]
    simp only [perform, h]
  | ok r =>
    rw [answered_of_ok h]
    simp only [perform, h]
    rfl

theorem left_of_error (h : c.request = .error e) (outcomes : List Outcome) : (c.perform outcomes).2 = outcomes := by
  simp only [perform, h]

theorem left_of_ok (h : c.request = .ok r) (outcomes : List Outcome) : (c.perform outcomes).2 = outcomes.tail := by
  simp only [perform, h]

end Call

/-! ## A session -/

namespace Session

/-- The requests of the calls that have one. -/
def requests (calls : List Call) : List Request := calls.filterMap fun c => c.request.toOption

theorem requests_cons_of_error {c : Call} {e : PrefixTooLong} (h : c.request = .error e) (cs : List Call) :
    requests (c :: cs) = requests cs := by
  unfold requests
  rw [List.filterMap_cons, h]
  rfl

theorem requests_cons_of_ok {c : Call} {r : Request} (h : c.request = .ok r) (cs : List Call) :
    requests (c :: cs) = r :: requests cs := by
  unfold requests
  rw [List.filterMap_cons, h]
  rfl

theorem run_cons (c : Call) (cs : List Call) (outcomes : List Outcome) :
    run (c :: cs) outcomes =
      (c.answered (outcomes.headD .lost) :: (run cs (c.perform outcomes).2).1, (run cs (c.perform outcomes).2).2) := by
  rw [← Call.perform_fst]
  rfl

theorem run_left (calls : List Call) (outcomes : List Outcome) :
    (run calls outcomes).2 = outcomes.drop (requests calls).length := by
  induction calls generalizing outcomes with
  | nil => rfl
  | cons c cs ih =>
    rw [run_cons]
    cases h : c.request with
    | error e => rw [requests_cons_of_error h, Call.left_of_error h, ih]
    | ok r => rw [requests_cons_of_ok h, Call.left_of_ok h, ih, List.length_cons, List.drop_tail]

theorem length_left (calls : List Call) (outcomes : List Outcome) :
    (run calls outcomes).2.length = outcomes.length - (requests calls).length := by
  rw [run_left, List.length_drop]

theorem length_run (calls : List Call) (outcomes : List Outcome) : (run calls outcomes).1.length = calls.length := by
  induction calls generalizing outcomes with
  | nil => rfl
  | cons c cs ih => rw [run_cons, List.length_cons, List.length_cons, ih]

theorem sent_of_run (calls : List Call) (outcomes : List Outcome) :
    (run calls outcomes).1.filterMap Report.sent = requests calls := by
  induction calls generalizing outcomes with
  | nil => rfl
  | cons c cs ih => rw [run_cons, List.filterMap_cons, Call.sent_answered, ih, requests, requests, List.filterMap_cons]

/-- The outcome for the call at `k`, if it has a request: as many are used before it as the
    calls before it have requests. -/
def outcomeAt (calls : List Call) (outcomes : List Outcome) (k : Nat) : Outcome :=
  outcomes[(requests (calls.take k)).length]?.getD .lost

theorem outcomeAt_zero (calls : List Call) (outcomes : List Outcome) :
    outcomeAt calls outcomes 0 = outcomes.headD .lost := by
  cases outcomes <;> rfl

theorem outcomeAt_succ (c : Call) (cs : List Call) (outcomes : List Outcome) (k : Nat) :
    outcomeAt (c :: cs) outcomes (k + 1) = outcomeAt cs (c.perform outcomes).2 k := by
  unfold outcomeAt
  rw [List.take_succ_cons]
  cases h : c.request with
  | error e => rw [requests_cons_of_error h, Call.left_of_error h]
  | ok r => rw [requests_cons_of_ok h, Call.left_of_ok h, List.length_cons, List.getElem?_tail]

theorem report_of_call (calls : List Call) (outcomes : List Outcome) {k : Nat} {c : Call} (h : calls[k]? = some c) :
    (run calls outcomes).1[k]? = some (c.answered (outcomeAt calls outcomes k)) := by
  induction calls generalizing outcomes k with
  | nil => cases h
  | cons d ds ih =>
    rw [run_cons]
    cases k with
    | zero =>
      cases h
      rw [outcomeAt_zero]
      rfl
    | succ k =>
      rw [outcomeAt_succ]
      exact ih _ h

theorem request_of_call (calls : List Call) {k : Nat} {c : Call} {r : Request} (h : calls[k]? = some c)
    (hr : c.request = .ok r) : (requests calls)[(requests (calls.take k)).length]? = some r := by
  induction calls generalizing k with
  | nil => cases h
  | cons d ds ih =>
    cases k with
    | zero =>
      cases h
      rw [requests_cons_of_ok hr]
      rfl
    | succ k =>
      have hrest := ih h
      rw [List.take_succ_cons]
      cases hd : d.request with
      | error e => rwa [requests_cons_of_error hd, requests_cons_of_error hd]
      | ok r' => rwa [requests_cons_of_ok hd, requests_cons_of_ok hd, List.length_cons, List.getElem?_cons_succ]

/-- Every call is reported once. Its report is the one it has alone for the outcome of its
    own request, the lost connection once they are used up. Nothing is sent exactly for a
    given prefix of more than 255 bits, and nothing is said or used then; what is sent is the
    request of the call, and a failed exchange is passed on as it is. -/
theorem calls_answered_in_order (calls : List Call) (outcomes : List Outcome) :
    (run calls outcomes).1.length = calls.length ∧
    (run calls outcomes).1.filterMap Report.sent = requests calls ∧
    (run calls outcomes).2 = outcomes.drop (requests calls).length ∧
    (run calls outcomes).2.length = outcomes.length - (requests calls).length ∧
    ∀ k c, calls[k]? = some c →
      ∃ report, (run calls outcomes).1[k]? = some report ∧
        report = c.answered (outcomeAt calls outcomes k) ∧
        (report.sent = none ↔ ∃ p, c.givenPrefix? = some p ∧ 255 < p.bits) ∧
        (∀ p, c.givenPrefix? = some p → 255 < p.bits → report = ⟨.error (.prefixTooLong ⟨p.bits⟩), none, []⟩) ∧
        ∀ r, report.sent = some r →
          c.request = .ok r ∧ (requests calls)[(requests (calls.take k)).length]? = some r ∧
          ∀ failure, outcomeAt calls outcomes k = .error failure →
            report.result = .error (.exchange failure) ∧
            report.events = [.sendingRequest r.command r.payload.length] := by
  refine ⟨length_run _ _, sent_of_run _ _, run_left _ _, length_left _ _, ?_⟩
  intro k c hk
  refine ⟨_, report_of_call calls outcomes hk, rfl, ?_, ?_, ?_⟩
  · exact Call.sent_answered_eq_none_iff
  · intro p hp hlong
    exact Call.answered_of_error (Call.request_eq_error_of_long hp hlong) _
  · intro r hsent
    have hr := Call.request_of_sent hsent
    refine ⟨hr, request_of_call calls hk hr, ?_⟩
    intro failure hfailure
    rw [hfailure, Call.answered_of_ok hr]
    exact ⟨rfl, rfl⟩

/-- A search by 256 bits leaves the failure to the call after it. -/
theorem refused_search_uses_no_outcome :
    ∃ report,
      (run [.fetchStealth (Prefix.ofBytes 256 []) 0, .fetchLastHeight] [.error .timeout]).1[1]? = some report ∧
      report.result = .error (.exchange .timeout) ∧ report.events = [.sendingRequest .fetchLastHeight 0] := by
  obtain ⟨report, hreport, rfl, -, -, hsent⟩ := (calls_answered_in_order
    [.fetchStealth (Prefix.ofBytes 256 []) 0, .fetchLastHeight] [.error .timeout]).2.2.2.2 1 .fetchLastHeight rfl
  exact ⟨_, hreport, (hsent Request.fetchLastHeight rfl).2.2 .timeout rfl⟩

end Session

end ChainQuery
