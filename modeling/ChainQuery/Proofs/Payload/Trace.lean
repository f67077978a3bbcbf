/-
  ChainQuery.Proofs.Payload.Trace — where the bytes of a payload go, whatever is read.

  A payload is read by any kinds of fields in any order, and a read that fails does not end
  the reading: the next one goes on from what it left. A trace keeps every read of such a
  run, with what was unread before and after it. A read takes the written form of the field
  it gives; one that fails takes nothing, or the hash of a point that is cut after it
  (`Step.taken`). So at every moment the payload is what the reads so far have taken, in
  order, and what is unread.

  Proved:
  - `step_taken`: one read splits what was unread into what it takes and what it leaves.
  - `trace_taken`: by induction on the reads, so does a run.
  - `every_byte_is_accounted_for`: the books hold at every read of a run, a plain read
    fails exactly when too little is unread, and a run goes on after a failure as it would
    from there.
  - `a_cut_point_loses_its_hash`: a run with three failures, one of them after a hash.
-/

import ChainQuery.Proofs.Payload.Fields

namespace ChainQuery.Payload

structure Step where
  kind : FieldKind
  before : Bytes
  result : Except DecodeError Field
  after : Bytes

def step (k : FieldKind) (unread : Bytes) : Step := ⟨k, unread, (k.read.run unread).1, (k.read.run unread).2⟩

/-- Each read goes on where the one before it stopped, also if that one failed. -/
def trace : List FieldKind → Bytes → List Step
  | [], _ => []
  | k :: ks, unread => step k unread :: trace ks (step k unread).after

/-- What is left when all of `kinds` are read. -/
def unread (kinds : List FieldKind) (payload : Bytes) : Bytes :=
  kinds.foldl (fun input k => (step k input).after) payload

/-- The bytes between what is unread before a step and after it. -/
def Step.taken (s : Step) : Bytes :=
  match s.result with
  | .ok f => f.encode
  | .error _ => s.before.take (s.kind.lost s.before)

@[simp] theorem step_kind (k : FieldKind) (input : Bytes) : (step k input).kind = k := rfl
@[simp] theorem step_before (k : FieldKind) (input : Bytes) : (step k input).before = input := rfl
@[simp] theorem unread_cons (k : FieldKind) (ks : List FieldKind) (payload : Bytes) :
    unread (k :: ks) payload = unread ks (step k payload).after := rfl

/-! ## One read -/

theorem step_of_run {k : FieldKind} {input rest : Bytes} {result : Except DecodeError Field}
    (h : k.read.run input = (result, rest)) : step k input = ⟨k, input, result, rest⟩ := by
  rw [step, h]

theorem step_after_of_error {k : FieldKind} {input : Bytes} {e : DecodeError} (h : (step k input).result = .error e) :
    (step k input).after = input.drop (k.lost input) :=
  FieldKind.rest_of_error (Prod.ext h rfl)

theorem step_taken (k : FieldKind) (input : Bytes) : (step k input).taken ++ (step k input).after = input := by
  rcases hrun : k.read.run input with ⟨result, rest⟩
  rw [step_of_run hrun]
  cases result with
  | ok f =>
    obtain ⟨hinput, -⟩ := (k.decodes_read _ _ _).mp hrun
    exact hinput.symm
  | error e =>
    obtain rfl := FieldKind.rest_of_error hrun
    exact List.take_append_drop _ _

theorem step_eq_error_iff {k : FieldKind} {n : Nat} (hk : k.width? = some n) (input : Bytes) (e : DecodeError) :
    (step k input).result = .error e ↔ input.length < n ∧ e = .truncated n input.length := by
  refine ⟨fun h => ?_, fun ⟨hshort, he⟩ => ?_⟩
  · obtain ⟨hshort, he, -⟩ := (FieldKind.read_eq_error_iff hk).mp (Prod.ext h rfl)
    exact ⟨hshort, he⟩
  · rw [step_of_run ((FieldKind.read_eq_error_iff hk).mpr ⟨hshort, he, rfl⟩)]

/-! ## Runs -/

theorem trace_kind (kinds : List FieldKind) (payload : Bytes) : (trace kinds payload).map Step.kind = kinds := by
  induction kinds generalizing payload with
  | nil => rfl
  | cons k ks ih => simp [trace, ih]

theorem trace_taken (kinds : List FieldKind) (payload : Bytes) :
    (trace kinds payload).flatMap Step.taken ++ unread kinds payload = payload := by
  induction kinds generalizing payload with
  | nil => rfl
  | cons k ks ih =>
    rw [trace, List.flatMap_cons, List.append_assoc, unread_cons, ih]
    exact step_taken k payload

/-- A step of a run is the read of its kind where the steps before it stopped, and the
    steps after it are the run from where it stopped. -/
theorem trace_eq_append {kinds : List FieldKind} {payload : Bytes} {past future : List Step} {s : Step}
    (h : trace kinds payload = past ++ s :: future) :
    s = step s.kind (unread (past.map Step.kind) payload) ∧ past = trace (past.map Step.kind) payload ∧
      future = trace (future.map Step.kind) s.after := by
  -- by the steps before it: each takes one kind off the front and changes what is unread
  induction past generalizing kinds payload with
  | nil =>
    cases kinds with
    | nil => simp [trace] at h
    | cons k ks =>
      obtain ⟨rfl, rfl⟩ := List.cons.inj h
      exact ⟨rfl, rfl, by rw [trace_kind]⟩
  | cons s' past ih =>
    cases kinds with
    | nil => simp [trace] at h
    | cons k ks =>
      obtain ⟨rfl, htail⟩ := List.cons.inj h
      obtain ⟨hs, hpast, hfuture⟩ := ih htail
      refine ⟨hs, ?_, hfuture⟩
      rw [List.map_cons, step_kind, trace, ← hpast]

/-- The books of a payload at the read `s`, when `past` was read before it. -/
structure Books (payload : Bytes) (past : List Step) (s : Step) : Prop where
  read : s.kind.read.run s.before = (s.result, s.after)
  /-- Nothing is skipped and nothing is read twice. -/
  before : payload = past.flatMap Step.taken ++ s.before
  after : payload = (past ++ [s]).flatMap Step.taken ++ s.after
  suffix : s.after <:+ payload
  given : ∀ f, s.result = .ok f → s.kind.Reads f ∧ s.taken = f.encode
  plain : ∀ n, s.kind.width? = some n →
    ∀ e, s.result = .error e ↔ s.before.length < n ∧ e = .truncated n s.before.length
  untouched : ∀ e, s.result = .error e → ¬ (s.kind = .point ∧ 32 ≤ s.before.length) → s.after = s.before
  cut : ∀ e, s.result = .error e → s.kind = .point → 32 ≤ s.before.length →
    s.taken = s.before.take 32 ∧ s.after = s.before.drop 32

theorem books_step (past : List FieldKind) (payload : Bytes) (k : FieldKind) :
    Books payload (trace past payload) (step k (unread past payload)) where
  read := rfl
  before := (trace_taken past payload).symm
  after := by
    rw [List.flatMap_append, List.flatMap_singleton, List.append_assoc, step_taken, trace_taken]
  suffix := by
    refine ⟨(trace past payload).flatMap Step.taken ++ (step k (unread past payload)).taken, ?_⟩
    rw [List.append_assoc, step_taken, trace_taken]
  given f hf := by
    obtain ⟨-, hreads, -⟩ := (k.decodes_read _ _ _).mp (Prod.ext hf rfl)
    exact ⟨hreads, by rw [Step.taken, hf]⟩
  plain n hk e := step_eq_error_iff hk _ e
  untouched e he hwhole := by
    have hlost : k.lost (unread past payload) = 0 := if_neg hwhole
    rw [step_after_of_error he, hlost]
    rfl
  cut e he hk hlong := by
    have hlost : k.lost (unread past payload) = 32 := if_pos ⟨hk, hlong⟩
    refine ⟨?_, by rw [step_after_of_error he, hlost]; rfl⟩
    rw [Step.taken, he]
    simp [hlost]

/-- Whatever is read of a payload, and whichever reads fail: the reads so far have taken its
    front, each the written form of its field, and the rest is unread. -/
theorem every_byte_is_accounted_for (kinds : List FieldKind) (payload : Bytes) :
    (trace kinds payload).map Step.kind = kinds ∧
      payload = (trace kinds payload).flatMap Step.taken ++ unread kinds payload ∧
      ∀ past s future, trace kinds payload = past ++ s :: future →
        Books payload past s ∧ future = trace (future.map Step.kind) s.after := by
  refine ⟨trace_kind kinds payload, (trace_taken kinds payload).symm, ?_⟩
  intro past s future h
  obtain ⟨hs, hpast, hfuture⟩ := trace_eq_append h
  refine ⟨?_, hfuture⟩
  have hbooks := books_step (past.map Step.kind) payload s.kind
  rwa [← hs, ← hpast] at hbooks

/-- Of thirty-three bytes a point takes thirty-two and fails, and the last is still read. -/
theorem a_cut_point_loses_its_hash :
    let payload : Bytes := List.replicate 32 7 ++ [9]
    let kinds : List FieldKind := [.raw 40, .point, .u8, .size]
    (trace kinds payload).map Step.result =
        [.error (.truncated 40 33), .error (.truncated 4 1), .ok (.u8 9), .error (.consensus .endOfInput)] ∧
      unread kinds payload = [] ∧
      payload = (trace kinds payload).flatMap Step.taken ++ unread kinds payload :=
  ⟨rfl, rfl, (every_byte_is_accounted_for _ _).2.1⟩

end ChainQuery.Payload
