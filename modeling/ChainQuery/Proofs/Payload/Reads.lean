/-
  ChainQuery.Proofs.Payload.Reads — written forms, and readers that undo them.

  A reader reads a byte string as a value when it takes exactly these bytes off every
  input that starts with them and gives the value (`Reads`). What follows does not
  matter, so the readers of a row's fields compose to a reader of the row, and rows
  written one after another are read back one by one.

  Proved:
  - `reads_bind`: two reads in a row read the two written forms in a row.
  - `reads_fixed`, `reads_u32`, `reads_u64`, `reads_point`: each plain field is read from
    its written form.
  - `whole_eq_ok_iff`, `whole_of_error`: a reader's value of a payload is what it reads
    when it leaves nothing, and what it fails with is what the payload fails with.
  - `all_eq_nil`, `all_eq_cons`: the rows of a payload, taken off its front.
  - `all_flatMap`: a payload of written rows is read as these rows.
-/

import ChainQuery.Payload.Reader
import ChainQuery.Proofs.Except

namespace ChainQuery

namespace Reader

variable {α β : Type}

/-- `r` takes `bs` off any input and gives `a`. -/
def Reads (r : Reader α) (bs : Bytes) (a : α) : Prop := ∀ rest, r.run (bs ++ rest) = (.ok a, rest)

theorem reads_pure (a : α) : Reads (pure a : Reader α) [] a := fun _ => rfl

theorem reads_bind {r : Reader α} {f : α → Reader β} {bs cs : Bytes} {a : α} {b : β}
    (hr : Reads r bs a) (hf : Reads (f a) cs b) : Reads (r >>= f) (bs ++ cs) b := by
  intro rest
  have hr : r (bs ++ (cs ++ rest)) = (.ok a, cs ++ rest) := hr (cs ++ rest)
  rw [List.append_assoc]
  show Reader.bind r f (bs ++ (cs ++ rest)) = _
  unfold Reader.bind
  rw [hr]
  exact hf rest

/-- A read whose value is only changed afterwards takes the same bytes. -/
theorem reads_bind_pure {r : Reader α} {f : α → β} {bs : Bytes} {a : α} (hr : Reads r bs a) :
    Reads (do return f (← r)) bs (f a) := by
  have := reads_bind (f := fun x => (pure (f x) : Reader β)) hr (reads_pure (f a))
  rwa [List.append_nil] at this

theorem run_of_reads {r : Reader α} {bs : Bytes} {a : α} (h : Reads r bs a) : r.run bs = (.ok a, []) := by
  have := h []
  rwa [List.append_nil] at this

theorem reads_u8 (b : UInt8) : Reads u8 [b] b := fun _ => rfl

theorem reads_fixed {n : Nat} (bs : FixedBytes n) : Reads (fixed n) bs.1 bs := by
  intro rest
  simp only [run, fixed, Bytes.take?_append]

theorem reads_u32 (n : UInt32) : Reads u32 (Bytes.u32 n) n := by
  have h : (Bytes.u32 n).length = 4 := Bytes.length_toLE _ _
  have := reads_bind_pure (f := FixedBytes.toU32) (reads_fixed ⟨Bytes.u32 n, h⟩)
  rwa [FixedBytes.toU32_u32] at this

theorem reads_u64 (n : UInt64) : Reads u64 (Bytes.u64 n) n := by
  have h : (Bytes.u64 n).length = 8 := Bytes.length_toLE _ _
  have := reads_bind_pure (f := FixedBytes.toU64) (reads_fixed ⟨Bytes.u64 n, h⟩)
  rwa [FixedBytes.toU64_u64] at this

theorem reads_point (p : OutPoint) : Reads point p.encode p :=
  reads_bind (reads_fixed p.hash) (reads_bind_pure (reads_u32 p.index))

/-! ## Whole payloads -/

theorem bind_of_ok {r : Reader α} {f : α → Reader β} {input mid : Bytes} {a : α} (h : r.run input = (.ok a, mid)) :
    (r >>= f).run input = (f a).run mid := by
  show Reader.bind r f input = _
  have h : r input = (.ok a, mid) := h
  unfold Reader.bind
  rw [h]
  rfl

theorem bind_of_error {r : Reader α} {f : α → Reader β} {input mid : Bytes} {e : DecodeError}
    (h : r.run input = (.error e, mid)) : (r >>= f).run input = (.error e, mid) := by
  show Reader.bind r f input = _
  have h : r input = (.error e, mid) := h
  unfold Reader.bind
  rw [h]

theorem whole_of_ok {r : Reader α} {payload rest : Bytes} {a : α} (h : r.run payload = (.ok a, rest)) :
    r.whole payload = if rest.isEmpty then .ok a else .error (.trailingBytes rest.length) := by
  rw [whole, bind_of_ok h]
  cases rest with
  | nil => rfl
  | cons b rest => rfl

theorem whole_of_error {r : Reader α} {payload rest : Bytes} {e : DecodeError} (h : r.run payload = (.error e, rest)) :
    r.whole payload = .error e := by
  rw [whole, bind_of_error h]

theorem whole_eq_ok_iff {r : Reader α} {payload : Bytes} {a : α} :
    r.whole payload = .ok a ↔ r.run payload = (.ok a, []) := by
  constructor
  · intro h
    rcases hrun : r.run payload with ⟨result, rest⟩
    cases result with
    | error e =>
      rw [whole_of_error hrun] at h
      cases h
    | ok b =>
      rw [whole_of_ok hrun] at h
      cases rest with
      | nil => cases h; rfl
      | cons => cases h
  · intro h
    rw [whole_of_ok h]
    rfl

theorem consensus_of_ok {d : Decoder α} {input rest : Bytes} {a : α} (h : d input = .ok (a, rest)) :
    (consensus d).run input = (.ok a, rest) := by
  simp only [run, consensus, h]

theorem consensus_of_error {d : Decoder α} {input : Bytes} {e : ConsensusError} (h : d input = .error e) :
    (consensus d).run input = (.error (.consensus e), input) := by
  simp only [run, consensus, h]

theorem consensus_eq_ok_iff {d : Decoder α} {input rest : Bytes} {a : α} :
    (consensus d).run input = (.ok a, rest) ↔ d input = .ok (a, rest) := by
  constructor
  · intro h
    cases hd : d input with
    | error e =>
      rw [consensus_of_error hd] at h
      cases h
    | ok p =>
      rw [consensus_of_ok hd] at h
      cases h
      rfl
  · exact consensus_of_ok

end Reader

/-! ## Rows -/

namespace RowReader

variable {α : Type}

theorem all_nil (r : RowReader α) : r.all [] = .ok [] := by
  rw [all]
  rfl

theorem all_of_ok (r : RowReader α) {payload rest : Bytes} {x : α} (h : r.read.run payload = (.ok x, rest)) :
    r.all payload = (r.all rest).map (x :: ·) := by
  have hne : payload.isEmpty = false := by
    have hlt := r.takes_one _ _ _ h
    cases payload with
    | nil => simp at hlt
    | cons b payload => rfl
  rw [all, hne, if_neg Bool.false_ne_true]
  split
  · rename_i y rest' hy
    rw [h] at hy
    cases hy
    rfl
  · rename_i e _ he
    rw [h] at he
    cases he

theorem all_of_error (r : RowReader α) {payload rest : Bytes} {e : DecodeError} (hne : payload ≠ [])
    (h : r.read.run payload = (.error e, rest)) : r.all payload = .error e := by
  rw [all, if_neg fun hnil => hne (List.isEmpty_iff.mp hnil)]
  split
  · rename_i y rest' hy
    rw [h] at hy
    cases hy
  · rename_i e' _ he
    rw [h] at he
    cases he
    rfl

theorem all_eq_nil {r : RowReader α} {payload : Bytes} (h : r.all payload = .ok []) : payload = [] := by
  by_cases hne : payload = []
  · exact hne
  · rcases hrun : r.read.run payload with ⟨result, rest⟩
    cases result with
    | error e =>
      rw [r.all_of_error hne hrun] at h
      cases h
    | ok x =>
      rw [r.all_of_ok hrun] at h
      obtain ⟨xs, -, hcons⟩ := Except.map_eq_ok_iff.mp h
      cases hcons

theorem all_eq_cons {r : RowReader α} {payload : Bytes} {x : α} {xs : List α} (h : r.all payload = .ok (x :: xs)) :
    ∃ rest, r.read.run payload = (.ok x, rest) ∧ r.all rest = .ok xs := by
  have hne : payload ≠ [] := by
    intro hnil
    rw [hnil, all_nil] at h
    cases h
  rcases hrun : r.read.run payload with ⟨result, rest⟩
  cases result with
  | error e =>
    rw [r.all_of_error hne hrun] at h
    cases h
  | ok y =>
    rw [r.all_of_ok hrun] at h
    obtain ⟨ys, hrest, hcons⟩ := Except.map_eq_ok_iff.mp h
    cases hcons
    exact ⟨rest, rfl, hrest⟩

theorem all_cons (r : RowReader α) {bs : Bytes} {x : α} (h : r.read.Reads bs x) (rest : Bytes) :
    r.all (bs ++ rest) = (r.all rest).map (x :: ·) :=
  r.all_of_ok (h rest)

theorem all_flatMap (r : RowReader α) {encode : α → Bytes} {xs : List α}
    (h : ∀ x ∈ xs, r.read.Reads (encode x) x) : r.all (xs.flatMap encode) = .ok xs := by
  induction xs with
  | nil => exact r.all_nil
  | cons x xs ih =>
    rw [List.flatMap_cons, r.all_cons (h x List.mem_cons_self), ih fun y hy => h y (List.mem_cons_of_mem _ hy)]
    rfl

end RowReader

end ChainQuery
