/-
  ChainQuery.Payload.Reader — reading a reply field by field.

  A read gives its value or its error, and in both cases the bytes left unread.
  - A plain read of `n` bytes fails when fewer are left, takes nothing then, and
    says how many it needed and how many there were.
  - A read made of several plain reads stops at the first that fails; what the
    earlier ones took stays taken.
  - A consensus read takes a whole value or nothing.
  - A reply must be used up: `finish` refuses bytes that no field claims.

  Rows are read until nothing is left. Every row takes at least one byte, which is
  part of what a row reader is, so the rows of any reply come to an end.
-/

import ChainQuery.OutPoint

namespace ChainQuery

inductive DecodeError where
  | truncated (needed remaining : Nat)
  | trailingBytes (count : Nat)
  /-- A row carried a height of more than 32 bits. -/
  | heightOverflow (height : UInt64)
  | consensus (cause : ConsensusError)
  deriving DecidableEq, Repr

namespace DecodeError

def message : DecodeError → String
  | .truncated needed remaining =>
    "payload truncated: needed " ++ Nat.repr needed ++ " bytes, " ++ Nat.repr remaining ++ " remaining"
  | .trailingBytes count => Nat.repr count ++ " trailing bytes after reply"
  | .heightOverflow height => "history height " ++ Nat.repr height.toNat ++ " does not fit in 32 bits"
  | .consensus cause => "invalid consensus encoding: " ++ cause.message

def causes : DecodeError → List String
  | .consensus cause => cause.message :: cause.causes
  | _ => []

end DecodeError

def Reader (α : Type) : Type := Bytes → Except DecodeError α × Bytes

namespace Reader

variable {α β : Type}

def run (r : Reader α) (input : Bytes) : Except DecodeError α × Bytes := r input

protected def pure (a : α) : Reader α := fun input => (.ok a, input)

protected def bind (r : Reader α) (f : α → Reader β) : Reader β := fun input =>
  match r input with
  | (.ok a, rest) => f a rest
  | (.error e, rest) => (.error e, rest)

instance : Monad Reader where
  pure := Reader.pure
  bind := Reader.bind

def fail (e : DecodeError) : Reader α := fun input => (.error e, input)

def fixed (n : Nat) : Reader (FixedBytes n) := fun input =>
  match Bytes.take? n input with
  | some (bs, rest) => (.ok bs, rest)
  | none => (.error (.truncated n input.length), input)

def u8 : Reader UInt8 := fun
  | b :: rest => (.ok b, rest)
  | [] => (.error (.truncated 1 0), [])

def u32 : Reader UInt32 := do return (← fixed 4).toU32

def u64 : Reader UInt64 := do return (← fixed 8).toU64

def point : Reader OutPoint := do
  let hash ← fixed 32
  let index ← u32
  return ⟨hash, index⟩

def consensus (d : Decoder α) : Reader α := fun input =>
  match d input with
  | .ok (a, rest) => (.ok a, rest)
  | .error e => (.error (.consensus e), input)

def finish : Reader Unit := fun input =>
  if input.isEmpty then (.ok (), input) else (.error (.trailingBytes input.length), input)

/-- The value of a payload that `r` uses up. -/
def whole (r : Reader α) (payload : Bytes) : Except DecodeError α :=
  (run (do let a ← r; finish; return a) payload).1

/-! ## What a successful read takes -/

/-- When `r` succeeds it has taken at least `n` bytes. -/
def Takes (r : Reader α) (n : Nat) : Prop :=
  ∀ input a rest, r.run input = (.ok a, rest) → rest.length + n ≤ input.length

theorem Takes.mono {r : Reader α} {m n : Nat} (h : Takes r m) (hn : n ≤ m) : Takes r n := by
  intro input a rest hrun
  have := h input a rest hrun
  omega

theorem takes_pure (a : α) : Takes (pure a : Reader α) 0 := by
  intro input a' rest h
  cases h
  exact Nat.le_refl _

theorem takes_fail (e : DecodeError) (n : Nat) : Takes (fail e : Reader α) n := by
  intro input a rest h
  cases h

theorem takes_bind {r : Reader α} {f : α → Reader β} {m n : Nat}
    (hr : Takes r m) (hf : ∀ a, Takes (f a) n) : Takes (r >>= f) (m + n) := by
  intro input b rest h
  change Reader.bind r f input = _ at h
  unfold Reader.bind at h
  split at h
  · rename_i a mid hmid
    have h1 := hr input a mid hmid
    have h2 := hf a mid b rest h
    omega
  · cases h

theorem takes_fixed (n : Nat) : Takes (fixed n) n := by
  intro input bs rest h
  simp only [run, fixed] at h
  split at h
  · rename_i bs' rest' h'
    cases h
    rw [Bytes.eq_append_of_take? h', List.length_append, bs.2]
    omega
  · cases h

theorem takes_u8 : Takes u8 1 := by
  intro input b rest h
  cases input with
  | nil => cases h
  | cons b' input => cases h; simp

theorem takes_u32 : Takes u32 4 := takes_bind (takes_fixed 4) fun _ => takes_pure _

theorem takes_u64 : Takes u64 8 := takes_bind (takes_fixed 8) fun _ => takes_pure _

theorem takes_point : Takes point 36 :=
  takes_bind (takes_fixed 32) fun _ => takes_bind takes_u32 fun _ => takes_pure _

end Reader

/-! ## Rows -/

structure RowReader (α : Type) where
  read : Reader α
  takes_one : read.Takes 1

/-- The rows of a payload, or the first error among them. -/
def RowReader.all {α : Type} (r : RowReader α) (payload : Bytes) : Except DecodeError (List α) :=
  if payload.isEmpty then .ok []
  else
    match h : r.read.run payload with
    | (.ok row, rest) =>
      have : rest.length < payload.length := r.takes_one payload row rest h
      (RowReader.all r rest).map (row :: ·)
    | (.error e, _) => .error e
termination_by payload.length

end ChainQuery
