/-
  ChainQuery.Bytes — byte strings, byte strings of one known length, and numbers
  written least significant byte first.

  - A payload is a list of bytes, read from the front.
  - `take?` cuts off exactly `n` bytes, and looks no further than the input goes,
    so asking for 2^64 bytes of a short payload is as cheap as the payload.
  - `toLE w n` writes the low `w` bytes of `n`; `ofLE` reads any number of bytes.

  Proved: `take?` fails exactly when the input is shorter than `n` and otherwise
  splits it; the two directions of the little-endian form undo each other.
-/

namespace ChainQuery

abbrev Bytes := List UInt8

/-- Exactly `n` bytes. -/
abbrev FixedBytes (n : Nat) := { bs : Bytes // bs.length = n }

/-- Thirty-two bytes naming a transaction or a block, in wire order. -/
abbrev Hash := FixedBytes 32

/-- Twenty bytes naming a payment destination. -/
abbrev ShortHash := FixedBytes 20

namespace FixedBytes

variable {n : Nat}

def replicate (n : Nat) (b : UInt8) : FixedBytes n := ⟨List.replicate n b, List.length_replicate⟩

def reverse (bs : FixedBytes n) : FixedBytes n := ⟨bs.1.reverse, by rw [List.length_reverse, bs.2]⟩

def cons (b : UInt8) (bs : FixedBytes n) : FixedBytes (n + 1) := ⟨b :: bs.1, by rw [List.length_cons, bs.2]⟩

def ofBytes? (n : Nat) (bs : Bytes) : Option (FixedBytes n) :=
  if h : bs.length = n then some ⟨bs, h⟩ else none

@[simp] theorem reverse_reverse (bs : FixedBytes n) : bs.reverse.reverse = bs :=
  Subtype.ext (List.reverse_reverse bs.1)

end FixedBytes

namespace Bytes

/-! ## Cutting off a known number of bytes -/

/-- The first `n` bytes and what follows them, if the input goes that far. -/
def take? : (n : Nat) → Bytes → Option (FixedBytes n × Bytes)
  | 0, rest => some (⟨[], rfl⟩, rest)
  | _ + 1, [] => none
  | n + 1, b :: rest =>
    match take? n rest with
    | some (bs, rest) => some (bs.cons b, rest)
    | none => none

theorem take?_append {n : Nat} (bs : FixedBytes n) (rest : Bytes) :
    take? n (bs.1 ++ rest) = some (bs, rest) := by
  induction n with
  | zero =>
    obtain ⟨bs, h⟩ := bs
    cases bs with
    | nil => rfl
    | cons => simp at h
  | succ n ih =>
    obtain ⟨bs, h⟩ := bs
    cases bs with
    | nil => simp at h
    | cons b bs =>
      have hn : bs.length = n := by simpa using h
      simp only [List.cons_append, take?, ih ⟨bs, hn⟩]
      rfl

theorem eq_append_of_take? {n : Nat} {input rest : Bytes} {bs : FixedBytes n}
    (h : take? n input = some (bs, rest)) : input = bs.1 ++ rest := by
  induction n generalizing input rest with
  | zero => simp only [take?, Option.some.injEq, Prod.mk.injEq] at h; obtain ⟨rfl, rfl⟩ := h; rfl
  | succ n ih =>
    cases input with
    | nil => simp [take?] at h
    | cons b input =>
      simp only [take?] at h
      split at h
      · rename_i bs' rest' h'
        simp only [Option.some.injEq, Prod.mk.injEq] at h
        obtain ⟨rfl, rfl⟩ := h
        rw [ih h']; rfl
      · cases h

theorem take?_eq_none_iff {n : Nat} {input : Bytes} : take? n input = none ↔ input.length < n := by
  induction n generalizing input with
  | zero => simp [take?]
  | succ n ih =>
    cases input with
    | nil => simp [take?]
    | cons b input =>
      simp only [take?, List.length_cons, Nat.add_lt_add_iff_right, ← ih]
      cases take? n input with
      | none => simp
      | some => simp

/-! ## Numbers, least significant byte first -/

/-- The low `w` bytes of `n`. -/
def toLE : (w n : Nat) → Bytes
  | 0, _ => []
  | w + 1, n => UInt8.ofNat n :: toLE w (n / 256)

def ofLE : Bytes → Nat
  | [] => 0
  | b :: bs => b.toNat + 256 * ofLE bs

@[simp] theorem length_toLE (w n : Nat) : (toLE w n).length = w := by
  induction w generalizing n with
  | zero => rfl
  | succ w ih => simp [toLE, ih]

theorem ofLE_toLE (w n : Nat) : ofLE (toLE w n) = n % Nat.pow 256 w := by
  induction w generalizing n with
  | zero => simp [toLE, ofLE, Nat.mod_one]
  | succ w ih =>
    simp only [toLE, ofLE, ih, UInt8.toNat_ofNat']
    show n % 256 + _ = n % (Nat.pow 256 w * 256)
    rw [Nat.mul_comm (Nat.pow 256 w), Nat.mod_mul]

theorem ofLE_lt (bs : Bytes) : ofLE bs < Nat.pow 256 bs.length := by
  induction bs with
  | nil => simp [ofLE]
  | cons b bs ih =>
    have hb : b.toNat < 256 := b.toNat_lt
    have hpow : Nat.pow 256 (bs.length + 1) = Nat.pow 256 bs.length * 256 := rfl
    rw [ofLE, List.length_cons, hpow]
    omega

theorem toLE_ofLE (bs : Bytes) : toLE bs.length (ofLE bs) = bs := by
  induction bs with
  | nil => rfl
  | cons b bs ih =>
    have hb : b.toNat < 256 := b.toNat_lt
    have hdiv : (b.toNat + 256 * ofLE bs) / 256 = ofLE bs := by omega
    have hbyte : UInt8.ofNat (b.toNat + 256 * ofLE bs) = b := by
      apply UInt8.toNat_inj.mp
      rw [UInt8.toNat_ofNat']; omega
    simp only [List.length_cons, ofLE, toLE, hdiv, hbyte, ih]

def u32 (n : UInt32) : Bytes := toLE 4 n.toNat

def u64 (n : UInt64) : Bytes := toLE 8 n.toNat

/-- Two's complement in four bytes. -/
def i32 (n : Int32) : Bytes := u32 n.toUInt32

end Bytes

namespace FixedBytes

def toU32 (bs : FixedBytes 4) : UInt32 := UInt32.ofNat (Bytes.ofLE bs.1)

def toU64 (bs : FixedBytes 8) : UInt64 := UInt64.ofNat (Bytes.ofLE bs.1)

def toI32 (bs : FixedBytes 4) : Int32 := bs.toU32.toInt32

theorem u32_toU32 (bs : FixedBytes 4) : Bytes.u32 bs.toU32 = bs.1 := by
  have h := Bytes.ofLE_lt bs.1
  rw [bs.2] at h
  have h' := Bytes.toLE_ofLE bs.1
  rw [bs.2] at h'
  simp only [Bytes.u32, toU32, UInt32.toNat_ofNat']
  rw [Nat.mod_eq_of_lt (by simpa using h), h']

theorem u64_toU64 (bs : FixedBytes 8) : Bytes.u64 bs.toU64 = bs.1 := by
  have h := Bytes.ofLE_lt bs.1
  rw [bs.2] at h
  have h' := Bytes.toLE_ofLE bs.1
  rw [bs.2] at h'
  simp only [Bytes.u64, toU64, UInt64.toNat_ofNat']
  rw [Nat.mod_eq_of_lt (by simpa using h), h']

theorem toU32_u32 (n : UInt32) (h : (Bytes.u32 n).length = 4) : toU32 ⟨Bytes.u32 n, h⟩ = n := by
  simp only [toU32, Bytes.u32, Bytes.ofLE_toLE]
  rw [Nat.mod_eq_of_lt (by simpa using n.toNat_lt), UInt32.ofNat_toNat]

theorem toU64_u64 (n : UInt64) (h : (Bytes.u64 n).length = 8) : toU64 ⟨Bytes.u64 n, h⟩ = n := by
  simp only [toU64, Bytes.u64, Bytes.ofLE_toLE]
  rw [Nat.mod_eq_of_lt (by simpa using n.toNat_lt), UInt64.ofNat_toNat]

end FixedBytes

end ChainQuery
