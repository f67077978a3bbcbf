/-
  ChainQuery.Proofs.Payload.Written — payloads that are written and read back.

  A payload is written entry by entry. A prefix of more than 255 bits is refused and leaves
  what is written as it was, so with such prefixes among the entries the payload is still the
  written forms of the fields, one after another (`writeAll_eq`). Each is read back off the
  front whatever follows it, by its own kind or, for a point, either way.

  Proved:
  - `writeAll_eq`: by induction on the entries, what is written.
  - `read_of_forall₂`: by induction on the fields, what is read back.
  - `encode_inj`: fields of one type have different written forms.
  - `written_reads_back`: a payload is read as the fields it was written from, and another
    value for one of them makes another payload.
-/

import ChainQuery.Proofs.Payload.Trace
import ChainQuery.Proofs.Prefix
import Mathlib.Data.List.Forall2

namespace ChainQuery.Payload

/-! ## Writing -/

def Entry.field? : Entry → Option Field
  | .field f => some f
  | .bits _ => none

/-- The fields among the entries, in order. -/
def fields (entries : List Entry) : List Field := entries.filterMap Entry.field?

@[simp] theorem fields_cons_field (f : Field) (entries : List Entry) :
    fields (.field f :: entries) = f :: fields entries := rfl

@[simp] theorem fields_cons_bits (p : Prefix) (entries : List Entry) : fields (.bits p :: entries) = fields entries := rfl

@[simp] theorem fields_append (past future : List Entry) : fields (past ++ future) = fields past ++ fields future :=
  List.filterMap_append

/-- What is written when all of the entries are, the refused ones too. -/
def writeAll (capacity : Nat) (entries : List Entry) : Bytes :=
  entries.foldl (fun written e => (write written e).2) (blank capacity)

@[simp] theorem write_field (written : Bytes) (f : Field) :
    write written (.field f) = (.ok (), written ++ f.encode) := rfl

theorem write_of_long {p : Prefix} (h : 255 < p.bits) (written : Bytes) :
    write written (.bits p) = (.error ⟨p.bits⟩, written) := by
  have hencode : p.encode = .error ⟨p.bits⟩ := Prefix.encode_eq_error_iff.mpr ⟨h, rfl⟩
  simp only [write, Entry.encode, hencode]

theorem foldl_write {entries : List Entry} (hlong : ∀ p, .bits p ∈ entries → 255 < p.bits) (written : Bytes) :
    entries.foldl (fun written e => (write written e).2) written =
      written ++ (fields entries).flatMap Field.encode := by
  induction entries generalizing written with
  | nil => simp [fields]
  | cons e entries ih =>
    have hrest := ih fun p hp => hlong p (List.mem_cons_of_mem _ hp)
    rw [List.foldl_cons, hrest]
    cases e with
    | field f => simp
    | bits p => simp [write_of_long (hlong p List.mem_cons_self)]

theorem writeAll_eq (capacity : Nat) {entries : List Entry} (hlong : ∀ p, .bits p ∈ entries → 255 < p.bits) :
    writeAll capacity entries = (fields entries).flatMap Field.encode :=
  foldl_write hlong []

theorem mem_fields {entries : List Entry} {f : Field} : f ∈ fields entries ↔ .field f ∈ entries := by
  rw [fields, List.mem_filterMap]
  refine ⟨fun ⟨e, he, hf⟩ => ?_, fun h => ⟨_, h, rfl⟩⟩
  cases e with
  | field g => cases hf; exact he
  | bits p => cases hf

/-! ## Reading back -/

theorem read_of_forall₂ {kinds : List FieldKind} {fs : List Field} (h : List.Forall₂ FieldKind.Reads kinds fs)
    (hread : ∀ f ∈ fs, f.Readable) (rest : Bytes) :
    (trace kinds (fs.flatMap Field.encode ++ rest)).map Step.result = fs.map .ok ∧
      unread kinds (fs.flatMap Field.encode ++ rest) = rest := by
  induction h with
  | nil => exact ⟨rfl, rfl⟩
  | @cons k f kinds fs hk _ ih =>
    obtain ⟨hf, hfs⟩ := List.forall_mem_cons.mp hread
    obtain ⟨hresults, hleft⟩ := ih hfs
    have hstep := step_of_run ((k.decodes_read _ _ (fs.flatMap Field.encode ++ rest)).mpr ⟨rfl, hk, hf⟩)
    rw [List.flatMap_cons, List.append_assoc, trace, unread_cons, hstep]
    exact ⟨by rw [List.map_cons, hresults, List.map_cons], hleft⟩

/-! ## Other values -/

/-- The fields differ in their values at most. Byte strings are of one type whatever their
    number of bytes. -/
def Field.SameType (f g : Field) : Prop := f.kind = g.kind ∨ ∃ bs cs, f = .raw bs ∧ g = .raw cs

theorem Field.encode_inj {f g : Field} (h : f.SameType g) (hf : f.Readable) (hg : g.Readable)
    (heq : f.encode = g.encode) : f = g := by
  rcases h with hkind | ⟨bs, cs, rfl, rfl⟩
  · have hread : f.kind.read.run f.encode = (.ok f, []) :=
      (f.kind.decodes_read _ _ _).mpr ⟨(List.append_nil _).symm, .inl rfl, hf⟩
    have hread' : f.kind.read.run f.encode = (.ok g, []) :=
      (f.kind.decodes_read _ _ _).mpr ⟨by rw [heq, List.append_nil], .inl hkind, hg⟩
    rw [hread] at hread'
    cases hread'
    rfl
  · rw [show bs = cs from heq]

/-- Fields written with refused prefixes among them are read back in order, by their own
    kinds or the points either way, and nothing is left. A refused prefix writes nothing, and
    another value for one field makes another payload. -/
theorem written_reads_back (capacity : Nat) (entries : List Entry)
    (hlong : ∀ p, .bits p ∈ entries → 255 < p.bits) (hread : ∀ f, .field f ∈ entries → f.Readable) :
    (∀ kinds, List.Forall₂ FieldKind.Reads kinds (fields entries) →
        (trace kinds (writeAll capacity entries)).map Step.result = (fields entries).map .ok ∧
          Reader.finish.run (unread kinds (writeAll capacity entries)) = (.ok (), [])) ∧
      (∀ past p future, entries = past ++ .bits p :: future →
        write (writeAll capacity past) (.bits p) = (.error ⟨p.bits⟩, writeAll capacity past)) ∧
      ∀ past f g future, entries = past ++ .field f :: future → f.SameType g → g.Readable → f ≠ g →
        writeAll capacity (past ++ .field g :: future) ≠ writeAll capacity entries := by
  refine ⟨?_, ?_, ?_⟩
  · intro kinds hkinds
    have hback := read_of_forall₂ hkinds (fun f hf => hread f (mem_fields.mp hf)) []
    rw [List.append_nil, ← writeAll_eq capacity hlong] at hback
    obtain ⟨hresults, hleft⟩ := hback
    exact ⟨hresults, by rw [hleft]; rfl⟩
  · rintro past p future rfl
    exact write_of_long (hlong p (by simp)) _
  · rintro past f g future rfl htype hg hne heq
    -- both payloads are written forms in a row, and all but one of these are the same
    have hlong' : ∀ p, .bits p ∈ past ++ .field g :: future → 255 < p.bits := by
      intro p hp
      exact hlong p (by simpa using hp)
    rw [writeAll_eq capacity hlong', writeAll_eq capacity hlong] at heq
    have hencode : g.encode = f.encode := by simpa using heq
    exact hne (Field.encode_inj htype (hread f (by simp)) hg hencode.symm)

/-- A point is read back both ways from among prefixes of 256 and 300 bits. -/
theorem a_point_reads_back_twice :
    let p : OutPoint := ⟨⟨List.replicate 32 7, rfl⟩, 9⟩
    let entries : List Entry := [.bits (Prefix.ofBytes 256 []), .field (.point p), .field (.raw [1, 2, 3]),
      .bits (Prefix.ofBytes 300 []), .field (.point p)]
    (∀ p, .bits p ∈ entries → 255 < p.bits) ∧ (∀ f, .field f ∈ entries → f.Readable) ∧
      (trace [.point, .raw 3, .consensusPoint] (writeAll 16 entries)).map Step.result =
        [.ok (.point p), .ok (.raw [1, 2, 3]), .ok (.point p)] := by
  intro p entries
  have hlong : ∀ p, .bits p ∈ entries → 255 < p.bits := by
    intro p hp
    simp only [entries, List.mem_cons, Entry.bits.injEq, List.not_mem_nil, or_false, reduceCtorEq, false_or] at hp
    rcases hp with rfl | rfl
    · decide
    · decide
  have hread : ∀ f, .field f ∈ entries → f.Readable := by
    intro f hf
    simp only [entries, List.mem_cons, Entry.field.injEq, List.not_mem_nil, or_false, reduceCtorEq, false_or] at hf
    rcases hf with rfl | rfl | rfl <;> trivial
  have hkinds : List.Forall₂ FieldKind.Reads [.point, .raw 3, .consensusPoint] (fields entries) :=
    .cons (.inl rfl) (.cons (.inl rfl) (.cons (.inr ⟨rfl, rfl⟩) .nil))
  exact ⟨hlong, hread, ((written_reads_back 16 entries hlong hread).1 _ hkinds).1⟩

end ChainQuery.Payload
