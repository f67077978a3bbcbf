/-
  ChainQuery.Proofs.Json.Injective — a document told from its text.

  The first character of a text says what kind of document it is. From there on, two texts
  that agree are taken apart side by side: characters of a string have codes none of which
  begins another, a string ends at the first bare quote, a number where its digits do, and a
  list or an object at its bracket. So a text is that of one document, whatever follows it
  (`render_cancel`); in lines it is told by what is left without the blanks.

  Proved:
  - `escapeChar_cancel`, `quoted_cancel`, `number_cancel`: characters, strings and numbers.
  - `render_cancel`: documents, in the compact layout.
  - `print_injective`: printed documents, in either layout.
-/

import ChainQuery.Proofs.Json.Layout
import Mathlib

namespace ChainQuery.Json

variable {xs ys : List Char}

/-! ## Strings -/

/-- No code of a character that needs one begins another. -/
theorem codes_apart :
    ∀ m ∈ coded, ∀ n ∈ coded, escapeChar (Char.ofNat m) <+: escapeChar (Char.ofNat n) → m = n := by
  decide +kernel

theorem eq_of_code {c d : Char} (hc : c.toNat ∈ coded) (hd : d.toNat ∈ coded) (h : escapeChar c <+: escapeChar d) :
    c = d := by
  rw [← Char.ofNat_toNat c, ← Char.ofNat_toNat d] at h
  exact Char.toNat_inj.mp (codes_apart _ hc _ hd h)

/-- A character stands for itself, or has a code that begins with a backslash. -/
theorem self_or_code (c : Char) :
    (c ≠ '"' ∧ c ≠ '\\' ∧ escapeChar c = [c]) ∨ (c.toNat ∈ coded ∧ ∃ es, escapeChar c = '\\' :: es) := by
  rcases escapeChar_cases c with h | ⟨hlt, e, h⟩ | ⟨hlt, h⟩
  · exact .inl h
  · exact .inr ⟨hlt, _, h⟩
  · exact .inr ⟨List.mem_append_left _ (List.mem_range.mpr hlt), _, h⟩

theorem escapeChar_cancel {c d : Char} (h : escapeChar c ++ xs = escapeChar d ++ ys) : c = d ∧ xs = ys := by
  rcases self_or_code c with ⟨-, hc, hself⟩ | ⟨hc, es, hcode⟩
  · rcases self_or_code d with ⟨-, -, hself'⟩ | ⟨-, es', hcode'⟩
    · rw [hself, hself'] at h
      exact List.cons.inj h
    · rw [hself, hcode'] at h
      exact absurd (List.cons.inj h).1 hc
  · rcases self_or_code d with ⟨-, hd, hself'⟩ | ⟨hd, -, -⟩
    · rw [hcode, hself'] at h
      exact absurd (List.cons.inj h).1.symm hd
    · have hprefix : escapeChar c <+: escapeChar d ∨ escapeChar d <+: escapeChar c :=
        List.prefix_or_prefix_of_prefix (List.prefix_append _ xs) (h ▸ List.prefix_append _ ys)
      obtain rfl : c = d := hprefix.elim (eq_of_code hc hd) fun h => (eq_of_code hd hc h).symm
      exact ⟨rfl, List.append_cancel_left h⟩

theorem escapeChar_eq_cons (c : Char) : ∃ e es, escapeChar c = e :: es ∧ e ≠ '"' := by
  rcases self_or_code c with ⟨hquote, -, h⟩ | ⟨-, es, h⟩
  · exact ⟨c, [], h, hquote⟩
  · exact ⟨_, es, h, by decide⟩

theorem characters_cancel {cs ds : List Char}
    (h : cs.flatMap escapeChar ++ '"' :: xs = ds.flatMap escapeChar ++ '"' :: ys) : cs = ds ∧ xs = ys := by
  induction cs generalizing ds with
  | nil =>
    cases ds with
    | nil => exact ⟨rfl, (List.cons.inj h).2⟩
    | cons d ds =>
      obtain ⟨e, es, he, hne⟩ := escapeChar_eq_cons d
      rw [List.flatMap_cons, he] at h
      exact absurd (List.cons.inj h).1.symm hne
  | cons c cs ih =>
    cases ds with
    | nil =>
      obtain ⟨e, es, he, hne⟩ := escapeChar_eq_cons c
      rw [List.flatMap_cons, he] at h
      exact absurd (List.cons.inj h).1 hne
    | cons d ds =>
      rw [List.flatMap_cons, List.flatMap_cons, List.append_assoc, List.append_assoc] at h
      obtain ⟨rfl, htail⟩ := escapeChar_cancel h
      obtain ⟨rfl, hrest⟩ := ih htail
      exact ⟨rfl, hrest⟩

theorem quoted_cancel {s t : String} (h : quoted s ++ xs = quoted t ++ ys) : s = t ∧ xs = ys := by
  unfold quoted at h
  simp only [List.cons_append, List.append_assoc, List.nil_append] at h
  obtain ⟨hst, hrest⟩ := characters_cancel (List.cons.inj h).2
  exact ⟨String.toList_inj.mp hst, hrest⟩

/-! ## Numbers -/

def isNumeral (c : Char) : Bool := c = '-' || c.isDigit

/-- What follows a number is no more of it. -/
def Stops (cs : List Char) : Prop := ∀ c ∈ cs.head?, isNumeral c = false

theorem numeral_of_mem_repr {n : Int} {c : Char} (h : c ∈ (Int.repr n).toList) : isNumeral c = true := by
  rcases mem_repr h with rfl | hdigit
  · rfl
  · simp [isNumeral, hdigit]

theorem takeWhile_number (n : Int) (h : Stops xs) :
    ((Int.repr n).toList ++ xs).takeWhile isNumeral = (Int.repr n).toList := by
  have hall : ∀ c ∈ (Int.repr n).toList, isNumeral c = true := fun _ => numeral_of_mem_repr
  have hnone : xs.takeWhile isNumeral = [] := by
    cases xs with
    | nil => rfl
    | cons c cs => rw [List.takeWhile_cons, h c rfl, if_neg Bool.false_ne_true]
  rw [List.takeWhile_append_of_pos hall, hnone, List.append_nil]

theorem number_cancel {m n : Int} (hx : Stops xs) (hy : Stops ys)
    (h : (Int.repr m).toList ++ xs = (Int.repr n).toList ++ ys) : m = n ∧ xs = ys := by
  have hnumber : (Int.repr m).toList = (Int.repr n).toList := by
    rw [← takeWhile_number m hx, ← takeWhile_number n hy, h]
  rw [hnumber] at h
  exact ⟨Int.repr_inj.mp (String.toList_inj.mp hnumber), List.append_cancel_left h⟩

/-! ## Kinds -/

inductive Kind where
  | bool (b : Bool)
  | number
  | string
  | array
  | object
  deriving DecidableEq

def kind : Json → Kind
  | .bool b => .bool b
  | .number _ => .number
  | .string _ => .string
  | .array _ => .array
  | .object _ => .object

/-- The kind of document that a character begins. -/
def Kind.ofFirst (c : Char) : Option Kind :=
  if c = 't' then some (.bool true)
  else if c = 'f' then some (.bool false)
  else if c = '"' then some .string
  else if c = '[' then some .array
  else if c = '\x7b' then some .object
  else if isNumeral c then some .number
  else none

theorem ofFirst_numeral {c : Char} (h : isNumeral c = true) : Kind.ofFirst c = some .number := by
  have hne (d : Char) (hd : isNumeral d = false) : c ≠ d := by
    rintro rfl
    rw [h] at hd
    cases hd
  simp only [Kind.ofFirst, if_neg (hne 't' rfl), if_neg (hne 'f' rfl), if_neg (hne '"' rfl), if_neg (hne '[' rfl),
    if_neg (hne '\x7b' rfl), if_pos h]

theorem render_first (l : Layout) (d : Nat) (x : Json) :
    ∃ c cs, render l d x = c :: cs ∧ Kind.ofFirst c = some x.kind := by
  cases x with
  | bool b =>
    cases b with
    | true => exact ⟨'t', _, rfl, rfl⟩
    | false => exact ⟨'f', _, rfl, rfl⟩
  | number n =>
    cases h : (Int.repr n).toList with
    | nil => exact absurd h (repr_ne_nil n)
    | cons c cs =>
      have hc : c ∈ (Int.repr n).toList := h ▸ List.mem_cons_self
      exact ⟨c, cs, h, ofFirst_numeral (numeral_of_mem_repr hc)⟩
  | string s => exact ⟨'"', _, rfl, rfl⟩
  | array items =>
    cases items with
    | nil => exact ⟨'[', _, rfl, rfl⟩
    | cons x items => exact ⟨'[', _, rfl, rfl⟩
  | object fields =>
    cases fields with
    | nil => exact ⟨'\x7b', _, rfl, rfl⟩
    | cons f fields => exact ⟨'\x7b', _, rfl, rfl⟩

/-- Texts that agree are of the same kind. -/
theorem kind_eq {l : Layout} {d d' : Nat} {x y : Json} (h : render l d x ++ xs = render l d' y ++ ys) :
    x.kind = y.kind := by
  obtain ⟨c, cs, hx, hc⟩ := render_first l d x
  obtain ⟨c', cs', hy, hc'⟩ := render_first l d' y
  rw [hx, hy] at h
  obtain rfl : c = c' := (List.cons.inj h).1
  exact Option.some.inj (hc.symm.trans hc')

theorem bool_of_kind {x : Json} {b : Bool} (h : .bool b = x.kind) : x = .bool b := by
  cases x <;> cases h
  rfl

theorem number_of_kind {x : Json} (h : .number = x.kind) : ∃ n, x = .number n := by
  cases x <;> cases h
  exact ⟨_, rfl⟩

theorem string_of_kind {x : Json} (h : .string = x.kind) : ∃ s, x = .string s := by
  cases x <;> cases h
  exact ⟨_, rfl⟩

theorem array_of_kind {x : Json} (h : .array = x.kind) : ∃ items, x = .array items := by
  cases x <;> cases h
  exact ⟨_, rfl⟩

theorem object_of_kind {x : Json} (h : .object = x.kind) : ∃ fields, x = .object fields := by
  cases x <;> cases h
  exact ⟨_, rfl⟩

/-- No document begins with the bracket that closes a list. -/
theorem render_ne_close (l : Layout) (d : Nat) (x : Json) : render l d x ++ xs ≠ ']' :: ys := by
  obtain ⟨c, cs, hx, hc⟩ := render_first l d x
  intro h
  rw [hx] at h
  obtain rfl : c = ']' := (List.cons.inj h).1
  cases hc

/-- No field begins with the bracket that closes an object. -/
theorem renderField_ne_close (l : Layout) (d : Nat) (f : String × Json) : renderField l d f ++ xs ≠ '\x7d' :: ys := by
  obtain ⟨s, x⟩ := f
  intro h
  exact absurd (List.cons.inj h).1 (by decide)

/-! ## Documents -/

theorem stops_cons {c : Char} (h : isNumeral c = false) (cs : List Char) : Stops (c :: cs) := by
  intro c' hc'
  obtain rfl : c = c' := Option.some.inj hc'
  exact h

theorem stops_items (d : Nat) (items : List Json) (cs : List Char) :
    Stops (renderItems .compact d items ++ ']' :: cs) := by
  cases items with
  | nil => exact stops_cons rfl cs
  | cons x xs => exact stops_cons rfl _

theorem stops_fields (d : Nat) (fields : List (String × Json)) (cs : List Char) :
    Stops (renderFields .compact d fields ++ '\x7d' :: cs) := by
  cases fields with
  | nil => exact stops_cons rfl cs
  | cons x xs => exact stops_cons rfl _

theorem array_append (d : Nat) (x : Json) (items : List Json) (cs : List Char) :
    render .compact d (.array (x :: items)) ++ cs =
      '[' :: (render .compact (d + 1) x ++ (renderItems .compact (d + 1) items ++ ']' :: cs)) := by
  simp [render, Layout.lineBreak]

theorem object_append (d : Nat) (f : String × Json) (fields : List (String × Json)) (cs : List Char) :
    render .compact d (.object (f :: fields)) ++ cs =
      '\x7b' :: (renderField .compact (d + 1) f ++ (renderFields .compact (d + 1) fields ++ '\x7d' :: cs)) := by
  simp [render, Layout.lineBreak]

-- The recursion is on the first document, as `render` goes through it. What follows an item or a field
-- is a comma or a bracket, so `Stops` holds there, whatever follows the whole.
mutual

/-- Two documents are the same if their texts are, whatever follows them that is no more of a number. -/
theorem render_cancel {d d' : Nat} : ∀ (x y : Json) {xs ys : List Char}, Stops xs → Stops ys →
    render .compact d x ++ xs = render .compact d' y ++ ys → x = y ∧ xs = ys
  | .bool b, y, _, _, _, _, h => by
    obtain rfl := bool_of_kind (kind_eq h)
    cases b with
    | true => exact ⟨rfl, List.append_cancel_left (show ['t', 'r', 'u', 'e'] ++ _ = _ from h)⟩
    | false => exact ⟨rfl, List.append_cancel_left (show ['f', 'a', 'l', 's', 'e'] ++ _ = _ from h)⟩
  | .number m, y, _, _, hx, hy, h => by
    obtain ⟨n, rfl⟩ := number_of_kind (kind_eq h)
    obtain ⟨rfl, hrest⟩ := number_cancel hx hy h
    exact ⟨rfl, hrest⟩
  | .string s, y, _, _, _, _, h => by
    obtain ⟨t, rfl⟩ := string_of_kind (kind_eq h)
    obtain ⟨rfl, hrest⟩ := quoted_cancel h
    exact ⟨rfl, hrest⟩
  | .array items, y, _, _, _, _, h => by
    obtain ⟨items', rfl⟩ := array_of_kind (kind_eq h)
    obtain ⟨rfl, hrest⟩ := array_cancel items items' h
    exact ⟨rfl, hrest⟩
  | .object fields, y, _, _, _, _, h => by
    obtain ⟨fields', rfl⟩ := object_of_kind (kind_eq h)
    obtain ⟨rfl, hrest⟩ := object_cancel fields fields' h
    exact ⟨rfl, hrest⟩

theorem array_cancel {d d' : Nat} : ∀ (items items' : List Json) {xs ys : List Char},
    render .compact d (.array items) ++ xs = render .compact d' (.array items') ++ ys → items = items' ∧ xs = ys
  | [], [], _, _, h => ⟨rfl, List.append_cancel_left (show ['[', ']'] ++ _ = _ from h)⟩
  | [], y :: items', _, _, h => by
    rw [array_append] at h
    exact absurd (List.cons.inj h).2.symm (render_ne_close _ _ y)
  | x :: items, [], _, _, h => by
    rw [array_append] at h
    exact absurd (List.cons.inj h).2 (render_ne_close _ _ x)
  | x :: items, y :: items', _, _, h => by
    rw [array_append, array_append] at h
    obtain ⟨rfl, htail⟩ := render_cancel x y (stops_items _ items _) (stops_items _ items' _) (List.cons.inj h).2
    obtain ⟨rfl, hrest⟩ := items_cancel items items' htail
    exact ⟨rfl, hrest⟩

theorem object_cancel {d d' : Nat} : ∀ (fields fields' : List (String × Json)) {xs ys : List Char},
    render .compact d (.object fields) ++ xs = render .compact d' (.object fields') ++ ys → fields = fields' ∧ xs = ys
  | [], [], _, _, h => ⟨rfl, List.append_cancel_left (show ['\x7b', '\x7d'] ++ _ = _ from h)⟩
  | [], g :: fields', _, _, h => by
    rw [object_append] at h
    exact absurd (List.cons.inj h).2.symm (renderField_ne_close _ _ g)
  | f :: fields, [], _, _, h => by
    rw [object_append] at h
    exact absurd (List.cons.inj h).2 (renderField_ne_close _ _ f)
  | f :: fields, g :: fields', _, _, h => by
    rw [object_append, object_append] at h
    obtain ⟨rfl, htail⟩ := field_cancel f g (stops_fields _ fields _) (stops_fields _ fields' _) (List.cons.inj h).2
    obtain ⟨rfl, hrest⟩ := fields_cancel fields fields' htail
    exact ⟨rfl, hrest⟩

theorem items_cancel {d d' : Nat} : ∀ (items items' : List Json) {xs ys : List Char},
    renderItems .compact d items ++ ']' :: xs = renderItems .compact d' items' ++ ']' :: ys → items = items' ∧ xs = ys
  | [], [], _, _, h => ⟨rfl, (List.cons.inj h).2⟩
  | [], _ :: _, _, _, h => by cases h
  | _ :: _, [], _, _, h => by cases h
  | x :: items, y :: items', _, _, h => by
    simp only [renderItems, Layout.lineBreak, List.append_assoc, List.cons_append] at h
    obtain ⟨rfl, htail⟩ := render_cancel x y (stops_items d items _) (stops_items d' items' _) (List.cons.inj h).2
    obtain ⟨rfl, hrest⟩ := items_cancel items items' htail
    exact ⟨rfl, hrest⟩

theorem field_cancel {d d' : Nat} : ∀ (f g : String × Json) {xs ys : List Char}, Stops xs → Stops ys →
    renderField .compact d f ++ xs = renderField .compact d' g ++ ys → f = g ∧ xs = ys
  | (s, x), (t, y), _, _, hx, hy, h => by
    simp only [renderField, Layout.colon, List.append_assoc, List.singleton_append] at h
    obtain ⟨rfl, htail⟩ := quoted_cancel h
    obtain ⟨rfl, hrest⟩ := render_cancel x y hx hy (List.cons.inj htail).2
    exact ⟨rfl, hrest⟩

theorem fields_cancel {d d' : Nat} : ∀ (fields fields' : List (String × Json)) {xs ys : List Char},
    renderFields .compact d fields ++ '\x7d' :: xs = renderFields .compact d' fields' ++ '\x7d' :: ys →
      fields = fields' ∧ xs = ys
  | [], [], _, _, h => ⟨rfl, (List.cons.inj h).2⟩
  | [], _ :: _, _, _, h => by cases h
  | _ :: _, [], _, _, h => by cases h
  | f :: fields, g :: fields', _, _, h => by
    simp only [renderFields, Layout.lineBreak, List.append_assoc, List.cons_append] at h
    obtain ⟨rfl, htail⟩ := field_cancel f g (stops_fields d fields _) (stops_fields d' fields' _) (List.cons.inj h).2
    obtain ⟨rfl, hrest⟩ := fields_cancel fields fields' htail
    exact ⟨rfl, hrest⟩

end

/-- A printed text is that of one document. -/
theorem print_injective {l : Layout} {x y : Json} (h : x.print l = y.print l) : x = y := by
  have htext : text .compact x = text .compact y := by
    rw [← withoutBlanks_print l, h, withoutBlanks_print]
  have hrender : render .compact 0 x ++ [] = render .compact 0 y ++ [] := by
    rw [List.append_nil, List.append_nil]
    exact String.ofList_injective htext
  have hnone : Stops [] := nofun
  exact (render_cancel x y hnone hnone hrender).1

end ChainQuery.Json
