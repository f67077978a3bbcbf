/-
  ChainQuery.Proofs.Json.Layout — the two layouts of a document, told apart by blanks alone.

  A reader of the text stands outside its strings, inside one, or behind a backslash in one.
  Outside, blanks can be dropped. What a document is written as begins and ends outside, and
  so does each of its parts; so dropping the blanks of the whole drops those of each part, and
  leaves the compact layout.

  Proved:
  - `squeezes_render`: either layout without its blanks is the compact one.
  - `withoutBlanks_text`, `withoutBlanks_print`: the same of a document and of a printed line.
  - `render_ends`: no layout ends with a blank.
-/

import ChainQuery.Json
import ChainQuery.Text.Blank
import ChainQuery.Proofs.Text.Decimal

namespace ChainQuery.Json

/-! ## Blanks outside strings -/

/-- Where a reader of a document's text stands. -/
inductive Place where
  | outside
  | inside
  /-- Inside a string, after a backslash. -/
  | escaped
  deriving DecidableEq

def Place.next : Place → Char → Place
  | .outside, c => if c = '"' then .inside else .outside
  | .inside, c => if c = '"' then .outside else if c = '\\' then .escaped else .inside
  | .escaped, _ => .inside

/-- The text from a place on, without the blanks outside its strings. -/
def squeeze : Place → List Char → List Char
  | _, [] => []
  | p, c :: cs => if p = .outside ∧ Text.isBlank c then squeeze p cs else c :: squeeze (p.next c) cs

/-- A character that stays where it is, outside strings. -/
def isPlain (c : Char) : Bool := c ≠ '"' && !Text.isBlank c

/-- From outside, `cs` leads outside again, and without its blanks is `ds`. -/
def Squeezes (cs ds : List Char) : Prop :=
  ∀ rest, squeeze .outside (cs ++ rest) = ds ++ squeeze .outside rest

namespace Squeezes

variable {cs ds cs' ds' : List Char}

theorem nil : Squeezes [] [] := fun _ => rfl

theorem append (h : Squeezes cs ds) (h' : Squeezes cs' ds') : Squeezes (cs ++ cs') (ds ++ ds') := by
  intro rest
  rw [List.append_assoc, h, h', List.append_assoc]

theorem blank {c : Char} (h : Text.isBlank c = true) (hcs : Squeezes cs ds) : Squeezes (c :: cs) ds := by
  intro rest
  rw [List.cons_append, squeeze, if_pos ⟨rfl, h⟩, hcs]

theorem cons {c : Char} (h : isPlain c = true) (hcs : Squeezes cs ds) : Squeezes (c :: cs) (c :: ds) := by
  obtain ⟨hquote, hblank⟩ : c ≠ '"' ∧ Text.isBlank c = false := by simpa [isPlain] using h
  intro rest
  rw [List.cons_append, squeeze, if_neg (by simp [hblank]), Place.next, if_neg hquote, hcs, List.cons_append]

theorem spaces (n : Nat) : Squeezes (List.replicate n ' ') [] := by
  induction n with
  | zero => exact nil
  | succ n ih => exact blank rfl ih

theorem lineBreak (l : Layout) (depth : Nat) : Squeezes (l.lineBreak depth) [] := by
  cases l with
  | compact => exact nil
  | indented => exact blank rfl (spaces _)

theorem colon (l : Layout) : Squeezes l.colon [':'] := by
  cases l with
  | compact => exact cons rfl nil
  | indented => exact cons rfl (blank rfl nil)

/-- Letters, digits and brackets are kept. -/
theorem plain (h : ∀ c ∈ cs, isPlain c = true) : Squeezes cs cs := by
  induction cs with
  | nil => exact nil
  | cons c cs ih => exact cons (h c List.mem_cons_self) (ih fun d hd => h d (List.mem_cons_of_mem _ hd))

theorem word (h : cs.all isPlain = true) : Squeezes cs cs := plain (List.all_eq_true.mp h)

end Squeezes

/-! ## Strings and numbers -/

theorem squeeze_inside {c : Char} (hquote : c ≠ '"') (hslash : c ≠ '\\') (rest : List Char) :
    squeeze .inside (c :: rest) = c :: squeeze .inside rest := by
  rw [squeeze, if_neg (by simp), Place.next, if_neg hquote, if_neg hslash]

theorem squeeze_escape (c : Char) (rest : List Char) :
    squeeze .inside ('\\' :: c :: rest) = '\\' :: c :: squeeze .inside rest := by
  simp [squeeze, Place.next]

/-- The code points of the characters that do not stand for themselves. -/
def coded : List Nat := List.range 32 ++ [0x22, 0x5c]

/-- A character stands for itself, or has a backslash in front of one character or of five. -/
theorem escapeChar_cases (c : Char) :
    (c ≠ '"' ∧ c ≠ '\\' ∧ escapeChar c = [c]) ∨ (c.toNat ∈ coded ∧ ∃ e, escapeChar c = ['\\', e]) ∨
      (c.toNat < 32 ∧ escapeChar c = ['\\', 'u', '0', '0'] ++ hexPair c.toNat) := by
  unfold escapeChar
  by_cases hquote : c = '"'
  · exact .inr (.inl ⟨hquote ▸ by decide, _, if_pos hquote⟩)
  rw [if_neg hquote]
  by_cases hslash : c = '\\'
  · exact .inr (.inl ⟨hslash ▸ by decide, _, if_pos hslash⟩)
  rw [if_neg hslash]
  -- the five that have a letter of their own
  iterate 5
    split
    · next heq => exact .inr (.inl ⟨heq ▸ by decide, _, rfl⟩)
  by_cases hlow : c.toNat < 32
  · exact .inr (.inr ⟨hlow, if_pos hlow⟩)
  · exact .inl ⟨hquote, hslash, if_neg hlow⟩

theorem digitChar_plain : ∀ d < 16, Nat.digitChar d ≠ '"' ∧ Nat.digitChar d ≠ '\\' := by
  decide

theorem squeeze_escapeChar (c : Char) (rest : List Char) :
    squeeze .inside (escapeChar c ++ rest) = escapeChar c ++ squeeze .inside rest := by
  rcases escapeChar_cases c with ⟨hquote, hslash, h⟩ | ⟨-, e, h⟩ | ⟨hlow, h⟩
  · rw [h]
    exact squeeze_inside hquote hslash rest
  · rw [h]
    exact squeeze_escape e rest
  · have hhi := digitChar_plain (c.toNat / 16) (by omega)
    have hlo := digitChar_plain (c.toNat % 16) (by omega)
    rw [h]
    show squeeze .inside ('\\' :: 'u' :: '0' :: '0' :: _ :: _ :: rest) = '\\' :: 'u' :: '0' :: '0' :: _ :: _ :: _
    rw [squeeze_escape, squeeze_inside (by decide) (by decide), squeeze_inside (by decide) (by decide),
      squeeze_inside hhi.1 hhi.2, squeeze_inside hlo.1 hlo.2]
    rfl

theorem squeeze_characters (cs rest : List Char) :
    squeeze .inside (cs.flatMap escapeChar ++ rest) = cs.flatMap escapeChar ++ squeeze .inside rest := by
  induction cs with
  | nil => rfl
  | cons c cs ih => rw [List.flatMap_cons, List.append_assoc, squeeze_escapeChar, ih, List.append_assoc]

theorem squeezes_quoted (s : String) : Squeezes (quoted s) (quoted s) := by
  intro rest
  have hopen (cs : List Char) : squeeze .outside ('"' :: cs) = '"' :: squeeze .inside cs := by
    simp [squeeze, Place.next, Text.isBlank, Text.blankRuns]
  have hclose : squeeze .inside ('"' :: rest) = '"' :: squeeze .outside rest := by
    simp [squeeze, Place.next]
  unfold quoted
  rw [List.append_assoc, List.cons_append, hopen, squeeze_characters, List.singleton_append, hclose]
  simp

/-- A number is written with digits, and a sign in front. -/
theorem mem_repr {n : Int} {c : Char} (h : c ∈ (Int.repr n).toList) : c = '-' ∨ c.isDigit = true := by
  have hdigit {m : Nat} {c : Char} (h : c ∈ (Nat.repr m).toList) : c.isDigit = true := by
    rw [Nat.toList_repr] at h
    exact Nat.isDigit_of_mem_toDigits (by decide) (by decide) h
  cases n with
  | ofNat m => exact .inr (hdigit h)
  | negSucc m =>
    have hsplit : (Int.repr (.negSucc m)).toList = '-' :: (Nat.repr (m + 1)).toList := by
      simp [Int.repr, String.toList_append]
    rw [hsplit, List.mem_cons] at h
    exact h.imp id hdigit

theorem plain_of_mem_repr {n : Int} {c : Char} (h : c ∈ (Int.repr n).toList) : isPlain c = true := by
  rcases mem_repr h with rfl | hdigit
  · rfl
  · have hrange : 48 ≤ c.toNat ∧ c.toNat ≤ 57 := by simpa [Char.isDigit, UInt32.le_iff_toNat_le] using hdigit
    have hblank : Text.isBlank c = false := by
      simp [Text.isBlank, Text.blankRuns]
      omega
    have hquote : c ≠ '"' := by
      rintro rfl
      exact absurd hdigit (by decide)
    simp [isPlain, hquote, hblank]

/-- A number's text has something in it. -/
theorem repr_ne_nil (n : Int) : (Int.repr n).toList ≠ [] := by
  cases n with
  | ofNat m =>
    obtain ⟨c, cs, h, -⟩ := Decimal.repr_eq_cons m
    exact fun hnil => List.cons_ne_nil c cs (h.symm.trans hnil)
  | negSucc m => simp [Int.repr, String.toList_append]

/-! ## Documents -/

/-- What holds several things: `body` between its brackets, on lines of its own. -/
theorem squeezes_held (l : Layout) (d : Nat) {first last : Char} {body bare : List Char} (hfirst : isPlain first = true)
    (hlast : isPlain last = true) (hbody : Squeezes body bare) :
    Squeezes (first :: l.lineBreak (d + 1) ++ body ++ l.lineBreak d ++ [last]) (first :: bare ++ [last]) := by
  have hopen := Squeezes.cons hfirst (.lineBreak l (d + 1))
  have hclose := (Squeezes.lineBreak l d).append (.cons hlast .nil)
  simpa using (hopen.append hbody).append hclose

/-- A thing after the first of those held. -/
theorem squeezes_next (l : Layout) (d : Nat) {body bare : List Char} (hbody : Squeezes body bare) :
    Squeezes (',' :: l.lineBreak d ++ body) (',' :: bare) :=
  (Squeezes.cons rfl (.lineBreak l d)).append hbody

-- The recursion is that of `render`. The compact layout has no lines, so its depth is left free.
mutual

theorem squeezes_render (l : Layout) (d d' : Nat) : ∀ x : Json, Squeezes (render l d x) (render .compact d' x)
  | .bool true => show Squeezes ['t', 'r', 'u', 'e'] ['t', 'r', 'u', 'e'] from .word rfl
  | .bool false => show Squeezes ['f', 'a', 'l', 's', 'e'] ['f', 'a', 'l', 's', 'e'] from .word rfl
  | .number n => .plain fun _ => plain_of_mem_repr
  | .string s => squeezes_quoted s
  | .array [] => show Squeezes ['[', ']'] ['[', ']'] from .word rfl
  | .array (x :: xs) => by
    have hbody := (squeezes_render l (d + 1) (d' + 1) x).append (squeezes_items l (d + 1) (d' + 1) xs)
    simpa [render, Layout.lineBreak] using squeezes_held l d rfl rfl hbody
  | .object [] => show Squeezes ['\x7b', '\x7d'] ['\x7b', '\x7d'] from .word rfl
  | .object (f :: fs) => by
    have hbody := (squeezes_field l (d + 1) (d' + 1) f).append (squeezes_fields l (d + 1) (d' + 1) fs)
    simpa [render, Layout.lineBreak] using squeezes_held l d rfl rfl hbody

theorem squeezes_items (l : Layout) (d d' : Nat) :
    ∀ xs : List Json, Squeezes (renderItems l d xs) (renderItems .compact d' xs)
  | [] => .nil
  | x :: xs => (squeezes_next l d (squeezes_render l d d' x)).append (squeezes_items l d d' xs)

theorem squeezes_field (l : Layout) (d d' : Nat) :
    ∀ f : String × Json, Squeezes (renderField l d f) (renderField .compact d' f)
  | (name, value) => ((squeezes_quoted name).append (.colon l)).append (squeezes_render l d d' value)

theorem squeezes_fields (l : Layout) (d d' : Nat) :
    ∀ fs : List (String × Json), Squeezes (renderFields l d fs) (renderFields .compact d' fs)
  | [] => .nil
  | f :: fs => (squeezes_next l d (squeezes_field l d d' f)).append (squeezes_fields l d d' fs)

end

/-! ## The end of a text -/

/-- The last character of a document is a letter, a digit, a quote or a bracket. -/
theorem render_ends (l : Layout) (d : Nat) (x : Json) : ∃ cs c, render l d x = cs ++ [c] ∧ Text.isBlank c = false := by
  match x with
  | .bool true => exact ⟨['t', 'r', 'u'], 'e', rfl, by decide⟩
  | .bool false => exact ⟨['f', 'a', 'l', 's'], 'e', rfl, by decide⟩
  | .number n =>
    have hne := repr_ne_nil n
    have hplain := plain_of_mem_repr (List.getLast_mem hne)
    exact ⟨_, _, (List.dropLast_concat_getLast hne).symm, by simpa using (Bool.and_eq_true_iff.mp hplain).2⟩
  | .string s => exact ⟨_, '"', rfl, by decide⟩
  | .array [] => exact ⟨['['], ']', rfl, by decide⟩
  | .array (x :: xs) => exact ⟨_, ']', rfl, by decide⟩
  | .object [] => exact ⟨['\x7b'], '\x7d', rfl, by decide⟩
  | .object (f :: fs) => exact ⟨_, '\x7d', rfl, by decide⟩

/-! ## Printed texts -/

/-- A text without the blanks outside its strings. -/
def withoutBlanks (s : String) : String := String.ofList (squeeze .outside s.toList)

/-- A document without the end of its line. -/
def text (l : Layout) (doc : Json) : String := String.ofList (render l 0 doc)

theorem print_eq (l : Layout) (doc : Json) : doc.print l = text l doc ++ "\n" := String.ofList_append

theorem withoutBlanks_text (l : Layout) (doc : Json) : withoutBlanks (text l doc) = text .compact doc := by
  have h := squeezes_render l 0 0 doc []
  simp only [List.append_nil, squeeze] at h
  rw [withoutBlanks, text, String.toList_ofList, h, text]

theorem withoutBlanks_print (l : Layout) (doc : Json) : withoutBlanks (doc.print l) = text .compact doc := by
  have h := squeezes_render l 0 0 doc ['\n']
  rw [withoutBlanks, print, String.toList_ofList, h]
  simp [squeeze, text, Text.isBlank, Text.blankRuns]

example : withoutBlanks "[\n  \"a \\\" b\",\n  1\n]\n" = "[\"a \\\" b\",1]" := by decide +kernel

theorem getLast?_text (l : Layout) (doc : Json) : (text l doc).toList.getLast? ≠ some '\n' := by
  obtain ⟨cs, c, h, hc⟩ := render_ends l 0 doc
  rw [text, String.toList_ofList, h, List.getLast?_concat]
  intro hn
  rw [Option.some.inj hn] at hc
  exact absurd hc (by decide)

end ChainQuery.Json
