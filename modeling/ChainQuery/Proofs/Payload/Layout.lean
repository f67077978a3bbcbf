/-
  ChainQuery.Proofs.Payload.Layout — fields of known widths, and where a payload breaks off.

  A row is a layout: cells of known widths, one after another, some of which hold a height
  and refuse one of more than 32 bits. A reader that follows its layout stops at the first
  cell that is not all there, or at the first height that is too large, whichever comes
  first (`Layout.fault?`); a height is refused as soon as it is read, so one that is too
  large goes before every cell that is cut short (`fault?_eq_some_iff`).

  Rows are read one after another, so a payload of them is cells as far as it goes. A good
  row is dropped from the front, and what is left has the same remainder and the later
  heights. By induction on the rows, the error of a payload is its first height that is too
  large, or else the first cell of the last row that is not all there.

  Proved:
  - `follows_bind`, `follows_fixed`, `follows_point`: the readers of the plain fields follow
    their widths, and readers in a row their layouts in a row.
  - `eq_flatMap_iff`: rows written in one width are the blocks of a payload.
  - `all_eq_error_iff`, `exists_all_iff`: what a payload of rows fails with, and which
    payloads are rows.
  - `all_plain_eq_error_iff`, `exists_all_plain_iff`: the same for rows without heights, of
    which the length of the payload says everything.
-/

import ChainQuery.Proofs.Payload.Fields
import Mathlib.Algebra.Ring.Nat

namespace ChainQuery

/-! ## Cells -/

inductive Cell where
  | plain (width : Nat)
  /-- Eight bytes that hold a height of at most 32 bits. -/
  | height
  deriving DecidableEq

def Cell.width : Cell → Nat
  | plain n => n
  | height => 8

abbrev Layout := List Cell

/-- The number that the eight bytes at `offset` spell. -/
def Bytes.wordAt (input : Bytes) (offset : Nat) : UInt64 := UInt64.ofNat (ofLE ((input.drop offset).take 8))

/-- The numbers at those of the offsets where all eight bytes are there. -/
def Bytes.wordsAt (input : Bytes) (offsets : List Nat) : List UInt64 :=
  (offsets.filter fun offset => offset + 8 ≤ input.length).map input.wordAt

namespace Bytes

theorem wordAt_drop (input : Bytes) (n offset : Nat) : wordAt (input.drop n) offset = input.wordAt (n + offset) := by
  rw [wordAt, List.drop_drop, wordAt]

theorem wordsAt_drop (input : Bytes) (n : Nat) (offsets : List Nat) :
    wordsAt (input.drop n) offsets = input.wordsAt (offsets.map (n + ·)) := by
  have hfits : (fun offset => decide (offset + 8 ≤ (input.drop n).length)) =
      (fun offset => decide (offset + 8 ≤ input.length)) ∘ (n + ·) := by
    funext offset
    rw [Function.comp_apply, List.length_drop]
    exact decide_eq_decide.mpr (by omega)
  rw [wordsAt, wordsAt, List.filter_map, List.map_map, hfits]
  exact List.map_congr_left fun offset _ => wordAt_drop input n offset

theorem wordAt_u64 (n : UInt64) (rest : Bytes) : wordAt (u64 n ++ rest) 0 = n := by
  have hlen : (u64 n).length = 8 := length_toLE 8 n.toNat
  rw [wordAt, List.drop_zero, List.take_left' hlen, u64, ofLE_toLE,
    Nat.mod_eq_of_lt (by simpa using n.toNat_lt), UInt64.ofNat_toNat]

end Bytes

/-- The height has more than 32 bits. -/
def tooHigh (h : UInt64) : Bool := 0x100000000 ≤ h

theorem tooHigh_eq_false_iff {h : UInt64} : tooHigh h = false ↔ h < 0x100000000 := by
  rw [tooHigh, decide_eq_false_iff_not, UInt64.not_le]

theorem find?_tooHigh_eq_none_iff {hs : List UInt64} : hs.find? tooHigh = none ↔ ∀ h ∈ hs, h < 0x100000000 := by
  rw [List.find?_eq_none]
  exact forall₂_congr fun h _ => Bool.eq_false_iff.symm.trans tooHigh_eq_false_iff

/-- Of fields of these widths the first that `n` bytes do not hold is `needed` wide, and
    `remaining` bytes are left for it. -/
def BreaksOff (widths : List Nat) (n needed remaining : Nat) : Prop :=
  ∃ before after, widths = before ++ needed :: after ∧ n = before.sum + remaining ∧ remaining < needed

theorem breaksOff_nil {n needed remaining : Nat} : ¬ BreaksOff [] n needed remaining := by
  intro ⟨before, after, h, _⟩
  simp at h

theorem breaksOff_cons {w n needed remaining : Nat} {ws : List Nat} :
    BreaksOff (w :: ws) n needed remaining ↔
      (n < w ∧ needed = w ∧ remaining = n) ∨ (w ≤ n ∧ BreaksOff ws (n - w) needed remaining) := by
  constructor
  · intro ⟨before, after, hws, hn, hlt⟩
    cases before with
    | nil =>
      obtain ⟨rfl, -⟩ := List.cons.inj hws
      rw [List.sum_nil] at hn
      exact Or.inl ⟨by omega, rfl, by omega⟩
    | cons v before =>
      obtain ⟨rfl, rfl⟩ := List.cons.inj hws
      rw [List.sum_cons] at hn
      exact Or.inr ⟨by omega, before, after, rfl, by omega, hlt⟩
  · intro h
    rcases h with ⟨hlt, rfl, rfl⟩ | ⟨hle, before, after, rfl, hn, hlt⟩
    · exact ⟨[], ws, rfl, by simp, hlt⟩
    · exact ⟨w :: before, after, rfl, by rw [List.sum_cons]; omega, hlt⟩

theorem BreaksOff.lt {widths : List Nat} {n needed remaining : Nat} (h : BreaksOff widths n needed remaining) :
    n < widths.sum := by
  obtain ⟨before, after, rfl, hn, hlt⟩ := h
  rw [List.sum_append, List.sum_cons]
  omega

theorem exists_breaksOff_iff {widths : List Nat} {n : Nat} :
    (∃ needed remaining, BreaksOff widths n needed remaining) ↔ n < widths.sum := by
  constructor
  · intro ⟨_, _, hoff⟩
    exact hoff.lt
  · intro h
    induction widths generalizing n with
    | nil => simp at h
    | cons w ws ih =>
      by_cases hlt : n < w
      · exact ⟨w, n, breaksOff_cons.mpr (Or.inl ⟨hlt, rfl, rfl⟩)⟩
      · rw [List.sum_cons] at h
        obtain ⟨needed, remaining, hoff⟩ := ih (n := n - w) (by omega)
        exact ⟨needed, remaining, breaksOff_cons.mpr (Or.inr ⟨by omega, hoff⟩)⟩

theorem exists_truncated_iff {widths : List Nat} {n : Nat} :
    (∃ e, ∃ needed remaining, e = DecodeError.truncated needed remaining ∧ BreaksOff widths n needed remaining) ↔
      n < widths.sum := by
  rw [← exists_breaksOff_iff]
  constructor
  · intro ⟨_, needed, remaining, _, hoff⟩
    exact ⟨needed, remaining, hoff⟩
  · intro ⟨needed, remaining, hoff⟩
    exact ⟨_, needed, remaining, rfl, hoff⟩

namespace Layout

def widths (l : Layout) : List Nat := l.map Cell.width

def width (l : Layout) : Nat := l.widths.sum

/-- What stops a reader that takes the cells off the front of a payload. -/
def fault? : Layout → Bytes → Option DecodeError
  | [], _ => none
  | c :: l, input =>
    if input.length < c.width then some (.truncated c.width input.length)
    else if c = .height ∧ tooHigh (input.wordAt 0) then some (.heightOverflow (input.wordAt 0))
    else fault? l (input.drop c.width)

/-- Where the heights of a row stand. -/
def heightOffsets : Layout → List Nat
  | [] => []
  | c :: l => (if c = .height then [0] else []) ++ (heightOffsets l).map (c.width + ·)

/-- The heights of a row that are all there, in order. -/
def heights (l : Layout) (input : Bytes) : List UInt64 := input.wordsAt l.heightOffsets

@[simp] theorem width_cons (c : Cell) (l : Layout) : width (c :: l) = c.width + l.width := by
  simp [width, widths]

/-! ## One row -/

theorem heights_of_short {c : Cell} {l : Layout} {input : Bytes} (h : input.length < c.width) :
    heights (c :: l) input = [] := by
  rw [heights, Bytes.wordsAt, List.map_eq_nil_iff, List.filter_eq_nil_iff]
  intro offset hoffset
  rw [decide_eq_true_iff]
  rcases List.mem_append.mp hoffset with hown | hlater
  · by_cases hc : c = .height
    · have hwidth : c.width = 8 := by rw [hc]; rfl
      omega
    · rw [if_neg hc] at hown
      cases hown
  · obtain ⟨o, -, rfl⟩ := List.mem_map.mp hlater
    omega

theorem heights_of_long {c : Cell} {l : Layout} {input : Bytes} (h : c.width ≤ input.length) :
    heights (c :: l) input =
      if c = .height then input.wordAt 0 :: heights l (input.drop c.width) else heights l (input.drop c.width) := by
  rw [heights, heights, Bytes.wordsAt_drop, heightOffsets]
  by_cases hc : c = .height
  · have hfits : 0 + 8 ≤ input.length := by
      rw [hc] at h
      exact h
    rw [if_pos hc, if_pos hc, Bytes.wordsAt, List.singleton_append, List.filter_cons_of_pos (by simpa using hfits)]
    rfl
  · rw [if_neg hc, if_neg hc, List.nil_append]

theorem fault?_append (l m : Layout) (input : Bytes) :
    fault? (l ++ m) input = (fault? l input).or (fault? m (input.drop l.width)) := by
  induction l generalizing input with
  | nil => rfl
  | cons c l ih =>
    rw [List.cons_append, fault?, fault?, width_cons, ← List.drop_drop]
    by_cases hshort : input.length < c.width
    · rw [if_pos hshort, if_pos hshort, Option.some_or]
    · rw [if_neg hshort, if_neg hshort]
      by_cases hhigh : c = .height ∧ tooHigh (input.wordAt 0)
      · rw [if_pos hhigh, if_pos hhigh, Option.some_or]
      · rw [if_neg hhigh, if_neg hhigh, ih]

/-- A height that is too large is found before every cell that is cut short. -/
theorem fault?_eq_some_iff {l : Layout} {input : Bytes} {e : DecodeError} :
    fault? l input = some e ↔
      match (heights l input).find? tooHigh with
      | some h => e = .heightOverflow h
      | none => ∃ needed remaining, e = .truncated needed remaining ∧ BreaksOff l.widths input.length needed remaining := by
  induction l generalizing input with
  | nil => simp [fault?, heights, heightOffsets, Bytes.wordsAt, widths, breaksOff_nil]
  | cons c l ih =>
    have hwidths : widths (c :: l) = c.width :: widths l := rfl
    rw [fault?, hwidths]
    simp only [breaksOff_cons]
    by_cases hshort : input.length < c.width
    · have hle : ¬ c.width ≤ input.length := by omega
      simp [heights_of_short hshort, hshort, hle, eq_comm]
    · have hle : c.width ≤ input.length := by omega
      rw [heights_of_long hle, if_neg hshort]
      simp only [hshort, hle, false_and, true_and, false_or]
      by_cases hc : c = .height
      · rw [if_pos hc, List.find?_cons]
        by_cases hhigh : tooHigh (input.wordAt 0)
        · rw [if_pos ⟨hc, hhigh⟩, hhigh]
          simp [eq_comm]
        · rw [if_neg fun h => hhigh h.2, Bool.eq_false_iff.mpr hhigh, ih, List.length_drop]
      · rw [if_neg fun h => hc h.1, if_neg hc, ih, List.length_drop]

theorem fault?_eq_none_iff {l : Layout} {input : Bytes} :
    fault? l input = none ↔ (heights l input).find? tooHigh = none ∧ l.width ≤ input.length := by
  rw [Option.eq_none_iff_forall_ne_some]
  simp only [ne_eq, fault?_eq_some_iff]
  cases (heights l input).find? tooHigh with
  | some height => simp
  | none =>
    rw [← not_exists, exists_truncated_iff, Nat.not_lt]
    exact (and_iff_right rfl).symm

theorem heights_nil (l : Layout) : heights l [] = [] := by
  rw [heights, Bytes.wordsAt, List.map_eq_nil_iff, List.filter_eq_nil_iff]
  simp

theorem heights_of_plain {l : Layout} (hl : l.heightOffsets = []) (input : Bytes) : heights l input = [] := by
  rw [heights, hl]
  rfl

/-! ## Rows of one layout -/

/-- The heights of a payload of rows that are all there, also those of a row that is not. -/
def rowHeights (l : Layout) (payload : Bytes) : List UInt64 :=
  (List.range (payload.length / l.width + 1)).flatMap fun i => heights l (payload.drop (l.width * i))

theorem rowHeights_of_short {l : Layout} {payload : Bytes} (h : payload.length < l.width) :
    rowHeights l payload = heights l payload := by
  rw [rowHeights, Nat.div_eq_of_lt h]
  simp

theorem rowHeights_of_long {l : Layout} (hl : 0 < l.width) {payload : Bytes} (h : l.width ≤ payload.length) :
    rowHeights l payload = heights l payload ++ rowHeights l (payload.drop l.width) := by
  have hrows : payload.length / l.width = (payload.length - l.width) / l.width + 1 := Nat.div_eq_sub_div hl h
  rw [rowHeights, rowHeights, List.length_drop, hrows, List.range_succ_eq_map, List.flatMap_cons, List.flatMap_map,
    Nat.mul_zero, List.drop_zero]
  simp only [List.drop_drop, Nat.mul_succ, Nat.add_comm]

theorem rowHeights_of_plain {l : Layout} (hl : l.heightOffsets = []) (payload : Bytes) : rowHeights l payload = [] := by
  rw [rowHeights]
  simp [heights_of_plain hl]

end Layout

/-! ## Readers that follow a layout -/

namespace Reader

variable {α β : Type}

/-- `r` takes the cells off the front of a payload and stops at the first fault. -/
structure Follows (r : Reader α) (l : Layout) : Prop where
  ok : ∀ {input}, l.fault? input = none → ∃ a, r.run input = (.ok a, input.drop l.width)
  error : ∀ {input e}, l.fault? input = some e → ∃ rest, r.run input = (.error e, rest)

theorem Follows.congr {r : Reader α} {l m : Layout} (h : Follows r l) (hl : l = m) : Follows r m := hl ▸ h

theorem follows_pure (a : α) : Follows (pure a : Reader α) [] := by
  constructor
  · intro input _
    exact ⟨a, rfl⟩
  · intro input e h
    cases h

theorem follows_bind {r : Reader α} {f : α → Reader β} {l m : Layout} (hr : Follows r l) (hf : ∀ a, Follows (f a) m) :
    Follows (r >>= f) (l ++ m) := by
  have hwidth : Layout.width (l ++ m) = l.width + m.width := by simp [Layout.width, Layout.widths]
  constructor
  · intro input h
    rw [Layout.fault?_append, Option.or_eq_none_iff] at h
    obtain ⟨a, ha⟩ := hr.ok h.1
    obtain ⟨b, hb⟩ := (hf a).ok h.2
    exact ⟨b, by rw [bind_of_ok ha, hb, List.drop_drop, hwidth]⟩
  · intro input e h
    rw [Layout.fault?_append] at h
    cases hl : l.fault? input with
    | some e' =>
      obtain ⟨rest, hrest⟩ := hr.error hl
      rw [hl, Option.some_or] at h
      cases h
      exact ⟨rest, bind_of_error hrest⟩
    | none =>
      obtain ⟨a, ha⟩ := hr.ok hl
      rw [hl, Option.none_or] at h
      obtain ⟨rest, hrest⟩ := (hf a).error h
      exact ⟨rest, by rw [bind_of_ok ha, hrest]⟩

/-- A plain read that fails exactly when too little is left follows its width. -/
theorem follows_plain {r : Reader α} {encode : α → Bytes} {n : Nat} (h : Decodes r encode fun _ => True)
    (hwidth : ∀ a, (encode a).length = n)
    (herror : ∀ {input rest e}, r.run input = (.error e, rest) ↔
      input.length < n ∧ e = .truncated n input.length ∧ rest = input) : Follows r [.plain n] := by
  have hfault : ∀ input : Bytes, Layout.fault? [.plain n] input =
      if input.length < n then some (.truncated n input.length) else none := fun input => by
    simp [Layout.fault?, Cell.width]
  constructor
  · intro input hnone
    have hlong : ¬ input.length < n := fun hshort => by
      rw [hfault, if_pos hshort] at hnone
      cases hnone
    rcases hrun : r.run input with ⟨result, rest⟩
    cases result with
    | error e => exact absurd (herror.mp hrun).1 hlong
    | ok a =>
      obtain ⟨rfl, -⟩ := (h _ _ _).mp hrun
      refine ⟨a, ?_⟩
      have hn : Layout.width [.plain n] = n := by simp [Layout.width, Layout.widths, Cell.width]
      rw [hn, List.drop_left' (hwidth a)]
  · intro input e hsome
    by_cases hshort : input.length < n
    · rw [hfault, if_pos hshort] at hsome
      cases hsome
      exact ⟨input, herror.mpr ⟨hshort, rfl, rfl⟩⟩
    · rw [hfault, if_neg hshort] at hsome
      cases hsome

theorem follows_u8 : Follows u8 [.plain 1] := follows_plain decodes_u8 (fun _ => rfl) u8_eq_error_iff

theorem follows_fixed (n : Nat) : Follows (fixed n) [.plain n] :=
  follows_plain (decodes_fixed n) (fun bs => bs.2) fixed_eq_error_iff

theorem follows_u32 : Follows u32 [.plain 4] :=
  follows_plain decodes_u32 (fun n => Bytes.length_toLE 4 n.toNat) u32_eq_error_iff

theorem follows_u64 : Follows u64 [.plain 8] :=
  follows_plain decodes_u64 (fun n => Bytes.length_toLE 8 n.toNat) u64_eq_error_iff

theorem u64_of_long {input : Bytes} (h : 8 ≤ input.length) : u64.run input = (.ok (input.wordAt 0), input.drop 8) := by
  have hwhole : Layout.fault? [.plain 8] input = none := by simp [Layout.fault?, Cell.width, h]
  obtain ⟨n, hn⟩ := follows_u64.ok hwhole
  obtain ⟨hinput, -⟩ := (decodes_u64 _ _ _).mp hn
  have hword : input.wordAt 0 = n := by rw [hinput, Bytes.wordAt_u64]
  rw [hn, hword]
  rfl

theorem follows_point : Follows point [.plain 32, .plain 4] :=
  (follows_bind (follows_fixed 32) fun _ => follows_bind follows_u32 fun _ => follows_pure _).congr rfl

end Reader

/-! ## Rows -/

/-- Rows that are all written in `width` bytes are the blocks of that width. -/
theorem eq_flatMap_iff {α : Type} {encode : α → Bytes} {width : Nat} (hwidth : ∀ x, (encode x).length = width)
    {payload : Bytes} {rows : List α} :
    payload = rows.flatMap encode ↔ payload.length = width * rows.length ∧
      ∀ i row, rows[i]? = some row → (payload.drop (width * i)).take width = encode row := by
  induction rows generalizing payload with
  | nil =>
    rw [List.flatMap_nil, List.length_nil, Nat.mul_zero, List.length_eq_zero_iff]
    exact (and_iff_left fun i row hrow => by cases hrow).symm
  | cons row rows ih =>
    have hsplit : payload = (row :: rows).flatMap encode ↔
        payload.take width = encode row ∧ payload.drop width = rows.flatMap encode := by
      rw [List.flatMap_cons]
      constructor
      · intro h
        subst h
        exact ⟨List.take_left' (hwidth row), List.drop_left' (hwidth row)⟩
      · intro ⟨htake, hdrop⟩
        rw [← htake, ← hdrop, List.take_append_drop]
    rw [hsplit, ih, List.length_drop, List.length_cons, Nat.mul_succ]
    constructor
    · intro ⟨hrow, hlen, hrows⟩
      have hlong : width ≤ payload.length := by
        have := congrArg List.length hrow
        rw [List.length_take, hwidth] at this
        omega
      refine ⟨by omega, ?_⟩
      intro i x hx
      cases i with
      | zero =>
        cases hx
        simpa using hrow
      | succ i =>
        rw [Nat.mul_succ, Nat.add_comm, ← List.drop_drop]
        exact hrows i x hx
    · intro ⟨hlen, hrows⟩
      refine ⟨by simpa using hrows 0 row rfl, by omega, ?_⟩
      intro i x hx
      rw [List.drop_drop, Nat.add_comm, ← Nat.mul_succ]
      exact hrows (i + 1) x hx

namespace RowReader

variable {α : Type} (r : RowReader α) {l : Layout} (h : r.read.Follows l) (hl : 0 < l.width) {payload : Bytes}

include h hl in
/-- What is wrong with a payload of rows is its first height that is too large, or else the
    first cell of the last row that is not all there. -/
theorem all_eq_error_iff {e : DecodeError} :
    r.all payload = .error e ↔
      match (l.rowHeights payload).find? tooHigh with
      | some height => e = .heightOverflow height
      | none => payload.length % l.width ≠ 0 ∧ ∃ needed remaining, e = .truncated needed remaining ∧
          BreaksOff l.widths (payload.length % l.width) needed remaining := by
  -- by the length of the payload: a good row leaves less of it, with the same remainder
  induction hlen : payload.length using Nat.strongRecOn generalizing payload with
  | _ n ih =>
    subst hlen
    by_cases hnil : payload = []
    · subst hnil
      rw [all_nil, l.rowHeights_of_short (by simpa using hl), l.heights_nil]
      simp
    cases hfault : l.fault? payload with
    | some e' =>
      obtain ⟨rest, hrun⟩ := h.error hfault
      have hall : r.all payload = .error e ↔ l.fault? payload = some e := by
        rw [r.all_of_error hnil hrun, hfault, Except.error.injEq, Option.some.injEq]
      rw [hall, Layout.fault?_eq_some_iff]
      by_cases hshort : payload.length < l.width
      · rw [l.rowHeights_of_short hshort, Nat.mod_eq_of_lt hshort]
        simp [hnil]
      · have hlong := Nat.le_of_not_lt hshort
        have hfound : (l.heights payload).find? tooHigh ≠ none := fun hnone => by
          rw [Layout.fault?_eq_none_iff.mpr ⟨hnone, hlong⟩] at hfault
          cases hfault
        obtain ⟨height, hheight⟩ := Option.ne_none_iff_exists'.mp hfound
        rw [l.rowHeights_of_long hl hlong, List.find?_append, hheight, Option.some_or]
    | none =>
      obtain ⟨hnone, hlong⟩ := Layout.fault?_eq_none_iff.mp hfault
      obtain ⟨row, hrun⟩ := h.ok hfault
      have hrest : (payload.drop l.width).length = payload.length - l.width := List.length_drop
      rw [r.all_of_ok hrun, Except.map_eq_error_iff, ih _ (by omega) rfl, hrest, ← Nat.mod_eq_sub_mod hlong,
        l.rowHeights_of_long hl hlong, List.find?_append, hnone, Option.none_or]

include h hl in
theorem exists_all_iff :
    (∃ rows, r.all payload = .ok rows) ↔
      payload.length % l.width = 0 ∧ (l.rowHeights payload).find? tooHigh = none := by
  rw [Except.exists_ok_iff]
  simp only [ne_eq, r.all_eq_error_iff h hl]
  cases (l.rowHeights payload).find? tooHigh with
  | some height => simp
  | none =>
    have hlt : payload.length % l.width < l.widths.sum := Nat.mod_lt payload.length hl
    rw [← not_exists, exists_and_left, exists_truncated_iff, and_iff_left hlt, not_not]
    exact (and_iff_left rfl).symm

include h hl in
theorem all_plain_eq_error_iff (hplain : l.heightOffsets = []) {e : DecodeError} :
    r.all payload = .error e ↔ payload.length % l.width ≠ 0 ∧ ∃ needed remaining, e = .truncated needed remaining ∧
      BreaksOff l.widths (payload.length % l.width) needed remaining := by
  rw [r.all_eq_error_iff h hl, Layout.rowHeights_of_plain hplain]
  rfl

include h hl in
theorem exists_all_plain_iff (hplain : l.heightOffsets = []) :
    (∃ rows, r.all payload = .ok rows) ↔ payload.length % l.width = 0 := by
  rw [r.exists_all_iff h hl, Layout.rowHeights_of_plain hplain]
  exact and_iff_left rfl

end RowReader

end ChainQuery
