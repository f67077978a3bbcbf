/-
  ChainQuery.Text.Cut — parts of a text, between separators or between positions.

  - `pieces` gives the parts between separators, one more than there are separators.
  - A position counts the UTF-8 bytes before it. It may fall inside a character; a
    cut there gives nothing.
-/

namespace ChainQuery.Text

/-! ## Between separators -/

def pieces (separator : Char) : List Char → List (List Char)
  | [] => [[]]
  | c :: rest =>
    if c = separator then [] :: pieces separator rest
    else
      match pieces separator rest with
      | piece :: more => (c :: piece) :: more
      | [] => [[c]]

/-! ## Between positions -/

def utf8Size : List Char → Nat
  | [] => 0
  | c :: cs => c.utf8Size + utf8Size cs

/-- The text before and after position `n`. -/
def cutAt? : (n : Nat) → List Char → Option (List Char × List Char)
  | 0, cs => some ([], cs)
  | _ + 1, [] => none
  | n + 1, c :: cs =>
    if c.utf8Size ≤ n + 1 then (cutAt? (n + 1 - c.utf8Size) cs).map fun (before, after) => (c :: before, after)
    else none

/-- The text from position `first` up to position `last`. -/
def slice? (first last : Nat) (cs : List Char) : Option (List Char) := do
  let (before, _) ← cutAt? last cs
  let (_, part) ← cutAt? first before
  return part

/-- The text from position `first` on. -/
def from? (first : Nat) (cs : List Char) : Option (List Char) := (cutAt? first cs).map (·.2)

end ChainQuery.Text
