/-
  ChainQuery.Settings.Block — text that may run over several lines.

  It stands between three quotes of one kind. A line end right after the opening ones
  does not count, every other one is a line feed. Up to two quotes may precede the
  closing ones. Between double quotes there are escapes, and a backslash that ends a
  line hides the line's end and all blanks and line ends that follow.
-/

import ChainQuery.Settings.Value

namespace ChainQuery.Settings.Block

/-- The spelling up to the closing quotes `q`, and what follows them. -/
def spelled? (q : Char) : List Char → Option (List Char × List Char)
  | [] => none
  | '\\' :: c :: rest =>
    if q = '"' then (spelled? q rest).map fun (cs, rest) => ('\\' :: c :: cs, rest)
    else (spelled? q (c :: rest)).map fun (cs, rest) => ('\\' :: cs, rest)
  | c :: rest =>
    let quotes := ((c :: rest).takeWhile (· = q)).length
    if 3 ≤ quotes then
      let kept := min 2 (quotes - 3)
      some (List.replicate kept q, (c :: rest).drop (kept + 3))
    else (spelled? q rest).map fun (cs, rest) => (c :: cs, rest)

/-- Every line end as a line feed. -/
def unified : List Char → List Char
  | '\r' :: '\n' :: cs => '\n' :: unified cs
  | c :: cs => c :: unified cs
  | [] => []

def isBlank (c : Char) : Bool := c = ' ' || c = '\t'

/-- Without the line ends that a backslash hides. -/
def joined (cs : List Char) : List Char :=
  match cs with
  | [] => []
  | '\\' :: c :: rest =>
    if ((c :: rest).dropWhile isBlank).head? = some '\n' then
      joined ((c :: rest).dropWhile fun c => isBlank c || c = '\n')
    else '\\' :: c :: joined rest
  | c :: rest => c :: joined rest
termination_by cs.length
decreasing_by
  · exact Nat.lt_succ_of_le (List.dropWhile_suffix _).length_le
  · simp only [List.length_cons]; omega
  · simp

def isPlain (c : Char) : Bool := Settings.isPlain c || c = '\n'

def withoutFirstEnd : List Char → List Char
  | '\n' :: cs => cs
  | '\r' :: '\n' :: cs => cs
  | cs => cs

/-- The text up to the closing quotes `q` and what follows them. -/
def text? (q : Char) (cs : List Char) : Option (List Char × List Char) := do
  let (spelling, rest) ← spelled? q (withoutFirstEnd cs)
  let lines := unified spelling
  let text ← if q = '"' then meaning? isPlain (joined lines) else if lines.all isPlain then some lines else none
  return (text, rest)

end ChainQuery.Settings.Block
