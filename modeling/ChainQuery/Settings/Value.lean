/-
  ChainQuery.Settings.Value — the values that a setting can be given before it is
  known whether they suit it.
-/

import ChainQuery.Text.CodePoint

namespace ChainQuery.Settings

inductive Value where
  | text (s : String)
  | truth (b : Bool)
  /-- A number, a list or a record. -/
  | other
  deriving DecidableEq, Repr

/-- Whether text in quotes may hold `c` as it is: no control character but the tab. -/
def isPlain (c : Char) : Bool := c = '\t' || (' ' ≤ c && c ≠ '\x7f')

/-- The characters up to the closing double quote, escapes left as they are, and what follows it. -/
def spelled? : List Char → Option (List Char × List Char)
  | [] => none
  | '"' :: rest => some ([], rest)
  | '\\' :: c :: rest => (spelled? rest).map fun (cs, rest) => ('\\' :: c :: cs, rest)
  | c :: rest => (spelled? rest).map fun (cs, rest) => (c :: cs, rest)

/-- What a spelling means, its escapes undone, if all else in it is `allowed`. -/
def meaning? (allowed : Char → Bool) : List Char → Option (List Char)
  | [] => some []
  | '\\' :: 'u' :: a :: b :: c :: d :: rest => do
    let x ← Text.charOfDigits? [a, b, c, d]
    return x :: (← meaning? allowed rest)
  | '\\' :: 'U' :: a :: b :: c :: d :: e :: f :: g :: h :: rest => do
    let x ← Text.charOfDigits? [a, b, c, d, e, f, g, h]
    return x :: (← meaning? allowed rest)
  | '\\' :: c :: rest => do
    let x ← [('b', '\x08'), ('t', '\t'), ('n', '\n'), ('f', '\x0c'), ('r', '\r'), ('"', '"'), ('\\', '\\')].lookup c
    return x :: (← meaning? allowed rest)
  | c :: rest => if allowed c && c ≠ '\\' then (c :: ·) <$> meaning? allowed rest else none

/-- The text up to the closing double quote, its escapes undone, and what follows it. -/
def quoted? (cs : List Char) : Option (List Char × List Char) := do
  let (spelling, rest) ← spelled? cs
  return (← meaning? isPlain spelling, rest)

end ChainQuery.Settings
