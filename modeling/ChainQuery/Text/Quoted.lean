/-
  ChainQuery.Text.Quoted — text and single characters shown inside quotes, so that
  a reader sees exactly which characters they hold.

  A tab, a line end, a backslash, a NUL and the enclosing quote get a backslash
  form; an unprintable character is its code point in braces, in hexadecimal
  without leading zeros; every other character stands for itself. The quote of the
  other kind is not escaped.
-/

import ChainQuery.Text.Unprintable

namespace ChainQuery.Text

/-- The code point of `c` in braces. -/
def codePoint (c : Char) : List Char :=
  ['\\', 'u', '\x7b'] ++ Nat.toDigits 16 c.toNat ++ ['\x7d']

/-- How `c` is written between two quotes `q`. -/
def escapeChar (q c : Char) : List Char :=
  if c = '\x00' then ['\\', '0']
  else if c = '\t' then ['\\', 't']
  else if c = '\r' then ['\\', 'r']
  else if c = '\n' then ['\\', 'n']
  else if c = '\\' || c = q then ['\\', c]
  else if isUnprintable c then codePoint c
  else [c]

def quote (s : String) : String :=
  String.ofList ('"' :: s.toList.flatMap (escapeChar '"') ++ ['"'])

def quoteChar (c : Char) : String :=
  String.ofList ('\'' :: escapeChar '\'' c ++ ['\''])

end ChainQuery.Text
