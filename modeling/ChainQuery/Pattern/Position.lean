/-
  ChainQuery.Pattern.Position — places in the text of a pattern, and reading on from
  one.

  A place is a line and a column, both from 1. A cursor is a place and the text from
  there on. Where blanks are ignored, so are comments, from a number sign to the end
  of the line.
-/

import ChainQuery.Text.Blank

namespace ChainQuery.Pattern

structure Position where
  line : Nat
  column : Nat
  deriving DecidableEq, Repr

/-- The place after the character `c` at a place. -/
def Position.after (p : Position) (c : Char) : Position :=
  if c = '\n' then ⟨p.line + 1, 1⟩ else ⟨p.line, p.column + 1⟩

/-- A part of the text, from its first place to the place after it. -/
structure Span where
  first : Position
  last : Position
  deriving DecidableEq, Repr

structure Cursor where
  rest : List Char
  position : Position
  deriving DecidableEq, Repr

namespace Cursor

def ofList (cs : List Char) : Cursor := ⟨cs, ⟨1, 1⟩⟩

/-- Past one character. -/
def advance (k : Cursor) : Cursor :=
  match k.rest with
  | [] => k
  | c :: cs => ⟨cs, k.position.after c⟩

def advanceBy : Nat → Cursor → Cursor
  | 0, k => k
  | n + 1, k => advanceBy n k.advance

/-- Past blanks and comments from a place on. -/
def pastBlanks (inComment : Bool) (p : Position) : List Char → Cursor
  | [] => ⟨[], p⟩
  | c :: cs =>
    if inComment then pastBlanks (c ≠ '\n') (p.after c) cs
    else if Text.isBlank c then pastBlanks false (p.after c) cs
    else if c = '#' then pastBlanks true (p.after c) cs
    else ⟨c :: cs, p⟩

def skipBlanks (ignored : Bool) (k : Cursor) : Cursor := if ignored then pastBlanks false k.position k.rest else k

/-- Past one character and what is ignored after it. -/
def step (ignored : Bool) (k : Cursor) : Cursor := k.advance.skipBlanks ignored

/-- The character after the next one. Where blanks are ignored they are passed over, and a number sign among
them, but nothing else of a comment. -/
def peek? (ignored : Bool) (k : Cursor) : Option Char :=
  if ignored then
    match k.rest.tail.dropWhile Text.isBlank with
    | '#' :: cs => (cs.dropWhile Text.isBlank).head?
    | cs => cs.head?
  else k.rest.tail.head?

/-- The next character alone. -/
def charSpan (k : Cursor) : Span := ⟨k.position, k.advance.position⟩

/-- The place itself. -/
def emptySpan (k : Cursor) : Span := ⟨k.position, k.position⟩

end Cursor

end ChainQuery.Pattern
