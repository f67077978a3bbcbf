/-
  ChainQuery.Pattern.Escape — reading what a backslash begins.

  A digit after it would refer back, which is a fault. Some letters begin the code
  point of a character, in a fixed number of hexadecimal digits or in braces; others a
  property, a shorthand for a set, a control character or a place. A sign stands for
  itself, except the angle brackets, which are places. The edge of a word may be
  followed by its kind, in braces.
-/

import ChainQuery.Pattern.Basic
import ChainQuery.Pattern.Fault
import ChainQuery.Text.CodePoint

namespace ChainQuery.Pattern

/-- Hexadecimal digits, the first of which is next: their number is `n`, and after the last one blanks may be
ignored. -/
def hexDigits (ignored : Bool) : (n : Nat) → Cursor → Except Fault (List Char × Cursor)
  | 0, k => .ok ([], k)
  | n + 1, k =>
    match k.rest with
    | [] => fault .escapeUnfinished k.emptySpan
    | c :: _ =>
      if Text.isHexDigit c then do
        let (cs, k) ← hexDigits ignored n (k.step ignored)
        return (c :: cs, k)
      else fault .hexDigitInvalid k.charSpan

/-- Hexadecimal digits up to the closing brace; `fuel` is how many characters are left. -/
def bracedDigits (ignored : Bool) (opening : Position) : (fuel : Nat) → Cursor → Except Fault (List Char × Cursor)
  | 0, k => fault .escapeUnfinished ⟨opening, k.position⟩
  | fuel + 1, k =>
    match k.rest with
    | [] => fault .escapeUnfinished ⟨opening, k.position⟩
    | c :: _ =>
      if c = '\x7d' then .ok ([], k)
      else if Text.isHexDigit c then do
        let (cs, k) ← bracedDigits ignored opening fuel (k.step ignored)
        return (c :: cs, k)
      else fault .hexDigitInvalid k.charSpan

def character (digits : List Char) (s : Span) : Except Fault Char :=
  match Text.charOfDigits? digits with
  | some c => .ok c
  | none => fault .hexNoCharacter s

/-- The character of a code point; the letter that says how many digits it has is next. -/
def readCodePoint (ignored : Bool) (start : Position) (count : Nat) (k : Cursor) : Except Fault (Atom × Cursor) :=
  let k := k.step ignored
  match k.rest with
  | [] => fault .escapeUnfinished k.emptySpan
  | '\x7b' :: _ => do
    let inside := k.advance
    let (digits, closing) ← bracedDigits ignored k.position k.rest.length (k.step ignored)
    let after := closing.step ignored
    if digits.isEmpty then fault .hexMissing ⟨k.position, after.position⟩
    else
      let c ← character digits ⟨inside.position, closing.position⟩
      return (.literal ⟨start, after.position⟩ c false, after)
  | _ => do
    let (digits, after) ← hexDigits ignored count k
    let c ← character digits ⟨k.position, after.position⟩
    return (.literal ⟨start, after.position⟩ c (count = 2), after)

/-- Past the closing brace, if there is one; `fuel` is how many characters are left. -/
def pastBrace (ignored : Bool) : (fuel : Nat) → Cursor → Except Fault Cursor
  | 0, k => fault .escapeUnfinished k.emptySpan
  | fuel + 1, k =>
    match k.rest with
    | [] => fault .escapeUnfinished k.emptySpan
    | c :: _ => if c = '\x7d' then .ok k.advance else pastBrace ignored fuel (k.step ignored)

/-- A property, named by one letter or in braces. -/
def readProperty (ignored : Bool) (start : Position) (k : Cursor) : Except Fault (Atom × Cursor) :=
  let k := k.step ignored
  match k.rest with
  | [] => fault .escapeUnfinished k.emptySpan
  | '\x7b' :: _ => do
    let k ← pastBrace ignored k.rest.length (k.step ignored)
    return (.property ⟨start, k.position⟩, k)
  | '\\' :: _ => fault .propertyInvalid k.charSpan
  | _ =>
    let k := k.step ignored
    .ok (.property ⟨start, k.position⟩, k)

def isEdgeLetter (c : Char) : Bool := c.isAlpha || c = '-'

/-- Letters of the kind of a word's edge; `fuel` is how many characters are left. -/
def edgeLetters (ignored : Bool) : (fuel : Nat) → Cursor → List Char × Cursor
  | 0, k => ([], k)
  | fuel + 1, k =>
    match k.rest with
    | [] => ([], k)
    | c :: _ =>
      if isEdgeLetter c then
        let (cs, k) := edgeLetters ignored fuel (k.step ignored)
        (c :: cs, k)
      else ([], k)

def edgeKinds : List String := ["start", "end", "start-half", "end-half"]

/-- The edge of a word. A brace after it holds its kind if a letter is first in it, and how often it is
repeated if not. -/
def readEdge (ignored : Bool) (start : Position) (k : Cursor) : Except Fault (Atom × Cursor) :=
  match k.rest with
  | '\x7b' :: _ =>
    let inside := k.step ignored
    match inside.rest with
    | [] => fault .edgeOrCountUnclosed ⟨start, inside.position⟩
    | c :: _ =>
      if isEdgeLetter c then
        let (kind, closing) := edgeLetters ignored inside.rest.length inside
        match closing.rest with
        | '\x7d' :: _ =>
          if edgeKinds.contains (String.ofList kind) then
            .ok (.place ⟨start, closing.advance.position⟩ true, closing.advance)
          else fault .edgeUnknown ⟨inside.position, closing.position⟩
        | _ => fault .edgeUnclosed ⟨k.position, closing.position⟩
      else .ok (.place ⟨start, k.position⟩ true, k)
  | _ => .ok (.place ⟨start, k.position⟩ true, k)

/-- Whether `c` stands for itself after a backslash. -/
def isSign (c : Char) : Bool := c.toNat < 0x80 && !c.isAlphanum && c ≠ '<' && c ≠ '>'

/-- The control characters that have a letter. -/
def controls : List (Char × Char) :=
  [('a', '\x07'), ('f', '\x0c'), ('t', '\t'), ('n', '\n'), ('r', '\r'), ('v', '\x0b')]

/-- How many hexadecimal digits follow a letter that begins a code point. -/
def codePointLetters : List (Char × Nat) := [('x', 2), ('u', 4), ('U', 8)]

/-- What a backslash, which is next, begins. -/
def readEscape (ignored : Bool) (k : Cursor) : Except Fault (Atom × Cursor) :=
  let start := k.position
  let k := k.advance
  match k.rest with
  | [] => fault .escapeUnfinished ⟨start, k.position⟩
  | c :: _ =>
    let after := k.advance
    let span : Span := ⟨start, after.position⟩
    if c.isDigit then fault .backreference span
    else if c = 'p' || c = 'P' then readProperty ignored start k
    else if ['d', 's', 'w'].contains c then .ok (.shorthand span false, after)
    else if ['D', 'S', 'W'].contains c then .ok (.shorthand span true, after)
    else if isSign c then .ok (.literal span c false, after)
    else if c = 'A' || c = 'z' then .ok (.place span false, after)
    else if c = 'B' || c = '<' || c = '>' then .ok (.place span true, after)
    else if c = 'b' then readEdge ignored start after
    else
      match codePointLetters.lookup c, controls.lookup c with
      | some count, _ => readCodePoint ignored start count k
      | none, some x => .ok (.literal span x false, after)
      | none, none => fault .escapeUnknown span

end ChainQuery.Pattern
