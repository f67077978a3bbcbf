/-
  ChainQuery.Pattern.Set — reading a set in brackets.

  A caret after the opening bracket negates the set. Dashes come next, and where there
  are none, a closing bracket that belongs to the set. A sign written twice combines
  all that stands before it with what stands after: `&&` for what they share, `--` for
  what only the left side has, `~~` for what only one side has. A dash between two
  members makes a range of them, unless another dash or a closing bracket follows it.
-/

import ChainQuery.Pattern.Escape

namespace ChainQuery.Pattern

/-- Members read so far, the last one first. -/
structure Union where
  span : Span
  parts : List Members

def Union.empty (k : Cursor) : Union := ⟨k.emptySpan, []⟩

def Union.push (u : Union) (m : Members) : Union :=
  ⟨⟨if u.parts.isEmpty then m.span.first else u.span.first, m.span.last⟩, m :: u.parts⟩

def Union.members (u : Union) : Members :=
  match u.parts with
  | [] => .nothing u.span
  | [m] => m
  | parts => .union u.span parts.reverse

/-- What is left of an operation, if there was one, together with what is right of it. -/
def combined (left : Option Members) (right : Members) : Members :=
  match left with
  | none => right
  | some left => .operation ⟨left.span.first, right.span.last⟩ left right

/-! ## Named sets -/

def setNames : List String :=
  ["alnum", "alpha", "ascii", "blank", "cntrl", "digit", "graph", "lower", "print", "punct", "space", "upper", "word",
    "xdigit"]

/-- A set with a name, between colons in brackets; the opening bracket is next. -/
def namedSet? (k : Cursor) : Option (Members × Cursor) :=
  match k.rest with
  | '[' :: ':' :: cs =>
    let negated := cs.head? = some '^'
    let cs := if negated then cs.tail else cs
    let name := cs.takeWhile (· ≠ ':')
    match cs.drop name.length with
    | ':' :: ']' :: _ =>
      if setNames.contains (String.ofList name) then
        let after := k.advanceBy ((if negated then 3 else 2) + name.length + 2)
        some (.named ⟨k.position, after.position⟩ negated, after)
      else none
    | _ => none
  | _ => none

/-! ## Members and ranges -/

/-- One character or what a backslash begins. -/
def readMember (ignored : Bool) (k : Cursor) : Except Fault (Atom × Cursor) :=
  match k.rest with
  | [] => fault .setUnclosed k.emptySpan
  | c :: _ => if c = '\\' then readEscape ignored k else .ok (.literal k.charSpan c false, k.advance)

def memberAlone (a : Atom) : Except Fault Members :=
  match a with
  | .literal _ _ _ => .ok (.atom a)
  | .shorthand _ _ => .ok (.atom a)
  | .property _ => .ok (.atom a)
  | a => fault .escapeInSet a.span

def boundary (a : Atom) : Except Fault Char :=
  match a with
  | .literal _ c _ => .ok c
  | a => fault .boundaryNotLiteral a.span

/-- A member or a range; `opening` is how the set around it begins. -/
def readRange (ignored : Bool) (opening : Span) (k : Cursor) : Except Fault (Members × Cursor) := do
  let (first, k) ← readMember ignored k
  let k := k.skipBlanks ignored
  match k.rest with
  | [] => fault .setUnclosed opening
  | c :: _ =>
    let next := k.peek? ignored
    if c ≠ '-' || next = some ']' || next = some '-' then return (← memberAlone first, k)
    else
      let k := k.step ignored
      if k.rest.isEmpty then fault .setUnclosed opening
      else
        let (last, k) ← readMember ignored k
        let span : Span := ⟨first.span.first, last.span.last⟩
        let low ← boundary first
        let high ← boundary last
        if high < low then fault .rangeReversed span else return (.range span first last, k)

/-! ## Sets -/

/-- Dashes at the beginning of a set; `fuel` is how many characters are left. -/
def readDashes (ignored : Bool) (start : Position) : (fuel : Nat) → Union → Cursor → Except Fault (Union × Cursor)
  | 0, u, k => .ok (u, k)
  | fuel + 1, u, k =>
    match k.rest with
    | '-' :: _ =>
      let after := k.step ignored
      if after.rest.isEmpty then fault .setUnclosed ⟨start, start⟩
      else readDashes ignored start fuel (u.push (.atom (.literal k.charSpan '-' false))) after
    | _ => .ok (u, k)

/-- The beginning of a set, and whether it negates the set. -/
def readOpening (ignored : Bool) (k : Cursor) : Except Fault (Bool × Union × Cursor) := do
  let start := k.position
  let k := k.step ignored
  let negated := k.rest.head? = some '^'
  let k := if negated then k.step ignored else k
  if k.rest.isEmpty then fault .setUnclosed ⟨start, k.position⟩
  else
    let (u, k) ← readDashes ignored start k.rest.length (.empty k) k
    if u.parts.isEmpty && k.rest.head? = some ']' then
      let after := k.step ignored
      if after.rest.isEmpty then fault .setUnclosed ⟨start, after.position⟩
      else return (negated, u.push (.atom (.literal k.charSpan ']' false)), after)
    else return (negated, u, k)

mutual

/-- A set; its opening bracket is next. `fuel` bounds how deep and how far sets go. -/
def readSet (fuel : Nat) (ignored : Bool) (k : Cursor) : Except Fault (Members × Cursor) :=
  match fuel with
  | 0 => fault .setUnclosed k.charSpan
  | fuel + 1 => do
    let (negated, u, inside) ← readOpening ignored k
    let (m, after) ← readParts fuel ignored ⟨k.position, inside.position⟩ none u inside
    return (.bracketed ⟨k.position, after.position⟩ negated m, after)

/-- The parts of a set and its closing bracket. `left` is what stands before the last operation, and `u` what
has been read after it. -/
def readParts (fuel : Nat) (ignored : Bool) (opening : Span) (left : Option Members) (u : Union) (k : Cursor) :
    Except Fault (Members × Cursor) :=
  match fuel with
  | 0 => fault .setUnclosed opening
  | fuel + 1 =>
    let k := k.skipBlanks ignored
    match k.rest with
    | [] => fault .setUnclosed opening
    | c :: cs =>
      if c = '[' then do
        let (m, k) ← match namedSet? k with
          | some named => .ok named
          | none => readSet fuel ignored k
        readParts fuel ignored opening left (u.push m) k
      else if c = ']' then .ok (combined left u.members, k.advance)
      else if ['&', '-', '~'].contains c && cs.head? = some c then
        let k := k.advanceBy 2
        readParts fuel ignored opening (some (combined left u.members)) (.empty k) k
      else do
        let (m, k) ← readRange ignored opening k
        readParts fuel ignored opening left (u.push m) k

end

end ChainQuery.Pattern
