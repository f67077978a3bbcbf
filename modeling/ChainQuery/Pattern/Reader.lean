/-
  ChainQuery.Pattern.Reader — reading a pattern.

  It is read from its first character to its last, and the first mistake counts; a
  group that is not closed is one of the end. What is open is kept in a state: the
  groups around the place, and the alternatives that the innermost one has so far. A
  flag that ignores blanks holds from where it is given to the end of its group.
-/

import ChainQuery.Pattern.Set
import ChainQuery.Text.Alphanumeric

namespace ChainQuery.Pattern

/-! ## Alternatives -/

/-- Alternatives read so far. -/
structure Body where
  start : Position
  /-- The finished alternatives, the last one first. -/
  finished : List Node
  /-- Where the unfinished alternative begins. -/
  branchStart : Position
  /-- What it holds, the last node first. -/
  branch : List Node

namespace Body

def empty (p : Position) : Body := ⟨p, [], p, []⟩

def push (b : Body) (n : Node) : Body := { b with branch := n :: b.branch }

/-- The unfinished alternative, which ends at `p`. -/
def branchNode (b : Body) (p : Position) : Node :=
  match b.branch with
  | [] => .nothing
  | [n] => n
  | ns => .sequence ⟨b.branchStart, p⟩ ns.reverse

/-- All alternatives, the last of which ends at `p`. -/
def node (b : Body) (p : Position) : Node :=
  if b.finished.isEmpty then b.branchNode p
  else .choice ⟨b.start, p⟩ (b.branchNode p :: b.finished).reverse

/-- After a bar between two places. -/
def nextBranch (b : Body) (before after : Position) : Body :=
  { b with finished := b.branchNode before :: b.finished, branchStart := after, branch := [] }

end Body

/-! ## State -/

structure OpenGroup where
  opening : Span
  flags : List FlagItem
  /-- What is read around the group, and whether blanks are ignored there. -/
  outer : Body
  ignoredOutside : Bool

structure State where
  cursor : Cursor
  ignored : Bool
  names : List (String × Span)
  groups : List OpenGroup
  body : Body

/-! ## Groups -/

def isNameChar (isFirst : Bool) (c : Char) : Bool :=
  c = '_' || if isFirst then Text.isAlphabetic c else c = '.' || c = '[' || c = ']' || Text.isAlphanumeric c

/-- The name of a group, up to the bracket that ends it; `fuel` is how many characters are left. -/
def groupName (isFirst : Bool) : (fuel : Nat) → Cursor → Except Fault (List Char × Cursor)
  | 0, k => fault .nameUnclosed k.emptySpan
  | fuel + 1, k =>
    match k.rest with
    | [] => fault .nameUnclosed k.emptySpan
    | c :: _ =>
      if c = '>' then .ok ([], k)
      else if isNameChar isFirst c then do
        let (cs, k) ← groupName false fuel k.advance
        return (c :: cs, k)
      else fault .nameInvalid k.charSpan

def flagLetters : List (Char × Flag) :=
  [('i', .ignoreCase), ('m', .multiLine), ('s', .dotMatchesAll), ('U', .swapGreed), ('u', .unicode), ('R', .lineEnds),
    ('x', .ignoreBlanks)]

/-- One flag or the negation, after those `before`. -/
def readFlag (before : List (FlagItem × Span)) (k : Cursor) (c : Char) : Except Fault (FlagItem × Span) :=
  let item? := if c = '-' then some .negation else (flagLetters.lookup c).map .flag
  match item? with
  | none => fault .flagUnknown k.charSpan
  | some item =>
    match before.lookup item with
    | some earlier =>
      .error ⟨if item = .negation then .negationRepeated else .flagRepeated, k.charSpan, some earlier⟩
    | none => .ok (item, k.charSpan)

/-- Flags after those `before`, up to a colon or a closing parenthesis; `fuel` is how many characters are left. -/
def readFlags (before : List (FlagItem × Span)) : (fuel : Nat) → Cursor → Except Fault (List FlagItem × Cursor)
  | 0, k => fault .flagsUnclosed k.emptySpan
  | fuel + 1, k =>
    match k.rest with
    | [] => fault .flagsUnclosed k.emptySpan
    | c :: _ =>
      if c = ':' || c = ')' then
        match before.getLast? with
        | some (.negation, s) => fault .negationDangling s
        | _ => .ok (before.map (·.1), k)
      else do
        let item ← readFlag before k c
        readFlags (before ++ [item]) fuel k.advance

def State.enter (s : State) (opening : Span) (flags : List FlagItem) (k : Cursor) : State :=
  { s with
    cursor := k
    ignored := (flagState? .ignoreBlanks flags).getD s.ignored
    groups := ⟨opening, flags, s.body, s.ignored⟩ :: s.groups
    body := .empty k.position }

/-- A group with a name, which is next. -/
def State.enterNamed (s : State) (opening : Span) (k : Cursor) : Except Fault State := do
  let (cs, closing) ← groupName true k.rest.length k
  let name := String.ofList cs
  let span : Span := ⟨k.position, closing.position⟩
  if cs.isEmpty then fault .nameEmpty k.emptySpan
  else
    match s.names.lookup name with
    | some earlier => .error ⟨.nameRepeated, span, some earlier⟩
    | none => return { s with names := (name, span) :: s.names }.enter opening [] closing.advance

/-- Whether what follows a parenthesis looks ahead or behind, and how long its sign is. -/
def lookAroundLength? (cs : List Char) : Option Nat :=
  match cs with
  | '?' :: '=' :: _ => some 2
  | '?' :: '!' :: _ => some 2
  | '?' :: '<' :: '=' :: _ => some 3
  | '?' :: '<' :: '!' :: _ => some 3
  | _ => none

/-- A group, or flags for the rest of the group around; the opening parenthesis is next. -/
def State.openGroup (s : State) : Except Fault State :=
  let opening := s.cursor.charSpan
  let k := s.cursor.step s.ignored
  match lookAroundLength? k.rest with
  | some n => fault .lookAround ⟨opening.first, (k.advanceBy n).position⟩
  | none =>
    match k.rest with
    | '?' :: 'P' :: '<' :: _ => s.enterNamed opening (k.advanceBy 3)
    | '?' :: '<' :: _ => s.enterNamed opening (k.advanceBy 2)
    | ['?'] => fault .groupUnclosed opening
    | '?' :: _ => do
      let (flags, closing) ← readFlags [] k.rest.length k.advance
      let after := closing.advance
      if closing.rest.head? = some ':' then return s.enter opening flags after
      else if flags.isEmpty then fault .nothingToRepeat k.emptySpan
      else
        return { s with
          cursor := after
          ignored := (flagState? .ignoreBlanks flags).getD s.ignored
          body := s.body.push (.flags flags) }
    | _ => .ok (s.enter opening [] k)

/-- The closing parenthesis is next. -/
def State.closeGroup (s : State) : Except Fault State :=
  match s.groups with
  | [] => fault .groupUnopened s.cursor.charSpan
  | g :: groups =>
    let after := s.cursor.advance
    .ok { s with
      cursor := after
      ignored := g.ignoredOutside
      groups := groups
      body := g.outer.push (.group ⟨g.opening.first, after.position⟩ g.flags (s.body.node s.cursor.position)) }

/-! ## Repetition -/

/-- The last node of the unfinished alternative, where it begins, and the alternatives without it. -/
def State.repeatable (s : State) : Except Fault (Node × Position × Body) :=
  match s.body.branch with
  | [] => fault .nothingToRepeat s.cursor.emptySpan
  | n :: rest =>
    match n.first? with
    | none => fault .nothingToRepeat s.cursor.emptySpan
    | some p => .ok (n, p, { s.body with branch := rest })

/-- Past a question mark, which makes a repetition reluctant. -/
def pastReluctance (k : Cursor) : Cursor := if k.rest.head? = some '?' then k.advance else k

/-- A repetition without a count; its sign is next. -/
def State.repeatFreely (s : State) : Except Fault State := do
  let (n, first, body) ← s.repeatable
  let after := pastReluctance s.cursor.advance
  return { s with cursor := after, body := body.push (.repeated ⟨first, after.position⟩ n) }

/-- Digits, and what is ignored after each; `fuel` is how many characters are left. -/
def countDigits (ignored : Bool) : (fuel : Nat) → Cursor → List Char × Cursor
  | 0, k => ([], k)
  | fuel + 1, k =>
    match k.rest with
    | [] => ([], k)
    | c :: _ =>
      if c.isDigit then
        let (cs, k) := countDigits ignored fuel (k.step ignored)
        (c :: cs, k)
      else ([], k)

/-- Past the blanks around a count. -/
def pastCountBlanks : (fuel : Nat) → Cursor → Cursor
  | 0, k => k
  | fuel + 1, k => if k.rest.head?.any Text.isBlank then pastCountBlanks fuel k.advance else k

/-- How often something is repeated, at the least or at the most, and what follows; it can be known that there
is no count before it is known whether that is a fault. -/
def readCount (ignored : Bool) (k : Cursor) : Except Fault Nat × Cursor :=
  let k := pastCountBlanks k.rest.length k
  let (digits, after) := countDigits ignored k.rest.length k
  let span : Span := ⟨k.position, after.position⟩
  let n := digits.foldl (fun n c => 10 * n + (c.toNat - '0'.toNat)) 0
  let count :=
    if digits.isEmpty then fault .countMissing span
    else if n < UInt32.size then .ok n
    else fault .countTooLarge span
  (count, pastCountBlanks after.rest.length after)

/-- The counts in braces and their closing brace, the opening one of which is at `start`: whether the first
count is at most the second. -/
def readCounts (ignored : Bool) (start : Position) (k : Cursor) : Except Fault (Bool × Cursor) := do
  let unclosed {α : Type} (k : Cursor) : Except Fault α := fault .countUnclosed ⟨start, k.position⟩
  if k.rest.isEmpty then unclosed k
  else
    let (least, k) := readCount ignored k
    match k.rest with
    | [] => unclosed k
    | ',' :: _ =>
      let k := k.step ignored
      match k.rest with
      | [] => unclosed k
      | '\x7d' :: _ => do
        let _ ← least
        return (true, k)
      | _ => do
        let least ← least
        let (most, k) := readCount ignored k
        let most ← most
        if k.rest.head? = some '\x7d' then return (least ≤ most, k) else unclosed k
    | c :: _ => do
      let _ ← least
      if c = '\x7d' then return (true, k) else unclosed k

/-- A repetition with its count in braces, the opening one of which is next. -/
def State.repeatCounted (s : State) : Except Fault State := do
  let start := s.cursor.position
  let (n, first, body) ← s.repeatable
  let (ordered, closing) ← readCounts s.ignored start (s.cursor.step s.ignored)
  let after := pastReluctance (closing.step s.ignored)
  if ordered then return { s with cursor := after, body := body.push (.repeated ⟨first, after.position⟩ n) }
  else fault .countReversed ⟨start, after.position⟩

/-! ## The whole pattern -/

/-- A character, a sign for one or for a place, or what a backslash begins. -/
def readAtom (ignored : Bool) (k : Cursor) (c : Char) : Except Fault (Atom × Cursor) :=
  if c = '\\' then readEscape ignored k
  else if c = '.' then .ok (.any k.charSpan, k.advance)
  else if c = '^' || c = '$' then .ok (.place k.charSpan false, k.advance)
  else .ok (.literal k.charSpan c false, k.advance)

/-- What begins with `c`, which is next. -/
def State.read (s : State) (c : Char) : Except Fault State :=
  if c = '(' then s.openGroup
  else if c = ')' then s.closeGroup
  else if c = '|' then
    let after := s.cursor.advance
    .ok { s with cursor := after, body := s.body.nextBranch s.cursor.position after.position }
  else if c = '[' then do
    let (m, k) ← readSet (2 * s.cursor.rest.length) s.ignored s.cursor
    return { s with cursor := k, body := s.body.push (.set m) }
  else if ['?', '*', '+'].contains c then s.repeatFreely
  else if c = '\x7b' then s.repeatCounted
  else do
    let (a, k) ← readAtom s.ignored s.cursor c
    return { s with cursor := k, body := s.body.push (.atom a) }

/-- The pattern, once all of it is read. -/
def State.finish (s : State) : Except Fault Node :=
  match s.groups with
  | [] => .ok (s.body.node s.cursor.position)
  | g :: _ => fault .groupUnclosed g.opening

/-- All that is left to read, of at most `fuel` characters. -/
def State.readAll (fuel : Nat) (s : State) : Except Fault Node :=
  let s := { s with cursor := s.cursor.skipBlanks s.ignored }
  match fuel, s.cursor.rest with
  | fuel + 1, c :: _ => do (← s.read c).readAll fuel
  | _, _ => s.finish

/-- The pattern that a text writes. -/
def read (cs : List Char) : Except Fault Node := do
  let k := Cursor.ofList cs
  let n ← State.readAll cs.length ⟨k, false, [], [], .empty k.position⟩
  match n.tooDeep? nestLimit with
  | none => return n
  | some s => fault .tooDeep s

end ChainQuery.Pattern
