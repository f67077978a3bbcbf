/-
  ChainQuery.Pattern.Basic — regular expressions as they are written.

  An atom stands for one character or for a place. A set, in brackets, holds
  characters, ranges and other sets, and operations combine sets. Atoms and sets are
  repeated, follow one another, are alternatives and stand in groups; flags hold from
  where they are given to the end of the group.
-/

import ChainQuery.Pattern.Position

namespace ChainQuery.Pattern

inductive Flag where
  | ignoreCase
  | multiLine
  | dotMatchesAll
  | swapGreed
  | unicode
  | lineEnds
  | ignoreBlanks
  deriving DecidableEq, Repr

/-- Flags after the negation are taken away. -/
inductive FlagItem where
  | flag (f : Flag)
  | negation
  deriving DecidableEq, Repr

/-- What the items say about `f`, if anything. -/
def flagState? (f : Flag) (items : List FlagItem) : Option Bool :=
  let given := items.takeWhile (· ≠ .negation)
  if given.contains (.flag f) then some true
  else if items.contains (.flag f) then some false
  else none

inductive Atom where
  /-- One character; one that is given by two hexadecimal digits may also be a byte. -/
  | literal (span : Span) (c : Char) (mayBeByte : Bool)
  | any (span : Span)
  /-- A place, at the edge of a word or elsewhere. -/
  | place (span : Span) (isWordEdge : Bool)
  /-- Digits, blanks or word characters, or all others. -/
  | shorthand (span : Span) (negated : Bool)
  | property (span : Span)
  deriving DecidableEq, Repr

def Atom.span : Atom → Span
  | .literal s _ _ => s
  | .any s => s
  | .place s _ => s
  | .shorthand s _ => s
  | .property s => s

/-- A part of a set. -/
inductive Members where
  | nothing (span : Span)
  | atom (a : Atom)
  | range (span : Span) (first last : Atom)
  /-- A set of ASCII characters with a name. -/
  | named (span : Span) (negated : Bool)
  | bracketed (span : Span) (negated : Bool) (members : Members)
  | union (span : Span) (parts : List Members)
  /-- What two sets share, or what they do not. -/
  | operation (span : Span) (left right : Members)

def Members.span : Members → Span
  | .nothing s => s
  | .atom a => a.span
  | .range s _ _ => s
  | .named s _ => s
  | .bracketed s _ _ => s
  | .union s _ => s
  | .operation s _ _ => s

inductive Node where
  | nothing
  | flags (items : List FlagItem)
  | atom (a : Atom)
  /-- A set in brackets. -/
  | set (members : Members)
  | repeated (span : Span) (node : Node)
  | group (span : Span) (flags : List FlagItem) (node : Node)
  | sequence (span : Span) (nodes : List Node)
  | choice (span : Span) (nodes : List Node)

/-- Where a node that can be repeated begins. -/
def Node.first? : Node → Option Position
  | .nothing => none
  | .flags _ => none
  | .atom a => some a.span.first
  | .set m => some m.span.first
  | .repeated s _ => some s.first
  | .group s _ _ => some s.first
  | .sequence s _ => some s.first
  | .choice s _ => some s.first

/-! ## Depth -/

mutual

/-- The part that is nested deeper than `room` allows, if there is one. -/
def Members.tooDeep? (room : Nat) : Members → Option Span
  | .nothing _ => none
  | .atom _ => none
  | .range _ _ _ => none
  | .named _ _ => none
  | .bracketed s _ m => if room = 0 then some s else m.tooDeep? (room - 1)
  | .union s ms => if room = 0 then some s else Members.anyTooDeep? (room - 1) ms
  | .operation s l r => if room = 0 then some s else (l.tooDeep? (room - 1)).or (r.tooDeep? (room - 1))

def Members.anyTooDeep? (room : Nat) : List Members → Option Span
  | [] => none
  | m :: ms => (m.tooDeep? room).or (Members.anyTooDeep? room ms)

end

mutual

/-- The part that is nested deeper than `room` allows, if there is one. -/
def Node.tooDeep? (room : Nat) : Node → Option Span
  | .nothing => none
  | .flags _ => none
  | .atom _ => none
  | .set m => m.tooDeep? room
  | .repeated s n => if room = 0 then some s else n.tooDeep? (room - 1)
  | .group s _ n => if room = 0 then some s else n.tooDeep? (room - 1)
  | .sequence s ns => if room = 0 then some s else Node.anyTooDeep? (room - 1) ns
  | .choice s ns => if room = 0 then some s else Node.anyTooDeep? (room - 1) ns

def Node.anyTooDeep? (room : Nat) : List Node → Option Span
  | [] => none
  | n :: ns => (n.tooDeep? room).or (Node.anyTooDeep? room ns)

end

end ChainQuery.Pattern
