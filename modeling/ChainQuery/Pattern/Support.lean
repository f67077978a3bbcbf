/-
  ChainQuery.Pattern.Support — whether a pattern can be looked for.

  A pattern is turned into an automaton over the bytes of a text, without tables of
  the characters of all scripts. So it can ask for no property, and, unless a flag
  limits it to ASCII, for no shorthand and for no character in either case. Limited
  to ASCII it must not fit bytes that are no text. No automaton finds the edges of
  words of all scripts; this is known only when nothing else is wrong.
-/

import ChainQuery.Pattern.Reader

namespace ChainQuery.Pattern

/-- The flags that hold. -/
structure Mode where
  ignoresCase : Bool
  unicode : Bool
  deriving DecidableEq, Repr

/-- The flags that hold after `items`. -/
def Mode.after (m : Mode) (items : List FlagItem) : Mode :=
  ⟨(flagState? .ignoreCase items).getD m.ignoresCase, (flagState? .unicode items).getD m.unicode⟩

/-! ## Sets -/

/-- A character of a set that is limited to ASCII. -/
def checkByte (c : Char) (mayBeByte : Bool) (s : Span) : Except Fault Unit :=
  if c.toNat < 0x80 then .ok ()
  else if mayBeByte then fault .matchesNonText s
  else fault .beyondBytes s

def checkShorthand (m : Mode) (s : Span) (negated : Bool) : Except Fault Unit :=
  if m.unicode then fault .noShorthands s
  else if negated then fault .matchesNonText s
  else .ok ()

def checkProperty (m : Mode) (s : Span) : Except Fault Unit := fault (if m.unicode then .noProperties else .beyondBytes) s

/-- A whole set, which `hasCases` if some of its characters are still to be taken in either case. -/
def checkSet (m : Mode) (s : Span) (negated hasCases : Bool) : Except Fault Unit :=
  if m.unicode then if hasCases then fault .noCases s else .ok ()
  else if negated then fault .matchesNonText s
  else .ok ()

def checkMember (m : Mode) (a : Atom) : Except Fault Unit :=
  match a with
  | .literal s c mayBeByte => if m.unicode then .ok () else checkByte c mayBeByte s
  | .shorthand s negated => checkShorthand m s negated
  | .property s => checkProperty m s
  | .any _ => .ok ()
  | .place _ _ => .ok ()

mutual

/-- Members of a set: whether some of their characters are still to be taken in either case. -/
def Members.check (m : Mode) : Members → Except Fault Bool
  | .nothing _ => .ok false
  | .atom a => do
    checkMember m a
    return m.ignoresCase
  | .range _ first last => do
    checkMember m first
    checkMember m last
    return m.ignoresCase
  | .named s negated => do
    checkSet m s negated m.ignoresCase
    return false
  | .bracketed s negated members => do
    checkSet m s negated (← members.check m)
    return false
  | .union _ parts => Members.checkAll m parts
  | .operation _ l r => do
    let left ← l.check m
    let right ← r.check m
    if m.unicode then
      checkSet m r.span false right
      checkSet m l.span false left
    return false

def Members.checkAll (m : Mode) : List Members → Except Fault Bool
  | [] => .ok false
  | p :: ps => do
    let one ← p.check m
    let others ← Members.checkAll m ps
    return one || others

end

/-! ## Patterns -/

/-- What has been seen of a pattern. -/
structure Seen where
  mode : Mode
  /-- Whether it asks for the edge of a word of any script. -/
  hasWordEdge : Bool

def checkAtom (m : Mode) (a : Atom) : Except Fault Unit :=
  match a with
  | .literal s c mayBeByte =>
    if m.unicode then if m.ignoresCase then fault .noCases s else .ok ()
    else if mayBeByte && 0x80 ≤ c.toNat then fault .matchesNonText s
    else .ok ()
  | .any s => if m.unicode then .ok () else fault .matchesNonText s
  | .place _ _ => .ok ()
  | .shorthand s negated => checkShorthand m s negated
  | .property s => checkProperty m s

def Atom.isWordEdge : Atom → Bool
  | .place _ isWordEdge => isWordEdge
  | _ => false

mutual

def Node.check (s : Seen) : Node → Except Fault Seen
  | .nothing => .ok s
  | .flags items => .ok { s with mode := s.mode.after items }
  | .atom a => do
    checkAtom s.mode a
    return { s with hasWordEdge := s.hasWordEdge || (s.mode.unicode && a.isWordEdge) }
  | .set members => do
    let _ ← members.check s.mode
    return s
  | .repeated _ n => n.check s
  | .group _ items n => do
    let after ← n.check { s with mode := s.mode.after items }
    return { after with mode := s.mode }
  | .sequence _ ns => Node.checkAll s ns
  | .choice _ ns => Node.checkAll s ns

def Node.checkAll (s : Seen) : List Node → Except Fault Seen
  | [] => .ok s
  | n :: ns => do Node.checkAll (← n.check s) ns

end

/-- Why a pattern cannot be looked for. -/
inductive Obstacle where
  | fault (f : Fault)
  | wordEdge
  deriving DecidableEq, Repr

/-- Whether a pattern can be looked for. -/
def check (cs : List Char) : Except Obstacle Unit :=
  match read cs >>= Node.check ⟨⟨false, true⟩, false⟩ with
  | .error f => .error (.fault f)
  | .ok seen => if seen.hasWordEdge then .error .wordEdge else .ok ()

end ChainQuery.Pattern
