/-
  ChainQuery.Pattern.Fault — what can be wrong with a pattern, and how it is shown.

  A fault names a part of the pattern, and sometimes an earlier part that it clashes
  with. The report shows the pattern, with marks under these parts, before it says
  what is wrong. The lines of a pattern with several are numbered, between rules; a
  part that runs over several lines is described instead of marked.
-/

import ChainQuery.Pattern.Position
import ChainQuery.Text.Cut

namespace ChainQuery.Pattern

inductive Mistake where
  | tooDeep
  | groupUnclosed
  | groupUnopened
  | nameUnclosed
  | nameEmpty
  | nameInvalid
  | nameRepeated
  | flagUnknown
  | flagRepeated
  | flagsUnclosed
  | negationRepeated
  | negationDangling
  | lookAround
  | nothingToRepeat
  | countUnclosed
  | countMissing
  | countTooLarge
  | countReversed
  | setUnclosed
  | escapeInSet
  | boundaryNotLiteral
  | rangeReversed
  | escapeUnfinished
  | escapeUnknown
  | backreference
  | hexDigitInvalid
  | hexMissing
  | hexNoCharacter
  | propertyInvalid
  | edgeUnclosed
  | edgeUnknown
  | edgeOrCountUnclosed
  /-- The pattern would fit bytes that are no text. -/
  | matchesNonText
  | beyondBytes
  | noProperties
  | noShorthands
  | noCases
  deriving DecidableEq, Repr

/-- How deep the parts of a pattern may be nested. -/
def nestLimit : Nat := 250

def Mistake.message : Mistake → String
  | .tooDeep => "exceed the maximum number of nested parentheses/brackets (" ++ Nat.repr nestLimit ++ ")"
  | .groupUnclosed => "unclosed group"
  | .groupUnopened => "unopened group"
  | .nameUnclosed => "unclosed capture group name"
  | .nameEmpty => "empty capture group name"
  | .nameInvalid => "invalid capture group character"
  | .nameRepeated => "duplicate capture group name"
  | .flagUnknown => "unrecognized flag"
  | .flagRepeated => "duplicate flag"
  | .flagsUnclosed => "expected flag but got end of regex"
  | .negationRepeated => "flag negation operator repeated"
  | .negationDangling => "dangling flag negation operator"
  | .lookAround => "look-around, including look-ahead and look-behind, is not supported"
  | .nothingToRepeat => "repetition operator missing expression"
  | .countUnclosed => "unclosed counted repetition"
  | .countMissing => "repetition quantifier expects a valid decimal"
  | .countTooLarge => "decimal literal invalid"
  | .countReversed => "invalid repetition count range, the start must be <= the end"
  | .setUnclosed => "unclosed character class"
  | .escapeInSet => "invalid escape sequence found in character class"
  | .boundaryNotLiteral => "invalid range boundary, must be a literal"
  | .rangeReversed => "invalid character class range, the start must be <= the end"
  | .escapeUnfinished => "incomplete escape sequence, reached end of pattern prematurely"
  | .escapeUnknown => "unrecognized escape sequence"
  | .backreference => "backreferences are not supported"
  | .hexDigitInvalid => "invalid hexadecimal digit"
  | .hexMissing => "hexadecimal literal empty"
  | .hexNoCharacter => "hexadecimal literal is not a Unicode scalar value"
  | .propertyInvalid => "invalid Unicode character class"
  | .edgeUnclosed => "special word boundary assertion is either unclosed or contains an invalid character"
  | .edgeUnknown =>
    "unrecognized special word boundary assertion, valid choices are: start, end, start-half or end-half"
  | .edgeOrCountUnclosed =>
    "found either the beginning of a special word boundary or a bounded repetition on a \\b with an opening " ++
      "brace, but no closing brace"
  | .matchesNonText => "pattern can match invalid UTF-8"
  | .beyondBytes => "Unicode not allowed here"
  | .noProperties => "Unicode property not found"
  | .noShorthands => "Unicode-aware Perl class not found (make sure the unicode-perl feature is enabled)"
  | .noCases =>
    "Unicode-aware case insensitivity matching is not available (make sure the unicode-case feature is enabled)"

structure Fault where
  mistake : Mistake
  span : Span
  /-- What the faulty part clashes with. -/
  earlier : Option Span
  deriving DecidableEq, Repr

/-- Faults at a part alone. -/
def fault {α : Type} (m : Mistake) (s : Span) : Except Fault α := .error ⟨m, s, none⟩

namespace Fault

/-! ## Report -/

/-- The lines of a pattern, without their ends. -/
def lines (pattern : List Char) : List (List Char) :=
  let pieces := Text.pieces '\n' pattern
  pieces.dropLast.map (fun cs => if cs.getLast? = some '\r' then cs.dropLast else cs) ++
    pieces.getLast?.toList.filter (!·.isEmpty)

def spans (f : Fault) : List Span := f.earlier.toList ++ [f.span]

def isOnOneLine (s : Span) : Bool := s.first.line = s.last.line

/-- Marks under parts of one line. -/
def marks (spans : List Span) : List Char :=
  spans.foldl
    (fun marked s =>
      marked ++ List.replicate (s.first.column - 1 - marked.length) ' ' ++
        List.replicate (max 1 (s.last.column - s.first.column)) '^')
    []

/-- A line of the pattern, with the marks under it. -/
def marked (f : Fault) (margin : List Char) (width number : Nat) (line : List Char) : List (List Char) :=
  let there := f.spans.filter fun s => isOnOneLine s && s.first.line = number
  (margin ++ line) :: if there.isEmpty then [] else [List.replicate width ' ' ++ marks there]

def describe (s : Span) : String :=
  "on line " ++ Nat.repr s.first.line ++ " (column " ++ Nat.repr s.first.column ++ ") through line " ++
    Nat.repr s.last.line ++ " (column " ++ Nat.repr (s.last.column - 1) ++ ")"

def report (f : Fault) (pattern : List Char) : String :=
  let error := "error: " ++ f.mistake.message
  let shown :=
    if pattern.contains '\n' then
      let width := (Nat.repr (Text.pieces '\n' pattern).length).length
      let rule := String.ofList (List.replicate 79 '~')
      let numbered := (lines pattern).mapIdx fun i line =>
        let number := (Nat.repr (i + 1)).toList
        f.marked (List.replicate (width - number.length) ' ' ++ number ++ [':', ' ']) (width + 2) (i + 1) line
      let described := (f.spans.filter (!isOnOneLine ·)).map describe
      rule :: numbered.flatten.map String.ofList ++ rule :: if described.isEmpty then [] else ["\n".intercalate described]
    else ((lines pattern).flatMap fun line => f.marked (List.replicate 4 ' ') 4 1 line).map String.ofList
  "\n".intercalate ("regex parse error:" :: shown ++ [error])

end Fault

end ChainQuery.Pattern
