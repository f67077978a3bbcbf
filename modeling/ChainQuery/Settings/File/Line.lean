/-
  ChainQuery.Settings.File.Line — the lines of a settings file.

  A line is empty, a setting or a heading, and a comment may end it. Blanks count for
  nothing, except in quotes.

  A setting is a name, an equals sign and a value. A name is letters, digits,
  underscores and dashes, or a text in quotes; names joined by dots lead into a record.
  A value is one of these:
  - a text in double quotes, with escapes, or in single quotes, without, either over
    several lines if the quotes are three;
  - a truth value, a number, a date or a time;
  - a list in square brackets, over as many lines as it takes; a comma may follow its
    last item;
  - a record in braces, on one line, its settings separated by commas.

  A heading is a name in square brackets, or in two pairs of them if it names a list of
  records.
-/

import ChainQuery.Settings.Block
import ChainQuery.Settings.File.Bare
import ChainQuery.Settings.File.Record

namespace ChainQuery.Settings.File

/-- How many names dots may join, and how deep lists and records may nest. -/
def depthLimit : Nat := 79

/-! ## Blanks and comments -/

def skipBlanks (cs : List Char) : List Char := cs.dropWhile Block.isBlank

/-- What follows blanks, line ends and comments, from inside a comment or outside. -/
def skipSpace (comment : Bool) : List Char → List Char
  | [] => []
  | '\n' :: cs => skipSpace false cs
  | '\r' :: '\n' :: cs => skipSpace false cs
  | c :: cs =>
    if comment && isPlain c then skipSpace true cs
    else if !comment && Block.isBlank c then skipSpace false cs
    else if !comment && c = '#' then skipSpace true cs
    else c :: cs

/-- What follows the rest of a line, if that is at most a comment. -/
def nextLine? (cs : List Char) : Option (List Char) :=
  let rest :=
    match skipBlanks cs with
    | '#' :: rest => rest.dropWhile isPlain
    | rest => rest
  match rest with
  | [] => some []
  | '\n' :: rest => some rest
  | '\r' :: '\n' :: rest => some rest
  | _ => none

/-! ## Names -/

def isNameChar (c : Char) : Bool := c.isAlphanum || c = '_' || c = '-'

/-- The text up to the closing single quote and what follows it. -/
def literal? : List Char → Option (List Char × List Char)
  | [] => none
  | '\'' :: rest => some ([], rest)
  | c :: rest =>
    if isPlain c then do
      let (cs, rest) ← literal? rest
      return (c :: cs, rest)
    else none

def name? : List Char → Option (List Char × List Char)
  | '"' :: rest => quoted? rest
  | '\'' :: rest => literal? rest
  | cs =>
    match cs.takeWhile isNameChar with
    | [] => none
    | name => some (name, cs.dropWhile isNameChar)

/-- Names joined by dots, at most as many as `fuel`, and what follows them and the blanks after them. -/
def path? (fuel : Nat) (cs : List Char) : Option (Path × List Char) :=
  match fuel with
  | 0 => none
  | fuel + 1 => do
    let (name, rest) ← name? (skipBlanks cs)
    match skipBlanks rest with
    | '.' :: rest =>
      let (path, rest) ← path? fuel rest
      return (⟨String.ofList name :: path.records, path.name⟩, rest)
    | rest => return (⟨[], String.ofList name⟩, rest)

/-! ## Values -/

def text? : List Char → Option (List Char × List Char)
  | '"' :: '"' :: '"' :: rest => Block.text? '"' rest
  | '\'' :: '\'' :: '\'' :: rest => Block.text? '\'' rest
  | '"' :: rest => quoted? rest
  | '\'' :: rest => literal? rest
  | _ => none

/-- How the items between two brackets are written. -/
structure Brackets where
  close : Char
  /-- Takes away what may stand around the items. -/
  skip : List Char → List Char
  /-- Whether a comma may follow the last item. -/
  lastComma : Bool

def squareBrackets : Brackets := ⟨']', skipSpace false, true⟩

def braces : Brackets := ⟨'\x7d', skipBlanks, false⟩

/-- The items up to the closing bracket, at most as many as `fuel`, and what follows it. Unless an
    item is due, the bracket can come at once. -/
def items? {α : Type} (b : Brackets) (item? : List Char → Option (α × List Char)) (fuel : Nat) (due : Bool)
    (cs : List Char) : Option (List α × List Char) :=
  match fuel, b.skip cs with
  | 0, _ => none
  | _, [] => none
  | fuel + 1, c :: cs =>
    if !due && c = b.close then some ([], cs)
    else do
      let (item, rest) ← item? (c :: cs)
      match b.skip rest with
      | [] => none
      | d :: rest =>
        if d = b.close then return ([item], rest)
        else if d = ',' then
          let (items, rest) ← items? b item? fuel (!b.lastComma) rest
          return (item :: items, rest)
        else none

/-- A name and its value, and what follows them. -/
def setting? (value? : List Char → Option (Value × List Char)) (cs : List Char) :
    Option ((Path × Value) × List Char) := do
  let (path, rest) ← path? depthLimit cs
  match rest with
  | '=' :: rest =>
    let (value, rest) ← value? (skipBlanks rest)
    return ((path, value), rest)
  | _ => none

/-- A value in which lists and records nest at most as deep as `depth`, and what follows it. -/
def value? (depth : Nat) (cs : List Char) : Option (Value × List Char) :=
  match depth, cs with
  | depth + 1, '[' :: cs => do
    let (_, rest) ← items? squareBrackets (value? depth) (cs.length + 1) false cs
    return (.other, rest)
  | depth + 1, '\x7b' :: cs => do
    let (settings, rest) ← items? braces (setting? (value? depth)) (cs.length + 1) false cs
    let _ ← Fields.ofSettings? settings
    return (.other, rest)
  | _, cs =>
    match text? cs with
    | some (text, rest) => some (.text (String.ofList text), rest)
    | none => bareValue? cs

/-! ## Lines -/

inductive Line where
  | blank
  | setting (p : Path) (v : Value)
  | heading (p : Path)
  /-- The heading of one more record of a list. -/
  | nextHeading (p : Path)
  deriving DecidableEq, Repr

/-- A line, with all the lines that its value takes, and what follows it. -/
def line? (cs : List Char) : Option (Line × List Char) :=
  match skipBlanks cs with
  | '[' :: '[' :: cs => do
    match ← path? depthLimit cs with
    | (path, ']' :: ']' :: rest) => return (.nextHeading path, ← nextLine? rest)
    | _ => none
  | '[' :: cs => do
    match ← path? depthLimit cs with
    | (path, ']' :: rest) => return (.heading path, ← nextLine? rest)
    | _ => none
  | cs =>
    match nextLine? cs with
    | some rest => some (.blank, rest)
    | none => do
      let ((path, value), rest) ← setting? (value? depthLimit) cs
      return (.setting path value, ← nextLine? rest)

/-- The lines of a text, at most as many as `fuel`. -/
def lines? (fuel : Nat) (cs : List Char) : Option (List Line) :=
  match fuel, cs with
  | _, [] => some []
  | 0, _ => none
  | fuel + 1, cs => do
    let (line, rest) ← line? cs
    return line :: (← lines? fuel rest)

end ChainQuery.Settings.File
