/-
  ChainQuery.LogFilter — which events a log shows.

  A filter is a list of directives, separated by commas. A directive is a level; or
  the beginning of a target, with every event of it; or such a beginning, an equals
  sign and a level. A span and fields may stand in brackets after the target: a
  directive for a span shows nothing where no span is open, and one for fields only
  the events that have them all; the message is one of an event's fields. A field may
  have a value after an equals sign: a truth value, a number, or else a pattern, which
  must be one that can be looked for. Of the directives that fit an event the one with
  the longest target decides, then the one with most fields, then the one whose fields
  come last in order, then the last one given. A filter without directives shows
  errors.

  Blanks at the ends of a directive are no part of its form, but of its words.
-/

import ChainQuery.Event
import ChainQuery.Pattern.Support
import ChainQuery.Text.Alphanumeric
import ChainQuery.Text.Blank
import ChainQuery.Text.Cut
import ChainQuery.Text.Number

namespace ChainQuery

structure LogField where
  name : String
  hasValue : Bool
  deriving DecidableEq, Repr

structure Directive where
  /-- The beginning of the targets it is about. -/
  target : Option String
  span : Option String
  fields : List LogField
  /-- The most verbose level shown; none shows nothing. -/
  level : Option Level
  deriving DecidableEq, Repr

inductive LogFilterError where
  | badDirective
  | badLevel
  /-- The value of a field is no pattern that can be looked for. -/
  | badField (pattern : List Char) (o : Pattern.Obstacle)
  /-- A part of a directive would begin or end inside a character. -/
  | torn
  deriving DecidableEq, Repr

/-- What keeps a pattern from being looked for, and its causes. -/
def obstacleChain (pattern : List Char) : Pattern.Obstacle → List String
  | .fault f => ["error building NFA", "error parsing regex", f.report pattern]
  | .wordEdge =>
    ["unsupported regex feature for DFAs: cannot build DFAs for regexes with Unicode word boundaries; switch to " ++
      "ASCII word boundaries, or heuristically enable Unicode word boundaries or use a different regex engine"]

def LogFilterError.message : LogFilterError → String
  | .badDirective => "invalid filter directive"
  | .badLevel =>
    "error parsing level filter: expected one of \"off\", \"error\", \"warn\", \"info\", \"debug\", \"trace\", " ++
      "or a number 0-5"
  | .badField pattern o => "invalid field filter: " ++ ((obstacleChain pattern o).head?.getD "")
  | .torn => "a part of a directive begins or ends inside a character"

/-- The message and its causes; a bad level is its own cause. -/
def LogFilterError.chain (e : LogFilterError) : List String :=
  e.message ::
    match e with
    | .badLevel => [e.message]
    | .badField pattern o => obstacleChain pattern o
    | _ => []

structure LogFilter where
  directives : List Directive
  deriving DecidableEq, Repr

namespace LogFilter

/-! ## Reading -/

/-- Names of levels, in any case. -/
def levels : List (String × Option Level) := [
  ("off", none), ("error", some .error), ("warn", some .warn), ("info", some .info), ("debug", some .debug),
  ("trace", some .trace),
  ("0", none), ("1", some .error), ("2", some .warn), ("3", some .info), ("4", some .debug), ("5", some .trace)]

/-- A number may have a plus and leading zeros. -/
def levelWord (cs : List Char) : List Char :=
  let number := if cs.head? = some '+' then cs.tail else cs
  if !number.isEmpty && number.all Char.isDigit then
    match number.dropWhile (· = '0') with
    | [] => ['0']
    | digits => digits
  else cs.map Char.toLower

def level? (cs : List Char) : Option (Option Level) := levels.lookup (String.ofList (levelWord cs))

/-- What stands after the equals sign; nothing there means every level. -/
def levelAfter (cs : List Char) : Except LogFilterError (Option Level) :=
  if cs.isEmpty then .ok (some .trace)
  else
    match level? cs with
    | some l => .ok l
    | none => .error .badLevel

/-- How a target may begin: a letter or a number, a dash, a colon or an underscore. -/
def beginsTarget (c : Char) : Bool := Text.isAlphanumeric c || c = '-' || c = ':' || c = '_'

/-- What a field's value asks for, if it is no truth value and no number, must be possible to look for. -/
def checkFieldValue (value : List Char) : Except LogFilterError Unit :=
  if value = "true".toList || value = "false".toList || Text.isNumber value then .ok ()
  else
    match Pattern.check value with
    | .ok () => .ok ()
    | .error o => .error (.badField value o)

/-- A field, with its value if it has one; what follows a second equals sign does not count. -/
def readField (cs : List Char) : Except LogFilterError LogField :=
  match Text.pieces '=' cs with
  | [] => .error .badDirective
  | [[]] => .error .badDirective
  | [name] => .ok ⟨String.ofList name, false⟩
  | name :: value :: _ => do
    checkFieldValue value
    return ⟨String.ofList name, true⟩

/-- The part of a directive between two positions. -/
def part (piece : List Char) (first last : Nat) : Except LogFilterError (List Char) :=
  match Text.slice? first last piece with
  | some cs => .ok cs
  | none => .error .torn

/-- The level of a directive, from position `first` to its end. -/
def levelFrom (piece : List Char) (first : Nat) : Except LogFilterError (Option Level) :=
  match Text.from? first piece with
  | some cs => levelAfter cs
  | none => .error .torn

/-- After the bracket that closes a span: `rest` is at position `i`. -/
def afterSpan (piece : List Char) (d : Directive) (i : Nat) (rest : List Char) : Except LogFilterError Directive :=
  match rest with
  | [] => .ok { d with level := some .trace }
  | '=' :: _ => do return { d with level := ← levelFrom piece (i + 1) }
  | _ => .error .badDirective

/-- The span and the field in brackets: `rest` follows the opening one and is at position `i`. -/
def inSpan (piece : List Char) (target : Option String) (i : Nat) (rest : List Char) :
    Except LogFilterError Directive := do
  let name := rest.takeWhile fun c => c ≠ ']' && c ≠ '\x7b'
  let j := i + Text.utf8Size name
  match rest.drop name.length with
  | ']' :: rest =>
    let span ← part piece i j
    afterSpan piece ⟨target, some (String.ofList span), [], none⟩ (j + 1) rest
  | '\x7b' :: rest =>
    let span ← part piece i j
    let inner := rest.takeWhile (· ≠ '\x7d')
    let k := j + 1 + Text.utf8Size inner
    match rest.drop inner.length with
    | '\x7d' :: rest =>
      let field ← readField (← part piece (j + 1) k)
      match rest with
      | ']' :: rest =>
        afterSpan piece ⟨target, if span.isEmpty then none else some (String.ofList span), [field], none⟩ (k + 2) rest
      | _ => .error .badDirective
    | _ => .error .badDirective
  | _ => .error .badDirective

/-- A word that stands alone is a level if it can be. -/
def wordAlone (cs : List Char) : Directive :=
  match level? cs with
  | some l => ⟨none, none, [], l⟩
  | none => ⟨some (String.ofList cs), none, [], some .trace⟩

/-- One directive. It is taken apart without the blanks at its ends, and its parts are then cut from the piece
with them, at the positions that they have without. -/
def directive (piece : List Char) : Except LogFilterError Directive := do
  let cs := Text.trim piece
  match cs with
  | [] => .error .badDirective
  | '[' :: rest => inSpan piece none 1 rest
  | c :: _ =>
    if !beginsTarget c then .error .badDirective
    else
      let word := cs.takeWhile fun c => c ≠ '=' && c ≠ '['
      let i := Text.utf8Size word
      match cs.drop word.length with
      | '=' :: _ =>
        let target ← part piece 0 i
        return ⟨some (String.ofList target), none, [], ← levelFrom piece (i + 1)⟩
      | '[' :: rest =>
        let target ← part piece 0 i
        inSpan piece (some (String.ofList target)) (i + 1) rest
      | _ => return wordAlone piece

def parse (s : String) : Except LogFilterError LogFilter := do
  let directives ← ((Text.pieces ',' s.toList).filter (!·.isEmpty)).mapM directive
  return ⟨directives⟩

/-! ## Deciding -/

/-- Without a span and without the value of a field, a directive is about events alone. -/
def isStatic (d : Directive) : Bool := d.span.isNone && d.fields.all fun f => !f.hasValue

/-- The names that a directive for fields can ask for. -/
def fieldNames (e : Event) : List String := "message" :: e.fields.map (·.1)

def fits (d : Directive) (e : Event) : Bool :=
  (d.target.all fun t => t.toList.isPrefixOf e.target.toList) &&
    d.fields.all fun f => (fieldNames e).contains f.name

/-- How much a directive says about the events it is for. -/
def weight (d : Directive) : Nat × Nat := ((d.target.map fun t => t.utf8ByteSize + 1).getD 0, d.fields.length)

/-- Whether `d`, given after `best`, decides instead of it. -/
def outweighs (d best : Directive) : Bool :=
  (weight best).1 < (weight d).1 ||
    ((weight best).1 = (weight d).1 &&
      ((weight best).2 < (weight d).2 ||
        ((weight best).2 = (weight d).2 && !(decide (d.fields.map (·.name) < best.fields.map (·.name))))))

/-- The directive that decides about `e`. -/
def deciding (ds : List Directive) (e : Event) : Option Directive :=
  (ds.filter (fits · e)).foldl
    (fun best d => if best.all fun b => outweighs d b then some d else best) none

def effective (f : LogFilter) : List Directive :=
  if f.directives.isEmpty then [⟨none, none, [], some .error⟩] else f.directives.filter isStatic

def shows (f : LogFilter) (e : Event) : Bool :=
  match deciding f.effective e with
  | some d => d.level.any fun l => e.level.rank ≤ l.rank
  | none => false

end LogFilter

end ChainQuery
