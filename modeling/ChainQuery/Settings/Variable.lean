/-
  ChainQuery.Settings.Variable — environment variables: the setting that a name
  stands for, and the value that a text gives it.

  A name that begins with the tool's own word stands for a setting, its letters in
  either case. Two underscores, or a dot, lead into a record; a name with an empty
  part stands for nothing.

  Blanks at the ends of a value do not count. A value with commas is a list, unless
  it begins with a quote or a bracket. Otherwise it is a truth value, a number, a
  list in brackets, a record in braces, a text in double quotes, a character in single
  ones, or else a text as it stands: what fails to be one of the former is the latter.

  Of what precedes the first escape of a text in quotes, as many bytes are kept as it
  has characters. Where some have more than one byte, that is not all of it, and the
  last byte kept may be inside a character; then there is no value, whatever follows
  the text and whatever list or record it is in.
-/

import ChainQuery.Settings.Value
import ChainQuery.Text.Blank
import ChainQuery.Text.Cut
import ChainQuery.Text.Number

namespace ChainQuery.Settings.Variable

/-! ## Names -/

/-- What the names of the tool's variables begin with, in lower case. -/
def namePrefix : List Char := "obelisk_".toList

/-- A dot for every two underscores. -/
def dotted : List Char → List Char
  | '_' :: '_' :: cs => '.' :: dotted cs
  | c :: cs => c :: dotted cs
  | [] => []

/-- The setting that a variable stands for: its name, after those of the records around it. -/
def path? (name : String) : Option (List String) :=
  let cs := (Text.trim name.toList).map Char.toLower
  if namePrefix.isPrefixOf cs then
    let parts := Text.pieces '.' (Text.trim (dotted (cs.drop namePrefix.length)))
    if parts.any List.isEmpty then none else some (parts.map String.ofList)
  else none

/-! ## Blanks -/

/-- The blanks that may stand between the parts of a value. -/
def isInnerBlank (c : Char) : Bool := c.isWhitespace || c = '\x0c'

def skipBlanks (cs : List Char) : List Char := cs.dropWhile isInnerBlank

/-! ## Numbers -/

def isNatural (limit : Nat) (cs : List Char) : Bool :=
  Text.isDigits cs && (cs.foldl (fun n c => 10 * n + (c.toNat - '0'.toNat)) 0) ≤ limit

/-- A whole number of 64 bits, with or without a sign. -/
def isInteger : List Char → Bool
  | '+' :: cs => isNatural (UInt64.size - 1) cs
  | '-' :: cs => isNatural 0x8000000000000000 cs
  | cs => isNatural (UInt64.size - 1) cs

/-- A number with a point. -/
def isDecimalFraction (cs : List Char) : Bool := cs.contains '.' && Text.isDecimal (Text.withoutSign cs)

def isNumber (cs : List Char) : Bool := isInteger cs || isDecimalFraction cs

/-! ## Nested values -/

def isSeparator (c : Char) : Bool := c = ',' || c = '[' || c = ']' || c = '\x7b' || c = '\x7d'

def isNameChar (c : Char) : Bool := c.isAlphanum || c = '_' || c = '-'

/-- Why a text has no nested value. -/
inductive Mismatch where
  | shape
  /-- A text in quotes would have to be cut inside a character. -/
  | torn
  deriving DecidableEq, Repr

/-- What precedes the first escape of a spelling. -/
def beforeEscape (spelling : List Char) : List Char := spelling.takeWhile (· ≠ '\\')

/-- Whether a spelling cannot be cut where it has to be. -/
def isTorn (spelling : List Char) : Bool :=
  let before := beforeEscape spelling
  before.length ≠ spelling.length && before.all isPlain && (Text.cutAt? before.length before).isNone

/-- What follows a text in quotes, after its opening quote. -/
def afterQuoted (cs : List Char) : Except Mismatch (List Char) :=
  match spelled? cs with
  | none => .error .shape
  | some (spelling, rest) =>
    if isTorn spelling then .error .torn
    else if (meaning? isPlain spelling).isSome then .ok rest
    else .error .shape

/-- What follows the name of a record's field, up to and with its equals sign. -/
def afterName (cs : List Char) : Except Mismatch (List Char) := do
  let rest ← match skipBlanks cs with
    | '"' :: cs => afterQuoted cs
    | cs => if (cs.takeWhile isNameChar).isEmpty then .error .shape else .ok (cs.dropWhile isNameChar)
  match skipBlanks rest with
  | '=' :: rest => .ok rest
  | _ => .error .shape

mutual

/-- What follows a value; `fuel` bounds how deep and how far values go. -/
def afterValue (fuel : Nat) (cs : List Char) : Except Mismatch (List Char) :=
  match fuel with
  | 0 => .error .shape
  | fuel + 1 =>
    skipBlanks <$> match skipBlanks cs with
      | 't' :: 'r' :: 'u' :: 'e' :: rest => .ok rest
      | 'f' :: 'a' :: 'l' :: 's' :: 'e' :: rest => .ok rest
      | '[' :: rest => afterItems fuel false ']' rest
      | '\x7b' :: rest => afterItems fuel true '\x7d' rest
      | '"' :: rest => afterQuoted rest
      | '\'' :: _ :: '\'' :: rest => .ok rest
      | '\'' :: _ => .error .shape
      | cs => .ok (cs.dropWhile (!isSeparator ·))

/-- What follows the items up to the bracket `close`; in a record each has a name. -/
def afterItems (fuel : Nat) (named : Bool) (close : Char) (cs : List Char) : Except Mismatch (List Char) :=
  match fuel with
  | 0 => .error .shape
  | fuel + 1 =>
    match cs with
    | c :: rest =>
      if c = close then .ok rest
      else do
        let cs ← if named then afterName (c :: rest) else .ok (c :: rest)
        match ← afterValue fuel cs with
        | ',' :: rest => afterItems fuel named close rest
        | d :: rest => if d = close then .ok rest else .error .shape
        | [] => .error .shape
    | [] => .error .shape

end

/-! ## The whole value -/

def isList (cs : List Char) : Bool :=
  cs.contains ',' && !(cs.head?.any fun c => c = '[' || c = '\x7b' || c = '"' || c = '\'')

def text (cs : List Char) : Value := .text (String.ofList cs)

/-- The value of the text `cs` that begins with an opening bracket: one list or one record from end to end. -/
def readNested (cs : List Char) : Option Value :=
  match afterValue (2 * cs.length + 2) cs with
  | .ok [] => some .other
  | .error .torn => none
  | _ => some (text cs)

/-- The value of the text `cs` whose first character is a double quote and whose others are `inner`. -/
def readQuoted (cs inner : List Char) : Option Value :=
  match spelled? inner with
  | none => some (text cs)
  | some (spelling, rest) =>
    if isTorn spelling then none
    else if !rest.isEmpty then some (text cs)
    else
      match meaning? isPlain spelling with
      | none => some (text cs)
      | some meant =>
        let before := beforeEscape spelling
        if before.length = spelling.length then some (text meant)
        else (Text.cutAt? before.length before).map fun (kept, _) => text (kept ++ meant.drop before.length)

/-- The value of a variable, if its text can be cut where it has to be. -/
def read (s : String) : Option Value :=
  let cs := Text.trim s.toList
  if isList cs || isNumber cs then some .other
  else if cs = "true".toList then some (.truth true)
  else if cs = "false".toList then some (.truth false)
  else
    match cs with
    | '[' :: _ => readNested cs
    | '\x7b' :: _ => readNested cs
    | ['\'', c, '\''] => some (text [c])
    | '"' :: inner => readQuoted cs inner
    | _ => some (text cs)

end ChainQuery.Settings.Variable
