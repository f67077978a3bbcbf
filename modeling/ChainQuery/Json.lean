/-
  ChainQuery.Json — documents and their two layouts.

  A document's object keeps its fields in the order given. The compact layout has no
  blank outside strings; the indented one puts every item and field on a line of its
  own, two spaces deeper than what holds it, and a space after the colon. A list or
  an object without content is its two brackets in both.
-/

namespace ChainQuery

inductive Json where
  | bool (b : Bool)
  | number (n : Int)
  | string (s : String)
  | array (items : List Json)
  | object (fields : List (String × Json))

namespace Json

def ofNat (n : Nat) : Json := .number n

/-! ## Strings -/

/-- Two hexadecimal digits. -/
def hexPair (n : Nat) : List Char := [Nat.digitChar (n / 16), Nat.digitChar (n % 16)]

def escapeChar (c : Char) : List Char :=
  if c = '"' then ['\\', '"']
  else if c = '\\' then ['\\', '\\']
  else if c = '\x08' then ['\\', 'b']
  else if c = '\x0c' then ['\\', 'f']
  else if c = '\n' then ['\\', 'n']
  else if c = '\r' then ['\\', 'r']
  else if c = '\t' then ['\\', 't']
  else if c.toNat < 0x20 then ['\\', 'u', '0', '0'] ++ hexPair c.toNat
  else [c]

def quoted (s : String) : List Char := '"' :: s.toList.flatMap escapeChar ++ ['"']

/-! ## Layout -/

inductive Layout where
  | compact
  | indented
  deriving DecidableEq, Repr

namespace Layout

/-- What stands before an item at this depth, and before the bracket that closes at it. -/
def lineBreak : Layout → (depth : Nat) → List Char
  | .compact, _ => []
  | .indented, depth => '\n' :: List.replicate (2 * depth) ' '

def colon : Layout → List Char
  | .compact => [':']
  | .indented => [':', ' ']

end Layout

mutual

/-- A document whose brackets close at `depth`. -/
def render (l : Layout) (depth : Nat) : Json → List Char
  | .bool true => ['t', 'r', 'u', 'e']
  | .bool false => ['f', 'a', 'l', 's', 'e']
  | .number n => (Int.repr n).toList
  | .string s => quoted s
  | .array [] => ['[', ']']
  | .array (x :: xs) =>
    '[' :: l.lineBreak (depth + 1) ++ render l (depth + 1) x ++ renderItems l (depth + 1) xs ++
      l.lineBreak depth ++ [']']
  | .object [] => ['\x7b', '\x7d']
  | .object (f :: fs) =>
    '\x7b' :: l.lineBreak (depth + 1) ++ renderField l (depth + 1) f ++ renderFields l (depth + 1) fs ++
      l.lineBreak depth ++ ['\x7d']

/-- The items after the first. -/
def renderItems (l : Layout) (depth : Nat) : List Json → List Char
  | [] => []
  | x :: xs => ',' :: l.lineBreak depth ++ render l depth x ++ renderItems l depth xs

def renderField (l : Layout) (depth : Nat) : String × Json → List Char
  | (name, value) => quoted name ++ l.colon ++ render l depth value

/-- The fields after the first. -/
def renderFields (l : Layout) (depth : Nat) : List (String × Json) → List Char
  | [] => []
  | f :: fs => ',' :: l.lineBreak depth ++ renderField l depth f ++ renderFields l depth fs

end

/-- One document and the end of its line. -/
def print (l : Layout) (doc : Json) : String := String.ofList (render l 0 doc ++ ['\n'])

end Json

end ChainQuery
