/-
  ChainQuery.Settings.File.Record — the records that the lines of a settings file build
  up.

  Under a name stands a value, a record, or a list of records that have headings. A
  value is complete, and nothing is ever put into it. A record comes about in one of
  three ways, and that decides what can still be done to it:
  - It has a heading of its own, which no other heading may repeat. No dots lead into
    it from outside.
  - A heading passes through it to what lies inside. It can have its own heading later.
  - The dots in a setting's name lead through it. Settings are put into it in this way
    only; headings may pass through it, but it has none itself.
-/

import ChainQuery.Settings.Value

namespace ChainQuery.Settings.File

/-- How a record came about. -/
inductive Origin where
  | heading
  | passed
  | dotted
  deriving DecidableEq, Repr

inductive Item where
  | value (v : Value)
  | record (origin : Origin) (fields : List (String × Item))
  /-- A list of records, of which only the last is still open. -/
  | records (last : List (String × Item))

abbrev Fields := List (String × Item)

def Item.toValue : Item → Value
  | .value v => v
  | _ => .other

/-- A name, after those of the records that lead to it. -/
structure Path where
  records : List String
  name : String
  deriving DecidableEq, Repr

def Path.names (p : Path) : List String := p.records ++ [p.name]

namespace Fields

/-- `item` under `name`, in place of what stands there. -/
def put (name : String) (item : Item) (fields : Fields) : Fields :=
  (name, item) :: fields.filter fun field => field.1 ≠ name

/-- Changes the record that names lead to from one with these fields. A record missing on
    the way is `made`; of a list it is the last record that is entered; a value ends the way. -/
def within? (made : Origin) (change : Origin → Fields → Option Fields) :
    (names : List String) → (origin : Origin) → Fields → Option Fields
  | [], origin, fields => change origin fields
  | name :: names, _, fields => do
    let item ←
      match fields.lookup name with
      | none => Item.record made <$> within? made change names made []
      | some (.value _) => none
      | some (.record origin inner) =>
        if made = .dotted && origin = .heading then none
        else Item.record origin <$> within? made change names origin inner
      | some (.records last) => Item.records <$> within? made change names .heading last
    return put name item fields

/-- Puts a value where nothing stands yet, into the record that the dots lead to. -/
def set? (p : Path) (v : Value) : Origin → Fields → Option Fields :=
  within? .dotted (fun origin fields =>
    -- the dots may end only in a record that is made by dots
    if decide (origin = .dotted) = p.records.isEmpty || (fields.lookup p.name).isSome then none
    else some (put p.name (.value v) fields)) p.records

/-- Opens the record that a heading names. -/
def open? (p : Path) : Fields → Option Fields :=
  within? .passed (fun _ fields =>
    match fields.lookup p.name with
    | none => some (put p.name (.record .heading []) fields)
    | some (.record .passed inner) => some (put p.name (.record .heading inner) fields)
    | some _ => none) p.records .heading

/-- Opens one more record of the list that a heading names. -/
def openNext? (p : Path) : Fields → Option Fields :=
  within? .passed (fun _ fields =>
    match fields.lookup p.name with
    | none => some (put p.name (.records []) fields)
    | some (.records _) => some (put p.name (.records []) fields)
    | some _ => none) p.records .heading

/-- The fields of a record that is written in braces, from its settings. -/
def ofSettings? (settings : List (Path × Value)) : Option Fields :=
  settings.foldlM (fun fields (p, v) => set? p v .heading fields) []

end Fields

end ChainQuery.Settings.File
