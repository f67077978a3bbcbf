/-
  ChainQuery.Settings.File — the settings file as a whole.

  Settings stand in the file itself up to the first heading, and after a heading in the
  record it names. A setting that comes twice spoils the file, as does a heading that
  does, a value that something is put into, and any line that does not fit.

  A file may name another one to start from. None can be had here: such a file is
  refused, whatever it names.
-/

import ChainQuery.Settings.File.Line

namespace ChainQuery.Settings.File

/-- What the lines so far come to. -/
structure Draft where
  fields : Fields
  /-- The names that lead to the record in which settings stand. -/
  current : List String

namespace Draft

def empty : Draft := ⟨[], []⟩

def add? (d : Draft) : Line → Option Draft
  | .blank => some d
  | .setting p v => do
    let fields ← Fields.within? .passed (Fields.set? p v) d.current .heading d.fields
    return { d with fields }
  | .heading p => do return ⟨← Fields.open? p d.fields, p.names⟩
  | .nextHeading p => do return ⟨← Fields.openNext? p d.fields, p.names⟩

end Draft

/-- The text without the mark that may stand before it. -/
def withoutMark : List Char → List Char
  | '\uFEFF' :: cs => cs
  | cs => cs

/-- The key that names a file to start from. -/
def baseKey : String := "extends"

/-- What a file says, if it is well formed and starts from no other. -/
def parse? (s : String) : Option Fields := do
  let cs := withoutMark s.toList
  let draft ← (← lines? cs.length cs).foldlM Draft.add? Draft.empty
  if (draft.fields.lookup baseKey).isSome then none else some draft.fields

end ChainQuery.Settings.File
