/-
  ChainQuery.Settings.Resolve — the settings of a run, from four sources.

  Each setting is taken from the first of command line, environment, file and defaults
  that sets it. The log filter must then be a text, and the choice of layout a truth
  value. The command line sets the log filter if it gives one, and the layout always:
  a flag that is absent says no, so what other sources say of it never counts. A file
  must be well formed whether or not it is needed. Of the variables that set one
  setting, or something inside it, the last one counts.

  How the text of a file is read is a parameter. As a rule a file is read by itself; one
  that starts from another one needs a reader that can get at that.

  The command line's choices are handed on as words and taken from them once more. A
  filter that begins with a dash can be attached to its option the first time, but
  is a mistake the second time; a single dash is not.
-/

import ChainQuery.CommandLine.Invocation
import ChainQuery.Settings.File
import ChainQuery.Settings.Variable

namespace ChainQuery

structure Settings where
  logFilter : String
  indented : Bool
  deriving DecidableEq, Repr

/-- What stands where the settings file is looked for. -/
inductive SettingsFile where
  | text (s : String)
  /-- It cannot be read, or is no text. -/
  | unreadable
  deriving DecidableEq, Repr

/-- What a run finds around it. -/
structure Sources where
  /-- The variables of the environment and their values. -/
  environment : List (String × String)
  /-- The settings file, where there is one. -/
  file : Option SettingsFile
  deriving DecidableEq, Repr

/-- One of the sources cannot be used. -/
inductive SettingsError where
  | words (e : CommandLine.UsageError)
  | file
  /-- A setting has a value of another kind than its own. -/
  | mistyped
  /-- A variable's text would have to be cut inside a character. -/
  | torn
  deriving DecidableEq, Repr

namespace Settings

def default : Settings := ⟨"warn", false⟩

/-! ## Layers -/

/-- What one source says of each setting. -/
structure Layer where
  logFilter : Option Value
  pretty : Option Value
  deriving DecidableEq, Repr

namespace Layer

/-- What `lower` says counts where `upper` says nothing. -/
def or (upper lower : Layer) : Layer := ⟨upper.logFilter.or lower.logFilter, upper.pretty.or lower.pretty⟩

def defaults : Layer := ⟨some (.text default.logFilter), some (.truth default.indented)⟩

def settings : Layer → Except SettingsError Settings
  | ⟨some (.text s), some (.truth b)⟩ => .ok ⟨s, b⟩
  | _ => .error .mistyped

end Layer

def filterName : String := "log_filter"

def prettyName : String := "pretty"

/-- What the setting at a path makes of the one called `name`: a setting inside it makes it a record. -/
def part (name : String) (v : Value) : List String → Option Value
  | [] => none
  | first :: inner => if first = name then some (if inner.isEmpty then v else .other) else none

/-! ## The sources -/

/-- The words that say again what the command line chose. -/
def words (i : CommandLine.Invocation) : List String :=
  (match i.logFilter with
    | some f => ["--log-filter", f]
    | none => []) ++ if i.indented then ["--pretty"] else []

def level : CommandLine.Grammar Empty := CommandLine.leaf [] []

/-- An absent flag is a flag that says no. -/
def wordsLayer (vs : CommandLine.Values) : Layer :=
  ⟨(vs.text? "log-filter").map .text, some (.truth (vs.has "pretty"))⟩

/-- A variable of the tool that cannot be read spoils the environment, whatever it sets. -/
def environmentLayer (sources : Sources) : Except SettingsError Layer := do
  let named := sources.environment.filterMap fun (name, s) => (Variable.path? name).map fun path => (path, s)
  let entries ← named.mapM fun (path, s) =>
    match Variable.read s with
    | some v => .ok (path, v)
    | none => .error .torn
  let last (name : String) := (entries.filterMap fun (path, v) => part name v path).getLast?
  return ⟨last filterName, last prettyName⟩

/-- What the text of a settings file says, if it can be used. -/
abbrev FileReader := String → Option Layer

/-- Reads the text by itself, whatever other files there are. -/
def readAlone : FileReader := fun s => do
  let fields ← File.parse? s
  let valueOf (name : String) := (fields.lookup name).map File.Item.toValue
  return ⟨valueOf filterName, valueOf prettyName⟩

def fileLayer (read : FileReader) (sources : Sources) : Except SettingsError Layer :=
  match sources.file with
  | none => .ok ⟨none, none⟩
  | some .unreadable => .error .file
  | some (.text s) =>
    match read s with
    | some layer => .ok layer
    | none => .error .file

/-- The settings, if the file is read by `read`. -/
def resolveWith (read : FileReader) (i : CommandLine.Invocation) (sources : Sources) :
    Except SettingsError Settings := do
  let environment ← environmentLayer sources
  let file ← fileLayer read sources
  match level.values (words i) with
  | .error e => .error (.words e)
  | .ok vs => ((wordsLayer vs).or (environment.or (file.or .defaults))).settings

def resolve : CommandLine.Invocation → Sources → Except SettingsError Settings := resolveWith readAlone

end Settings

end ChainQuery
