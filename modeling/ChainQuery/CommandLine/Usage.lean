/-
  ChainQuery.CommandLine.Usage — how arguments are taken from a list of words, one
  level of commands at a time.

  A level has options, positional arguments or subcommands, and always a help flag.
  - A word that begins with a dash is an option or a mistake, never a value; a single
    dash is an ordinary word. A value follows its option or is attached to it by an
    equals sign.
  - After a double dash every word is positional, and the name of a subcommand has no
    business there.
  - Of one-letter flags in a row the first one counts.
  - An argument that has its value waits until the next one is met or the words end,
    and only then is looked at: given twice is a conflict, then its text must be a
    value of its kind. A word that fits nowhere is reported before the argument
    waiting.
  - A subcommand takes all the words after it, and its mistakes come before those
    that its parent still has to find.
-/

import ChainQuery.CommandLine.Argument

namespace ChainQuery.CommandLine

structure Argument where
  name : String
  /-- As it is shown in a report. -/
  shown : String
  /-- A flag has none. -/
  kind : Option ArgumentKind
  deriving DecidableEq, Repr

def Argument.flag (name : String) : Argument := ⟨name, "--" ++ name, none⟩

/-- An option whose value is called `value`. -/
def Argument.option (name value : String) (kind : ArgumentKind) : Argument :=
  ⟨name, "--" ++ name ++ " <" ++ value ++ ">", some kind⟩

def Argument.positional (name : String) (kind : ArgumentKind) : Argument :=
  ⟨name, "<" ++ name ++ ">", some kind⟩

/-- What is wrong with the arguments, or what they ask for instead of work. -/
inductive UsageError where
  | unknownArgument
  | invalidSubcommand
  | missingArgument
  /-- Nothing at all where a subcommand should be. -/
  | nothingGiven
  /-- Options, but no subcommand. -/
  | missingSubcommand
  /-- An option without its value, or a word that is not listed. -/
  | invalidValue
  | conflict
  /-- A value given to a flag. -/
  | tooManyValues
  | help
  | version
  | validation (value : String) (shown : String) (why : String)
  deriving DecidableEq, Repr

structure Grammar (σ : Type) where
  options : List Argument
  positionals : List Argument
  subcommands : List (String × σ)
  hasVersion : Bool

/-- Values by the name of their argument. -/
abbrev Values := List (String × ArgumentValue)

namespace Values

def get? (vs : Values) (name : String) : Option ArgumentValue := vs.lookup name

def has (vs : Values) (name : String) : Bool := (vs.get? name).isSome

def text? (vs : Values) (name : String) : Option String :=
  match vs.get? name with
  | some (.text s) => some s
  | _ => none

end Values

/-- An argument that was met, with its text once that was met too. -/
structure Waiting where
  argument : Argument
  kind : ArgumentKind
  text : Option String
  deriving DecidableEq, Repr

structure Progress where
  values : Values
  waiting : Option Waiting
  /-- The positional arguments still to come. -/
  positionals : List Argument
  /-- Whether a double dash was met. -/
  literal : Bool
  deriving DecidableEq, Repr

namespace Progress

/-- Take `a` with the text `s`. -/
def take (p : Progress) (a : Argument) (kind : ArgumentKind) (s : String) : Except UsageError Progress :=
  if p.values.has a.name then .error .conflict
  else
    match kind.read s with
    | .ok v => .ok { p with values := p.values ++ [(a.name, v)] }
    | .error fault =>
      match fault.message? with
      | some why => .error (.validation s a.shown why)
      | none => .error .invalidValue

/-- Look at the argument that waits. -/
def resolve (p : Progress) : Except UsageError Progress :=
  match p.waiting with
  | none => .ok p
  | some ⟨_, _, none⟩ => .error .invalidValue
  | some ⟨a, kind, some s⟩ => { p with waiting := none }.take a kind s

/-- Whether the next word is the value of an option. -/
def wantsValue (p : Progress) : Bool :=
  !p.literal && p.waiting.any fun w => w.text.isNone

/-- Stop with `e`, unless what waits is at fault. -/
def stop (p : Progress) (e : UsageError) : Except UsageError Progress := do
  let _ ← p.resolve
  .error e

def meet (p : Progress) (a : Argument) (kind : ArgumentKind) (s : Option String) : Except UsageError Progress := do
  let p ← p.resolve
  return { p with waiting := some ⟨a, kind, s⟩ }

end Progress

/-- What a word leads to. -/
inductive Step (σ : Type) where
  | next (p : Progress)
  | enter (command : σ)
  /-- The subcommand that explains the others. -/
  | helpCommand

namespace Grammar

variable {σ : Type} (g : Grammar σ)

def start : Progress := ⟨[], none, g.positionals, false⟩

/-- Whether `s` names a subcommand, or the one that explains the others. -/
def isSubcommand (s : String) : Bool :=
  !g.subcommands.isEmpty && (s = "help" || (g.subcommands.lookup s).isSome)

/-- A word that is no option. -/
def word (p : Progress) (s : String) : Except UsageError Progress :=
  if p.wantsValue then .ok { p with waiting := p.waiting.map fun w => { w with text := some s } }
  else
    match p.positionals with
    | a :: rest => do
      let p ← p.meet a (a.kind.getD .text) (some s)
      return { p with positionals := rest }
    | [] =>
      .error (if g.subcommands.isEmpty || (p.literal && g.isSubcommand s) then .unknownArgument
        else .invalidSubcommand)

/-- An option by its name, with the value attached to it, if any. -/
def long (p : Progress) (name : String) (attached : Option String) : Except UsageError Progress :=
  match g.options.find? (·.name = name) with
  | some a =>
    match a.kind, attached with
    | some kind, some s => do
      let p ← p.resolve
      p.take a kind s
    | some kind, none => p.meet a kind none
    | none, some _ => .error .tooManyValues
    | none, none => do
      let p ← p.resolve
      if p.values.has a.name then .error .conflict else return { p with values := p.values ++ [(a.name, .flag)] }
  | none =>
    let asked := if name = "help" then some UsageError.help
      else if name = "version" && g.hasVersion then some .version else none
    match asked, attached with
    | some e, none => p.stop e
    | some _, some _ => .error .tooManyValues
    | none, _ => .error .unknownArgument

/-- What a one-letter flag asks for. -/
def short? (c : Char) : Option UsageError :=
  if c = 'h' then some .help else if c = 'V' && g.hasVersion then some .version else none

/-- One-letter flags in a row, from the first one. -/
def shorts (p : Progress) (c : Char) : Except UsageError Progress :=
  match g.short? c with
  | some asked => p.stop asked
  | none => .error .unknownArgument

def step (p : Progress) (s : String) : Except UsageError (Step σ) :=
  if p.literal then (g.word p s).map .next
  else
    match if p.wantsValue then none else g.subcommands.lookup s with
    | some command => .ok (.enter command)
    | none =>
      if !p.wantsValue && !g.subcommands.isEmpty && s = "help" then .ok .helpCommand
      else
        match s.toList with
        | ['-', '-'] => .ok (.next { p with literal := true })
        | '-' :: '-' :: cs =>
          let name := cs.takeWhile (· ≠ '=')
          let attached := match cs.dropWhile (· ≠ '=') with
            | [] => none
            | _ :: value => some (String.ofList value)
          (g.long p (String.ofList name) attached).map .next
        | '-' :: c :: _ => (g.shorts p c).map .next
        | _ => (g.word p s).map .next

/-- Where the words of a level lead: to their end, or to a subcommand and the words after it. -/
inductive Destination (σ : Type) where
  | ended
  | subcommand (command : σ) (words : List String)
  | helpCommand (words : List String)

def scan (p : Progress) : List String → Except UsageError (Progress × Destination σ)
  | [] => .ok (p, .ended)
  | s :: rest =>
    match g.step p s with
    | .error e => .error e
    | .ok (.next p) => scan p rest
    | .ok (.enter command) => .ok (p, .subcommand command rest)
    | .ok .helpCommand => .ok (p, .helpCommand rest)

/-- The values of a level without subcommands. -/
def values (words : List String) : Except UsageError Values := do
  let (p, _) ← g.scan g.start words
  return (← p.resolve).values

end Grammar

end ChainQuery.CommandLine
