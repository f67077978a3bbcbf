/-
  ChainQuery.CommandLine.Run — one run of the tool, from its words to what it prints.

  The words are parsed, the settings resolved, then the action is carried out and its
  document put out. A failure carries its message and the causes below it, the
  outermost first.

  As a process, the tool ends with 0 after its output, 1 after a failure, which it
  reports with its causes, 2 when the words are at fault, and 101 when it gives up
  on a text that would be cut inside a character. The log filter is read before the
  action is carried out; the events that it shows go to the log.
-/

import ChainQuery.Document
import ChainQuery.LogFilter
import ChainQuery.Session
import ChainQuery.Settings.Resolve
import ChainQuery.Text.Control

namespace ChainQuery.CommandLine

/-- An argument that is bytes in hexadecimal. -/
inductive HexArgument where
  | transaction
  | bits
  | reply
  deriving DecidableEq, Repr

def HexArgument.name : HexArgument → String
  | .transaction => "transaction"
  | .bits => "prefix"
  | .reply => "reply payload"

inductive Failure where
  | usage (e : UsageError)
  | settings (e : SettingsError)
  | logFilter (text : String) (e : LogFilterError)
  | hex (what : HexArgument) (e : HexError)
  | transaction (e : ConsensusError)
  | prefixTooLong (e : PrefixTooLong)
  /-- A header is asked for, and neither its height nor its hash is said. -/
  | noLocator
  | malformedResponse (command : Command) (e : DecodeError)
  deriving DecidableEq, Repr

/-- The name and the version of the tool. -/
def versionText : String := "obelisk-wire 0.1.0"

/-- What is said about a text that is no value of its argument: one line, and nothing of the text that a
terminal would act on. -/
def validationLine (value shown why : String) : String :=
  let value := String.ofList (Text.shown value.toList)
  String.ofList (Text.firstLine ("error: invalid value '" ++ value ++ "' for '" ++ shown ++ "': " ++ why).toList)

/-- The message, where there is one. -/
def UsageError.message? : UsageError → Option String
  | .version => some versionText
  | .validation value shown why => some (validationLine value shown why)
  | _ => none

/-- The message and its causes. -/
def Failure.chain : Failure → List String
  | .usage e => e.message?.toList
  | .settings _ => ["failed to load configuration"]
  | .logFilter text e => ("invalid log filter " ++ Text.quote text) :: e.chain
  | .hex what e => [what.name ++ " is not valid hex", e.message]
  | .transaction e => "transaction does not decode" :: e.message :: e.causes
  | .prefixTooLong e => [e.message]
  | .noLocator => ["either --height or --hash is required"]
  | .malformedResponse command e =>
    (CallError.malformedResponse command e).message :: e.message :: e.causes

def Failure.message (f : Failure) : String := ": ".intercalate f.chain

/-! ## Carrying out an action -/

def parseHex (what : HexArgument) (s : String) : Except Failure Bytes :=
  match Hex.decode s with
  | .ok bs => .ok bs
  | .error e => .error (.hex what e)

def parseTransaction (s : String) : Except Failure Transaction := do
  let bs ← parseHex .transaction s
  match Transaction.decode.whole bs with
  | .ok tx => .ok tx
  | .error e => .error (.transaction e)

def parsePrefix (bits : UInt64) (s : String) : Except Failure Prefix := do
  let bs ← parseHex .bits s
  return Prefix.ofBytes bits bs

def checked (r : Except PrefixTooLong Request) : Except Failure Request :=
  match r with
  | .ok r => .ok r
  | .error e => .error (.prefixTooLong e)

def locator : Option UInt32 → Option Hash → Except Failure HeaderLocator
  | some n, _ => .ok (.height n)
  | none, some h => .ok (.hash h)
  | none, none => .error .noLocator

def RequestAction.build : RequestAction → Except Failure Request
  | .broadcastTransaction hex => return Request.broadcastTransaction (← parseTransaction hex)
  | .validateTransaction hex => return Request.validateTransaction (← parseTransaction hex)
  | .poolFetchTransaction h => return Request.poolFetchTransaction h
  | .fetchTransaction h => return Request.fetchTransaction h
  | .fetchLastHeight => return Request.fetchLastHeight
  | .fetchBlockHeader height hash => return Request.fetchBlockHeader (← locator height hash)
  | .fetchTransactionIndex h => return Request.fetchTransactionIndex h
  | .fetchStealth bits hex fromHeight => do checked (Request.fetchStealth (← parsePrefix bits hex) fromHeight)
  | .fetchHistory a fromHeight v => return v.request a fromHeight
  | .subscribe kind bits hex => do checked (Request.subscribe kind (← parsePrefix bits hex))
  | .subscribeAddress a => return Request.subscribeAddress a
  | .renew kind bits hex => do checked (Request.renew kind (← parsePrefix bits hex))

/-- The document that an action prints, and the events on the way. -/
def Action.perform : Action → Except Failure (Traced Json)
  | .request action => do
    let r ← action.build
    return ⟨r.toJson, [.encodedRequest r.command r.payload.length]⟩
  | .decode command hex => do
    let bs ← parseHex .reply hex
    let t := Reply.decode command bs
    match t.value with
    | .ok reply => return ⟨reply.toJson, t.events⟩
    | .error e => .error (.malformedResponse command e)
  | .commands => return .silent (.array (Command.all.map Command.toJson))

def layoutOf (s : Settings) : Json.Layout := if s.indented then .indented else .compact

def resolve (words : List String) (sources : Sources) : Except Failure (Invocation × Settings) :=
  match Invocation.parse words with
  | .error e => .error (.usage e)
  | .ok i =>
    match Settings.resolve i sources with
    | .error e => .error (.settings e)
    | .ok s => .ok (i, s)

/-- An action under way: what has been put out so far goes along, and is not taken back by a failure. -/
abbrev Execution := ExceptT Failure (StateM String)

/-- One document and the end of its line, after what is in the output. -/
def emit (s : Settings) (doc : Json) : Execution Unit := modify (· ++ doc.print (layoutOf s))

/-- Puts the action's document out; the events on the way. -/
def execute (a : Action) (s : Settings) : Execution (List Event) := do
  let t ← a.perform
  emit s t.value
  return t.events

structure Output where
  settings : Settings
  stdout : String
  events : List Event

def run (words : List String) (sources : Sources) : Except Failure Output := do
  let (i, s) ← resolve words sources
  let (result, stdout) := (execute i.action s).run ""
  return ⟨s, stdout, ← result⟩

/-! ## As a process -/

structure Exit where
  code : UInt8
  stdout : String
  stderr : String
  /-- Lines of the log, without the time. -/
  log : List String
  deriving DecidableEq, Repr

/-- A cause, further lines of which are indented like its first one. -/
def causeLines (label indent cause : String) : List String :=
  match (Text.pieces '\n' cause.toList).map String.ofList with
  | [] => []
  | first :: more => (label ++ first) :: more.map (indent ++ ·)

/-- The causes of a failure, numbered if there are several. -/
def causesLines : List String → List String
  | [] => []
  | [cause] => "" :: "Caused by:" :: causeLines "    " "    " cause
  | causes =>
    "" :: "Caused by:" ::
      (causes.mapIdx fun i cause => causeLines ("    " ++ Nat.repr i ++ ": ") "       " cause).flatten

def reportText (f : Failure) : String :=
  match f.chain with
  | [] => ""
  | message :: causes =>
    String.join ((("Error: " ++ message) :: causesLines causes).map fun line => line ++ "\n")

def usageExit : UsageError → Exit
  | .help => ⟨0, "Usage: obelisk-wire [OPTIONS] <COMMAND>\n", "", []⟩
  | .version => ⟨0, versionText ++ "\n", "", []⟩
  | e => ⟨2, "", e.message?.getD "error: invalid arguments" ++ "\n", []⟩

/-- The end of a run that cannot go on. -/
def abandoned : Exit := ⟨101, "", "error: a text cannot be cut inside a character\n", []⟩

def failureExit : Failure → Exit
  | .usage e => usageExit e
  | .settings .torn => abandoned
  | .logFilter _ .torn => abandoned
  | f => ⟨1, "", reportText f, []⟩

def readFilter (s : Settings) : Except Failure LogFilter :=
  match LogFilter.parse s.logFilter with
  | .ok filter => .ok filter
  | .error e => .error (.logFilter s.logFilter e)

/-- What a run needs before it can carry out its action. -/
def prepare (words : List String) (sources : Sources) : Except Failure (Invocation × Settings × LogFilter) := do
  let (i, s) ← resolve words sources
  return (i, s, ← readFilter s)

def process (words : List String) (sources : Sources) : Exit :=
  match prepare words sources with
  | .error f => failureExit f
  | .ok (i, s, filter) =>
    match (execute i.action s).run "" with
    | (.ok events, stdout) => ⟨0, stdout, "", (events.filter filter.shows).map Event.line⟩
    | (.error f, stdout) => ⟨1, stdout, reportText f, []⟩

end ChainQuery.CommandLine
