/-
  ChainQuery.CommandLine.Invocation — what a command line asks the tool to do.

  The tool encodes one request, decodes one reply, or lists the commands. The log
  filter and the choice of layout can be given at every level; the innermost counts.
-/

import ChainQuery.CommandLine.Usage

namespace ChainQuery.CommandLine

inductive RequestAction where
  | broadcastTransaction (hex : String)
  | validateTransaction (hex : String)
  | poolFetchTransaction (h : Hash)
  | fetchTransaction (h : Hash)
  | fetchLastHeight
  | fetchBlockHeader (height : Option UInt32) (hash : Option Hash)
  | fetchTransactionIndex (h : Hash)
  | fetchStealth (bits : UInt64) (hex : String) (fromHeight : UInt32)
  | fetchHistory (a : Address) (fromHeight : UInt32) (v : HistoryVariant)
  | subscribe (kind : SubscribeKind) (bits : UInt64) (hex : String)
  | subscribeAddress (a : Address)
  | renew (kind : SubscribeKind) (bits : UInt64) (hex : String)
  deriving DecidableEq, Repr

inductive Action where
  | request (r : RequestAction)
  | decode (c : Command) (hex : String)
  | commands
  deriving DecidableEq, Repr

structure Invocation where
  logFilter : Option String
  indented : Bool
  action : Action
  deriving DecidableEq, Repr

/-! ## The levels -/

inductive RequestName where
  | broadcastTransaction
  | validateTransaction
  | poolFetchTransaction
  | fetchTransaction
  | fetchLastHeight
  | fetchBlockHeader
  | fetchTransactionIndex
  | fetchStealth
  | fetchHistory
  | subscribe
  | subscribeAddress
  | renew
  deriving DecidableEq, Repr

inductive TopName where
  | request
  | decode
  | commands
  deriving DecidableEq, Repr

/-- Taken at every level. -/
def globalOptions : List Argument := [.option "log-filter" "LOG_FILTER" .text, .flag "pretty"]

def topLevel : Grammar TopName :=
  { options := globalOptions
    positionals := []
    subcommands := [("request", .request), ("decode", .decode), ("commands", .commands)]
    hasVersion := true }

def requestLevel : Grammar RequestName :=
  { options := globalOptions
    positionals := []
    subcommands := [
      ("broadcast-transaction", .broadcastTransaction),
      ("validate-transaction", .validateTransaction),
      ("pool-fetch-transaction", .poolFetchTransaction),
      ("fetch-transaction", .fetchTransaction),
      ("fetch-last-height", .fetchLastHeight),
      ("fetch-block-header", .fetchBlockHeader),
      ("fetch-transaction-index", .fetchTransactionIndex),
      ("fetch-stealth", .fetchStealth),
      ("fetch-history", .fetchHistory),
      ("subscribe", .subscribe),
      ("subscribe-address", .subscribeAddress),
      ("renew", .renew)]
    hasVersion := false }

def leaf (positionals : List Argument) (options : List Argument) : Grammar Empty :=
  { options := options ++ globalOptions, positionals, subcommands := [], hasVersion := false }

def decodeLevel : Grammar Empty := leaf [.positional "COMMAND" .command, .positional "PAYLOAD" .text] []

def fromHeight : Argument := .option "from-height" "FROM_HEIGHT" .height

/-- Kind, bit count and bytes of a subscription. -/
def subscriptionArguments : List Argument :=
  [.positional "KIND" .subscription, .positional "BITS" .bitCount, .positional "PREFIX" .text]

def RequestName.level : RequestName → Grammar Empty
  | .broadcastTransaction => leaf [.positional "TRANSACTION" .text] []
  | .validateTransaction => leaf [.positional "TRANSACTION" .text] []
  | .poolFetchTransaction => leaf [.positional "HASH" .hash] []
  | .fetchTransaction => leaf [.positional "HASH" .hash] []
  | .fetchLastHeight => leaf [] []
  | .fetchBlockHeader => leaf [] [.option "height" "HEIGHT" .height, .option "hash" "HASH" .hash]
  | .fetchTransactionIndex => leaf [.positional "HASH" .hash] []
  | .fetchStealth => leaf [.positional "BITS" .bitCount, .positional "PREFIX" .text] [fromHeight]
  | .fetchHistory =>
    leaf [.positional "ADDRESS" .address] [fromHeight, .option "variant" "VARIANT" .variant]
  | .subscribe => leaf subscriptionArguments []
  | .subscribeAddress => leaf [.positional "ADDRESS" .address] []
  | .renew => leaf subscriptionArguments []

/-! ## From values to actions -/

namespace Values

def hash (vs : Values) (name : String) : Except UsageError Hash :=
  match vs.get? name with
  | some (.hash h) => .ok h
  | _ => .error .missingArgument

def text (vs : Values) (name : String) : Except UsageError String :=
  match vs.get? name with
  | some (.text s) => .ok s
  | _ => .error .missingArgument

def bitCount (vs : Values) : Except UsageError UInt64 :=
  match vs.get? "BITS" with
  | some (.bitCount n) => .ok n
  | _ => .error .missingArgument

def address (vs : Values) : Except UsageError Address :=
  match vs.get? "ADDRESS" with
  | some (.address a) => .ok a
  | _ => .error .missingArgument

def command (vs : Values) : Except UsageError Command :=
  match vs.get? "COMMAND" with
  | some (.command c) => .ok c
  | _ => .error .missingArgument

def subscription (vs : Values) : Except UsageError SubscribeKind :=
  match vs.get? "KIND" with
  | some (.subscription k) => .ok k
  | _ => .error .missingArgument

/-- The lowest height there is, unless one is given. -/
def fromHeight (vs : Values) : UInt32 :=
  match vs.get? "from-height" with
  | some (.height n) => n
  | _ => 0

def variant (vs : Values) : HistoryVariant :=
  match vs.get? "variant" with
  | some (.variant v) => v
  | _ => .current

def height? (vs : Values) : Option UInt32 :=
  match vs.get? "height" with
  | some (.height n) => some n
  | _ => none

def hash? (vs : Values) : Option Hash :=
  match vs.get? "hash" with
  | some (.hash h) => some h
  | _ => none

/-- A header is asked for by a height or a hash, and not by both. -/
def blockHeader (vs : Values) : Except UsageError RequestAction :=
  match vs.has "height", vs.has "hash" with
  | true, true => .error .conflict
  | false, false => .error .missingArgument
  | _, _ => .ok (.fetchBlockHeader vs.height? vs.hash?)

def requestAction (vs : Values) : RequestName → Except UsageError RequestAction
  | .broadcastTransaction => return .broadcastTransaction (← vs.text "TRANSACTION")
  | .validateTransaction => return .validateTransaction (← vs.text "TRANSACTION")
  | .poolFetchTransaction => return .poolFetchTransaction (← vs.hash "HASH")
  | .fetchTransaction => return .fetchTransaction (← vs.hash "HASH")
  | .fetchLastHeight => return .fetchLastHeight
  | .fetchBlockHeader => vs.blockHeader
  | .fetchTransactionIndex => return .fetchTransactionIndex (← vs.hash "HASH")
  | .fetchStealth => return .fetchStealth (← vs.bitCount) (← vs.text "PREFIX") vs.fromHeight
  | .fetchHistory => return .fetchHistory (← vs.address) vs.fromHeight vs.variant
  | .subscribe => return .subscribe (← vs.subscription) (← vs.bitCount) (← vs.text "PREFIX")
  | .subscribeAddress => return .subscribeAddress (← vs.address)
  | .renew => return .renew (← vs.subscription) (← vs.bitCount) (← vs.text "PREFIX")

def decodeAction (vs : Values) : Except UsageError Action := return .decode (← vs.command) (← vs.text "PAYLOAD")

end Values

/-! ## The whole line -/

/-- What a level settles besides its action. -/
structure Globals where
  logFilter : Option String
  indented : Bool
  deriving DecidableEq, Repr

def Globals.ofValues (vs : Values) : Globals := ⟨vs.text? "log-filter", vs.has "pretty"⟩

/-- What an inner level settles comes before what the level around it does. -/
def Globals.within (outer inner : Globals) : Globals :=
  ⟨inner.logFilter.or outer.logFilter, inner.indented || outer.indented⟩

/-- The end of a level that still needs a subcommand. -/
def unfinished (p : Progress) : UsageError :=
  match p.resolve with
  | .error e => e
  | .ok p => if p.values.isEmpty then .nothingGiven else .missingSubcommand

/-- What the help command says to the words after it: they must name one level after another. -/
def requestHelp : List String → UsageError
  | [] => .help
  | [s] => if (requestLevel.subcommands.lookup s).isSome || s = "help" then .help else .invalidSubcommand
  | _ => .invalidSubcommand

def topHelp : List String → UsageError
  | [] => .help
  | s :: rest =>
    match topLevel.subcommands.lookup s with
    | some .request => requestHelp rest
    | some _ => if rest.isEmpty then .help else .invalidSubcommand
    | none => if s = "help" && rest.isEmpty then .help else .invalidSubcommand

def leafAction {α : Type} (g : Grammar Empty) (words : List String) (f : Values → Except UsageError α) :
    Except UsageError (Globals × α) := do
  let vs ← g.values words
  return (Globals.ofValues vs, ← f vs)

def parseRequest (words : List String) : Except UsageError (Globals × RequestAction) := do
  let (p, destination) ← requestLevel.scan requestLevel.start words
  match destination with
  | .ended => .error (unfinished p)
  | .helpCommand rest => .error (requestHelp rest)
  | .subcommand name rest =>
    let (inner, action) ← leafAction name.level rest fun vs => vs.requestAction name
    let p ← p.resolve
    return ((Globals.ofValues p.values).within inner, action)

/-- The action of a subcommand from the words after it. -/
def TopName.parse (name : TopName) (words : List String) : Except UsageError (Globals × Action) :=
  match name with
  | .request => do
    let (globals, action) ← parseRequest words
    return (globals, .request action)
  | .decode => leafAction decodeLevel words Values.decodeAction
  | .commands => leafAction (leaf [] []) words fun _ => .ok .commands

def Invocation.parse (words : List String) : Except UsageError Invocation := do
  let (p, destination) ← topLevel.scan topLevel.start words
  match destination with
  | .ended => .error (unfinished p)
  | .helpCommand rest => .error (topHelp rest)
  | .subcommand name rest =>
    let (inner, action) ← name.parse rest
    let p ← p.resolve
    let globals := (Globals.ofValues p.values).within inner
    return ⟨globals.logFilter, globals.indented, action⟩

end ChainQuery.CommandLine
