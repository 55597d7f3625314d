/-
This file says what a command line asks for: a job with its settings, a page of help, or the
version. The tokens count in their order, and the first one that is wrong or that asks for help
or the version decides.
-/

import CodeAtlas.Command.Token
import CodeAtlas.Report.Format
import CodeAtlas.Options
import CodeAtlas.Text.Numeral

namespace CodeAtlas.Command

/-! ### Settings -/

/-- The settings that every job has. -/
structure SharedSettings where
  verbose : Bool := false
  /-- The configuration file, or the directory with it. -/
  config : Option String := none
  /-- The directory for logs. -/
  logDirectory : Option String := none
deriving DecidableEq, Repr

/-- The settings of an analysis, each of which goes before what the configuration says. -/
structure AnalyzeSettings where
  /-- The directory to be analyzed. -/
  root : Option String := none
  format : Option Format := none
  /-- The file that the report is written to. -/
  output : Option String := none
  granularity : Option Granularity := none
  includePrivate : Bool := false
  noDocs : Bool := false
  noSignatures : Bool := false
  workers : Option Nat := none
  maxDepth : Option UInt64 := none
deriving DecidableEq, Repr

/-- A job. -/
inductive Job where
  /-- Analyze a directory and report on it. -/
  | analyze (settings : AnalyzeSettings)
  /-- Write a fresh configuration file, if need be over another one. -/
  | init (force : Bool)
deriving DecidableEq, Repr

/-- A job with the settings that every job has. -/
structure Invocation where
  shared : SharedSettings
  job : Job
deriving DecidableEq, Repr

/-- What a command line asks for if not for a job. -/
inductive Reply where
  | help (scope : Scope)
  | version
  | misuse (error : UsageError)
deriving DecidableEq, Repr

/-- Settings in which those of the outer scope stand wherever the inner one says nothing. -/
def SharedSettings.over (inner outer : SharedSettings) : SharedSettings where
  verbose := inner.verbose || outer.verbose
  config := inner.config.or outer.config
  logDirectory := inner.logDirectory.or outer.logDirectory

/-! ### Values -/

/-- A path, which is not empty. -/
def path? (text : String) : Option String :=
  if text.isEmpty then none else some text

/-- A format by its exact name. -/
def format? (text : String) : Option Format :=
  [Format.markdown, Format.json].find? fun format => format.name = text

/-- A granularity in any case. -/
def granularity? (text : String) : Option Granularity :=
  (Granularity.parse text).toOption

/-! ### Reading the tokens of a scope -/

/-- What the tokens of a scope have said so far. -/
structure Said where
  shared : SharedSettings := {}
  analyze : AnalyzeSettings := {}
  force : Bool := false
  /-- The switches that were written. -/
  switches : List Switch := []
deriving DecidableEq, Repr

namespace Said

/-- Takes account of a switch without a value. -/
def raise (said : Said) : Switch → Said
  | .verbose => { said with shared.verbose := true }
  | .includePrivate => { said with analyze.includePrivate := true }
  | .noDocs => { said with analyze.noDocs := true }
  | .noSignatures => { said with analyze.noSignatures := true }
  | .force => { said with force := true }
  | _ => said

/-- Takes account of a switch with a value, unless the switch does not admit it. -/
def give? (said : Said) (text : String) : Switch → Option Said
  | .config => (path? text).map fun path => { said with shared.config := some path }
  | .logDirectory => (path? text).map fun path => { said with shared.logDirectory := some path }
  | .output => (path? text).map fun path => { said with analyze.output := some path }
  | .format => (format? text).map fun format => { said with analyze.format := some format }
  | .granularity =>
    (granularity? text).map fun granularity =>
      { said with analyze.granularity := some granularity }
  | .jobs =>
    (Text.word64? text.toList).map fun count => { said with analyze.workers := some count }
  | .maxDepth =>
    (Text.word64? text.toList).map fun depth =>
      { said with analyze.maxDepth := some (UInt64.ofNat depth) }
  | _ => none

/-- Takes account of a switch being written, which it may be once. -/
def write (said : Said) (switch : Switch) : Except Reply Said :=
  if switch ∈ said.switches then .error (.misuse (.repeated switch))
  else .ok { said with switches := switch :: said.switches }

/-- Takes account of a word. Only an analysis has a place for one. -/
def word (said : Said) (scope : Scope) (text : String) : Except Reply Said :=
  if scope = .analyze ∧ said.analyze.root = none then
    match path? text with
    | some path => .ok { said with analyze.root := some path }
    | none => .error (.misuse .emptyPath)
  else .error (.misuse (.unexpectedWord text))

/-- Takes account of a token that does not open a scope. -/
def accept (said : Said) (scope : Scope) : Token → Except Reply Said
  | .flag .help => .error (.help scope)
  | .flag .version => .error .version
  | .flag switch => do return (← said.write switch).raise switch
  | .value switch text => do
    match (← said.write switch).give? text switch with
    | some next => return next
    | none => .error (.misuse (.invalidValue switch text))
  | .word text => said.word scope text
  | .command command _ => .error (.misuse (.unexpectedWord command.name))
  | .wrong error => .error (.misuse error)

/-- What the tokens of a scope say, with the scope that is opened last and its arguments. -/
def ofTokens (scope : Scope) (said : Said) :
    List Token → Except Reply (Said × Option (Scope × List String))
  | [] => .ok (said, none)
  | .command command arguments :: _ => .ok (said, some (command, arguments))
  | token :: tokens => do ofTokens scope (← said.accept scope token) tokens

end Said

/-! ### Command lines -/

/-- The page of help that some words ask for. -/
def helpOn : List String → Reply
  | [] => .help .top
  | [word] =>
    match Scope.top.command? word with
    | some scope => .help scope
    | none => .misuse (.unexpectedWord word)
  | word :: next :: _ =>
    if (Scope.top.command? word).isSome then .misuse (.unexpectedWord next)
    else .misuse (.unexpectedWord word)

/-- The directory for logs that the environment names, if it does. -/
def logDirectoryOf (environment : Environment) : Except Reply (Option String) :=
  match environment.logDirectory with
  | none => .ok none
  | some text =>
    match path? text with
    | some path => .ok (some path)
    | none => .error (.misuse (.invalidValue .logDirectory text))

/-- Reads the arguments of a command, after what was said before it. -/
def Invocation.ofCommand (environment : Environment) (outer : SharedSettings) (scope : Scope)
    (arguments : List String) (job : Said → Job) : Except Reply Invocation := do
  let (said, _) ← Said.ofTokens scope {} (tokens scope arguments)
  let named := { logDirectory := ← logDirectoryOf environment : SharedSettings }
  return { shared := (said.shared.over outer).over named, job := job said }

/-- Reads a command line. -/
def Invocation.parse (environment : Environment) (line : List String) :
    Except Reply Invocation := do
  let (said, command) ← Said.ofTokens .top {} (tokens .top line)
  match command with
  | some (.analyze, arguments) =>
    ofCommand environment said.shared .analyze arguments fun inner => .analyze inner.analyze
  | some (.init, arguments) =>
    ofCommand environment said.shared .init arguments fun inner => .init inner.force
  | some (.help, words) => .error (helpOn words)
  | some (.top, _) | none => .error (.misuse .missingCommand)

end CodeAtlas.Command
