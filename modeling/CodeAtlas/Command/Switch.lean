/-
This file names what can stand on a command line. There is a scope before any command and one
after each of the commands; in every scope some switches may be written, with two dashes and a
name or with one dash and a letter. Some switches take a value.
-/

namespace CodeAtlas.Command

/-! ### The environment -/

/-- What the program is told apart from its command line. -/
structure Environment where
  /-- The directory for logs. -/
  logDirectory : Option String := none
deriving DecidableEq, Repr

/-! ### Switches -/

/-- A switch. -/
inductive Switch where
  | verbose
  | config
  | logDirectory
  | format
  | output
  | granularity
  | includePrivate
  | noDocs
  | noSignatures
  | jobs
  | maxDepth
  | force
  | help
  | version
deriving DecidableEq, Repr

namespace Switch

/-- The name that is written after two dashes. -/
def name : Switch → String
  | verbose => "verbose"
  | config => "config"
  | logDirectory => "log-dir"
  | format => "format"
  | output => "output"
  | granularity => "granularity"
  | includePrivate => "include-private"
  | noDocs => "no-docstrings"
  | noSignatures => "no-signatures"
  | jobs => "jobs"
  | maxDepth => "max-depth"
  | force => "force"
  | help => "help"
  | version => "version"

/-- The letter that is written after one dash. -/
def letter? : Switch → Option Char
  | verbose => some 'v'
  | output => some 'o'
  | jobs => some 'j'
  | help => some 'h'
  | version => some 'V'
  | _ => none

/-- What stands for the value of a switch that takes one. -/
def valueName? : Switch → Option String
  | config => some "CONFIG"
  | logDirectory => some "LOG_DIR"
  | format => some "FORMAT"
  | output => some "OUTPUT"
  | granularity => some "GRANULARITY"
  | jobs => some "JOBS"
  | maxDepth => some "MAX_DEPTH"
  | _ => none

/-- Whether a switch takes a value. -/
def takesValue (switch : Switch) : Bool :=
  switch.valueName?.isSome

/-- What a switch does. -/
def purpose (environment : Environment) : Switch → String
  | verbose => "Enable verbose logging"
  | config => "Path to .codemap directory (default: search for .codemap/config.toml)"
  | logDirectory =>
    "Write logs to daily rolling files in this directory instead of stderr [env: CODEMAP_LOG_DIR=" ++
      environment.logDirectory.getD "" ++ "]"
  | format => "Output format [possible values: markdown, json]"
  | output => "Write the report to this file instead of stdout"
  | granularity => "Extraction depth"
  | includePrivate => "Keep `_private` classes, functions and methods"
  | noDocs => "Skip doc text extraction"
  | noSignatures => "Skip parameter and return-type extraction"
  | jobs => "Worker threads for extraction"
  | maxDepth => "Maximum directory depth to traverse (default: 10)"
  | force => "Force overwrite existing config"
  | help => "Print help"
  | version => "Print version"

end Switch

/-! ### Scopes -/

/-- A part of the command line: what stands before a command, or after one. -/
inductive Scope where
  | top
  | analyze
  | init
  | help
deriving DecidableEq, Repr

namespace Scope

/-- The word that opens a scope. -/
def name : Scope → String
  | top => "codemap"
  | analyze => "analyze"
  | init => "init"
  | help => "help"

/-- What is done in a scope. -/
def purpose : Scope → String
  | top => "Map the structure and relationships of a polyglot source tree"
  | analyze => "Analyze a source tree and print its code map"
  | init => "Initialize a new .codemap directory with config file"
  | help => "Print this message or the help of the given subcommand(s)"

/-- The scopes that can be opened in a scope. -/
def commands : Scope → List Scope
  | top => [analyze, init, help]
  | _ => []

/-- The switches that may be written in a scope, as they are listed. -/
def switches : Scope → List Switch
  | top => [.verbose, .config, .logDirectory, .help, .version]
  | analyze => [
    .format, .verbose, .config, .output, .granularity, .logDirectory, .includePrivate, .noDocs,
    .noSignatures, .jobs, .maxDepth, .help]
  | init => [.force, .verbose, .config, .logDirectory, .help]
  | help => []

/-- The scope that a word opens in a scope. -/
def command? (scope : Scope) (word : String) : Option Scope :=
  scope.commands.find? fun command => command.name = word

/-- The switch of a name in a scope. -/
def named? (scope : Scope) (name : String) : Option Switch :=
  scope.switches.find? fun switch => switch.name = name

/-- The switch of a letter in a scope. -/
def lettered? (scope : Scope) (letter : Char) : Option Switch :=
  scope.switches.find? fun switch => switch.letter? = some letter

end Scope

end CodeAtlas.Command
