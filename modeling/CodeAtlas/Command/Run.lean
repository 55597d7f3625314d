/-
This file carries out what a command line asks for. A job reads a file system and leaves
another one behind; it comes to a text that is printed, or to a failure. An analysis changes
nothing before its report is complete. How command lines and configurations are read, trees are
made and directories are walked through is left to tools that the program is given.
-/

import CodeAtlas.Command.Help
import CodeAtlas.Command.Invocation
import CodeAtlas.Config.Loading
import CodeAtlas.Ignore.Walking
import CodeAtlas.Project

namespace CodeAtlas.Command

/-! ### Tools -/

/-- The tools of the program. -/
structure Toolkit where
  parser : Parser
  pools : Pools
  walker : Walker
  /-- Reads a configuration from its text. -/
  readConfig? : String → Option Config
  /-- Reads a command line. -/
  readLine : Environment → List String → Except Reply Invocation

/-- The tools that are built in, with a parser. -/
def Toolkit.builtIn (parser : Parser) : Toolkit where
  parser
  pools := .single
  walker := .builtIn
  readConfig? := Config.parse?
  readLine := Invocation.parse

/-! ### Failures -/

/-- Why a job failed. -/
inductive Failure where
  | config (error : Config.LoadError)
  | format (refusal : String)
  | analysis (root : String)
  | directory (error : FileError)
  | write (path : String)
  | alreadyThere (path : String)
deriving DecidableEq, Repr

/-- What is said about a job that failed. -/
def Failure.message : Failure → String
  | config error => error.message
  | format refusal => refusal
  | analysis root => "Failed to analyze " ++ root
  | directory error => error.message
  | write path => "Failed to write " ++ path
  | alreadyThere path => path ++ " already exists. Use --force to overwrite."

/-- What a job came to: the file system that it left behind, and the text to be printed or the
failure. -/
structure Outcome where
  files : FileSystem
  result : Except Failure String

/-- A job that changed nothing and failed. -/
def Outcome.refused (files : FileSystem) (failure : Failure) : Outcome :=
  { files, result := .error failure }

/-! ### Configurations -/

/-- A configuration with the directory that its paths are relative to, if there is one. -/
structure Settled where
  config : Config := {}
  directory : Option String := none
deriving DecidableEq, Repr

/-- The configuration file that a path names: the path itself or the file in that directory. -/
def configFile (files : FileSystem) (path : String) : String :=
  if files.isDirectory path then Config.fileIn path else path

/-- The configurations in a file system. -/
def configsIn (tools : Toolkit) (files : FileSystem) : Config.Source :=
  Config.sourceIn files tools.readConfig?

/-- The configuration that counts. One that is named must be there and be right; one that is
found from the working directory counts only if it is right. -/
def settle (tools : Toolkit) (files : FileSystem) : Option String → Except Failure Settled
  | some path =>
    let file := configFile files path
    match Config.load (configsIn tools files) file with
    | .ok config => .ok { config, directory := some ((Path.parent? file).getD path) }
    | .error error => .error (.config error)
  | none =>
    match Config.find (configsIn tools files) (FileSystem.pathOf files.here) with
    | .ok (some found) => .ok { config := found.config, directory := some found.directory }
    | .ok none | .error _ => .ok {}

/-! ### Analyzing -/

namespace AnalyzeSettings

/-- The options of an analysis with a configuration. -/
def options (settings : AnalyzeSettings) (config : Config) : AnalysisOptions :=
  let held := config.analysisOptions
  Config.withWorkersIf { held with
    granularity := settings.granularity.getD held.granularity
    includePrivate := settings.includePrivate || held.includePrivate
    includeDocs := !settings.noDocs && held.includeDocs
    includeSignatures := !settings.noSignatures && held.includeSignatures } settings.workers

/-- The options of the search for source files with a configuration. -/
def search (settings : AnalyzeSettings) (config : Config) : DiscoveryOptions :=
  let held := config.discoveryOptions
  { held with maxDepth := settings.maxDepth.or held.maxDepth }

/-- The format of the report with a configuration. -/
def chooseFormat (settings : AnalyzeSettings) (config : Config) : Except Failure Format :=
  match settings.format with
  | some format => .ok format
  | none =>
    match Format.parse config.output.format with
    | .ok format => .ok format
    | .error refusal => .error (.format refusal)

/-- The file that the report is written to with a configuration. -/
def chooseOutput (settings : AnalyzeSettings) (settled : Settled) : Option String :=
  settings.output.or (settled.config.resolveOutput settled.directory)

/-- The root of the analysis with a configuration, by its full path if it is there. -/
def chooseRoot (settings : AnalyzeSettings) (files : FileSystem) (settled : Settled) : String :=
  let root := settings.root.getD (settled.config.resolveRoot settled.directory)
  (files.canonical? root).getD root

end AnalyzeSettings

/-- The name of a root. -/
def rootName (root : String) : String :=
  ((Path.fileName? root).map String.ofList).getD root

/-- The report of an analysis with a configuration. -/
def report (tools : Toolkit) (files : FileSystem) (settings : AnalyzeSettings)
    (settled : Settled) : Except Failure String := do
  let format ← settings.chooseFormat settled.config
  let root := settings.chooseRoot files settled
  match Project.buildDirectory tools.parser tools.pools tools.walker files
      (settings.options settled.config) root (settings.search settled.config) with
  | .ok analysis => return analysis.render (rootName root) format
  | .error _ => throw (.analysis root)

/-! ### Writing -/

/-- What a job comes to that writes a text to a file once the directories for it are ready, and then
has something said. -/
def Outcome.afterWriting (ready : FileSystem.Attempt) (path text said : String) : Outcome :=
  match ready.error with
  | some error => { files := ready.files, result := .error (.directory error) }
  | none =>
    match ready.files.writeText path text with
    | { files := written, error := none } => { files := written, result := .ok said }
    | { files := touched, error := some _ } =>
      { files := touched, result := .error (.write path) }

/-- The directory that must be there before a file can be written, if there is one. -/
def directoryOf? (path : String) : Option String :=
  (Path.parent? path).filter fun directory => !directory.isEmpty

/-- The file system with the directories for a file, if they could be made. -/
def readyFor (files : FileSystem) (path : String) : FileSystem.Attempt :=
  match directoryOf? path with
  | some directory => files.makeDirectoryPath directory
  | none => { files }

/-- Writes a report to a file, in a directory that is made if it is not there. -/
def writeReport (files : FileSystem) (path report : String) : Outcome :=
  .afterWriting (readyFor files path) path report ""

/-- Hands out a report: to a file, or else to be printed. -/
def deliver (files : FileSystem) (report : String) : Option String → Outcome
  | some path => writeReport files path report
  | none => { files, result := .ok (report ++ "\n") }

/-- Analyzes a directory and reports on it. -/
def analyze (tools : Toolkit) (files : FileSystem) (shared : SharedSettings)
    (settings : AnalyzeSettings) : Outcome :=
  match settle tools files shared.config with
  | .error failure => .refused files failure
  | .ok settled =>
    match report tools files settings settled with
    | .error failure => .refused files failure
    | .ok report => deliver files report (settings.chooseOutput settled)

/-! ### Setting up -/

/-- The file system with a directory, which is made if it is not there. -/
def readyIn (files : FileSystem) (directory : String) : FileSystem.Attempt :=
  if files.exists? directory then { files } else files.makeDirectoryPath directory

/-- Writes a fresh configuration file into a directory, which is made if it is not there. -/
def setUp (files : FileSystem) (directory : String) (force : Bool) : Outcome :=
  let path := Config.fileIn directory
  if files.exists? path && !force then .refused files (.alreadyThere path)
  else .afterWriting (readyIn files directory) path Config.template ("Created " ++ path ++ "\n")

/-! ### Running -/

/-- The file system with the directory for logs. Whether it can be made does not matter. -/
def withLogDirectory (files : FileSystem) : Option String → FileSystem
  | some directory => (files.makeDirectoryPath directory).files
  | none => files

/-- Carries out a job. -/
def Invocation.run (tools : Toolkit) (files : FileSystem) (invocation : Invocation) : Outcome :=
  let ready := withLogDirectory files invocation.shared.logDirectory
  match invocation.job with
  | .analyze settings => analyze tools ready invocation.shared settings
  | .init force =>
    setUp ready (invocation.shared.config.getD Config.directoryName) force

/-- How a run of the program ended. -/
inductive Ending where
  | printed (text : String)
  | failed (failure : Failure)
  | misused (error : UsageError)
deriving DecidableEq, Repr

namespace Ending

/-- The status with which the program exits. -/
def status : Ending → Nat
  | printed _ => 0
  | failed _ => 1
  | misused _ => 2

/-- What is printed. -/
def text : Ending → String
  | printed text => text
  | failed _ => ""
  | misused _ => ""

/-- What is complained of. -/
def complaint? : Ending → Option String
  | printed _ => none
  | failed failure => some ("Error: " ++ failure.message)
  | misused error => some ("error: " ++ error.message)

end Ending

/-- How a job ended. -/
def Outcome.ending (outcome : Outcome) : Ending :=
  match outcome.result with
  | .ok text => .printed text
  | .error failure => .failed failure

/-- The answer to a command line that asks for no job. -/
def Reply.ending (environment : Environment) : Reply → Ending
  | help scope => .printed (scope.page environment)
  | version => .printed versionLine
  | misuse error => .misused error

/-- Runs the program: how it ends, and the file system that it leaves behind. -/
def run (tools : Toolkit) (environment : Environment) (files : FileSystem)
    (line : List String) : Ending × FileSystem :=
  match tools.readLine environment line with
  | .error reply => (reply.ending environment, files)
  | .ok invocation =>
    let outcome := invocation.run tools files
    (outcome.ending, outcome.files)

end CodeAtlas.Command
