/-
This file holds the configuration of a project, what it asks of an analysis, and what is wrong
with it.
-/

import CodeAtlas.Files.Discovery
import CodeAtlas.Options
import CodeAtlas.Report.Format

namespace CodeAtlas

/-! ### Sections -/

/-- What a configuration says about the project. -/
structure ProjectConfig where
  /-- The root directory of the project. -/
  root : String := "."
deriving DecidableEq, Repr

/-- What a configuration says about extraction. -/
structure AnalysisConfig where
  includePrivate : Bool := false
  includeDocs : Bool := true
  includeSignatures : Bool := true
  /-- The granularity as written. -/
  granularity : String := Granularity.detailed.text
  /-- The number of workers, if one is given. -/
  workers : Option Nat := none
deriving DecidableEq, Repr

/-- What a configuration says about finding source files. -/
structure DiscoveryConfig where
  extensions : List String := Language.allExtensions
  ignorePatterns : List String := defaultIgnorePatterns
  respectIgnoreFiles : Bool := true
  includeHidden : Bool := false
  maxFileSize : Option Nat := some (1024 * 1024)
  maxDepth : Option Nat := some 10
deriving DecidableEq, Repr

/-- What a configuration says about the report. -/
structure OutputConfig where
  /-- The format as written. -/
  format : String := Format.markdown.name
  /-- The file that the report is written to, if there is one. -/
  path : Option String := none
deriving DecidableEq, Repr

/-- The configuration of a project. -/
structure Config where
  project : ProjectConfig := {}
  analysis : AnalysisConfig := {}
  discovery : DiscoveryConfig := {}
  output : OutputConfig := {}
deriving DecidableEq, Repr

namespace Config

/-! ### Paths -/

/-- A path of a configuration, which is relative to the directory of the configuration. -/
def resolve (directory : Option String) (path : String) : String :=
  match directory with
  | some directory => Path.join directory path
  | none => path

/-- The root directory of the project. -/
def resolveRoot (config : Config) (directory : Option String) : String :=
  resolve directory config.project.root

/-- The file that the report is written to. -/
def resolveOutput (config : Config) (directory : Option String) : Option String :=
  config.output.path.map (resolve directory)

/-! ### Options -/

/-- The granularity that is used: the one that is written, or else the usual one. -/
def usedGranularity (config : Config) : Granularity :=
  match Granularity.parse config.analysis.granularity with
  | .ok granularity => granularity
  | .error _ => .detailed

/-- The extensions that imports are resolved with. -/
def usedExtensions (config : Config) : List String :=
  match config.discovery.extensions with
  | [] => Language.allExtensions
  | extensions => extensions

/-- The options of an analysis with the workers that are asked for. -/
def withWorkersIf (options : AnalysisOptions) : Option Nat → AnalysisOptions
  | some count => options.withWorkers count
  | none => options

/-- The options of an analysis. -/
def analysisOptions (config : Config) : AnalysisOptions :=
  withWorkersIf {
    includePrivate := config.analysis.includePrivate
    includeDocs := config.analysis.includeDocs
    includeSignatures := config.analysis.includeSignatures
    granularity := config.usedGranularity
    extensions := config.usedExtensions } config.analysis.workers

/-- The options of a search for source files. -/
def discoveryOptions (config : Config) : DiscoveryOptions where
  extensions := config.discovery.extensions
  ignorePatterns := config.discovery.ignorePatterns
  respectIgnoreFiles := config.discovery.respectIgnoreFiles
  includeHidden := config.discovery.includeHidden
  maxFileSize := config.discovery.maxFileSize
  maxDepth := config.discovery.maxDepth.map UInt64.ofNat

/-! ### Problems -/

/-- Something that is wrong with a configuration. -/
inductive Problem where
  | granularity (refusal : String)
  | noWorkers
  | format (text : String)
  | extension (text : String)
deriving DecidableEq, Repr

namespace Problem

/-- The field that a problem is about. -/
def field : Problem → String
  | granularity _ => "analysis.granularity"
  | noWorkers => "analysis.parallelism"
  | format _ => "output.format"
  | extension _ => "discovery.extensions"

/-- What is said about a problem. -/
def message : Problem → String
  | granularity refusal => refusal
  | noWorkers => "Parallelism must be at least 1."
  | format text => Format.refusal text
  | extension text =>
    "Invalid extension '" ++ text ++ "'. Use bare extensions like \"py\"."

/-- A problem with the field that it is about. -/
def describe (problem : Problem) : String :=
  problem.field ++ ": " ++ problem.message

end Problem

/-- What is wrong with the granularity. -/
def granularityProblem? (config : Config) : Option Problem :=
  match Granularity.parse config.analysis.granularity with
  | .ok _ => none
  | .error refusal => some (.granularity refusal)

/-- What is wrong with the number of workers. -/
def workersProblem? (config : Config) : Option Problem :=
  if config.analysis.workers = some 0 then some .noWorkers else none

/-- What is wrong with the format: only the names of formats are right, in their own case. -/
def formatProblem? (config : Config) : Option Problem :=
  if config.output.format ∈ [Format.markdown.name, Format.json.name] then none
  else some (.format config.output.format)

/-- Whether an extension is empty or begins with a dot. -/
def isBadExtension (extension : String) : Bool :=
  extension.isEmpty || Text.startsWith ['.'] extension.toList

/-- What is wrong with the extensions; only the first wrong one is told. -/
def extensionProblem? (config : Config) : Option Problem :=
  (config.discovery.extensions.find? isBadExtension).map .extension

/-- What is wrong with a configuration. -/
def problems (config : Config) : List Problem :=
  [config.granularityProblem?, config.workersProblem?, config.formatProblem?,
    config.extensionProblem?].filterMap id

end Config

end CodeAtlas
