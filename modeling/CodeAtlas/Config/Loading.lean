/-
This file reads configurations from their files and finds the file that belongs to a
directory: the one in the nearest directory above it, however broken that file may be.
-/

import CodeAtlas.Config.Basic
import CodeAtlas.Config.Template
import CodeAtlas.Files.Tree
import CodeAtlas.Toml.Reader

namespace CodeAtlas.Config

open Toml

/-! ### From values -/

/-- Reads a section of a configuration. -/
def section? {α : Type} (read : Toml → Option α) (value : Toml) : Option α :=
  if value.isRecord then read value else none

/-- Reads what a configuration says about the project. -/
def readProject? (value : Toml) : Option ProjectConfig := do
  let held : ProjectConfig := {}
  return { root := ← fieldOr held.root string? value 0 "root" }

/-- Reads what a configuration says about extraction. -/
def readAnalysis? (value : Toml) : Option AnalysisConfig := do
  let held : AnalysisConfig := {}
  let includePrivate ← fieldOr held.includePrivate bool? value 0 "include_private"
  let includeDocs ← fieldOr held.includeDocs bool? value 1 "include_docstrings"
  let includeSignatures ← fieldOr held.includeSignatures bool? value 2 "include_signatures"
  let granularity ← fieldOr held.granularity string? value 3 "granularity"
  let workers ← fieldOr held.workers (fun value => (nat? value).map some) value 4 "parallelism"
  return { includePrivate, includeDocs, includeSignatures, granularity, workers }

/-- Reads what a configuration says about finding source files. -/
def readDiscovery? (value : Toml) : Option DiscoveryConfig := do
  let held : DiscoveryConfig := {}
  let limit := fun (value : Toml) => (nat? value).map some
  let extensions ← fieldOr held.extensions strings? value 0 "extensions"
  let ignorePatterns ← fieldOr held.ignorePatterns strings? value 1 "ignore_patterns"
  let respectIgnoreFiles ← fieldOr held.respectIgnoreFiles bool? value 2 "respect_gitignore"
  let includeHidden ← fieldOr held.includeHidden bool? value 3 "include_hidden"
  let maxFileSize ← fieldOr held.maxFileSize limit value 4 "max_file_size"
  let maxDepth ← fieldOr held.maxDepth limit value 5 "max_depth"
  return { extensions, ignorePatterns, respectIgnoreFiles, includeHidden, maxFileSize, maxDepth }

/-- Reads what a configuration says about the report. -/
def readOutput? (value : Toml) : Option OutputConfig := do
  let held : OutputConfig := {}
  let format ← fieldOr held.format string? value 0 "format"
  let path ← fieldOr held.path (fun value => (string? value).map some) value 1 "path"
  return { format, path }

/-- Reads a configuration. What it does not say is as usual. -/
def ofEntries? (entries : TomlEntries) : Option Config := do
  let record := Toml.table .defined entries
  let project ← fieldOr {} (section? readProject?) record 0 "project"
  let analysis ← fieldOr {} (section? readAnalysis?) record 1 "analysis"
  let discovery ← fieldOr {} (section? readDiscovery?) record 2 "discovery"
  let output ← fieldOr {} (section? readOutput?) record 3 "output"
  return { project, analysis, discovery, output }

/-- Reads a configuration from its text. -/
def parse? (text : String) : Option Config :=
  (Toml.read? text).bind ofEntries?

/-! ### From files -/

/-- The directory of a project in which its configuration is kept. -/
def directoryName : String := ".codemap"

/-- The name of a configuration file. -/
def fileName : String := "config.toml"

/-- Why a configuration file was not loaded. -/
inductive LoadError where
  | unreadable (path : String)
  | invalid (path : String)
deriving DecidableEq, Repr

/-- What is said about a configuration file that was not loaded. -/
def LoadError.message : LoadError → String
  | unreadable path => "Failed to read config file: " ++ path
  | invalid path => "Failed to parse config file: " ++ path

/-- Where configurations come from: which paths lead anywhere, which texts are there to be read, and
what configurations the texts say. -/
structure Source where
  exists? : String → Bool
  readText? : String → Option String
  parse? : String → Option Config

/-- The configurations in a file system, for a reader of their texts. -/
def sourceIn (files : FileSystem) (parse? : String → Option Config) : Source where
  exists? := files.exists?
  readText? := files.readText?
  parse?

/-- Loads a configuration file. -/
def load (source : Source) (path : String) : Except LoadError Config :=
  match source.readText? path with
  | none => .error (.unreadable path)
  | some text =>
    match source.parse? text with
    | some config => .ok config
    | none => .error (.invalid path)

/-- The directory for the configuration of a project. -/
def directoryIn (project : String) : String :=
  Path.join project directoryName

/-- The configuration file in its directory. -/
def fileIn (directory : String) : String :=
  Path.join directory fileName

/-- A configuration with the directory in which it was found. -/
structure Found where
  config : Config
  directory : String
deriving DecidableEq, Repr

/-- The first of some paths in which there is a configuration file. -/
def nearest? (source : Source) (paths : List String) : Option String :=
  paths.find? fun path => source.exists? (fileIn (directoryIn path))

/-- Finds and loads the configuration for a path: the one of the path itself or of the nearest of
its parents that has one. -/
def find (source : Source) (start : String) : Except LoadError (Option Found) :=
  match nearest? source (start :: Path.parents start) with
  | none => .ok none
  | some path =>
    let directory := directoryIn path
    match load source (fileIn directory) with
    | .ok config => .ok (some { config, directory })
    | .error error => .error error

end CodeAtlas.Config
