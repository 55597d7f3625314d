/-
This file analyzes projects. The sources are divided among workers, each with a parser of its own;
every source is read and becomes a record, and one that cannot be read or parsed becomes a record
that says so. From all records together the relationships are found.
-/

import CodeAtlas.Analysis
import CodeAtlas.Extraction.Basic
import CodeAtlas.Files.Discovery
import CodeAtlas.Graph.Resolution
import CodeAtlas.Tree.Parser

namespace CodeAtlas

/-! ### Workers -/

/-- How sources are divided into runs, each of which one worker takes on from its beginning. -/
abbrev Division := List SourceFile → List (List SourceFile)

/-- The pools of workers that there are. -/
structure Pools where
  /-- A pool with a number of workers, if it can be made. -/
  ofSize? : Nat → Option Division
  /-- The pool for all other work. -/
  shared : Division

/-- The pools of a single worker. -/
def Pools.single : Pools where
  ofSize? _ := none
  shared sources := [sources]

namespace Project

/-! ### Reading files -/

/-- Why a file has no syntax tree. -/
inductive ReadError where
  /-- The extension belongs to no language. -/
  | unsupported (extension : String)
  | unreadable (error : FileError)
  | unparsed (error : ParseError)
deriving DecidableEq, Repr

/-- What is said about a file that has no syntax tree. -/
def ReadError.message : ReadError → String
  | unsupported extension => "Unsupported file extension: " ++ extension
  | unreadable error => "Failed to read file: " ++ error.message
  | unparsed error => error.message

/-- What stands for the extension of a path in a message. -/
def shownExtension (path : String) : String :=
  ((Path.extension? path).map String.ofList).getD "none"

/-- Reads and parses the file at a path, in the language of its extension. -/
def parsedFile (parser : Parser) (files : FileSystem) (path : String) (state : parser.State) :
    Except ReadError ParsedFile × parser.State :=
  match Language.ofPath? path with
  | none => (.error (.unsupported (shownExtension path)), state)
  | some language =>
    match files.readBytes path with
    | .error error => (.error (.unreadable error), state)
    | .ok content =>
      let (parsed, after) := parser.parse language (Text.Utf8.decodeLossy content) state
      (parsed.mapError .unparsed, after)

/-- The record of a text. -/
def recordOfText (parser : Parser) (options : AnalysisOptions) (path : String)
    (language : Language) (text : String) (state : parser.State) : FileRecord × parser.State :=
  match parser.parse language text state with
  | (.ok file, after) => (Extraction.record options path file, after)
  | (.error error, after) =>
    (.failed path (some language) (ReadError.unparsed error).message, after)

/-- The record of a source file. -/
def record (parser : Parser) (files : FileSystem) (options : AnalysisOptions)
    (source : SourceFile) (state : parser.State) : FileRecord × parser.State :=
  match source.language with
  | none =>
    (.failed source.relativePath none
      (ReadError.unsupported (shownExtension source.path)).message, state)
  | some language =>
    match files.readBytes source.path with
    | .ok content =>
      recordOfText parser options source.relativePath language (Text.Utf8.decodeLossy content) state
    | .error error =>
      (.failed source.relativePath (some language) (ReadError.unreadable error).message, state)

/-- The records of the sources that one worker takes on, one after another. -/
def recordsOf (parser : Parser) (files : FileSystem) (options : AnalysisOptions) :
    List SourceFile → parser.State → List FileRecord
  | [], _ => []
  | source :: sources, state =>
    let (found, after) := record parser files options source state
    found :: recordsOf parser files options sources after

/-! ### Analyzing -/

/-- The analysis of some records. -/
def ofRecords (records : List FileRecord) (options : AnalysisOptions) : Analysis where
  files := records
  relationships := Resolution.resolve records options.extensions
  stats := Stats.ofFiles records

/-- How the sources of an analysis are divided. If no pool of the wanted size can be made, the
shared one has to do. -/
def division (pools : Pools) (options : AnalysisOptions) : Division :=
  match options.workers with
  | some count => (pools.ofSize? count).getD pools.shared
  | none => pools.shared

/-- The records of all sources, each run by a worker with a parser of its own. -/
def records (parser : Parser) (pools : Pools) (files : FileSystem) (options : AnalysisOptions)
    (sources : List SourceFile) : List FileRecord :=
  (division pools options sources).flatMap fun run =>
    recordsOf parser files options run parser.fresh

/-- The analysis of some source files. -/
def build (parser : Parser) (pools : Pools) (files : FileSystem) (options : AnalysisOptions)
    (sources : List SourceFile) : Analysis :=
  ofRecords (records parser pools files options sources) options

/-- Why a directory was not analyzed. -/
inductive BuildError where
  | discovery (failure : Discovery.Failure)
deriving DecidableEq, Repr

/-- What is said about a directory that was not analyzed. -/
def BuildError.message : BuildError → String
  | discovery failure => "Discovery error: " ++ failure.message

/-- The analysis of the source files below a root. -/
def buildDirectory (parser : Parser) (pools : Pools) (walker : Walker) (files : FileSystem)
    (options : AnalysisOptions) (root : String) (search : DiscoveryOptions) :
    Except BuildError Analysis :=
  match Discovery.discover walker files root search with
  | .ok sources => .ok (build parser pools files options sources)
  | .error failure => .error (.discovery failure)

end Project

end CodeAtlas
