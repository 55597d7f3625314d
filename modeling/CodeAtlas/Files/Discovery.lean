/-
This file finds the source files of a project. A walker goes through the directories below the root
and passes over what the patterns, the ignore files or a dot before a name exclude; entries to which
it cannot come count for nothing. Of the files that are met, those of a wanted extension and size
are listed, in the order of their paths.
-/

import CodeAtlas.Files.Walker
import CodeAtlas.Language

namespace CodeAtlas

/-! ### Settings -/

/-- The patterns of what is passed over by default. -/
def defaultIgnorePatterns : List String := [
  "__pycache__", "node_modules", ".git", ".svn", ".hg", "venv", ".venv", "env", ".env",
  "dist", "build", ".idea", ".vscode", "*.pyc", "*.pyo", "*.so", "*.dll", ".tox",
  ".pytest_cache", ".mypy_cache", "*.egg-info", "vendor", "target", "bin", "obj"]

/-- The settings of a search for source files. -/
structure DiscoveryOptions where
  /-- The extensions that are wanted; without any, every file is. -/
  extensions : List String := Language.allExtensions
  /-- Patterns of what is passed over, besides what ignore files say. -/
  ignorePatterns : List String := defaultIgnorePatterns
  /-- Whether ignore files count. -/
  respectIgnoreFiles : Bool := true
  /-- Whether names that begin with a dot count like others. -/
  includeHidden : Bool := false
  /-- The greatest size of a file, in bytes. -/
  maxFileSize : Option Nat := some (1024 * 1024)
  /-- The greatest number of directories between the root and a file, a machine word. -/
  maxDepth : Option UInt64 := some 10
deriving DecidableEq, Repr

/-- A source file that was found. -/
structure SourceFile where
  /-- The path by which the file can be read. -/
  path : String
  /-- The path from the root of the project. -/
  relativePath : String
  language : Option Language
deriving DecidableEq, Repr

namespace Discovery

open Text

/-! ### Walking -/

/-- The patterns of what is passed over, as a walker is told them. Those that it does not understand
count for nothing. -/
def overrides (walker : Walker) (options : DiscoveryOptions) : List String :=
  (options.ignorePatterns.map fun pattern => "!" ++ pattern).filter walker.understands

/-- The rules of the walk of a search. -/
def rules (walker : Walker) (options : DiscoveryOptions) : WalkRules where
  skipsHidden := !options.includeHidden
  readsIgnore := options.respectIgnoreFiles
  readsGitIgnore := options.respectIgnoreFiles
  readsGitGlobal := options.respectIgnoreFiles
  readsGitExclude := options.respectIgnoreFiles
  needsGit := false
  overrides := overrides walker options

/-- The greatest depth to which a walk goes. A walk counts the root itself, so that its limit
is one more than the limit on directories; the sum is one of machine words. -/
def depthLimit? (options : DiscoveryOptions) : Option UInt64 :=
  options.maxDepth.map (· + 1)

/-! ### Choosing files -/

/-- Whether a file's extension is wanted. -/
def acceptsExtension (options : DiscoveryOptions) (path : String) : Bool :=
  options.extensions.isEmpty ||
    match Path.extension? path with
    | some extension =>
      options.extensions.any fun known => sameIgnoringCase known.toList extension
    | none => false

/-- Whether a file is small enough. One whose size cannot be told is. -/
def acceptsSize (options : DiscoveryOptions) (size? : Option Nat) : Bool :=
  match options.maxFileSize, size? with
  | some limit, some size => size ≤ limit
  | none, _ | _, none => true

/-- Whether an entry that was met is a file and is wanted. -/
def isWanted (options : DiscoveryOptions) (item : WalkItem) : Bool :=
  item.isFile && acceptsExtension options item.path && acceptsSize options item.size?

/-- The source file that was met in a walk from a root. -/
def sourceFile (root : String) (item : WalkItem) : SourceFile where
  path := item.path
  relativePath := Path.relativeTo root item.path
  language := Language.ofPath? item.path

/-- Why no files were found. -/
inductive Failure where
  | missingRoot (root : String)
  /-- The walker could not be set up. -/
  | walk (reason : String)
deriving DecidableEq, Repr

/-- What is said about a search that failed. -/
def Failure.message : Failure → String
  | missingRoot root => "Root directory not found: " ++ root
  | walk reason => "Walk error: " ++ reason

/-- Whether one file's path comes before another's, or is the same. -/
def notAfter (first second : SourceFile) : Bool :=
  first.relativePath ≤ second.relativePath

/-- The source files among the entries that were met, in ascending order of their paths. -/
def chosen (root : String) (options : DiscoveryOptions) (items : List WalkItem) :
    List SourceFile :=
  ((items.filter (isWanted options)).map (sourceFile root)).mergeSort notAfter

/-- The source files below a root, in ascending order of their paths. -/
def discover (walker : Walker) (files : FileSystem) (root : String) (options : DiscoveryOptions) :
    Except Failure (List SourceFile) :=
  if files.isDirectory root then
    let rules := rules walker options
    match walker.refusal? root rules.overrides with
    | some reason => .error (.walk reason)
    | none => .ok (chosen root options (walker.items files root rules (depthLimit? options)))
  else .error (.missingRoot root)

end Discovery

end CodeAtlas
