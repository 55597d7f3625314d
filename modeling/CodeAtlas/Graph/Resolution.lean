/-
This file finds the relationships between the files of a project. Names are merged by their
text: what several files say under one name is said once, in the order of the files. A file
depends on another if the other's path has a candidate of one of its imports in it.
-/

import CodeAtlas.Graph.Candidates
import CodeAtlas.Graph.Relationships

namespace CodeAtlas.Resolution

/-! ### Merging -/

/-- A table in which each key has all values that were given for it, each once, in the order in
which they were given. -/
def collect (contributions : List (String × List String)) : Index (List String) :=
  contributions.foldl
    (fun index (key, values) =>
      index.change key fun held => values.foldl Text.pushNew (held.getD []))
    ∅

/-- What a file says about its imports. -/
def importEntries (file : FileRecord) : List (String × List String) :=
  [(file.path, file.imports.map Import.moduleName)]

/-- What a file says about the bases of its classes. -/
def baseEntries (file : FileRecord) : List (String × List String) :=
  (file.classes.filter fun owner => !owner.bases.isEmpty).map fun owner =>
    (owner.name, owner.bases)

/-- The name of a function among the callers. -/
def functionKey (file : FileRecord) (function : Function) : String :=
  file.path ++ "::" ++ function.name

/-- The name of a method among the callers. -/
def methodKey (owner : Class) (method : Function) : String :=
  owner.name ++ "." ++ method.name

/-- What a file says about the calls of its functions and methods. -/
def callEntries (file : FileRecord) : List (String × List String) :=
  (file.functions.map fun function => (functionKey file function, function.calls)) ++
    file.classes.flatMap fun owner =>
      owner.methods.map fun method => (methodKey owner method, method.calls)

/-- What a file says about where its functions and methods are defined. -/
def functionEntries (file : FileRecord) : List (String × List String) :=
  file.allFunctions.map fun function => (function.name, [file.path])

/-- What a file says about where its classes are defined. -/
def classEntries (file : FileRecord) : List (String × List String) :=
  file.classes.map fun owner => (owner.name, [file.path])

/-! ### Dependencies -/

/-- The candidates of all imports of a file. -/
def candidates (extensions : List String) (file : FileRecord) : List Text.Chars :=
  file.imports.flatMap (Candidates.ofImport extensions)

/-- Whether some candidate stands in a path. -/
def isMeant (candidates : List Text.Chars) (path : String) : Bool :=
  candidates.any fun candidate => Text.occursIn candidate path.toList

/-- The paths of the files that a file depends on. -/
def targets (extensions : List String) (files : List FileRecord) (file : FileRecord) :
    List String :=
  let candidates := candidates extensions file
  (files.filter fun other => other.path ≠ file.path && isMeant candidates other.path).map
    FileRecord.path

/-- The dependencies between files. -/
def dependencies (extensions : List String) (files : List FileRecord) : Index TextSet :=
  Index.ofEntries (files.filterMap fun file =>
    match targets extensions files file with
    | [] => none
    | paths => some (file.path, TextSet.ofList paths))

/-! ### Resolution -/

/-- The relationships between the files of a project. -/
def resolve (files : List FileRecord) (extensions : List String) : Relationships where
  imports := (collect (files.flatMap importEntries)).filter fun modules => !modules.isEmpty
  dependencies := dependencies extensions files
  inheritance := collect (files.flatMap baseEntries)
  calls := collect (files.flatMap callEntries)
  functionIndex := collect (files.flatMap functionEntries)
  classIndex := collect (files.flatMap classEntries)

end CodeAtlas.Resolution
