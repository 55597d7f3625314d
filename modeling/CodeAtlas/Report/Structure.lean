/-
This file draws the structure of a project: the directories and files that some paths name, as
a tree of lines. In every directory the directories come before the files, each in ascending
order.
-/

import CodeAtlas.Graph.Index

namespace CodeAtlas

/-- A directory with the directories and the files in it, each in ascending order. -/
inductive Directory where
  | containing (directories : List (String × Directory)) (files : List String)
deriving Repr

namespace Directory

/-- A directory with nothing in it. -/
def empty : Directory :=
  containing [] []

/-- The names of the directories and of the file on the way to a path. -/
def steps (path : String) : List String :=
  ((Text.splitWhere (· = '/') path.toList).filter fun step => !step.isEmpty).map String.ofList

/-- The directory with a file that is reached through some directories below it. -/
def insert (file : String) : List String → Directory → Directory
  | [], containing directories files => containing directories (TextSet.insertIn file files)
  | step :: steps, containing directories files =>
    containing
      (Index.changeIn step (fun held => insert file steps (held.getD empty)) directories) files

/-- The directory with the file of a path. A path that names nothing changes nothing. -/
def insertPath (directory : Directory) (path : String) : Directory :=
  let steps := steps path
  match steps.getLast? with
  | some file => insert file steps.dropLast directory
  | none => directory

/-- The directory of some paths. -/
def ofPaths (paths : List String) : Directory :=
  paths.foldl insertPath empty

/-! ### Drawing -/

/-- What connects an entry to its directory. -/
def connector (isLast : Bool) : String :=
  if isLast then "└── " else "├── "

/-- What stands before the lines below an entry. -/
def continuation (isLast : Bool) : String :=
  if isLast then "    " else "│   "

/-- The lines of some files. -/
def fileLines (indent : String) : List String → List String
  | [] => []
  | file :: files => (indent ++ connector files.isEmpty ++ file) :: fileLines indent files

mutual

/-- The lines of what is in a directory. -/
def lines (indent : String) : Directory → List String
  | containing directories files =>
    directoryLines indent files.isEmpty directories ++ fileLines indent files

/-- The lines of some directories and of what is in them. -/
def directoryLines (indent : String) (noFiles : Bool) :
    List (String × Directory) → List String
  | [] => []
  | (name, directory) :: directories =>
    let isLast := noFiles && directories.isEmpty
    (indent ++ connector isLast ++ name ++ "/") ::
      (lines (indent ++ continuation isLast) directory ++
        directoryLines indent noFiles directories)

end

end Directory

end CodeAtlas
