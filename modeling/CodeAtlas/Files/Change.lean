/-
This file tells two states of a file system apart: the files whose content is not the same any
more, and the directories that were not there before. Links are never made.
-/

import CodeAtlas.Files.Tree

namespace CodeAtlas

/-- Something that is in a file system and was not, or not so, before. -/
inductive Change where
  | directory (place : Place)
  | file (place : Place) (content : ByteArray)

namespace Change

mutual

/-- The changes at and below a place, where `before` stood. -/
def between (place : Place) (before : Option Entry) : Entry → List Change
  | .file content =>
    match before with
    | some (.file old) => if old.data = content.data then [] else [.file place content]
    | _ => [.file place content]
  | .directory entries =>
    (match before with
    | some (.directory _) => []
    | _ => [.directory place]) ++ betweenEntries place before entries
  | .link _ => []

/-- The changes in a directory, where `before` stood. -/
def betweenEntries (place : Place) (before : Option Entry) :
    List (String × Entry) → List Change
  | [] => []
  | (name, entry) :: entries =>
    between (place ++ [name]) (before.bind (Entry.child? name)) entry ++
      betweenEntries place before entries

end

/-- The changes from one state of a file system to another, directories before what is in
them. -/
def all (before after : FileSystem) : List Change :=
  between [] (some before.root) after.root

end Change

end CodeAtlas
