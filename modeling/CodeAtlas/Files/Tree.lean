/-
This file holds a file system as a value. It is a tree of directories with files and symbolic
links in them; places in it are named by the list of names on the way from the root. Paths are
followed as texts, piece by piece, and fail for the reasons for which a system refuses them. What
a system refuses beyond that, for want of rights or of room, it says of its own accord.
-/

import CodeAtlas.Path
import CodeAtlas.Text.Utf8

namespace CodeAtlas

/-- Something in a file system. -/
inductive Entry where
  | file (content : ByteArray)
  | directory (entries : List (String × Entry))
  /-- A symbolic link, with the path that it stands for. -/
  | link (target : String)

/-- Why a file system refuses something. -/
inductive FileError where
  | notFound
  | denied
  | alreadyThere
  | notDirectory
  | isDirectory
  | noSpace
  | tooManyLinks
  /-- Any other reason, in the words of the system. -/
  | other (message : String)
deriving DecidableEq, Repr

/-- What is said about a refusal. -/
def FileError.message : FileError → String
  | notFound => "No such file or directory (os error 2)"
  | denied => "Permission denied (os error 13)"
  | alreadyThere => "File exists (os error 17)"
  | notDirectory => "Not a directory (os error 20)"
  | isDirectory => "Is a directory (os error 21)"
  | noSpace => "No space left on device (os error 28)"
  | tooManyLinks => "Too many levels of symbolic links (os error 40)"
  | other message => message

/-- A place in a file system: the names on the way from the root. -/
abbrev Place := List String

/-- What may be done at a place. -/
inductive Access where
  /-- To follow a name in a directory. -/
  | search
  /-- To read a file, or to list a directory. -/
  | read
  /-- To write to a file. -/
  | write
  /-- To put something new into a directory. -/
  | create
deriving DecidableEq, Repr

namespace Entry

/-- Whether an entry is a directory. -/
def isDirectory : Entry → Bool
  | directory _ => true
  | file _ | link _ => false

/-- Whether an entry is a file. -/
def isFile : Entry → Bool
  | file _ => true
  | directory _ | link _ => false

/-- The entry of a name among some entries. -/
def named? (name : String) : List (String × Entry) → Option Entry
  | [] => none
  | (held, entry) :: entries => if held = name then some entry else named? name entries

/-- The entry of a name in a directory. -/
def child? (name : String) : Entry → Option Entry
  | directory entries => named? name entries
  | file _ | link _ => none

/-- The entry at a place below this one. -/
def at? : Entry → Place → Option Entry
  | entry, [] => some entry
  | entry, name :: place => (entry.child? name).bind fun child => child.at? place

/-- Entries in which a name stands for an entry. -/
def putNamed (name : String) (entry : Entry) : List (String × Entry) → List (String × Entry)
  | [] => [(name, entry)]
  | (held, old) :: entries =>
    if held = name then (held, entry) :: entries else (held, old) :: putNamed name entry entries

/-- The entry with another one put at a place below it. Nothing changes if the way there does
not lead through directories. -/
def put (new : Entry) : Place → Entry → Entry
  | [], _ => new
  | name :: place, directory entries =>
    match named? name entries, place with
    | some child, _ => directory (putNamed name (put new place child) entries)
    | none, [] => directory (putNamed name new entries)
    | none, _ :: _ => directory entries
  | _ :: _, file content => file content
  | _ :: _, link target => link target

end Entry

/-- A file system with a working directory. -/
structure FileSystem where
  root : Entry := .directory []
  /-- The working directory. -/
  here : Place := []
  /-- Why something may not be done at a place, if it may not. -/
  refusal? : Access → Place → Option FileError := fun _ _ => none
  /-- The number of bytes for which there is room at a place, if there is not room for any number
  of them. -/
  room? : Place → Option Nat := fun _ => none

namespace FileSystem

/-- What is at a place. -/
def at? (files : FileSystem) (place : Place) : Option Entry :=
  files.root.at? place

/-! ### Following paths -/

/-- The place at which a path begins that is followed from a directory. -/
def base (directory : Place) (path : String) : Place :=
  if Path.isAbsolute path then [] else directory

/-- Where a piece of a path leads. -/
inductive Step where
  /-- To a place, at which nothing need stand. -/
  | to (place : Place)
  /-- To a symbolic link, whose path is followed from a place. -/
  | along (base : Place) (target : String)

/-- Where a piece of a path leads from a directory with some entries. -/
def stepFrom (files : FileSystem) (place : Place) (entries : List (String × Entry))
    (piece : Text.Chars) : Except FileError Step :=
  if piece = [] then .ok (.to place)
  else
    match files.refusal? .search place with
    | some error => .error error
    | none =>
      if piece = ['.'] then .ok (.to place)
      else if piece = ['.', '.'] then .ok (.to place.dropLast)
      else
        let name := String.ofList piece
        match Entry.named? name entries with
        | some (.link target) => .ok (.along (base place target) target)
        | _ => .ok (.to (place ++ [name]))

/-- Where a piece of a path leads from a place. -/
def step (files : FileSystem) (place : Place) (piece : Text.Chars) : Except FileError Step :=
  match files.at? place with
  | some (.directory entries) => files.stepFrom place entries piece
  | some (.file _) | some (.link _) => .error .notDirectory
  | none => .error .notFound

/-- The place to which some pieces of a path lead. At the last link that is met, `follow` takes
over. -/
def walkBy (files : FileSystem) (follow : Place → List Text.Chars → Except FileError Place) :
    Place → List Text.Chars → Except FileError Place
  | place, [] => .ok place
  | place, piece :: pieces =>
    match files.step place piece with
    | .ok (.to next) => files.walkBy follow next pieces
    | .ok (.along base target) => follow base (Path.pieces target ++ pieces)
    | .error error => .error error

/-- The place to which some pieces of a path lead if no more than a number of links are met. -/
def walkWithin (files : FileSystem) : Nat → Place → List Text.Chars → Except FileError Place
  | 0 => files.walkBy fun _ _ => .error .tooManyLinks
  | links + 1 => files.walkBy (files.walkWithin links)

/-- The greatest number of links that are followed for a path. -/
def maxLinks : Nat := 40

/-- The place to which some pieces of a path lead. Something stands at every place on the way, but
not always at the last one. -/
def walk (files : FileSystem) : Place → List Text.Chars → Except FileError Place :=
  files.walkWithin maxLinks

/-- The place at which a path begins. -/
def origin (files : FileSystem) (path : String) : Place :=
  base files.here path

/-- The place that a path names, whether or not something stands there. -/
def target (files : FileSystem) (path : String) : Except FileError Place :=
  if path.isEmpty then .error .notFound
  else files.walk (files.origin path) (Path.pieces path)

/-- The place to which a path leads. -/
def locate (files : FileSystem) (path : String) : Except FileError Place :=
  match files.target path with
  | .ok place => if (files.at? place).isSome then .ok place else .error .notFound
  | .error error => .error error

/-- What a path leads to. -/
def lookup? (files : FileSystem) (path : String) : Option Entry :=
  match files.locate path with
  | .ok place => files.at? place
  | .error _ => none

/-- Whether a path leads anywhere. -/
def exists? (files : FileSystem) (path : String) : Bool :=
  (files.lookup? path).isSome

/-- Whether a path leads to a directory. -/
def isDirectory (files : FileSystem) (path : String) : Bool :=
  (files.lookup? path).any Entry.isDirectory

/-- The number of bytes of the file that a path leads to. -/
def size? (files : FileSystem) (path : String) : Option Nat :=
  match files.lookup? path with
  | some (.file content) => some content.size
  | _ => none

/-- The path from the root to a place. -/
def pathOf (place : Place) : String :=
  "/" ++ "/".intercalate place

/-- The path from the root to what a path leads to. -/
def canonical? (files : FileSystem) (path : String) : Option String :=
  match files.locate path with
  | .ok place => some (pathOf place)
  | .error _ => none

/-! ### Reading -/

/-- The bytes of the file that a path leads to. -/
def readBytes (files : FileSystem) (path : String) : Except FileError ByteArray :=
  match files.locate path with
  | .error error => .error error
  | .ok place =>
    match files.refusal? .read place, files.at? place with
    | some error, _ => .error error
    | none, some (.file content) => .ok content
    | none, some _ => .error .isDirectory
    | none, none => .error .notFound

/-- The text of the file that a path leads to, if it can be read as text. -/
def readText? (files : FileSystem) (path : String) : Option String :=
  match files.readBytes path with
  | .ok content => Text.Utf8.decode? content
  | .error _ => none

/-! ### Writing -/

/-- The file system with an entry put at a place. -/
def put (files : FileSystem) (place : Place) (entry : Entry) : FileSystem :=
  { files with root := Entry.put entry place files.root }

/-- An attempt to change a file system: what has become of it, and why the attempt ended early
if it did. -/
structure Attempt where
  files : FileSystem
  error : Option FileError := none

/-- Why no file can be written at a place, if none can. -/
def writeRefusal? (files : FileSystem) (place : Place) : Option FileError :=
  match files.at? place with
  | some (.file _) => files.refusal? .write place
  | some (.directory _) => some .isDirectory
  | some (.link _) => some .tooManyLinks
  | none => files.refusal? .create place.dropLast

/-- The beginning of some bytes for which there is room at a place. -/
def fitting (files : FileSystem) (place : Place) (content : ByteArray) : ByteArray :=
  match files.room? place with
  | some room => content.extract 0 room
  | none => content

/-- Writes a text to the file at a path, which is made if it is not there. Whatever the file held
is lost even if there is not room for all of the text. -/
def writeText (files : FileSystem) (path : String) (text : String) : Attempt :=
  match files.target path with
  | .error error => { files, error := some error }
  | .ok place =>
    match files.writeRefusal? place with
    | some error => { files, error := some error }
    | none =>
      let content := files.fitting place text.toUTF8
      { files := files.put place (.file content)
        error := if content.size < text.utf8ByteSize then some .noSpace else none }

/-- The place that a new directory at a path would have: the directory above must be there, and
the last piece must be a name. Links are followed only above. -/
def newPlace (files : FileSystem) (path : String) : Except FileError Place :=
  let pieces := Path.pieces path
  match files.walk (files.origin path) pieces.dropLast with
  | .error error => .error error
  | .ok above =>
    match files.at? above, files.refusal? .search above, pieces.getLast? with
    | some (.directory _), none, some piece =>
      if piece = [] ∨ piece = ['.'] ∨ piece = ['.', '.'] then .error .alreadyThere
      else .ok (above ++ [String.ofList piece])
    | some (.directory _), some error, _ => .error error
    | some (.file _), _, _ | some (.link _), _, _ => .error .notDirectory
    | _, _, _ => .error .notFound

/-- Makes a directory at a path. Slashes at the end of the path do not count. -/
def makeDirectory (files : FileSystem) (path : String) : Except FileError FileSystem :=
  if path.isEmpty then .error .notFound
  else
    match files.newPlace (String.ofList (Text.dropEnd (· = '/') path.toList)) with
    | .error error => .error error
    | .ok place =>
      match files.at? place, files.refusal? .create place.dropLast with
      | some _, _ => .error .alreadyThere
      | none, some error => .error error
      | none, none => .ok (files.put place (.directory []))

/-- Makes the first of some directories, each of which lies in the next, and before it those of
the others that are not there. What was made stays there even if the attempt fails. -/
def makeDirectories (files : FileSystem) : List String → Attempt
  | [] => { files, error := some .notFound }
  | path :: parents =>
    if path.isEmpty then { files }
    else
      match files.makeDirectory path with
      | .ok made => { files := made }
      | .error .notFound =>
        match files.makeDirectories parents with
        | { files := above, error := some error } => { files := above, error := some error }
        | { files := above, error := none } =>
          match above.makeDirectory path with
          | .ok made => { files := made }
          | .error error =>
            { files := above, error := if above.isDirectory path then none else some error }
      | .error error => { files, error := if files.isDirectory path then none else some error }

/-- Makes a directory at a path and those above it that are not there. -/
def makeDirectoryPath (files : FileSystem) (path : String) : Attempt :=
  files.makeDirectories (path :: Path.parents path)

/-- The file system with a file of some content at a path, and with the directories above it.
Nothing changes if the path cannot be that of a file. -/
def withFile (files : FileSystem) (path : String) (content : ByteArray) : FileSystem :=
  let ready := match Path.parent? path with
    | some directory => (files.makeDirectoryPath directory).files
    | none => files
  match ready.newPlace path with
  | .ok place => ready.put place (.file content)
  | .error _ => ready

/-- The file system with a directory at a path, and with those above it. -/
def withDirectory (files : FileSystem) (path : String) : FileSystem :=
  (files.makeDirectoryPath path).files

/-- The file system with the working directory at a path, if the path leads anywhere. -/
def workingIn (files : FileSystem) (path : String) : FileSystem :=
  match files.locate path with
  | .ok here => { files with here }
  | .error _ => files

end FileSystem

end CodeAtlas
