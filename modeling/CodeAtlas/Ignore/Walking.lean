/-
This file holds a walker that is built in. It leaves out what the patterns, the ignore files or a
dot before a name exclude; what is excluded is not entered, nor is a directory at the greatest depth.
It knows no ignore file of the user's.
-/

import CodeAtlas.Files.Walker
import CodeAtlas.Ignore.Rule

namespace CodeAtlas.Walker

open Text

/-! ### Ignore files -/

/-- The kinds of ignore files that count, the ones that count most first, each by the way to it from
the directory it speaks of. -/
def ignoreFiles (rules : WalkRules) : List Place :=
  (if rules.readsIgnore then [[".ignore"]] else []) ++
    (if rules.readsGitIgnore then [[".gitignore"]] else []) ++
      if rules.readsGitExclude then [[".git", "info", "exclude"]] else []

/-- The rules in a file, if it is there, up to the first line that is no text. -/
def rulesIn (directory : Entry) (file : Place) : List IgnoreRule :=
  match directory.at? file with
  | some (.file content) => IgnoreRule.readLines (Utf8.decodeLines content).toList
  | _ => []

/-- A directory on the way to an entry, with the names on the way from it to the entry. -/
structure Surrounding where
  directory : Entry
  way : Place

/-- What the files of one kind decide about an entry: the nearest directory whose file has
something to say decides. -/
def decideByKind? (file : Place) (isDirectory : Bool) (surroundings : List Surrounding) :
    Option Verdict :=
  surroundings.findSome? fun surrounding =>
    IgnoreRule.decide? (rulesIn surrounding.directory file)
      ("/".intercalate surrounding.way).toList isDirectory

/-- What the ignore files decide about an entry. -/
def decideByFiles? (rules : WalkRules) (isDirectory : Bool) (surroundings : List Surrounding) :
    Option Verdict :=
  (ignoreFiles rules).findSome? fun file => decideByKind? file isDirectory surroundings

/-! ### Walking -/

/-- Whether a name begins with a dot. -/
def isHidden (name : String) : Bool :=
  startsWith ['.'] name.toList

/-- Whether an entry takes part in the walk. The surroundings are given nearest first. -/
def isVisited (rules : WalkRules) (way : Place) (name : String) (isDirectory : Bool)
    (surroundings : List Surrounding) : Bool :=
  let patterns := IgnoreRule.ofPatterns rules.overrides
  if IgnoreRule.matchPatterns patterns ("/".intercalate way).toList isDirectory then false
  else
    match decideByFiles? rules isDirectory surroundings with
    | some .exclude => false
    | some .include => true
    | none => !(rules.skipsHidden && isHidden name)

/-- Whether a walk goes as deep as some depth. -/
def reachesDepth (deepest : Option UInt64) (depth : Nat) : Bool :=
  match deepest with
  | some limit => depth ≤ limit.toNat
  | none => true

/-- An entry that a walk has met, with the names on the way from the root. -/
structure Met where
  way : Place
  entry : Entry

/-- The surroundings of an entry of a name in the nearest directory. -/
def extend (name : String) (surroundings : List Surrounding) : List Surrounding :=
  surroundings.map fun surrounding => { surrounding with way := surrounding.way ++ [name] }

section

variable (visits : Place → String → Bool → List Surrounding → Bool) (reaches : Nat → Bool)
  (closed? : Place → Option FileError)

mutual

/-- The entries met at and below an entry that takes part in the walk and stands at some depth. A
directory is entered if the walk reaches what is in it and if it may be listed. The surroundings
hold the directories above the entry. -/
def walkEntry (way : Place) (depth : Nat) (surroundings : List Surrounding) :
    Entry → List (Except FileError Met)
  | .file content => [.ok ⟨way, .file content⟩]
  | .link target => [.ok ⟨way, .link target⟩]
  | .directory entries =>
    .ok ⟨way, .directory entries⟩ ::
      if reaches (depth + 1) then
        match closed? way with
        | some error => [.error error]
        | none => walkEntries way (depth + 1) (⟨.directory entries, []⟩ :: surroundings) entries
      else []

/-- The entries met at and below some entries of the directory that is the nearest of the
surroundings. -/
def walkEntries (way : Place) (depth : Nat) (surroundings : List Surrounding) :
    List (String × Entry) → List (Except FileError Met)
  | [] => []
  | (name, entry) :: entries =>
    let here := way ++ [name]
    let around := extend name surroundings
    (if visits here name entry.isDirectory around then walkEntry here depth around entry
      else []) ++
      walkEntries way depth surroundings entries

end

end

/-- The directories above a place, the nearest first, with the names on the way from each. -/
def surroundingsAbove (root : Entry) (place : Place) : List Surrounding :=
  (List.range place.length).reverse.filterMap fun count =>
    (root.at? (place.take count)).map fun directory => ⟨directory, place.drop count⟩

/-- What is met in a walk from a place. -/
def met (files : FileSystem) (place : Place) (rules : WalkRules) (deepest : Option UInt64) :
    List (Except FileError Met) :=
  match files.at? place with
  | some root =>
    walkEntry (isVisited rules) (reachesDepth deepest)
      (fun way => files.refusal? .read (place ++ way)) [] 0 (surroundingsAbove files.root place) root
  | none => []

/-- The built-in walker. -/
def builtIn : Walker where
  understands pattern := (IgnoreRule.read? .opensClass pattern.toList).isSome
  refusal? _ _ := none
  walk files root rules deepest :=
    match files.locate root with
    | .error error => [.error error.message]
    | .ok place =>
      (met files place rules deepest).map fun met =>
        match met with
        | .ok met => .ok (.ofEntry files root met.way met.entry)
        | .error error => .error error.message

end CodeAtlas.Walker
