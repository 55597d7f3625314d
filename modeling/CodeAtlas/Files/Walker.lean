/-
This file says what a walker is: it goes through the directories below a root by rules about what is
passed over, down to some depth, and says of every entry that it comes to what can be said without
reading it. An entry that it cannot come to is an error among the others.
-/

import CodeAtlas.Files.Tree

namespace CodeAtlas

/-- The rules about what a walk passes over. -/
structure WalkRules where
  /-- Whether entries whose names begin with a dot are passed over. -/
  skipsHidden : Bool
  readsIgnore : Bool
  readsGitIgnore : Bool
  readsGitGlobal : Bool
  readsGitExclude : Bool
  /-- Whether the rules of git count only in a repository. -/
  needsGit : Bool
  /-- Patterns that go before all files of rules. Behind an exclamation mark a pattern excludes what
  it matches. -/
  overrides : List String
deriving DecidableEq, Repr

/-- An entry to which a walk has come. -/
structure WalkItem where
  /-- The path of the root with the names on the way from it. -/
  path : String
  /-- The number of names on the way from the root. -/
  depth : Nat
  isFile : Bool
  /-- The number of bytes, if it can be told. -/
  size? : Option Nat
deriving DecidableEq, Repr

/-- A walker. -/
structure Walker where
  /-- Whether a pattern is understood. -/
  understands : String → Bool
  /-- Why patterns for what is below a root cannot be used together, if they cannot. -/
  refusal? : String → List String → Option String
  /-- The walk below a root by some rules, down to a greatest depth if there is one. -/
  walk : FileSystem → String → WalkRules → Option UInt64 → List (Except String WalkItem)

/-! ### What is said of entries -/

/-- The path of what stands below a root, with the names on the way from it. -/
def pathBelow (root : String) (way : Place) : String :=
  if way.isEmpty then root else Path.join root ("/".intercalate way)

/-- What there is to say of an entry below a root. -/
def WalkItem.ofEntry (files : FileSystem) (root : String) (way : Place) (entry : Entry) :
    WalkItem where
  path := pathBelow root way
  depth := way.length
  isFile := entry.isFile
  size? := files.size? (pathBelow root way)

namespace Walker

/-- The entries to which a walk comes. -/
def items (walker : Walker) (files : FileSystem) (root : String) (rules : WalkRules)
    (deepest : Option UInt64) : List WalkItem :=
  (walker.walk files root rules deepest).filterMap Except.toOption

end Walker

end CodeAtlas
