/-
This file reads the lines that say what to ignore and decides by them. A line excludes what
its glob matches, or includes it again; of several lines that match, the last decides.
-/

import CodeAtlas.Ignore.GlobReader
import CodeAtlas.Text.Blank

namespace CodeAtlas

/-- What is decided about an entry. -/
inductive Verdict where
  | exclude
  | include
deriving DecidableEq, Repr

/-- A line that says what to ignore. -/
structure IgnoreRule where
  verdict : Verdict
  directoriesOnly : Bool
  glob : Glob

namespace IgnoreRule

open Text

/-- A line without the blanks at its end, unless the last of them is escaped. -/
def trimLine (line : Chars) : Chars :=
  if endsWith ['\\', ' '] line then line else trimBack line

/-- A line of which the marks at its beginning have been read. -/
structure Opened where
  verdict : Verdict
  isAnchored : Bool
  rest : Chars

/-- Reads the marks at the beginning of a line: an exclamation mark includes, and a slash binds
the line to its directory. A backslash takes the meaning of a mark away. -/
def openLine : Chars → Opened
  | '\\' :: '!' :: text => ⟨.exclude, false, '!' :: text⟩
  | '\\' :: '#' :: text => ⟨.exclude, false, '#' :: text⟩
  | '!' :: '/' :: text => ⟨.include, true, text⟩
  | '!' :: text => ⟨.include, false, text⟩
  | '/' :: text => ⟨.exclude, true, text⟩
  | text => ⟨.exclude, false, text⟩

/-- A line without the slash at its end, which binds it to directories, and whether there was
one. -/
def closeLine (text : Chars) : Chars × Bool :=
  match stripBack? ['/'] text with
  | some rest => ((stripBack? ['\\'] rest).getD rest, true)
  | none => (text, false)

/-- The glob of a line. A line without slashes matches at every depth, and one that ends in two
stars matches what is in a directory but not the directory. -/
def globText (isAnchored : Bool) (text : Chars) : Chars :=
  let begun :=
    if isAnchored || text.any (· == '/') || text = ['*', '*'] then text
    else '*' :: '*' :: '/' :: text
  if endsWith ['/', '*', '*'] begun then begun ++ ['/', '*'] else begun

/-- Reads a line. A blank line and a comment say nothing, nor does a line that is no glob. -/
def read? (bracket : Glob.Bracket) (line : Chars) : Option IgnoreRule :=
  if startsWith ['#'] line then none
  else
    let trimmed := trimLine line
    if trimmed.isEmpty then none
    else
      let opened := openLine trimmed
      let (text, directoriesOnly) := closeLine opened.rest
      (Glob.read? bracket (globText opened.isAnchored text)).map fun glob =>
        { verdict := opened.verdict, directoriesOnly, glob }

/-- Whether a line matches a path. -/
def fits (rule : IgnoreRule) (path : Chars) (isDirectory : Bool) : Bool :=
  (!rule.directoriesOnly || isDirectory) && rule.glob.matchesPath path

/-- What some lines decide about a path. -/
def decide? (rules : List IgnoreRule) (path : Chars) (isDirectory : Bool) : Option Verdict :=
  (rules.reverse.find? (·.fits path isDirectory)).map IgnoreRule.verdict

/-- Reads the lines of a file. A mark of the byte order at its beginning is passed over, and a
bracket that nothing closes stands for itself. -/
def readLines (text : Chars) : List IgnoreRule :=
  match lines text with
  | first :: rest => (first.dropWhile (·.toNat = 0xFEFF) :: rest).filterMap (read? .opensClosedClass)
  | [] => []

/-- The lines that some patterns make. A pattern stands behind the mark that includes, so that what
the lines then include is excluded. -/
def ofPatterns (patterns : List String) : List IgnoreRule :=
  patterns.filterMap fun pattern => read? .opensClass pattern.toList

/-- Whether some patterns match a path. -/
def matchPatterns (rules : List IgnoreRule) (path : Chars) (isDirectory : Bool) : Bool :=
  (decide? rules path isDirectory).isSome

end IgnoreRule

end CodeAtlas
