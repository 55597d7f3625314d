/-
This file collects the names that are called in a part of a source file: each once, in the
order of their first call, without the names that are part of a language, and no more of them
than are kept.
-/

import CodeAtlas.Catalog.Basic
import CodeAtlas.Options
import CodeAtlas.Text.Blank

namespace CodeAtlas.Callees

open Text

/-- The names that are part of a language rather than of a project. -/
def denied : List String := [
  "print", "len", "str", "int", "float", "bool", "list", "dict", "set", "tuple", "range",
  "enumerate", "zip", "map", "filter", "sorted", "reversed", "isinstance", "hasattr",
  "getattr", "setattr", "super", "repr",
  "console", "log", "require", "import", "parseInt", "parseFloat",
  "println", "eprintln", "format", "write", "writeln", "vec", "panic", "assert",
  "assert_eq", "assert_ne", "debug_assert", "Some", "None", "Ok", "Err", "Box",
  "printf", "fprintf", "sprintf", "snprintf", "puts", "malloc", "calloc", "realloc", "free",
  "sizeof", "memcpy", "memset", "strlen", "strcmp",
  "Println", "Printf", "Sprintf", "Errorf", "make", "cap",
  "WriteLine",
  "echo", "isset", "array"]

/-- Whether a name never enters a list of calls. -/
def isDenied (name : String) : Bool :=
  name ∈ denied

/-- The separators between the segments of a name. -/
def separators : List Chars := [[':', ':'], ['-', '>'], ['.'], ['\\']]

/-- The shortest of some texts, the first of them if none is shorter. -/
def shortest (first : Chars) (others : List Chars) : Chars :=
  others.foldl (fun best other => if other.length < best.length then other else best) first

/-- The last segment of a qualified name. -/
def lastSegment (text : Chars) : Chars :=
  let name := trim text
  trim (shortest name (separators.map fun separator => afterLast separator name))

/-- A name with the byte offset of its call. -/
structure Call where
  offset : Nat
  name : String
deriving Repr

/-- The calls in the captures of some matches. -/
def found (source : Chars) (captures : List Capture) : List Call :=
  captures.filterMap fun capture =>
    if capture.label = "callee" then
      let name := lastSegment (capture.site.node.text source)
      if name.isEmpty then none
      else some ⟨capture.site.node.start, String.ofList name⟩
    else none

/-- The names of some calls that are kept. -/
def kept (calls : List Call) : List String :=
  let ordered := calls.mergeSort fun first second => first.offset ≤ second.offset
  let allowed := (ordered.map Call.name).filter fun name => !isDenied name
  (distinct allowed).take maxCalls

/-- The names called in the matches of a search. -/
def ofMatches (source : Chars) (found? : List Match) : List String :=
  kept (found source (found?.flatMap Match.captures))

end CodeAtlas.Callees
