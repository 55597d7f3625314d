/-
This file holds the values of the TOML format and puts the statements of a document together.
A table may be spoken of several times, but only in ways that do not define it twice.
-/

import CodeAtlas.Text.Chars

namespace CodeAtlas

/-- How a table came to be. -/
inductive TableOrigin where
  /-- By a header of its own. -/
  | defined
  /-- By the header of a table below it. -/
  | implied
  /-- By a key with dots. -/
  | dotted
  /-- As a value in braces. -/
  | inline
deriving DecidableEq, Repr

/-- A value of the TOML format. Of numbers with fractions and of moments in time only the text
is kept. -/
inductive Toml where
  | string (value : String)
  | integer (value : Int)
  | fraction (text : String)
  | boolean (value : Bool)
  | moment (text : String)
  | array (elements : List Toml)
  | table (origin : TableOrigin) (entries : List (String × Toml))
  /-- The tables of headers in double brackets, the latest first. -/
  | tables (elements : List (List (String × Toml)))
deriving Repr

/-- The entries of a table. -/
abbrev TomlEntries := List (String × Toml)

/-- A statement of a document. -/
inductive TomlStatement where
  /-- A value for a key, which lies below the tables of the path. -/
  | assign (path : List String) (key : String) (value : Toml)
  /-- The header of a table of a name, which lies below the tables of the path. -/
  | header (path : List String) (name : String)
  /-- The header of one more table of a list. -/
  | listHeader (path : List String) (name : String)
deriving Repr

namespace Toml

/-! ### Entries -/

/-- The value of a key. -/
def find? (key : String) : TomlEntries → Option Toml
  | [] => none
  | (held, value) :: entries => if held = key then some value else find? key entries

/-- The entries with a value for a key. -/
def put (key : String) (value : Toml) : TomlEntries → TomlEntries
  | [] => [(key, value)]
  | (held, old) :: entries =>
    if held = key then (held, value) :: entries else (held, old) :: put key value entries

/-! ### Going down -/

/-- What a header changes below the tables of its path. Tables that are not there are made. -/
def belowHeader (change : TomlEntries → Option TomlEntries) :
    List String → TomlEntries → Option TomlEntries
  | [], entries => change entries
  | name :: path, entries =>
    match find? name entries with
    | none =>
      (belowHeader change path []).map fun made => put name (.table .implied made) entries
    | some (.table .inline _) => none
    | some (.table origin held) =>
      (belowHeader change path held).map fun made => put name (.table origin made) entries
    | some (.tables (latest :: earlier)) =>
      (belowHeader change path latest).map fun made =>
        put name (.tables (made :: earlier)) entries
    | some _ => none

/-- The entries with a value for a key that they do not have yet. -/
def putNew (key : String) (value : Toml) (entries : TomlEntries) : Option TomlEntries :=
  match find? key entries with
  | none => some (put key value entries)
  | some _ => none

/-- The entries with a value below the tables of a key with dots. Such a key goes through tables
that no header defines, and ends in one that keys with dots have made. -/
def assignBelow (key : String) (value : Toml) :
    List String → TableOrigin → TomlEntries → Option TomlEntries
  | [], origin, entries => if origin = .dotted then putNew key value entries else none
  | name :: path, _, entries =>
    match find? name entries with
    | none =>
      (assignBelow key value path .dotted []).map fun made =>
        put name (.table .dotted made) entries
    | some (.table .implied held) =>
      (assignBelow key value path .implied held).map fun made =>
        put name (.table .implied made) entries
    | some (.table .dotted held) =>
      (assignBelow key value path .dotted held).map fun made =>
        put name (.table .dotted made) entries
    | some (.tables (latest :: earlier)) =>
      (assignBelow key value path .defined latest).map fun made =>
        put name (.tables (made :: earlier)) entries
    | some _ => none

/-- The entries with a value for a key that may have dots. -/
def assign (path : List String) (key : String) (value : Toml) (entries : TomlEntries) :
    Option TomlEntries :=
  match path with
  | [] => putNew key value entries
  | _ :: _ => assignBelow key value path .defined entries

/-! ### Documents -/

/-- The entries with a table that a header defines. -/
def define (name : String) (entries : TomlEntries) : Option TomlEntries :=
  match find? name entries with
  | none => some (put name (.table .defined []) entries)
  | some (.table .implied held) => some (put name (.table .defined held) entries)
  | some _ => none

/-- The entries with one more table of a list. -/
def defineNext (name : String) (entries : TomlEntries) : Option TomlEntries :=
  match find? name entries with
  | none => some (put name (.tables [[]]) entries)
  | some (.tables elements) => some (put name (.tables ([] :: elements)) entries)
  | some _ => none

/-- A document so far, with the path of the table that is spoken of. -/
structure Document where
  entries : TomlEntries := []
  current : List String := []

/-- The document after one more statement. -/
def Document.add (document : Document) : TomlStatement → Option Document
  | .assign path key value =>
    (belowHeader (assign path key value) document.current document.entries).map fun entries =>
      { document with entries }
  | .header path name =>
    (belowHeader (define name) path document.entries).map fun entries =>
      { entries, current := path ++ [name] }
  | .listHeader path name =>
    (belowHeader (defineNext name) path document.entries).map fun entries =>
      { entries, current := path ++ [name] }

/-- The entries of a document with some statements. -/
def ofStatements? (statements : List TomlStatement) : Option TomlEntries :=
  (statements.foldlM Document.add ({} : Document)).map Document.entries

/-- A table in braces with values for some keys. -/
def ofPairs? (pairs : List (List String × String × Toml)) : Option Toml :=
  (pairs.foldlM (fun entries (path, key, value) => assign path key value entries) []).map
    (.table .inline)

end Toml

end CodeAtlas
