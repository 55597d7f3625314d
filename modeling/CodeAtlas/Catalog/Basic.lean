/-
This file is the catalog of queries: which query serves a language in a category, and whether
it can be used. A query that asks for a kind of node which the grammar of a language does not have
cannot be used for that language.
-/

import CodeAtlas.Catalog.Calls
import CodeAtlas.Catalog.Category
import CodeAtlas.Catalog.Classes
import CodeAtlas.Catalog.Functions
import CodeAtlas.Catalog.Imports
import CodeAtlas.Language
import CodeAtlas.Query.Match
import CodeAtlas.Query.Script
import CodeAtlas.Tree.Node

namespace CodeAtlas.Catalog

/-! ### Queries -/

/-- The query of a language's own for a category. -/
def dedicated? : Language → Category → Option Query
  | .python, .imports => some Imports.python
  | .python, .classes => some Classes.python
  | .python, .functions => some Functions.python
  | .python, .calls => some Calls.python
  | .rust, .imports => some Imports.rust
  | .rust, .classes => some Classes.rust
  | .rust, .functions => some Functions.rust
  | .rust, .calls => some Calls.rust
  | .c, .imports => some Imports.c
  | .c, .classes => some Classes.c
  | .c, .functions => some Functions.c
  | .c, .calls => some Calls.c
  | .cpp, .imports => some Imports.c
  | .cpp, .classes => some Classes.cpp
  | .cpp, .functions => some Functions.cpp
  | .cpp, .calls => some Calls.cpp
  | .javaScript, .classes => some Classes.javaScript
  | .javaScript, .functions => some Functions.javaScript
  | .typeScript, .classes | .tsx, .classes => some Classes.typeScript
  | .typeScript, .functions | .tsx, .functions => some Functions.typeScript
  | .javaScript, .imports | .typeScript, .imports | .tsx, .imports => some Imports.javaScript
  | .javaScript, .calls | .typeScript, .calls | .tsx, .calls => some Calls.javaScript
  | .go, .imports => some Imports.go
  | .go, .classes => some Classes.go
  | .go, .functions => some Functions.go
  | .go, .calls => some Calls.go
  | .java, .imports => some Imports.java
  | .java, .classes => some Classes.java
  | .java, .functions => some Functions.java
  | .java, .calls => some Calls.java
  | .cSharp, .imports => some Imports.cSharp
  | .cSharp, .classes => some Classes.cSharp
  | .cSharp, .functions => some Functions.cSharp
  | .cSharp, .calls => some Calls.cSharp
  | .ruby, .imports => some Imports.ruby
  | .ruby, .classes => some Classes.ruby
  | .ruby, .functions => some Functions.ruby
  | .ruby, .calls => some Calls.ruby
  | .php, .imports => some Imports.php
  | .php, .classes => some Classes.php
  | .php, .functions => some Functions.php
  | .php, .calls => some Calls.php
  | .bash, _ => none

/-- The query for a category in languages that have none of their own. -/
def general : Category → Query
  | .imports => Imports.general
  | .classes => Classes.general
  | .functions => Functions.general
  | .calls => Calls.general

/-- The query that serves a language in a category. -/
def query (language : Language) (category : Category) : Query :=
  (dedicated? language category).getD (general category)

/-- Whether a language has queries of its own. -/
def isDedicated (language : Language) : Bool :=
  (dedicated? language .functions).isSome

/-! ### Use -/

/-- Why a query cannot be used: a kind of node that the language does not have, and where the
script of the query asks for it, counted from one. -/
structure KindError where
  row : Nat
  column : Nat
  kind : String
deriving DecidableEq, Repr

/-- What is said about a query that cannot be used. -/
def KindError.message (error : KindError) : String :=
  "Query error at " ++ toString error.row ++ ":" ++ toString error.column ++
    ". Invalid node type " ++ error.kind

/-- The error about a kind that a query asks for. -/
def kindError (query : Query) (kind : String) : KindError :=
  let script := (Query.script query).toList
  let before := Text.beforeFirst ('(' :: kind.toList) script
  { row := before.count '\n' + 1
    column := (Text.afterLast ['\n'] before).length + 2
    kind }

/-- The query that serves a language in a category, if it can be used with a grammar. -/
def usable (grammar : Grammar) (language : Language) (category : Category) :
    Except KindError Query :=
  let query := query language category
  match query.kinds.find? fun kind => !grammar.hasKind kind with
  | some kind => .error (kindError query kind)
  | none => .ok query

/-- What a report says when a query cannot be used. -/
def failureMessage (language : Language) (category : Category) (reason : String) : String :=
  "Query failure (" ++ language.displayName ++ " " ++ category.name ++ "): " ++ reason

/-! ### Searching -/

/-- A way to search a source: for each category either the matches below a site or what is
said when the category cannot be searched. -/
abbrev Search := Category → Except String (Site → List Match)

/-- Searching a file with the queries that serve its language. -/
def search (file : ParsedFile) : Search := fun category =>
  match usable (file.grammars file.language) file.language category with
  | .ok query => .ok (query.matches file.source)
  | .error error => .error (failureMessage file.language category error.message)

end CodeAtlas.Catalog
