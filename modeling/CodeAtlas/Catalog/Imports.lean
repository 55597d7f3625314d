/-
This file holds the queries for imports. The label `module` marks what is imported from,
`name` what is imported, and `wildcard` that everything is.
-/

import CodeAtlas.Query.Pattern

namespace CodeAtlas.Imports

open Pattern Rule

def python : Query := [
  noted "import x, import x as y" <|
    ofKind "import_statement" [inField "name" <| leaf "dotted_name" ["module"]] ["import"],
  plain <| ofKind "import_statement" [
    inField "name" <| ofKind "aliased_import" [
      inField "name" <| leaf "dotted_name" ["module"]] []] ["import"],
  noted "from x import y, from . import y" <|
    ofKind "import_from_statement" [inField "module_name" <| any ["module"]] ["import"],
  plain <| ofKind "import_from_statement" [inField "name" <| leaf "dotted_name" ["name"]] [],
  plain <| ofKind "import_from_statement" [
    inField "name" <| ofKind "aliased_import" [
      inField "name" <| leaf "dotted_name" ["name"]] []] [],
  plain <| ofKind "import_from_statement" [leaf "wildcard_import" ["wildcard"]] []]

def rust : Query := [
  noted "use a::b::C;" <| ofKind "use_declaration" [
    inField "argument" <| ofKind "scoped_identifier" [
      inField "path" <| any ["module"],
      inField "name" <| leaf "identifier" ["name"]] []] ["import"],
  noted "use foo;" <| ofKind "use_declaration" [
    inField "argument" <| leaf "identifier" ["module"]] ["import"],
  noted "use a::b::C as D;" <| ofKind "use_declaration" [
    inField "argument" <| ofKind "use_as_clause" [
      inField "path" <| ofKind "scoped_identifier" [
        inField "path" <| any ["module"],
        inField "name" <| leaf "identifier" ["name"]] []] []] ["import"],
  noted "use a::b::\x7bC, D\x7d;" <| ofKind "use_declaration" [
    inField "argument" <| ofKind "scoped_use_list" [
      inField "path" <| any ["module"]] []] ["import"],
  plain <| ofKind "use_declaration" [
    inField "argument" <| ofKind "scoped_use_list" [
      inField "list" <| ofKind "use_list" [leaf "identifier" ["name"]] []] []] [],
  noted "use a::b::*;" <| ofKind "use_declaration" [
    inField "argument" <| ofKind "use_wildcard" [any ["module"]] []] ["import"],
  plain <| ofKind "use_declaration" [
    inField "argument" <| leaf "use_wildcard" ["wildcard"]] [],
  noted "mod foo;" { ofKind "mod_item" [
    inField "name" <| leaf "identifier" ["module"]] ["import"] with without := ["body"] },
  noted "extern crate foo;" <| ofKind "extern_crate_declaration" [
    inField "name" <| leaf "identifier" ["module"]] ["import"]]

def c : Query := [
  plain <| ofKind "preproc_include" [inField "path" <| any ["module"]] ["import"]]

def javaScript : Query := [
  plain <| ofKind "import_statement" [inField "source" <| leaf "string" ["module"]] ["import"],
  plain <| ofKind "import_specifier" [inField "name" <| leaf "identifier" ["name"]] [],
  plain <| ofKind "import_clause" [leaf "identifier" ["name"]] [],
  plain <| leaf "namespace_import" ["wildcard"],
  { note := some "CommonJS: require(\"x\")"
    pattern := ofKind "call_expression" [
      inField "function" <| leaf "identifier" ["_require"],
      inField "arguments" <| ofKind "arguments" [leaf "string" ["module"]] []] ["import"]
    tests := [.equals "_require" "require"] }]

def go : Query := [
  plain <| ofKind "import_spec" [inField "path" <| any ["module"]] ["import"],
  plain <| ofKind "import_spec" [inField "name" <| leaf "dot" ["wildcard"]] []]

def java : Query := [
  plain <| ofKind "import_declaration" [leaf "scoped_identifier" ["module"]] ["import"],
  plain <| ofKind "import_declaration" [leaf "identifier" ["module"]] ["import"],
  plain <| ofKind "import_declaration" [leaf "asterisk" ["wildcard"]] []]

def cSharp : Query := [
  plain <| ofKind "using_directive" [leaf "qualified_name" ["module"]] ["import"],
  plain <| ofKind "using_directive" [leaf "identifier" ["module"]] ["import"]]

def ruby : Query := [
  { pattern := ofKind "call" [
      inField "method" <| leaf "identifier" ["_method"],
      inField "arguments" <| ofKind "argument_list" [leaf "string" ["module"]] []] ["import"]
    tests := [.oneOf "_method" ["require", "require_relative", "load"]] }]

def php : Query := [
  plain <| leaf "namespace_use_clause" ["module", "import"],
  plain <| ofKind "require_expression" [any ["module"]] ["import"],
  plain <| ofKind "require_once_expression" [any ["module"]] ["import"],
  plain <| ofKind "include_expression" [any ["module"]] ["import"],
  plain <| ofKind "include_once_expression" [any ["module"]] ["import"]]

/-- The query for a language without one of its own. -/
def general : Query := [
  plain <| leaf "import_statement" ["import"]]

end CodeAtlas.Imports
