/-
This file holds the queries for functions and methods. The label `name` marks the name,
`params` the parameters, `return_type` the return type and `body` the body.
-/

import CodeAtlas.Query.Pattern

namespace CodeAtlas.Functions

open Pattern Rule

/-- A definition with a name, parameters and a body. -/
def definition (kind : String) (name : Pattern) (parameters body : String) : Rule :=
  plain <| ofKind kind [
    inField "name" name,
    inField "parameters" <| leaf parameters ["params"],
    inField "body" <| leaf body ["body"]] ["function"]

/-- A definition with a name and parameters. -/
def signature (kind : String) (name : Pattern) (parameters : String) : Rule :=
  plain <| ofKind kind [
    inField "name" name,
    inField "parameters" <| leaf parameters ["params"]] ["function"]

/-- The name of a definition. -/
def named (kind : String) : Pattern :=
  leaf kind ["name"]

def python : Query := [
  definition "function_definition" (named "identifier") "parameters" "block",
  plain <| ofKind "function_definition" [
    inField "return_type" <| leaf "type" ["return_type"]] []]

def rust : Query := [
  definition "function_item" (named "identifier") "parameters" "block",
  plain <| ofKind "function_item" [inField "return_type" <| any ["return_type"]] [],
  signature "function_signature_item" (named "identifier") "parameters",
  plain <| ofKind "function_signature_item" [inField "return_type" <| any ["return_type"]] []]

/-- A declarator with a name and parameters. -/
def declarator (name : Pattern) : Pattern :=
  inField "declarator" <| ofKind "function_declarator" [
    inField "declarator" name,
    inField "parameters" <| leaf "parameter_list" ["params"]] []

/-- A definition by a declarator. -/
def declared (declarator : Pattern) : Pattern :=
  ofKind "function_definition" [
    declarator,
    inField "body" <| leaf "compound_statement" ["body"]] ["function"]

def c : Query := [
  plain <| declared (declarator (named "identifier")),
  plain <| declared <|
    inField "declarator" <| ofKind "pointer_declarator" [declarator (named "identifier")] [],
  plain <| ofKind "function_definition" [inField "type" <| any ["return_type"]] []]

def cpp : Query := c ++ [
  noted "inline member functions" <| declared (declarator (named "field_identifier")),
  noted "out-of-line definitions: void Foo::bar()" <| declared <| declarator <|
    ofKind "qualified_identifier" [inField "name" (named "identifier")] []]

/-- A function that is the value of a variable belongs to the declarator of the variable. -/
def javaScript : Query := [
  definition "function_declaration" (named "identifier") "formal_parameters" "statement_block",
  definition "generator_function_declaration" (named "identifier") "formal_parameters"
    "statement_block",
  definition "method_definition" (any ["name"]) "formal_parameters" "statement_block",
  plain <| ofKind "variable_declarator" [
    inField "name" (named "identifier"),
    inField "value" <| ofKind "arrow_function" [inField "body" <| any ["body"]] []]
    ["function"],
  plain <| ofKind "variable_declarator" [
    inField "value" <| ofKind "arrow_function" [
      inField "parameters" <| leaf "formal_parameters" ["params"]] []] []]

/-- The return type as an annotation. -/
def annotated : Pattern :=
  inField "return_type" <| leaf "type_annotation" ["return_type"]

def typeScript : Query := javaScript ++ [
  plain <| ofKind "function_declaration" [annotated] [],
  plain <| ofKind "method_definition" [annotated] [],
  plain <| ofKind "variable_declarator" [
    inField "value" <| ofKind "arrow_function" [annotated] []] []]

def go : Query := [
  definition "function_declaration" (named "identifier") "parameter_list" "block",
  plain <| ofKind "function_declaration" [inField "result" <| any ["return_type"]] [],
  definition "method_declaration" (named "field_identifier") "parameter_list" "block",
  plain <| ofKind "method_declaration" [inField "result" <| any ["return_type"]] []]

def java : Query := [
  signature "method_declaration" (named "identifier") "formal_parameters",
  plain <| ofKind "method_declaration" [inField "type" <| any ["return_type"]] [],
  plain <| ofKind "method_declaration" [inField "body" <| leaf "block" ["body"]] [],
  definition "constructor_declaration" (named "identifier") "formal_parameters"
    "constructor_body"]

def cSharp : Query := [
  signature "method_declaration" (named "identifier") "parameter_list",
  plain <| ofKind "method_declaration" [inField "body" <| leaf "block" ["body"]] [],
  signature "constructor_declaration" (named "identifier") "parameter_list",
  plain <| ofKind "constructor_declaration" [inField "body" <| leaf "block" ["body"]] []]

/-- Bodies have no role of their own here, so that a method's calls are those of its node. -/
def ruby : Query := [
  plain <| ofKind "method" [inField "name" <| any ["name"]] ["function"],
  plain <| ofKind "method" [
    inField "parameters" <| leaf "method_parameters" ["params"]] [],
  plain <| ofKind "singleton_method" [inField "name" <| any ["name"]] ["function"],
  plain <| ofKind "singleton_method" [
    inField "parameters" <| leaf "method_parameters" ["params"]] []]

def php : Query := [
  definition "function_definition" (named "name") "formal_parameters" "compound_statement",
  signature "method_declaration" (named "name") "formal_parameters",
  plain <| ofKind "method_declaration" [
    inField "body" <| leaf "compound_statement" ["body"]] []]

/-- The query for a language without one of its own. -/
def general : Query := [
  plain <| ofKind "function_definition" [inField "name" <| any ["name"]] ["function"],
  plain <| ofKind "function_definition" [inField "body" <| any ["body"]] []]

end CodeAtlas.Functions
