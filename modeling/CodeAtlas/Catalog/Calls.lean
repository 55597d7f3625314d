/-
This file holds the queries for calls. The label `callee` marks the name of what is called.
-/

import CodeAtlas.Query.Pattern

namespace CodeAtlas.Calls

open Pattern Rule

/-- The name of what is called. -/
def callee (kind : String) : Pattern :=
  leaf kind ["callee"]

/-- A call in which the callee stands directly in a role. -/
def direct (call role kind : String) : Rule :=
  plain <| ofKind call [inField role (callee kind)] []

/-- A call in which the callee is a part of the expression that is called. -/
def qualified (call role expression part kind : String) : Rule :=
  plain <| ofKind call [inField role <| ofKind expression [inField part (callee kind)] []] []

def python : Query := [
  direct "call" "function" "identifier",
  qualified "call" "function" "attribute" "attribute" "identifier"]

def rust : Query := [
  direct "call_expression" "function" "identifier",
  qualified "call_expression" "function" "field_expression" "field" "field_identifier",
  qualified "call_expression" "function" "scoped_identifier" "name" "identifier",
  direct "macro_invocation" "macro" "identifier"]

def c : Query := [
  direct "call_expression" "function" "identifier",
  qualified "call_expression" "function" "field_expression" "field" "field_identifier"]

def cpp : Query := c ++ [
  qualified "call_expression" "function" "qualified_identifier" "name" "identifier"]

def javaScript : Query := [
  direct "call_expression" "function" "identifier",
  qualified "call_expression" "function" "member_expression" "property" "property_identifier",
  direct "new_expression" "constructor" "identifier"]

def go : Query := [
  direct "call_expression" "function" "identifier",
  qualified "call_expression" "function" "selector_expression" "field" "field_identifier"]

def java : Query := [
  direct "method_invocation" "name" "identifier",
  direct "object_creation_expression" "type" "type_identifier"]

def cSharp : Query := [
  direct "invocation_expression" "function" "identifier",
  qualified "invocation_expression" "function" "member_access_expression" "name" "identifier",
  direct "object_creation_expression" "type" "identifier"]

def ruby : Query := [
  direct "call" "method" "identifier"]

def php : Query := [
  direct "function_call_expression" "function" "name",
  direct "function_call_expression" "function" "qualified_name",
  direct "member_call_expression" "name" "name",
  direct "scoped_call_expression" "name" "name"]

/-- The query for a language without one of its own. -/
def general : Query := [
  plain <| ofKind "call_expression" [inField "function" <| any ["callee"]] []]

end CodeAtlas.Calls
