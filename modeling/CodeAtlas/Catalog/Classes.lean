/-
This file holds the queries for classes. The label `name` marks the name, `body` the body and
`bases` the text in which the bases are listed. Everything that can have methods or bases
counts as a class.
-/

import CodeAtlas.Query.Pattern

namespace CodeAtlas.Classes

open Pattern Rule

def python : Query := [
  plain <| ofKind "class_definition" [
    inField "name" <| leaf "identifier" ["name"],
    inField "body" <| leaf "block" ["body"]] ["class"],
  plain <| ofKind "class_definition" [
    inField "superclasses" <| leaf "argument_list" ["bases"]] []]

/-- A block of methods for a type is a class of the type's name, and the trait that it
implements is its base. -/
def rust : Query := [
  plain <| ofKind "struct_item" [inField "name" <| leaf "type_identifier" ["name"]] ["class"],
  plain <| ofKind "enum_item" [inField "name" <| leaf "type_identifier" ["name"]] ["class"],
  plain <| ofKind "trait_item" [inField "name" <| leaf "type_identifier" ["name"]] ["class"],
  plain <| ofKind "trait_item" [inField "bounds" <| leaf "trait_bounds" ["bases"]] [],
  plain <| ofKind "impl_item" [inField "type" <| any ["name"]] ["class"],
  plain <| ofKind "impl_item" [inField "trait" <| any ["bases"]] []]

/-- A structure counts only where it has a body. -/
def c : Query := [
  plain <| ofKind "struct_specifier" [
    inField "name" <| leaf "type_identifier" ["name"],
    inField "body" <| leaf "field_declaration_list" ["body"]] ["class"]]

def cpp : Query := c ++ [
  plain <| ofKind "class_specifier" [
    inField "name" <| leaf "type_identifier" ["name"],
    inField "body" <| leaf "field_declaration_list" ["body"]] ["class"],
  plain <| ofKind "class_specifier" [leaf "base_class_clause" ["bases"]] [],
  plain <| ofKind "struct_specifier" [leaf "base_class_clause" ["bases"]] []]

def javaScript : Query := [
  plain <| ofKind "class_declaration" [
    inField "name" <| any ["name"],
    inField "body" <| leaf "class_body" ["body"]] ["class"],
  plain <| ofKind "class_declaration" [leaf "class_heritage" ["bases"]] []]

def typeScript : Query := javaScript ++ [
  plain <| ofKind "abstract_class_declaration" [
    inField "name" <| leaf "type_identifier" ["name"],
    inField "body" <| leaf "class_body" ["body"]] ["class"],
  plain <| ofKind "abstract_class_declaration" [leaf "class_heritage" ["bases"]] [],
  plain <| ofKind "interface_declaration" [
    inField "name" <| leaf "type_identifier" ["name"]] ["class"]]

def go : Query := [
  plain <| ofKind "type_spec" [
    inField "name" <| leaf "type_identifier" ["name"],
    inField "type" <| leaf "struct_type" ["body"]] ["class"],
  plain <| ofKind "type_spec" [
    inField "name" <| leaf "type_identifier" ["name"],
    inField "type" <| leaf "interface_type" ["body"]] ["class"]]

def java : Query := [
  plain <| ofKind "class_declaration" [
    inField "name" <| leaf "identifier" ["name"],
    inField "body" <| leaf "class_body" ["body"]] ["class"],
  plain <| ofKind "class_declaration" [
    inField "superclass" <| leaf "superclass" ["bases"]] [],
  plain <| ofKind "class_declaration" [
    inField "interfaces" <| leaf "super_interfaces" ["bases"]] [],
  plain <| ofKind "interface_declaration" [
    inField "name" <| leaf "identifier" ["name"]] ["class"],
  plain <| ofKind "interface_declaration" [leaf "extends_interfaces" ["bases"]] [],
  plain <| ofKind "enum_declaration" [inField "name" <| leaf "identifier" ["name"]] ["class"],
  plain <| ofKind "record_declaration" [inField "name" <| leaf "identifier" ["name"]] ["class"]]

def cSharp : Query := [
  plain <| ofKind "class_declaration" [
    inField "name" <| leaf "identifier" ["name"]] ["class"],
  plain <| ofKind "class_declaration" [leaf "base_list" ["bases"]] [],
  plain <| ofKind "interface_declaration" [
    inField "name" <| leaf "identifier" ["name"]] ["class"],
  plain <| ofKind "interface_declaration" [leaf "base_list" ["bases"]] [],
  plain <| ofKind "struct_declaration" [
    inField "name" <| leaf "identifier" ["name"]] ["class"],
  plain <| ofKind "record_declaration" [
    inField "name" <| leaf "identifier" ["name"]] ["class"],
  plain <| ofKind "enum_declaration" [
    inField "name" <| leaf "identifier" ["name"]] ["class"]]

def ruby : Query := [
  plain <| ofKind "class" [inField "name" <| any ["name"]] ["class"],
  plain <| ofKind "class" [
    inField "superclass" { ofKind "superclass" [any ["bases"]] [] with inOneLine := true }] [],
  plain <| ofKind "module" [inField "name" <| any ["name"]] ["class"]]

def php : Query := [
  plain <| ofKind "class_declaration" [inField "name" <| leaf "name" ["name"]] ["class"],
  plain <| ofKind "class_declaration" [leaf "base_clause" ["bases"]] [],
  plain <| ofKind "class_declaration" [leaf "class_interface_clause" ["bases"]] [],
  plain <| ofKind "interface_declaration" [inField "name" <| leaf "name" ["name"]] ["class"],
  plain <| ofKind "trait_declaration" [inField "name" <| leaf "name" ["name"]] ["class"]]

/-- The query for a language without one of its own. -/
def general : Query := [
  plain <| ofKind "class_definition" [inField "name" <| any ["name"]] ["class"]]

end CodeAtlas.Classes
