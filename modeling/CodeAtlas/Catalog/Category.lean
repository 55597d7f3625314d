/-
This file names the categories of structure that are searched for in a syntax tree, and the
kinds of node that define something of a category, over all languages together.
-/

namespace CodeAtlas

/-- A category of structure. -/
inductive Category where
  | imports
  | classes
  | functions
  | calls
deriving DecidableEq, Repr

namespace Category

/-- Every category. -/
def all : List Category := [imports, classes, functions, calls]

/-- The name of a category. -/
def name : Category → String
  | imports => "imports"
  | classes => "classes"
  | functions => "functions"
  | calls => "calls"

/-- The category with a name. -/
def ofName? (text : String) : Option Category :=
  all.find? fun category => category.name = text

/-- The kinds of node that define something of a category. A call is no definition. -/
def definitionKinds : Category → List String
  | imports => [
    "import_statement", "import_from_statement", "future_import_statement",
    "use_declaration", "mod_item", "extern_crate_declaration",
    "import_spec", "import_declaration",
    "preproc_include",
    "using_directive",
    "namespace_use_clause", "require_expression", "require_once_expression",
    "include_expression", "include_once_expression",
    "call_expression", "call"]
  | classes => [
    "class_definition", "class_declaration", "abstract_class_declaration",
    "interface_declaration", "enum_declaration", "record_declaration", "struct_declaration",
    "trait_declaration", "class_specifier", "struct_specifier", "struct_item", "enum_item",
    "trait_item", "impl_item", "type_spec", "class", "module"]
  | functions => [
    "function_definition", "function_declaration", "generator_function_declaration",
    "function_item", "function_signature_item", "method_definition", "method_declaration",
    "constructor_declaration", "method", "singleton_method", "variable_declarator"]
  | calls => []

end Category

end CodeAtlas
