/-
This file holds what is known of a source file once it has been read: its imports, its
classes with their methods, and its functions. Lines are counted from one, and a range of
lines holds both of its ends.
-/

import CodeAtlas.Language

namespace CodeAtlas

/-! ### Imports -/

/-- An import of a module. -/
structure Import where
  /-- The statement as written, in one line. -/
  raw : String
  /-- The module without quotes and brackets. -/
  moduleName : String
  /-- The names that are imported; a star stands for all of them. -/
  names : List String
  line : Nat
deriving DecidableEq, Repr

/-- The name that stands for all names of a module. -/
def Import.wildcard : String := "*"

/-- Whether an import brings in every name of the module. -/
def Import.isWildcard (statement : Import) : Bool :=
  statement.names.any (· = wildcard)

/-! ### Functions -/

/-- A function or a method. -/
structure Function where
  name : String
  /-- The parameters as written, with their parentheses. -/
  parameters : String
  /-- The return type without the mark that introduces it. -/
  returnType : String
  doc : String
  startLine : Nat
  endLine : Nat
  /-- The names that are called, in the order of their first call. -/
  calls : List String
  isMethod : Bool
  isPrivate : Bool
  /-- The byte offset of the definition, which tells it from all others of its file. -/
  offset : Nat := 0
deriving DecidableEq, Repr

/-- The number of lines from one line to another, a machine word. It is nought only for the range
of all words, which holds one line more than a word can count. -/
def lineCount (startLine endLine : Nat) : Nat :=
  if startLine = 0 ∧ endLine + 1 = UInt64.size then 0 else endLine - startLine + 1

/-- The name, the parameters and the return type in one text. -/
def Function.signature (function : Function) : String :=
  let parameters := if function.parameters.isEmpty then "()" else function.parameters
  if function.returnType.isEmpty then function.name ++ parameters
  else function.name ++ parameters ++ " -> " ++ function.returnType

/-- The number of lines of a function. -/
def Function.lineCount (function : Function) : Nat :=
  CodeAtlas.lineCount function.startLine function.endLine

/-- Whether a range of lines lies within a function. -/
def Function.containsLines (function : Function) (startLine endLine : Nat) : Bool :=
  function.startLine ≤ startLine && endLine ≤ function.endLine

/-! ### Classes -/

/-- A class, or anything else that can have methods or bases. -/
structure Class where
  name : String
  /-- The names of the bases. -/
  bases : List String
  doc : String
  startLine : Nat
  endLine : Nat
  methods : List Function
  isPrivate : Bool
  /-- The byte offset of the definition. -/
  offset : Nat := 0
deriving DecidableEq, Repr

/-- The number of lines of a class. -/
def Class.lineCount (owner : Class) : Nat :=
  CodeAtlas.lineCount owner.startLine owner.endLine

/-- Whether a range of lines lies within a class. -/
def Class.containsLines (owner : Class) (startLine endLine : Nat) : Bool :=
  owner.startLine ≤ startLine && endLine ≤ owner.endLine

/-- The first method of a name. -/
def Class.method? (owner : Class) (name : String) : Option Function :=
  owner.methods.find? fun method => method.name = name

/-! ### Files -/

/-- What is known of a source file. -/
structure FileRecord where
  /-- The path from the root of the project. -/
  path : String
  language : Option Language
  imports : List Import
  classes : List Class
  /-- The functions that belong to no class. -/
  functions : List Function
  /-- What went wrong while the file was read. -/
  errors : List String
deriving DecidableEq, Repr

namespace FileRecord

/-- The record of a file of which nothing is known but what went wrong. -/
def failed (path : String) (language : Option Language) (error : String) : FileRecord :=
  { path, language, imports := [], classes := [], functions := [], errors := [error] }

/-- Whether anything went wrong. -/
def hasErrors (file : FileRecord) : Bool :=
  !file.errors.isEmpty

/-- Whether nothing was found in a file. -/
def isEmpty (file : FileRecord) : Bool :=
  file.imports.isEmpty && file.classes.isEmpty && file.functions.isEmpty

/-- The number of methods of all classes. -/
def methodCount (file : FileRecord) : Nat :=
  (file.classes.flatMap fun owner => owner.methods).length

/-- The tag of the language, if the language is known. -/
def languageTag (file : FileRecord) : String :=
  match file.language with
  | some language => language.tag
  | none => "unknown"

/-- The functions and the methods of all classes. -/
def allFunctions (file : FileRecord) : List Function :=
  file.functions ++ file.classes.flatMap Class.methods

end FileRecord

end CodeAtlas
