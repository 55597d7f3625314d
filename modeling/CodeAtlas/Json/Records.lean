/-
This file writes an analysis as a JSON value and reads it back. The byte offsets of
definitions are not written; where they are missing they are read as zero.
-/

import CodeAtlas.Analysis
import CodeAtlas.Json.Reading
import CodeAtlas.Options

namespace CodeAtlas

open Json

/-! ### Languages -/

/-- A language as a JSON value. -/
def Language.toJson (language : Language) : Json :=
  .string language.tag

/-- Reads a language. -/
def Language.ofJson? (value : Json) : Option Language :=
  (word? value).bind Language.ofTag?

/-! ### Entities -/

/-- An import as a JSON value. -/
def Import.toJson (statement : Import) : Json :=
  .object [
    ("raw", .string statement.raw),
    ("module", .string statement.moduleName),
    ("names", .strings statement.names),
    ("line", .nat statement.line)]

/-- Reads an import. -/
def Import.ofJson? (value : Json) : Option Import :=
  if value.isRecord 4 then do
    let raw ← required string? value 0 "raw"
    let moduleName ← required string? value 1 "module"
    let names ← required strings? value 2 "names"
    let line ← required nat? value 3 "line"
    return { raw, moduleName, names, line }
  else none

/-- The members of a function. -/
def Function.members (function : Function) : List (String × Json) := [
  ("name", .string function.name),
  ("parameters", .string function.parameters),
  ("return_type", .string function.returnType),
  ("doc", .string function.doc),
  ("start_line", .nat function.startLine),
  ("end_line", .nat function.endLine),
  ("calls", .strings function.calls),
  ("is_method", .bool function.isMethod),
  ("is_private", .bool function.isPrivate)]

/-- A function as a JSON value. -/
def Function.toJson (function : Function) : Json :=
  .object function.members

/-- A function with its offset as a JSON value. -/
def Function.toPlacedJson (function : Function) : Json :=
  .object (function.members ++ [("offset", .nat function.offset)])

/-- Reads a function. -/
def Function.ofJson? (value : Json) : Option Function :=
  if value.isRecord 10 then do
    let name ← required string? value 0 "name"
    let parameters ← required string? value 1 "parameters"
    let returnType ← required string? value 2 "return_type"
    let doc ← required string? value 3 "doc"
    let startLine ← required nat? value 4 "start_line"
    let endLine ← required nat? value 5 "end_line"
    let calls ← required strings? value 6 "calls"
    let isMethod ← required bool? value 7 "is_method"
    let isPrivate ← required bool? value 8 "is_private"
    let offset ← defaulted 0 nat? value 9 "offset"
    return {
      name, parameters, returnType, doc, startLine, endLine, calls, isMethod, isPrivate, offset }
  else none

/-- The members of a class with its methods written by `encode`. -/
def Class.members (encode : Function → Json) (owner : Class) : List (String × Json) := [
  ("name", .string owner.name),
  ("bases", .strings owner.bases),
  ("doc", .string owner.doc),
  ("start_line", .nat owner.startLine),
  ("end_line", .nat owner.endLine),
  ("methods", .array (owner.methods.map encode)),
  ("is_private", .bool owner.isPrivate)]

/-- A class as a JSON value. -/
def Class.toJson (owner : Class) : Json :=
  .object (owner.members Function.toJson)

/-- A class with all offsets as a JSON value. -/
def Class.toPlacedJson (owner : Class) : Json :=
  .object (owner.members Function.toPlacedJson ++ [("offset", .nat owner.offset)])

/-- Reads a class. -/
def Class.ofJson? (value : Json) : Option Class :=
  if value.isRecord 8 then do
    let name ← required string? value 0 "name"
    let bases ← required strings? value 1 "bases"
    let doc ← required string? value 2 "doc"
    let startLine ← required nat? value 3 "start_line"
    let endLine ← required nat? value 4 "end_line"
    let methods ← required (list? Function.ofJson?) value 5 "methods"
    let isPrivate ← required bool? value 6 "is_private"
    let offset ← defaulted 0 nat? value 7 "offset"
    return { name, bases, doc, startLine, endLine, methods, isPrivate, offset }
  else none

namespace FileRecord

/-- A file as a JSON value, with its classes and functions written by the given functions. -/
def encode (encodeClass : Class → Json) (encodeFunction : Function → Json) (file : FileRecord) :
    Json :=
  .object [
    ("path", .string file.path),
    ("language", .orNull Language.toJson file.language),
    ("imports", .array (file.imports.map Import.toJson)),
    ("classes", .array (file.classes.map encodeClass)),
    ("functions", .array (file.functions.map encodeFunction)),
    ("errors", .strings file.errors)]

/-- A file as a JSON value. -/
def toJson (file : FileRecord) : Json :=
  file.encode Class.toJson Function.toJson

/-- A file with all offsets as a JSON value. -/
def toPlacedJson (file : FileRecord) : Json :=
  file.encode Class.toPlacedJson Function.toPlacedJson

/-- Reads a file. -/
def ofJson? (value : Json) : Option FileRecord :=
  if value.isRecord 6 then do
    let path ← required string? value 0 "path"
    let language ← optional Language.ofJson? value 1 "language"
    let imports ← required (list? Import.ofJson?) value 2 "imports"
    let classes ← required (list? Class.ofJson?) value 3 "classes"
    let functions ← required (list? Function.ofJson?) value 4 "functions"
    let errors ← required strings? value 5 "errors"
    return { path, language, imports, classes, functions, errors }
  else none

end FileRecord

/-! ### Tables -/

/-- A table as a JSON value. -/
def Index.toJson {α : Type} (encode : α → Json) (index : Index α) : Json :=
  .object (index.entries.map fun (key, value) => (key, encode value))

/-- Reads the value of a member. -/
def readMember? {α : Type} (read : Json → Option α) (entry : String × Json) :
    Option (String × α) :=
  (read entry.2).map (entry.1, ·)

/-- Reads a table. -/
def Index.ofJson? {α : Type} (read : Json → Option α) : Json → Option (Index α)
  | .object members => (members.mapM (readMember? read)).map Index.ofEntries
  | _ => none

/-- A table of lists as a JSON value. -/
def listsToJson (index : Index (List String)) : Json :=
  index.toJson Json.strings

/-- A set as a JSON value. -/
def TextSet.toJson (set : TextSet) : Json :=
  .strings set.toList

/-- Reads a set, whose elements may come in any order and more than once. -/
def TextSet.ofJson? (value : Json) : Option TextSet :=
  (strings? value).map TextSet.ofList

/-! ### Relationships and numbers -/

/-- The relationships as a JSON value. -/
def Relationships.toJson (relationships : Relationships) : Json :=
  .object [
    ("imports", listsToJson relationships.imports),
    ("dependencies", relationships.dependencies.toJson TextSet.toJson),
    ("inheritance", listsToJson relationships.inheritance),
    ("calls", listsToJson relationships.calls),
    ("function_index", listsToJson relationships.functionIndex),
    ("class_index", listsToJson relationships.classIndex)]

/-- Reads relationships. -/
def Relationships.ofJson? (value : Json) : Option Relationships :=
  if value.isRecord 6 then do
    let imports ← required (Index.ofJson? strings?) value 0 "imports"
    let dependencies ← required (Index.ofJson? TextSet.ofJson?) value 1 "dependencies"
    let inheritance ← required (Index.ofJson? strings?) value 2 "inheritance"
    let calls ← required (Index.ofJson? strings?) value 3 "calls"
    let functionIndex ← required (Index.ofJson? strings?) value 4 "function_index"
    let classIndex ← required (Index.ofJson? strings?) value 5 "class_index"
    return { imports, dependencies, inheritance, calls, functionIndex, classIndex }
  else none

/-- The numbers of an analysis as a JSON value. -/
def Stats.toJson (stats : Stats) : Json :=
  .object [
    ("files_processed", .nat stats.filesProcessed),
    ("files_with_errors", .nat stats.filesWithErrors),
    ("imports", .nat stats.imports),
    ("classes", .nat stats.classes),
    ("functions", .nat stats.functions),
    ("methods", .nat stats.methods),
    ("extract_time_ms", .nat stats.extractTime),
    ("resolve_time_ms", .nat stats.resolveTime)]

/-- Reads the numbers of an analysis. -/
def Stats.ofJson? (value : Json) : Option Stats :=
  if value.isRecord 8 then do
    let filesProcessed ← required nat? value 0 "files_processed"
    let filesWithErrors ← required nat? value 1 "files_with_errors"
    let imports ← required nat? value 2 "imports"
    let classes ← required nat? value 3 "classes"
    let functions ← required nat? value 4 "functions"
    let methods ← required nat? value 5 "methods"
    let extractTime ← required nat? value 6 "extract_time_ms"
    let resolveTime ← required nat? value 7 "resolve_time_ms"
    return {
      filesProcessed, filesWithErrors, imports, classes, functions, methods, extractTime
      resolveTime }
  else none

/-! ### Analyses -/

/-- An analysis as a JSON value. -/
def Analysis.toJson (analysis : Analysis) : Json :=
  .object [
    ("files", .array (analysis.files.map FileRecord.toJson)),
    ("relationships", analysis.relationships.toJson),
    ("stats", analysis.stats.toJson)]

/-- Reads an analysis. -/
def Analysis.ofJson? (value : Json) : Option Analysis :=
  if value.isRecord 3 then do
    let files ← required (list? FileRecord.ofJson?) value 0 "files"
    let relationships ← required Relationships.ofJson? value 1 "relationships"
    let stats ← required Stats.ofJson? value 2 "stats"
    return { files, relationships, stats }
  else none

/-! ### Options -/

/-- A granularity as a JSON value. -/
def Granularity.toJson (granularity : Granularity) : Json :=
  .string granularity.text

/-- Reads a granularity. -/
def Granularity.ofJson? (value : Json) : Option Granularity :=
  (word? value).bind Granularity.ofText?

/-- The options of an analysis as a JSON value. -/
def AnalysisOptions.toJson (options : AnalysisOptions) : Json :=
  .object [
    ("include_private", .bool options.includePrivate),
    ("include_docstrings", .bool options.includeDocs),
    ("include_signatures", .bool options.includeSignatures),
    ("granularity", options.granularity.toJson),
    ("extensions", .strings options.extensions),
    ("parallelism", .orNull Json.nat options.workers)]

/-- Reads the options of an analysis, each of which may be missing. -/
def AnalysisOptions.ofJson? (value : Json) : Option AnalysisOptions :=
  if value.isRecord 6 then do
    let held : AnalysisOptions := {}
    let includePrivate ← defaulted held.includePrivate bool? value 0 "include_private"
    let includeDocs ← defaulted held.includeDocs bool? value 1 "include_docstrings"
    let includeSignatures ← defaulted held.includeSignatures bool? value 2 "include_signatures"
    let granularity ← defaulted held.granularity Granularity.ofJson? value 3 "granularity"
    let extensions ← defaulted held.extensions strings? value 4 "extensions"
    let workers ← defaulted held.workers (nullable? nat?) value 5 "parallelism"
    return { includePrivate, includeDocs, includeSignatures, granularity, extensions, workers }
  else none

end CodeAtlas
