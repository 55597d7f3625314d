/-
This file writes the report of an analysis for a reader. The report is a list of lines:
numbers, a table of contents, the structure of the project, every file, and the relationships
of which there are any.
-/

import CodeAtlas.Analysis
import CodeAtlas.Report.Structure
import CodeAtlas.Text.Blank
import CodeAtlas.Text.LowerCase

namespace CodeAtlas.Markdown

/-! ### Pieces of lines -/

/-- A text marked as code. -/
def code (text : String) : String :=
  "`" ++ text ++ "`"

/-- Texts marked as code with commas between them. -/
def codeList (texts : List String) : String :=
  ", ".intercalate (texts.map code)

/-- A range of lines. -/
def lineRange (startLine endLine : Nat) : String :=
  "[L" ++ toString startLine ++ "-" ++ toString endLine ++ "]"

/-- The first line of a text. -/
def firstLine (text : String) : String :=
  String.ofList ((Text.lines text.toList).headD [])

/-- The name by which a heading is linked to. -/
def anchor (heading : String) : String :=
  String.ofList (Text.replaceChar ' ' '-' (Text.lower heading.toList))

/-- The lines that begin a section. -/
def heading (title : String) : List String :=
  ["", "## " ++ title]

/-- A part of the report that is left out if there is nothing to put there. -/
def unlessEmpty {α : Type} (items : List α) (part : List String) : List String :=
  if items.isEmpty then [] else part

/-! ### Entities -/

/-- The lines of a function. -/
def functionLines (indent : String) (function : Function) : List String :=
  [indent ++ "- " ++ code function.signature ++ " " ++
      lineRange function.startLine function.endLine] ++
    (if function.doc.isEmpty then [] else [indent ++ "  > " ++ firstLine function.doc]) ++
    unlessEmpty function.calls [indent ++ "  calls: " ++ ", ".intercalate function.calls]

/-- The lines of a class and its methods. -/
def classLines (owner : Class) : List String :=
  let bases := if owner.bases.isEmpty then "" else " (" ++ ", ".intercalate owner.bases ++ ")"
  ["- " ++ code owner.name ++ bases ++ " " ++ lineRange owner.startLine owner.endLine] ++
    (if owner.doc.isEmpty then [] else ["  > " ++ firstLine owner.doc]) ++
    owner.methods.flatMap (functionLines "  ")

/-- The line of an import. -/
def importLine (statement : Import) : String :=
  if statement.names.isEmpty then "- " ++ code statement.moduleName
  else "- " ++ code statement.moduleName ++ ": " ++ codeList statement.names

/-- The lines of a file. -/
def fileLines (file : FileRecord) : List String :=
  ["", "### " ++ code file.path ++ " (" ++ file.languageTag ++ ")"] ++
    unlessEmpty file.imports (["", "**Imports:**"] ++ file.imports.map importLine) ++
    unlessEmpty file.classes (["", "**Classes:**"] ++ file.classes.flatMap classLines) ++
    unlessEmpty file.functions
      (["", "**Functions:**"] ++ file.functions.flatMap (functionLines "")) ++
    unlessEmpty file.errors (["", "**Errors:**"] ++ file.errors.map ("- " ++ ·))

/-! ### Sections -/

/-- The lines of the numbers. -/
def summary (analysis : Analysis) : List String := [
  "- Files: " ++ toString analysis.stats.filesProcessed,
  "- Imports: " ++ toString analysis.stats.imports,
  "- Classes: " ++ toString analysis.stats.classes,
  "- Functions: " ++ toString analysis.stats.functions,
  "- Methods: " ++ toString analysis.stats.methods,
  "- Dependencies: " ++ toString analysis.relationships.dependencyCount,
  "- Files with errors: " ++ toString analysis.stats.filesWithErrors]

/-- The lines of the structure of the project. -/
def structureLines (rootName : String) (analysis : Analysis) : List String :=
  ["", "```", rootName ++ "/"] ++
    (Directory.ofPaths (analysis.files.map FileRecord.path)).lines "" ++ ["```"]

/-- The files that depend on others. -/
def dependents (analysis : Analysis) : List (String × TextSet) :=
  analysis.relationships.dependencies.entries.filter fun (_, targets) => !targets.isEmpty

/-- The lines of the dependencies between files. -/
def dependencyLines (analysis : Analysis) : List String :=
  [""] ++ (dependents analysis).map fun (path, targets) =>
    "- " ++ code path ++ " -> " ++ codeList targets.toList

/-- The lines of the inheritance between classes. -/
def inheritanceLines (analysis : Analysis) : List String :=
  let entries := analysis.relationships.inheritance.entries
  ["", "```mermaid", "graph TD"] ++
    (entries.flatMap fun (name, bases) => bases.map fun base =>
      "    " ++ base ++ " --> " ++ name) ++
    ["```", ""] ++
    entries.map fun (name, bases) => "- " ++ code name ++ " extends " ++ codeList bases

/-- The lines of the calls within the project. -/
def callLines (calls : Index (List String)) : List String :=
  [""] ++ calls.entries.map fun (caller, callees) =>
    "- " ++ code caller ++ " calls " ++ codeList callees

/-- A section of the report. -/
structure Section where
  title : String
  lines : List String

/-- The sections that the table of contents lists. Sections about relationships are there only
if there are any. -/
def sections (rootName : String) (analysis : Analysis) : List Section :=
  let calls := analysis.relationships.internalCalls
  [⟨"Project Structure", structureLines rootName analysis⟩,
    ⟨"Files", analysis.files.flatMap fileLines⟩] ++
    (if (dependents analysis).isEmpty then []
      else [⟨"File Dependencies", dependencyLines analysis⟩]) ++
    (if analysis.relationships.inheritance.isEmpty then []
      else [⟨"Inheritance", inheritanceLines analysis⟩]) ++
    (if calls.isEmpty then [] else [⟨"Call Graph", callLines calls⟩])

/-- The line of a section in the table of contents. -/
def contentsLine (title : String) : String :=
  "- [" ++ title ++ "](#" ++ anchor title ++ ")"

/-- The lines of the report. -/
def reportLines (rootName : String) (analysis : Analysis) : List String :=
  let sections := sections rootName analysis
  ["# Code Map"] ++ heading "Summary" ++ [""] ++ summary analysis ++
    heading "Table of Contents" ++ [""] ++
    (sections.map fun part => contentsLine part.title) ++
    sections.flatMap fun part => heading part.title ++ part.lines

/-- The report of an analysis, every line of it ended by a line break. -/
def report (rootName : String) (analysis : Analysis) : String :=
  String.join ((reportLines rootName analysis).map (· ++ "\n"))

end CodeAtlas.Markdown
