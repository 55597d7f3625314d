/-
This file holds the result of an analysis: the records of the files, the relationships between
them, and how much of everything there is.
-/

import CodeAtlas.Entity.Basic
import CodeAtlas.Graph.Relationships

namespace CodeAtlas

/-- How much of everything an analysis has found. -/
structure Stats where
  filesProcessed : Nat := 0
  filesWithErrors : Nat := 0
  imports : Nat := 0
  classes : Nat := 0
  /-- The number of functions that belong to no class. -/
  functions : Nat := 0
  methods : Nat := 0
  /-- The milliseconds spent on reading files. -/
  extractTime : Nat := 0
  /-- The milliseconds spent on finding relationships. -/
  resolveTime : Nat := 0
deriving DecidableEq, Repr

namespace Stats

/-- The numbers with one more file. -/
def record (stats : Stats) (file : FileRecord) : Stats :=
  { stats with
    filesProcessed := stats.filesProcessed + 1
    filesWithErrors := stats.filesWithErrors + if file.hasErrors then 1 else 0
    imports := stats.imports + file.imports.length
    classes := stats.classes + file.classes.length
    functions := stats.functions + file.functions.length
    methods := stats.methods + file.methodCount }

/-- The numbers of some files. -/
def ofFiles (files : List FileRecord) : Stats :=
  files.foldl record {}

/-- The numbers of two analyses together. -/
def merge (first second : Stats) : Stats where
  filesProcessed := first.filesProcessed + second.filesProcessed
  filesWithErrors := first.filesWithErrors + second.filesWithErrors
  imports := first.imports + second.imports
  classes := first.classes + second.classes
  functions := first.functions + second.functions
  methods := first.methods + second.methods
  extractTime := first.extractTime + second.extractTime
  resolveTime := first.resolveTime + second.resolveTime

end Stats

/-- The result of an analysis. -/
structure Analysis where
  files : List FileRecord
  relationships : Relationships
  stats : Stats

end CodeAtlas
