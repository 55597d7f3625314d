/-
This file holds the settings of an analysis: what is extracted from a file and how imports
are resolved.
-/

import CodeAtlas.Language

namespace CodeAtlas

/-! ### Granularity -/

/-- How much of a file is extracted. -/
inductive Granularity where
  /-- Imports and the dependencies between files. -/
  | file
  /-- Imports, classes, functions and calls. -/
  | detailed
deriving DecidableEq, Repr

namespace Granularity

/-- How a granularity is written. -/
def text : Granularity → String
  | file => "file"
  | detailed => "detailed"

/-- Whether classes, functions and calls are extracted. -/
def isDetailed : Granularity → Bool
  | file => false
  | detailed => true

/-- The granularity with exactly this text. -/
def ofText? (text : String) : Option Granularity :=
  [file, detailed].find? fun granularity => granularity.text = text

/-- What is said about a text that names no granularity. The text is given in lower case. -/
def refusal (lowered : String) : String :=
  "Invalid granularity '" ++ lowered ++ "'. Expected 'file' or 'detailed'."

/-- Reads a granularity in any case. -/
def parse (text : String) : Except String Granularity :=
  let lowered := String.ofList (Text.lower text.toList)
  match ofText? lowered with
  | some granularity => .ok granularity
  | none => .error (refusal lowered)

end Granularity

/-! ### Limits -/

/-- The greatest number of call names kept for a function. -/
def maxCalls : Nat := 20

/-- The greatest number of characters of documentation kept before it is cut. -/
def maxDocLength : Nat := 200

/-! ### Settings -/

/-- The settings of one analysis. -/
structure AnalysisOptions where
  /-- Keep classes, functions and methods with a private name. -/
  includePrivate : Bool := false
  /-- Extract documentation. -/
  includeDocs : Bool := true
  /-- Extract parameters and return types. -/
  includeSignatures : Bool := true
  granularity : Granularity := .detailed
  /-- The extensions tried when an import is resolved to a file. -/
  extensions : List String := Language.allExtensions
  /-- The number of workers, if one was asked for. -/
  workers : Option Nat := none
deriving DecidableEq, Repr

/-- Asks for a number of workers; there is always at least one. -/
def AnalysisOptions.withWorkers (options : AnalysisOptions) (count : Nat) : AnalysisOptions :=
  { options with workers := some (max count 1) }

end CodeAtlas
