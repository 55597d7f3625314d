/-
This file names the formats of a report and writes a report in either of them.
-/

import CodeAtlas.Json.Records
import CodeAtlas.Report.Markdown

namespace CodeAtlas

/-- A format of a report. -/
inductive Format where
  | markdown
  | json
deriving DecidableEq, Repr

namespace Format

/-- The name of a format. -/
def name : Format → String
  | markdown => "markdown"
  | json => "json"

/-- What is said about a text that names no format. -/
def refusal (text : String) : String :=
  "Invalid format '" ++ text ++ "'. Expected 'markdown' or 'json'."

/-- Reads a format in any case, by its name or its short name. -/
def parse (text : String) : Except String Format :=
  let lowered := String.ofList (Text.lower text.toList)
  if lowered = "markdown" ∨ lowered = "md" then .ok markdown
  else if lowered = "json" then .ok json
  else .error (refusal lowered)

end Format

/-- The report of an analysis in a format. -/
def Analysis.render (analysis : Analysis) (rootName : String) : Format → String
  | .markdown => Markdown.report rootName analysis
  | .json => analysis.toJson.print

end CodeAtlas
