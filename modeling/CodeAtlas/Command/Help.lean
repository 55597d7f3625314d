/-
This file holds the pages of help, one for every scope of the command line: what is done in the
scope, how it is written, and tables of the commands, arguments and switches that it knows.
-/

import CodeAtlas.Command.Switch

namespace CodeAtlas.Command

/-! ### Tables -/

/-- A line of a table: a term and what it means. -/
structure Row where
  term : String
  meaning : String
deriving DecidableEq, Repr

/-- The length of the longest term. -/
def termWidth (rows : List Row) : Nat :=
  (rows.map fun row => row.term.length).foldl max 0

/-- A text with blanks up to a length. -/
def padded (width : Nat) (text : String) : String :=
  text ++ String.ofList (List.replicate (width - text.length) ' ')

/-- A table under a heading. The meanings stand one below the other; of a table without rows
nothing is shown. -/
def table (heading : String) (rows : List Row) : String :=
  if rows.isEmpty then ""
  else
    let width := termWidth rows
    "\n" ++ heading ++ ":\n" ++
      String.join (rows.map fun row =>
        "  " ++ padded (width + 2) row.term ++ row.meaning ++ "\n")

/-! ### Pages -/

/-- How a switch is listed. -/
def Switch.term (switch : Switch) : String :=
  let letter := match switch.letter? with
    | some letter => "-" ++ letter.toString ++ ", "
    | none => "    "
  let value := match switch.valueName? with
    | some value => " <" ++ value ++ ">"
    | none => ""
  letter ++ "--" ++ switch.name ++ value

namespace Scope

/-- How a scope is written. -/
def usage : Scope → String
  | top => "codemap [OPTIONS] <COMMAND>"
  | analyze => "codemap analyze [OPTIONS] [PATH]"
  | init => "codemap init [OPTIONS]"
  | help => "codemap help [COMMAND]..."

/-- The words that may be written in a scope. -/
def arguments : Scope → List Row
  | analyze => [
    ⟨"[PATH]", "Directory to analyze (default: project root from config or current dir)"⟩]
  | help => [⟨"[COMMAND]...", "Print help for the subcommand(s)"⟩]
  | _ => []

/-- The page of help on a scope. -/
def page (environment : Environment) (scope : Scope) : String :=
  scope.purpose ++ "\n\nUsage: " ++ scope.usage ++ "\n" ++
    table "Commands" (scope.commands.map fun command => ⟨command.name, command.purpose⟩) ++
    table "Arguments" scope.arguments ++
    table "Options" (scope.switches.map fun switch => ⟨switch.term, switch.purpose environment⟩)

end Scope

/-- What is shown when the version is asked for. -/
def versionLine : String := "codemap 0.0.1\n"

end CodeAtlas.Command
