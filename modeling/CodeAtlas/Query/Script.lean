/-
This file writes queries down. The script of a query is its text: every pattern in
parentheses with each child on a line of its own, an empty line between rules.
-/

import CodeAtlas.Query.Pattern
import CodeAtlas.Text.Chars

namespace CodeAtlas

mutual

/-- Writes a pattern whose children are indented by `indent` more spaces than it. -/
def Pattern.script (indent : Nat) : Pattern → String
  | ⟨field, kind, children, without, labels, inOneLine⟩ =>
    let role := match field with
      | some field => field ++ ": "
      | none => ""
    let gap := if inOneLine then " " else "\n" ++ String.ofList (List.replicate indent ' ')
    role ++ "(" ++ kind.getD "_" ++ Pattern.scriptOfAll indent gap children ++
      String.join (without.map fun field => gap ++ "!" ++ field) ++ ")" ++
      String.join (labels.map fun label => " @" ++ label)

/-- Writes the patterns for children, each after a gap. -/
def Pattern.scriptOfAll (indent : Nat) (gap : String) : List Pattern → String
  | [] => ""
  | pattern :: patterns =>
    gap ++ pattern.script (indent + 2) ++ Pattern.scriptOfAll indent gap patterns

end

/-- Writes a test. -/
def TextTest.script : TextTest → String
  | equals label text => "(#eq? @" ++ label ++ " \"" ++ text ++ "\")"
  | oneOf label texts =>
    "(#match? @" ++ label ++ " \"^(" ++ "|".intercalate texts ++ ")$\")"

/-- Writes a rule. A rule with tests is put in parentheses of its own. -/
def Rule.script (rule : Rule) : String :=
  let note := match rule.note with
    | some note => "; " ++ note ++ "\n"
    | none => ""
  let pattern := rule.pattern.script 2
  match rule.tests with
  | [] => note ++ pattern
  | tests =>
    note ++ "(" ++ pattern ++ String.join (tests.map fun test => "\n  " ++ test.script) ++ ")"

/-- Writes a query. -/
def Query.script (query : Query) : String :=
  "\n" ++ "\n\n".intercalate (query.map Rule.script) ++ "\n"

/-- The labels of a query in the order in which they are first written. -/
def Query.labels (query : Query) : List String :=
  Text.distinct (query.flatMap (·.pattern.writtenLabels))

end CodeAtlas
