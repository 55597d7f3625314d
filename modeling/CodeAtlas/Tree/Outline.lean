/-
This file reads a syntax tree from its outline. The first line of an outline says whether the
whole source could be read. Every further line is one node, parents first: its depth, its
kind, the two byte offsets, and its role in the parent if it has one.
-/

import CodeAtlas.Text.Numeral
import CodeAtlas.Tree.Node

namespace CodeAtlas.Outline

open Text

/-- A line of an outline. -/
structure Entry where
  depth : Nat
  kind : String
  start : Nat
  stop : Nat
  field : Option String

/-- Reads one line of an outline. -/
def entry? (line : Chars) : Option Entry := do
  match splitWhere (· = ' ') line with
  | [depth, kind, start, stop] =>
    return ⟨← number? depth, String.ofList kind, ← number? start, ← number? stop, none⟩
  | [depth, kind, start, stop, field] =>
    return ⟨← number? depth, String.ofList kind, ← number? start, ← number? stop,
      some (String.ofList field)⟩
  | _ => none

/-- Puts a node before the trees that follow it: those that lie deeper are its children, up to
the first that does not. -/
def plant (entry : Entry) (forest : List (Nat × Node)) : List (Nat × Node) :=
  let deeper := fun (tree : Nat × Node) => entry.depth < tree.1
  let children := (forest.takeWhile deeper).map (·.2)
  (entry.depth, ⟨entry.kind, entry.field, entry.start, entry.stop, children⟩) ::
    forest.dropWhile deeper

/-- The tree of some lines, if all of them belong to one. -/
def tree? (entries : List Entry) : Option Node :=
  match entries.foldr plant [] with
  | [(_, root)] => some root
  | _ => none

/-- Reads an outline: whether the source had errors, and the tree. -/
def read? (text : String) : Option (Bool × Node) :=
  match splitWhere (· = '\n') text.toList with
  | verdict :: lines => do
    let root ← tree? (← (lines.filter (!·.isEmpty)).mapM entry?)
    if verdict = "ok".toList then return (false, root)
    else if verdict = "error".toList then return (true, root)
    else none
  | [] => none

end CodeAtlas.Outline
