/-
This file finds the documentation of a definition: the comments that stand directly above it,
or the string that its body begins with. Of the comments, the marks that make them comments
are taken away.
-/

import CodeAtlas.Options
import CodeAtlas.Text.Blank
import CodeAtlas.Tree.Site

namespace CodeAtlas.Docs

open Text

/-! ### Kinds of node -/

/-- The kinds of comment. -/
def commentKinds : List String := ["comment", "line_comment", "block_comment"]

/-- The kinds of node that may stand between a definition and its comments. -/
def attributeKinds : List String := ["attribute_item", "decorator"]

/-- The kinds of node that surround a definition without changing what is documented. -/
def wrapperKinds : List String := [
  "export_statement", "decorated_definition", "type_declaration", "template_declaration",
  "lexical_declaration", "variable_declaration"]

/-! ### Length -/

/-- The text, cut after as many characters as are kept, with three dots where it was cut. -/
def truncate (text : Chars) : Chars :=
  if text.length ≤ maxDocLength then text else text.take maxDocLength ++ ['.', '.', '.']

/-! ### Comments -/

/-- What a line of a comment may begin with; the first that fits is taken away. -/
def lineMarks : List Chars :=
  ["///".toList, "//!".toList, "//".toList, "/**".toList, "/*!".toList, "/*".toList, "#".toList]

/-- The text without the first of some beginnings that it has. -/
def withoutFirst (marks : List Chars) (text : Chars) : Chars :=
  (marks.findSome? fun mark => stripFront? mark text).getD text

/-- A line of a comment without the marks around it. -/
def cleanLine (line : Chars) : Chars :=
  let opened := withoutFirst lineMarks (trim line)
  let closed := (stripBack? ['*', '/'] opened).getD opened
  trim (closed.dropWhile (· = '*'))

/-- A comment without its marks and without the lines that hold nothing else. -/
def cleanComment (text : Chars) : Chars :=
  unlines (((lines text).map cleanLine).filter fun line => !line.isEmpty)

/-- The last row in which something of a node stands. A line break at its end does not count. -/
def lastRow (node : Node) (source : Chars) : Nat :=
  let stop := node.stopRow source
  if atRowStart source node.stop ∧ node.startRow source < stop then stop - 1 else stop

/-- The comments that stand above a row without an empty row between them, nearest first. -/
def commentsAbove (source : Chars) (nextRow : Nat) : List Site → List Chars
  | [] => []
  | sibling :: earlier =>
    let node := sibling.node
    if node.kind ∈ attributeKinds then commentsAbove source (node.startRow source) earlier
    else if node.kind ∈ commentKinds ∧ nextRow ≤ lastRow node source + 1 then
      cleanComment (node.text source) ::
        commentsAbove source (node.startRow source) earlier
    else []

/-- The comments directly above a definition. -/
def leading (definition : Site) (source : Chars) : Chars :=
  let anchor := definition.climb wrapperKinds
  let comments := commentsAbove source (anchor.node.startRow source) anchor.earlierSiblings
  unlines (comments.reverse.filter fun comment => !comment.isEmpty)

/-! ### Strings -/

/-- The quotes that may surround a string, longer ones first. -/
def quotes : List Chars :=
  [['"', '"', '"'], ['\'', '\'', '\''], ['"'], ['\'']]

/-- A string literal without the letters before it and the quotes around it. -/
def unquote (literal : Chars) : Chars :=
  let quoted := literal.dropWhile Char.isAlpha
  (quotes.findSome? fun quote => (stripFront? quote quoted).bind (stripBack? quote)).getD quoted

/-- The string that is the first statement of a body. -/
def opening? (body : Site) : Option Site := do
  let first ← body.children.find? fun child => child.node.kind ∉ commentKinds
  if first.node.kind ≠ "expression_statement" then none
  else
    match first.children with
    | [literal] => if literal.node.kind = "string" then some literal else none
    | _ => none

/-- The text of a string that documents: each of its lines is trimmed, and then the whole. -/
def ofLiteral (literal : Chars) : Chars :=
  trim (unlines ((lines (unquote literal)).map trim))

/-- The documentation at the beginning of a body. -/
def inBody (body : Option Site) (source : Chars) : Chars :=
  match body.bind opening? with
  | some literal => ofLiteral (literal.node.text source)
  | none => []

/-! ### Documentation -/

/-- The documentation of a definition with the body `body`; it is empty if there is none. -/
def ofDefinition (style : DocStyle) (source : Chars) (definition : Site) (body : Option Site) :
    Chars :=
  match style with
  | .bodyString => truncate (inBody body source)
  | .leadingComment => truncate (leading definition source)

end CodeAtlas.Docs
