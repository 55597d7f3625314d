/-
This file searches a tree with a query. A match of a pattern is a choice of nodes, one for
each node of the pattern: the children asked for are found among the children of the node, in
order, with any others between them. Every such choice is a match of its own.
-/

import CodeAtlas.Query.Pattern
import CodeAtlas.Tree.Site

namespace CodeAtlas

/-- A labelled node of a match. -/
structure Capture where
  label : String
  site : Site
deriving Repr

/-- A match of a pattern: the labelled nodes in the order of the tree, and the last node that
was chosen, if any was chosen below the topmost one. -/
structure Choice where
  captures : List Capture
  last : Option Site
deriving Repr

/-! ### Matching at a node -/

/-- Whether a node is of the kind that a pattern asks for. -/
def Node.fits (node : Node) : Option String → Bool
  | some kind => node.kind = kind
  | none => node.kind ≠ Node.errorKind

/-- Whether a node has the role that a pattern asks for. -/
def Node.isInField (node : Node) : Option String → Bool
  | some field => node.field = some field
  | none => true

/-- Whether no child of a node has one of the roles. -/
def Node.lacksFields (node : Node) (fields : List String) : Bool :=
  node.children.all fun child => fields.all fun field => child.field ≠ some field

/-- Every element of a list with those that follow it. -/
def withFollowers {α : Type} : List α → List (α × List α)
  | [] => []
  | value :: rest => (value, rest) :: withFollowers rest

/-- Two choices made one after the other. -/
def Choice.andThen (first second : Choice) : Choice :=
  ⟨first.captures ++ second.captures, second.last.orElse fun _ => first.last⟩

mutual

/-- The matches of a pattern whose topmost node stands at a site. -/
def Pattern.choicesAt : Pattern → Site → List Choice
  | ⟨field, kind, children, without, labels, _⟩, site =>
    if site.node.isInField field && site.node.fits kind && site.node.lacksFields without then
      let here : Choice := ⟨labels.map fun label => ⟨label, site⟩, some site⟩
      (Pattern.choicesAmong children site.children).map here.andThen
    else []

/-- The ways to find some patterns among siblings, in order. -/
def Pattern.choicesAmong : List Pattern → List Site → List Choice
  | [], _ => [⟨[], none⟩]
  | pattern :: patterns, sites =>
    (withFollowers sites).flatMap fun (site, later) =>
      (pattern.choicesAt site).flatMap fun choice =>
        (Pattern.choicesAmong patterns later).map choice.andThen

end

/-! ### Tests -/

/-- The texts of the nodes with a label. -/
def textsOf (source : Text.Chars) (label : String) (captures : List Capture) :
    List Text.Chars :=
  (captures.filter (·.label = label)).map fun capture => capture.site.node.text source

/-- Whether the labelled nodes of a match pass a test. -/
def TextTest.passes (source : Text.Chars) (captures : List Capture) : TextTest → Bool
  | equals label text => (textsOf source label captures).all (· = text.toList)
  | oneOf label texts => (textsOf source label captures).all fun text =>
      texts.any fun allowed => text = allowed.toList

/-! ### Searching a tree -/

/-- Whether one place comes before another, or is the same, in a walk that visits parents
first and siblings in order. -/
def notAfter : List Nat → List Nat → Bool
  | [], _ => true
  | _ :: _, [] => false
  | first :: firsts, second :: seconds =>
    first < second || (first == second && notAfter firsts seconds)

/-- A match of a query, with the place of the last node chosen. -/
structure Match where
  captures : List Capture
  lastPath : List Nat
deriving Repr

/-- The matches of a rule whose topmost node stands at a site. -/
def Rule.matchesAt (source : Text.Chars) (rule : Rule) (site : Site) : List Match :=
  (rule.pattern.choicesAt site).filterMap fun choice =>
    if rule.tests.all (·.passes source choice.captures) then
      some ⟨choice.captures, (choice.last.getD site).path⟩
    else none

/-- The matches of a query at and below a site, by the place of the topmost node and then by
the order of the rules. -/
def Query.matchesByTop (query : Query) (source : Text.Chars) (scope : Site) : List Match :=
  scope.withDescendants.flatMap fun site => query.flatMap fun rule => rule.matchesAt source site

/-- The matches of a query at and below a site in the order in which a walk over the tree
completes them. -/
def Query.matches (query : Query) (source : Text.Chars) (scope : Site) : List Match :=
  (query.matchesByTop source scope).mergeSort fun first second =>
    notAfter first.lastPath second.lastPath

end CodeAtlas
