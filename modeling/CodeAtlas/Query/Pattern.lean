/-
This file holds the patterns with which a syntax tree is searched. A pattern asks for a node
of one kind with certain children, and labels the nodes that are wanted. A rule is a pattern
with tests on the text of the labelled nodes, and a query is a list of rules.
-/

namespace CodeAtlas

/-- A pattern for a node. -/
structure Pattern where
  /-- The role that the node must have in its parent, if a role is asked for. -/
  field : Option String := none
  /-- The kind that the node must have; without one, any node fits that could be read. -/
  kind : Option String
  /-- The patterns for children, in the order in which the children must stand. -/
  children : List Pattern := []
  /-- The roles that no child may have. -/
  without : List String := []
  /-- The labels that the node gets. -/
  labels : List String := []
  /-- Whether the children are written on the line of the node. -/
  inOneLine : Bool := false
deriving Repr

/-- A test on the text of a labelled node. -/
inductive TextTest where
  /-- The text is this one. -/
  | equals (label text : String)
  /-- The text is one of these. -/
  | oneOf (label : String) (texts : List String)
deriving Repr

/-- A pattern with tests on the labelled nodes. -/
structure Rule where
  /-- What is written above the pattern for a reader. -/
  note : Option String := none
  pattern : Pattern
  tests : List TextTest := []
deriving Repr

/-- The rules of a query, in order. -/
abbrev Query := List Rule

namespace Pattern

/-! ### Writing patterns -/

/-- A node of a kind. -/
def ofKind (kind : String) (children : List Pattern) (labels : List String) : Pattern :=
  { kind := some kind, children, labels }

/-- A node of a kind without children that matter. -/
def leaf (kind : String) (labels : List String) : Pattern :=
  { kind := some kind, labels }

/-- Any node. -/
def any (labels : List String) : Pattern :=
  { kind := none, labels }

/-- The pattern for a child in a role. -/
def inField (field : String) (pattern : Pattern) : Pattern :=
  { pattern with field := some field }

end Pattern

/-- A rule without note and tests. -/
def Rule.plain (pattern : Pattern) : Rule :=
  { pattern }

/-- A rule with a note. -/
def Rule.noted (note : String) (pattern : Pattern) : Rule :=
  { note := some note, pattern }

/-! ### Kinds and labels in a query -/

mutual

/-- The kinds that a pattern asks for, a node before its children. -/
def Pattern.kinds : Pattern → List String
  | ⟨_, kind, children, _, _, _⟩ => kind.toList ++ Pattern.kindsOfAll children

/-- The kinds that some patterns ask for. -/
def Pattern.kindsOfAll : List Pattern → List String
  | [] => []
  | pattern :: patterns => pattern.kinds ++ Pattern.kindsOfAll patterns

end

mutual

/-- The labels of a pattern in the order in which they are written: a node's own labels follow
those of its children. -/
def Pattern.writtenLabels : Pattern → List String
  | ⟨_, _, children, _, labels, _⟩ => Pattern.writtenLabelsOfAll children ++ labels

/-- The labels of some patterns in the order in which they are written. -/
def Pattern.writtenLabelsOfAll : List Pattern → List String
  | [] => []
  | pattern :: patterns => pattern.writtenLabels ++ Pattern.writtenLabelsOfAll patterns

end

/-- The kinds that a query asks for. -/
def Query.kinds (query : Query) : List String :=
  query.flatMap (·.pattern.kinds)

end CodeAtlas
