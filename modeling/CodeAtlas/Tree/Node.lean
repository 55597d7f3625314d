/-
This file holds the syntax tree of a source file. A tree has only the nodes that carry a
kind; words and punctuation between them are not in it. Each node covers the source from one
byte offset up to another.
-/

import CodeAtlas.Language
import CodeAtlas.Text.Bytes

namespace CodeAtlas

/-- A node of a syntax tree. -/
structure Node where
  kind : String
  /-- The role that the node has in its parent. -/
  field : Option String
  /-- The byte offset at which the node begins. -/
  start : Nat
  /-- The byte offset at which the node has ended. -/
  stop : Nat
  children : List Node
deriving Repr

namespace Node

/-- The kind of a node that stands for source which could not be read. -/
def errorKind : String := "ERROR"

/-- The part of the source that a node covers. -/
def text (node : Node) (source : Text.Chars) : Text.Chars :=
  Text.slice source node.start node.stop

/-- The row in which a node begins. -/
def startRow (node : Node) (source : Text.Chars) : Nat :=
  Text.rowAt source node.start

/-- The row in which a node ends. -/
def stopRow (node : Node) (source : Text.Chars) : Nat :=
  Text.rowAt source node.stop

/-- The first child in a role. -/
def childInField? (node : Node) (field : String) : Option Node :=
  node.children.find? fun child => child.field = some field

/-! ### Well-formed trees -/

mutual

/-- Whether a tree lies between two offsets, with every child inside its parent and the
children in order. -/
def LiesWithin : Node → Nat → Nat → Prop
  | ⟨_, _, start, stop, children⟩, low, high =>
    low ≤ start ∧ start ≤ stop ∧ stop ≤ high ∧ AllLieWithin children start stop

/-- Whether some trees lie one after the other between two offsets. -/
def AllLieWithin : List Node → Nat → Nat → Prop
  | [], _, _ => True
  | child :: children, low, high =>
    child.LiesWithin low high ∧ AllLieWithin children child.stop high

end

mutual

/-- The tree with every offset moved by a number of bytes. -/
def shift (distance : Nat) : Node → Node
  | ⟨kind, field, start, stop, children⟩ =>
    ⟨kind, field, start + distance, stop + distance, shiftAll distance children⟩

/-- The trees with every offset moved by a number of bytes. -/
def shiftAll (distance : Nat) : List Node → List Node
  | [] => []
  | child :: children => child.shift distance :: shiftAll distance children

end

end Node

/-- What is known of the grammar by which the trees of a language are made. -/
structure Grammar where
  /-- Whether a tree can have nodes of a kind. -/
  hasKind : String → Bool := fun _ => true

/-- A source text with its syntax tree. -/
structure ParsedFile where
  language : Language
  source : Text.Chars
  root : Node
  /-- Whether some part of the source could not be read. -/
  hasSyntaxErrors : Bool
  /-- The grammars that the parser has. -/
  grammars : Language → Grammar := fun _ => {}

namespace ParsedFile

/-- Whether the tree of a file is one that its source can have. -/
def WellFormed (file : ParsedFile) : Prop :=
  file.root.LiesWithin 0 (Text.byteLength file.source)

/-- The file with a text put before its source. -/
def precededBy (file : ParsedFile) (text : Text.Chars) : ParsedFile :=
  { file with
    source := text ++ file.source
    root := file.root.shift (Text.byteLength text) }

end ParsedFile

end CodeAtlas
