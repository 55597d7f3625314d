/-
This file says what a parser is. It is made ready for a language and then gives the syntax tree of
a text, and it may keep something from one text to the next. The library holds no grammar: a parser
comes with the grammars that it has, and one that is built in takes the trees of some texts as
known.
-/

import CodeAtlas.Tree.Outline

namespace CodeAtlas

/-- Why a text has no syntax tree. -/
inductive ParseError where
  /-- The parser has no use for the language. -/
  | unavailable (language : Language) (reason : String)
  /-- The parser has given up. -/
  | noTree (language : Language)
deriving DecidableEq, Repr

/-- What is said about a text without a syntax tree. -/
def ParseError.message : ParseError → String
  | unavailable language reason =>
    "Parser unavailable for " ++ language.displayName ++ ": " ++ reason
  | noTree language =>
    "Failed to parse source: " ++ language.displayName ++ " parser produced no tree"

/-- A parser. -/
structure Parser where
  /-- What a parser keeps from one text to the next. -/
  State : Type
  /-- What a parser begins with. -/
  fresh : State
  /-- Makes the parser ready for a language, or says why it cannot be. -/
  prepare : Language → State → Option String × State
  /-- The syntax tree of a text, with whether the text has errors. -/
  tree? : String → State → Option (Bool × Node) × State
  /-- The grammars of the languages. -/
  grammars : Language → Grammar

/-- A text whose syntax tree is known. -/
structure KnownTree where
  language : Language
  text : String
  hasSyntaxErrors : Bool
  root : Node

namespace Parser

/-- Parses a text in a language. -/
def parse (parser : Parser) (language : Language) (text : String) (state : parser.State) :
    Except ParseError ParsedFile × parser.State :=
  match parser.prepare language state with
  | (some reason, after) => (.error (.unavailable language reason), after)
  | (none, ready) =>
    match parser.tree? text ready with
    | (none, after) => (.error (.noTree language), after)
    | (some (hasSyntaxErrors, root), after) =>
      (.ok { language, source := text.toList, root, hasSyntaxErrors, grammars := parser.grammars },
        after)

/-! ### Known trees -/

/-- What stands for the tree of a text that cannot be parsed: a single node over all of it. -/
def unparsed (text : String) : Bool × Node :=
  (true, ⟨Node.errorKind, none, 0, text.utf8ByteSize, []⟩)

/-- The tree of a text in a language, if it is among the known ones. -/
def treeAmong (known : List KnownTree) (language : Language) (text : String) : Bool × Node :=
  match known.find? fun tree => tree.language = language && tree.text = text with
  | some tree => (tree.hasSyntaxErrors, tree.root)
  | none => unparsed text

/-- The kinds of node, of those that the general queries ask for, that no tree in Bash has. -/
def kindsOutsideBash : List String :=
  ["import_statement", "class_definition", "call_expression"]

/-- The grammars of the known trees. -/
def knownGrammar : Language → Grammar
  | .bash => { hasKind := fun kind => kind ∉ kindsOutsideBash }
  | _ => {}

/-- The parser of the texts whose trees are known. It keeps the language that it is ready for. -/
def ofKnown (known : List KnownTree) : Parser where
  State := Option Language
  fresh := none
  prepare language _ := (none, some language)
  tree? text
    | some language => (some (treeAmong known language text), some language)
    | none => (none, none)
  grammars := knownGrammar

end Parser

end CodeAtlas
