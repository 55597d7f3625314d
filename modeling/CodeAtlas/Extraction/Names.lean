/-
This file reduces the texts of captured nodes to names. Each rule here takes the text of a
node as it was written and gives what a reader would call the thing.
-/

import CodeAtlas.Text.Blank
import CodeAtlas.Text.Letters

namespace CodeAtlas.Names

open Text

/-! ### Private names -/

/-- A name is private if it begins with an underscore, unless two underscores stand at both of
its ends. -/
def isPrivate (name : String) : Bool :=
  let text := name.toList
  startsWith ['_'] text && !(startsWith ['_', '_'] text && endsWith ['_', '_'] text)

/-! ### Classes and their bases -/

/-- The bare name of a class in a type expression: without type arguments, without the path
before it, and without the mark of a reference. -/
def className (text : Chars) : Chars :=
  let bare := afterLast [':', ':'] (beforeFirst ['<'] text)
  let plain := trim ((trim bare).dropWhile (· = '&'))
  trim ((stripFront? "mut ".toList plain).getD plain)

/-- What stands outside of all brackets, after the character `previous` and inside of `depth`
brackets. An angle opens a bracket only where it follows an identifier. -/
def outsideBrackets (depth : Nat) (previous : Option Char) : Chars → Chars
  | [] => []
  | character :: text =>
    if character = '<' ∧ previous.any isIdentifierChar then
      outsideBrackets (depth + 1) (some character) text
    else if character = '[' then outsideBrackets (depth + 1) (some character) text
    else if (character = '>' ∨ character = ']') ∧ 0 < depth then
      outsideBrackets (depth - 1) (some character) text
    else if depth = 0 then character :: outsideBrackets depth (some character) text
    else outsideBrackets depth (some character) text

/-- The text without angle and square brackets and what stands in them. -/
def stripBrackets (text : Chars) : Chars :=
  outsideBrackets 0 none text

/-- What a scan for names stands in. -/
inductive Scan where
  /-- No identifier. -/
  | outside
  /-- The rest of an identifier that is no name, or whose name has been read. -/
  | passing
  /-- A name, of which this much has been read, last character first. -/
  | reading (name : Chars)

/-- What a scan goes on in after a character that begins no name it has begun before. -/
def Scan.after (character : Char) : Scan :=
  if isIdentifierChar character then .passing else .outside

/-- The capitalized names in a text, in order. A name begins with a letter from A to Z that
follows no identifier character, and goes on as long as plain letters, digits and underscores
do. -/
def capitalizedFrom : Scan → Chars → List Chars
  | .reading name, [] => [name.reverse]
  | _, [] => []
  | .reading name, character :: text =>
    if isPlainIdentifierChar character then capitalizedFrom (.reading (character :: name)) text
    else name.reverse :: capitalizedFrom (.after character) text
  | .passing, character :: text => capitalizedFrom (.after character) text
  | .outside, character :: text =>
    if 'A' ≤ character ∧ character ≤ 'Z' then capitalizedFrom (.reading [character]) text
    else capitalizedFrom (.after character) text

/-- The names of the bases in a text that lists them. -/
def baseNames (text : Chars) : List Chars :=
  distinct (capitalizedFrom .outside (stripBrackets text))

/-! ### Modules and return types -/

/-- Whether a character may surround the name of a module. -/
def isQuote (character : Char) : Bool :=
  character == '"' || character == '\'' || character == '`' || character == '<' ||
    character == '>'

/-- The name of a module without what renames it and without quotes around it. -/
def moduleName (text : Chars) : Chars :=
  trim (dropAround isQuote (beforeFirst " as ".toList (trim text)))

/-- The text without `front`, if it begins with it. -/
def without (front text : Chars) : Chars :=
  (stripFront? front text).getD text

/-- A return type without the arrow or the colon that introduces it. -/
def returnType (text : Chars) : Chars :=
  trim (without [':'] (trimFront (without ['-', '>'] (trim text))))

end CodeAtlas.Names
