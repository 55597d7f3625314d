/-
This file reads documents of the TOML format, one statement to a line.
-/

import CodeAtlas.Toml.Strings

namespace CodeAtlas.Toml

open Text

/-! ### Between values -/

/-- What follows the blanks at the beginning of a text. -/
def skipSpaces (text : Chars) : Chars :=
  text.dropWhile isSpace

/-- What follows a comment, if there is one; a character that may not stand in it is left. -/
def skipComment : Chars → Chars
  | '#' :: text => text.dropWhile isTextChar
  | text => text

/-- What follows the end of a line, before which only blanks and a comment may stand. -/
def endLine? (text : Chars) : Option Chars :=
  match skipComment (skipSpaces text) with
  | [] => some []
  | rest => afterBreak? rest

/-- What follows blanks, line breaks and comments, in at most `fuel` steps. -/
def skipVoid : Nat → Chars → Chars
  | 0, text => text
  | fuel + 1, text =>
    let rest := skipComment (skipSpaces text)
    match afterBreak? rest with
    | some next => skipVoid fuel next
    | none => rest

/-- What follows a character, if it begins the text. -/
def expect? (mark : Char) : Chars → Option Chars
  | character :: text => if character = mark then some text else none
  | [] => none

/-! ### Keys -/

/-- Whether a character may stand in a key without quotes. -/
def isKeyChar (character : Char) : Bool :=
  character.isAlphanum || character == '_' || character == '-'

/-- Reads a part of a key. -/
def readKeyPart? (text : Chars) : Option (String × Chars) :=
  match text.takeWhile isKeyChar with
  | [] => (readShort? text).map fun (key, rest) => (String.ofList key, rest)
  | key => some (String.ofList key, text.dropWhile isKeyChar)

/-- Reads a key, which may have dots, in at most `fuel` steps: the parts before the last, the
last, and what follows with the blanks before it skipped. -/
def readKey? : Nat → Chars → Option (List String × String × Chars)
  | 0, _ => none
  | fuel + 1, text => do
    let (part, rest) ← readKeyPart? (skipSpaces text)
    match skipSpaces rest with
    | '.' :: more =>
      let (path, key, rest) ← readKey? fuel more
      return (part :: path, key, rest)
    | rest => return ([], part, rest)

/-! ### Values -/

mutual

/-- Reads a value, in at most `fuel` steps. -/
def readValue? : Nat → Chars → Option (Toml × Chars)
  | 0, _ => none
  | _, [] => none
  | fuel + 1, character :: text =>
    if character = '"' ∨ character = '\'' then
      (readString? (character :: text)).map fun (value, rest) =>
        (.string (String.ofList value), rest)
    else if character = '[' then
      (readElements? fuel text).map fun (elements, rest) => (.array elements, rest)
    else if character = '\x7b' then do
      let (pairs, rest) ← match expect? '\x7d' (skipSpaces text) with
        | some rest => pure ([], rest)
        | none => readPairs? fuel text
      return (← ofPairs? pairs, rest)
    else
      let (word, rest) := takeWord (character :: text)
      (ofWord? word).map fun value => (value, rest)

/-- Reads the elements of an array up to its end, in at most `fuel` steps. -/
def readElements? : Nat → Chars → Option (List Toml × Chars)
  | 0, _ => none
  | fuel + 1, text => do
    let text := skipVoid text.length text
    match text with
    | ']' :: rest => return ([], rest)
    | _ =>
      let (element, rest) ← readValue? fuel text
      match skipVoid rest.length rest with
      | ',' :: more =>
        let (elements, rest) ← readElements? fuel more
        return (element :: elements, rest)
      | ']' :: rest => return ([element], rest)
      | _ => none

/-- Reads the pairs of keys and values of a table in braces up to its end, in at most `fuel`
steps. -/
def readPairs? : Nat → Chars → Option (List (List String × String × Toml) × Chars)
  | 0, _ => none
  | fuel + 1, text => do
    let (path, key, rest) ← readKey? text.length text
    let (value, rest) ← readValue? fuel (skipSpaces (← expect? '=' rest))
    match skipSpaces rest with
    | ',' :: more =>
      let (pairs, rest) ← readPairs? fuel more
      return ((path, key, value) :: pairs, rest)
    | '\x7d' :: rest => return ([(path, key, value)], rest)
    | _ => none

end

/-! ### Statements -/

/-- Reads a statement. -/
def readStatement? (text : Chars) : Option (TomlStatement × Chars) := do
  match text with
  | '[' :: '[' :: rest =>
    let (path, name, rest) ← readKey? rest.length rest
    return (.listHeader path name, ← expect? ']' (← expect? ']' rest))
  | '[' :: rest =>
    let (path, name, rest) ← readKey? rest.length rest
    return (.header path name, ← expect? ']' rest)
  | _ =>
    let (path, key, rest) ← readKey? text.length text
    let (value, rest) ← readValue? text.length (skipSpaces (← expect? '=' rest))
    return (.assign path key value, rest)

/-- Reads the statements of a document, in at most `fuel` steps. -/
def readStatements? : Nat → Chars → Option (List TomlStatement)
  | 0, _ => none
  | fuel + 1, text => do
    let text := skipVoid text.length text
    if text.isEmpty then return []
    else
      let (statement, rest) ← readStatement? text
      let statements ← readStatements? fuel (← endLine? rest)
      return statement :: statements

/-- Reads a document. A mark of the byte order at its beginning is passed over. -/
def read? (text : String) : Option TomlEntries := do
  let text := text.toList
  let text := if text.head? = some (Char.ofNat 0xFEFF) then text.tail else text
  ofStatements? (← readStatements? (text.length + 1) text)

/-! ### Taking values -/

/-- The truth value that a value is. -/
def bool? : Toml → Option Bool
  | boolean value => some value
  | _ => none

/-- The text that a value is. -/
def string? : Toml → Option String
  | string value => some value
  | _ => none

/-- The whole number, not negative, that a value is. -/
def nat? : Toml → Option Nat
  | integer (.ofNat value) => some value
  | _ => none

/-- The texts that a value lists. -/
def strings? : Toml → Option (List String)
  | array elements => elements.mapM string?
  | _ => none

/-- The field of a record with a name and a place in the order of the fields. A record is a
table, or an array of its fields. -/
def field? (place : Nat) (name : String) : Toml → Option Toml
  | table _ entries => find? name entries
  | array elements => elements[place]?
  | tables elements => (elements.reverse[place]?).map (table .defined)
  | _ => none

/-- Whether a value can be a record. -/
def isRecord : Toml → Bool
  | table _ _ => true
  | array _ => true
  | tables _ => true
  | _ => false

/-- Reads a field of a record that stands for `default` when it is missing. -/
def fieldOr {α : Type} (default : α) (read : Toml → Option α) (record : Toml) (place : Nat)
    (name : String) : Option α :=
  match record.field? place name with
  | some value => read value
  | none => some default

end CodeAtlas.Toml
