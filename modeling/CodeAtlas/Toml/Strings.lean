/-
This file reads the strings of the TOML format, in one line or over several, with escapes or
without. Every reader gets what follows the opening quotes and gives the string and what
follows the closing ones.
-/

import CodeAtlas.Toml.Scalars

namespace CodeAtlas.Toml

open Text

/-- Whether a character may stand in a text as it is. -/
def isTextChar (character : Char) : Bool :=
  character == '\t' || (0x20 ≤ character.toNat && character.toNat != 0x7F)

/-- Whether a character is a blank within a line. -/
def isSpace (character : Char) : Bool :=
  character == ' ' || character == '\t'

/-- What follows a line break. -/
def afterBreak? : Chars → Option Chars
  | '\n' :: text => some text
  | '\r' :: '\n' :: text => some text
  | _ => none

/-! ### Escapes -/

/-- The character that a letter behind a backslash stands for. -/
def escapeOf? : Char → Option Char
  | 'b' => some '\x08'
  | 't' => some '\t'
  | 'n' => some '\n'
  | 'f' => some '\x0c'
  | 'r' => some '\r'
  | '"' => some '"'
  | '\\' => some '\\'
  | _ => none

/-- The character of a code in digits to the base sixteen. -/
def charOfCode? (digits : Chars) : Option Char := do
  let code ← digits.foldlM (fun held digit => do
    return held * 16 + (← digitValue? 16 digit)) 0
  if code < 0xD800 ∨ (0xDFFF < code ∧ code < 0x110000) then some (Char.ofNat code) else none

/-- Reads a code of a fixed number of digits. -/
def readCode? (count : Nat) (text : Chars) : Option (Char × Chars) :=
  if text.length < count then none
  else (charOfCode? (text.take count)).map fun character => (character, text.drop count)

/-- Reads an escape behind its backslash. -/
def readEscape? : Chars → Option (Char × Chars)
  | 'u' :: text => readCode? 4 text
  | 'U' :: text => readCode? 8 text
  | mark :: text => (escapeOf? mark).map fun character => (character, text)
  | [] => none

/-! ### Strings in one line -/

/-- A reading with a character before it. -/
def withChar (character : Char) : Option (Chars × Chars) → Option (Chars × Chars) :=
  Option.map fun (read, rest) => (character :: read, rest)

/-- Reads a string with escapes, in at most `fuel` steps. -/
def readBasic? : Nat → Chars → Option (Chars × Chars)
  | 0, _ => none
  | _, [] => none
  | fuel + 1, character :: text =>
    if character = '"' then some ([], text)
    else if character = '\\' then
      match readEscape? text with
      | some (escaped, rest) => withChar escaped (readBasic? fuel rest)
      | none => none
    else if isTextChar character then withChar character (readBasic? fuel text)
    else none

/-- Reads a string without escapes. -/
def readLiteral? : Chars → Option (Chars × Chars)
  | [] => none
  | character :: text =>
    if character = '\'' then some ([], text)
    else if isTextChar character then withChar character (readLiteral? text)
    else none

/-! ### Strings over several lines -/

/-- Whether three quotes or more begin a text; if so, up to two of them belong to the string
and three close it. -/
def readClosing? (quote : Char) (text : Chars) : Option (Chars × Chars) :=
  let count := min 5 (text.takeWhile (· = quote)).length
  if count < 3 then none else some (List.replicate (count - 3) quote, text.drop count)

/-- What follows the blanks and line breaks at the beginning of a text. -/
def afterBlankLines : Chars → Chars
  | '\r' :: '\n' :: text => afterBlankLines text
  | character :: text =>
    if isSpace character || character == '\n' then afterBlankLines text else character :: text
  | [] => []

/-- What follows the blanks and line breaks behind a backslash at the end of a line. -/
def afterFold? (text : Chars) : Option Chars :=
  (afterBreak? (text.dropWhile isSpace)).map afterBlankLines

/-- Reads a string with escapes over several lines, in at most `fuel` steps. -/
def readLongBasic? : Nat → Chars → Option (Chars × Chars)
  | 0, _ => none
  | _, [] => none
  | fuel + 1, character :: text =>
    match readClosing? '"' (character :: text), afterBreak? (character :: text) with
    | some closed, _ => some closed
    | none, some rest => withChar '\n' (readLongBasic? fuel rest)
    | none, none =>
      if character = '\\' then
        match afterFold? text, readEscape? text with
        | some rest, _ => readLongBasic? fuel rest
        | none, some (escaped, rest) => withChar escaped (readLongBasic? fuel rest)
        | none, none => none
      else if isTextChar character then withChar character (readLongBasic? fuel text)
      else none

/-- Reads a string without escapes over several lines, in at most `fuel` steps. -/
def readLongLiteral? : Nat → Chars → Option (Chars × Chars)
  | 0, _ => none
  | _, [] => none
  | fuel + 1, character :: text =>
    match readClosing? '\'' (character :: text), afterBreak? (character :: text) with
    | some closed, _ => some closed
    | none, some rest => withChar '\n' (readLongLiteral? fuel rest)
    | none, none =>
      if isTextChar character then withChar character (readLongLiteral? fuel text) else none

/-- The text without a line break at its beginning. -/
def dropBreak (text : Chars) : Chars :=
  (afterBreak? text).getD text

/-- Reads a string in one line with its quotes. -/
def readShort? : Chars → Option (Chars × Chars)
  | '"' :: text => readBasic? (text.length + 1) text
  | '\'' :: text => readLiteral? text
  | _ => none

/-- Reads a string with its quotes. -/
def readString? : Chars → Option (Chars × Chars)
  | '"' :: '"' :: '"' :: text => readLongBasic? (text.length + 1) (dropBreak text)
  | '\'' :: '\'' :: '\'' :: text => readLongLiteral? (text.length + 1) (dropBreak text)
  | text => readShort? text

end CodeAtlas.Toml
