/-
This file measures a text in bytes of its UTF-8 form. Positions in a source text are byte
offsets, and here is what reads such a position: the text between two of them, and the row
and column of one.
-/

import CodeAtlas.Text.Chars

namespace CodeAtlas.Text

/-- The number of bytes that a text takes. -/
def byteLength : Chars → Nat
  | [] => 0
  | character :: text => character.utf8Size + byteLength text

/-- The text after its first `count` bytes, if no character is cut. -/
def dropBytes? (count : Nat) : Chars → Option Chars
  | [] => if count = 0 then some [] else none
  | character :: text =>
    if count = 0 then some (character :: text)
    else if count < character.utf8Size then none
    else dropBytes? (count - character.utf8Size) text

/-- The first `count` bytes of a text, if no character is cut. -/
def takeBytes? (count : Nat) : Chars → Option Chars
  | [] => if count = 0 then some [] else none
  | character :: text =>
    if count = 0 then some []
    else if count < character.utf8Size then none
    else (takeBytes? (count - character.utf8Size) text).map (character :: ·)

/-- The text from the byte offset `start` up to the byte offset `stop`. Nothing is there if an
offset lies outside the text or inside a character. -/
def slice (source : Chars) (start stop : Nat) : Chars :=
  ((dropBytes? start source).bind (takeBytes? (stop - start))).getD []

/-- The number of newlines that begin before the byte offset `offset`. -/
def rowAt : Chars → Nat → Nat
  | [], _ => 0
  | character :: source, offset =>
    if offset = 0 then 0
    else (if character = '\n' then 1 else 0) + rowAt source (offset - character.utf8Size)

/-- The character just before the byte offset `offset`, if there is one. -/
def charBefore? : Chars → Nat → Option Char
  | [], _ => none
  | character :: source, offset =>
    if offset = 0 then none
    else if offset ≤ character.utf8Size then some character
    else charBefore? source (offset - character.utf8Size)

/-- Whether a row begins at the byte offset `offset`. -/
def atRowStart (source : Chars) (offset : Nat) : Bool :=
  offset = 0 || charBefore? source offset = some '\n'

end CodeAtlas.Text
