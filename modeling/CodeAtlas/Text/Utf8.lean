/-
This file reads bytes as text. Bytes that are no UTF-8 are still read: every longest piece
that could have begun a character, and every byte that could not, becomes one replacement
character.
-/

import CodeAtlas.Text.Chars

namespace CodeAtlas.Text.Utf8

/-- A character of which some bytes have been read: its bits so far, how many bytes it still
needs, and the least and greatest value of the next. -/
structure Partial where
  bits : Nat
  needed : Nat
  least : Nat := 0x80
  greatest : Nat := 0xBF

/-- What the first byte of a character says. -/
inductive Start where
  | complete (character : Char)
  | open (rest : Partial)
  | invalid

/-- Reads the first byte of a character. -/
def start (byte : Nat) : Start :=
  if byte < 0x80 then .complete (Char.ofNat byte)
  else if byte < 0xC2 then .invalid
  else if byte < 0xE0 then .open { bits := byte - 0xC0, needed := 1 }
  else if byte = 0xE0 then .open { bits := 0, needed := 2, least := 0xA0 }
  else if byte = 0xED then .open { bits := 0xD, needed := 2, greatest := 0x9F }
  else if byte < 0xF0 then .open { bits := byte - 0xE0, needed := 2 }
  else if byte = 0xF0 then .open { bits := 0, needed := 3, least := 0x90 }
  else if byte < 0xF4 then .open { bits := byte - 0xF0, needed := 3 }
  else if byte = 0xF4 then .open { bits := 4, needed := 3, greatest := 0x8F }
  else .invalid

/-- The character that stands for bytes that are none. -/
def replacement : Char := Char.ofNat 0xFFFD

/-- Reads bytes from between characters. -/
def begin? (byte : Nat) : Chars × Option Partial :=
  match start byte with
  | .complete character => ([character], none)
  | .open rest => ([], some rest)
  | .invalid => ([replacement], none)

/-- Reads the next byte: the characters that are now decided, and the one still open. A byte
that cannot continue the open character ends it and is read again from between characters. -/
def step (pending : Option Partial) (byte : Nat) : Chars × Option Partial :=
  match pending with
  | none => begin? byte
  | some rest =>
    if rest.least ≤ byte ∧ byte ≤ rest.greatest then
      let bits := rest.bits * 0x40 + (byte - 0x80)
      if rest.needed ≤ 1 then ([Char.ofNat bits], none)
      else ([], some { bits, needed := rest.needed - 1 })
    else
      let (decided, next) := begin? byte
      (replacement :: decided, next)

/-- Reads the bytes that follow an open character, or that begin one. -/
def decodeFrom (pending : Option Partial) : List Nat → Chars
  | [] => if pending.isSome then [replacement] else []
  | byte :: bytes =>
    let (decided, next) := step pending byte
    decided ++ decodeFrom next bytes

/-- The text of some bytes, with replacement characters where they are no UTF-8. -/
def decodeLossy (bytes : ByteArray) : String :=
  match String.fromUTF8? bytes with
  | some text => text
  | none => String.ofList (decodeFrom none (bytes.data.toList.map UInt8.toNat))

/-- The text of some bytes that are UTF-8. -/
def decode? (bytes : ByteArray) : Option String :=
  String.fromUTF8? bytes

/-- The bytes of the lines, each with the byte that ends it. -/
def lineBytes : List UInt8 → List (List UInt8)
  | [] => []
  | byte :: bytes =>
    if byte = 0x0A then [byte] :: lineBytes bytes
    else
      match lineBytes bytes with
      | [] => [[byte]]
      | line :: lines => (byte :: line) :: lines

/-- The text of some lines up to the first that is no UTF-8. -/
def decodeWhile : List (List UInt8) → String
  | [] => ""
  | line :: lines =>
    match decode? ⟨line.toArray⟩ with
    | some text => text ++ decodeWhile lines
    | none => ""

/-- The text of some bytes up to the first line that is no UTF-8. -/
def decodeLines (bytes : ByteArray) : String :=
  match decode? bytes with
  | some text => text
  | none => decodeWhile (lineBytes bytes.data.toList)

end CodeAtlas.Text.Utf8
