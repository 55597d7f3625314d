/-
This file reads and matches globs, the patterns for paths in files that say what to ignore. A
glob is matched against the bytes of a path: a question mark and a class stand for one byte,
and neither they nor a single star cross a slash, except that a class may name one.
-/

import CodeAtlas.Text.Bytes

namespace CodeAtlas

/-- A part of a glob. -/
inductive GlobPart where
  /-- A character that stands for itself. -/
  | literal (character : Char)
  /-- Any byte but a slash. -/
  | anyByte
  /-- Any bytes but slashes. -/
  | anyBytes
  /-- Any directories, or none, before what follows. -/
  | leadingDirectories
  /-- Anything below what comes before. -/
  | everythingBelow
  /-- Any directories, or none, between what comes before and what follows. -/
  | directoriesBetween
  /-- A byte in, or not in, the ranges of a class. -/
  | byteClass (negated : Bool) (ranges : List (Nat × Nat))
  /-- One of some sequences of parts. -/
  | alternatives (choices : List (List GlobPart))
deriving Repr

/-- A pattern for paths. -/
abbrev Glob := List GlobPart

namespace Glob

/-! ### Bytes -/

/-- The bytes of a character. -/
def bytesOfChar (character : Char) : List Nat :=
  (String.singleton character).toUTF8.data.toList.map UInt8.toNat

/-- The bytes of a text. -/
def bytesOf (text : Text.Chars) : List Nat :=
  text.flatMap bytesOfChar

/-- A slash as a byte. -/
def slash : Nat := 0x2F

/-! ### Matching -/

/-- What is left of some bytes when none, one, two or more of them are taken that are not
slashes. -/
def restsInName : List Nat → List (List Nat)
  | [] => [[]]
  | byte :: bytes =>
    (byte :: bytes) :: if byte = slash then [] else restsInName bytes

/-- What is left of some bytes behind each of their slashes. -/
def restsAfterSlash : List Nat → List (List Nat)
  | [] => []
  | byte :: bytes => (if byte = slash then [bytes] else []) ++ restsAfterSlash bytes

/-- What is left of some bytes when a slash or everything between two slashes is taken. -/
def restsBetween : List Nat → List (List Nat)
  | byte :: bytes => if byte = slash then bytes :: restsAfterSlash bytes else []
  | [] => []

/-- Whether a byte lies in one of the ranges. -/
def inClass (ranges : List (Nat × Nat)) (byte : Nat) : Bool :=
  ranges.any fun (first, last) => first ≤ byte && byte ≤ last

/-- What is left of some bytes when any number of them is taken. -/
def rests : List Nat → List (List Nat)
  | [] => [[]]
  | byte :: bytes => (byte :: bytes) :: rests bytes

/-- What is left of some bytes that begin with others. -/
def strip? : List Nat → List Nat → Option (List Nat)
  | [], rest => some rest
  | byte :: bytes, next :: rest => if byte = next then strip? bytes rest else none
  | _ :: _, [] => none

mutual

/-- Whether a part takes no room, so that a choice that has only such parts does not count. -/
def isVoidPart : GlobPart → Bool
  | .alternatives choices => areVoidChoices choices
  | _ => false

/-- Whether all parts take no room. -/
def isVoid : List GlobPart → Bool
  | [] => true
  | part :: parts => isVoidPart part && isVoid parts

/-- Whether no choice takes room. -/
def areVoidChoices : List (List GlobPart) → Bool
  | [] => true
  | choice :: choices => isVoid choice && areVoidChoices choices

end

mutual

/-- Whether a part matches the beginning of some bytes so that `after` accepts the rest. -/
def matchPart (after : List Nat → Bool) (bytes : List Nat) : GlobPart → Bool
  | .literal character => (strip? (bytesOfChar character) bytes).any after
  | .anyByte =>
    match bytes with
    | byte :: rest => byte ≠ slash && after rest
    | [] => false
  | .anyBytes => (restsInName bytes).any after
  | .leadingDirectories => after bytes || (restsAfterSlash bytes).any after
  | .everythingBelow =>
    match bytes with
    | byte :: rest => byte = slash && (rests rest).any after
    | [] => false
  | .directoriesBetween => (restsBetween bytes).any after
  | .byteClass negated ranges =>
    match bytes with
    | byte :: rest => inClass ranges byte ≠ negated && after rest
    | [] => false
  | .alternatives choices =>
    if areVoidChoices choices then after bytes else matchChoices after bytes choices

/-- Whether some parts match the beginning of some bytes so that `after` accepts the rest. -/
def matchParts (after : List Nat → Bool) (bytes : List Nat) : List GlobPart → Bool
  | [] => after bytes
  | part :: parts => matchPart (fun rest => matchParts after rest parts) bytes part

/-- Whether one of some choices matches so. -/
def matchChoices (after : List Nat → Bool) (bytes : List Nat) : List (List GlobPart) → Bool
  | [] => false
  | choice :: choices =>
    (!isVoid choice && matchParts after bytes choice) || matchChoices after bytes choices

end

end Glob

end CodeAtlas
