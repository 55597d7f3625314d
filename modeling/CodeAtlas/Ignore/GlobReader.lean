/-
This file reads globs from texts. A text is read character by character; what has been read is
held as the parts so far, the choices so far, and what surrounds them. Some texts are no
globs: those that leave alternatives open, close alternatives that are not open, end in a
backslash, or name a range that runs backward. A class that is left open makes a text no glob
too, unless its bracket may stand for itself.
-/

import CodeAtlas.Ignore.Glob

namespace CodeAtlas.Glob

open Text

/-! ### Classes -/

/-- A class of which some characters have been read, the ranges latest first. -/
structure ClassDraft where
  negated : Bool
  isFirst : Bool := true
  /-- Whether a dash has been read after a character. -/
  inRange : Bool := false
  ranges : List (Char × Char) := []

namespace ClassDraft

/-- The class with a character more. -/
def single (draft : ClassDraft) (character : Char) : ClassDraft :=
  { draft with isFirst := false, ranges := (character, character) :: draft.ranges }

/-- The class whose last range ends in a character, unless it would run backward. -/
def closeRange? (draft : ClassDraft) (character : Char) : Option ClassDraft :=
  match draft.ranges with
  | (first, _) :: ranges =>
    if character < first then none
    else some { draft with
      isFirst := false, inRange := false, ranges := (first, character) :: ranges }
  | [] => none

/-- The class after a character that does not end it. -/
def add? (draft : ClassDraft) (character : Char) : Option ClassDraft :=
  if draft.inRange then draft.closeRange? character
  else if character = '-' ∧ !draft.isFirst then some { draft with inRange := true }
  else some (draft.single character)

/-- The ranges of bytes of a range of characters. -/
def byteRanges? (range : Char × Char) : Option (List (Nat × Nat)) :=
  let singles := List.map fun byte : Nat => (byte, byte)
  let firsts := bytesOfChar range.1
  let lasts := bytesOfChar range.2
  if range.1 = range.2 then some (singles firsts)
  else
    match firsts.getLast?, lasts with
    | some low, high :: others =>
      if high < low then none
      else some (singles firsts.dropLast ++ [(low, high)] ++ singles others)
    | _, _ => none

/-- The part of a glob that a class is. A dash that no character follows stands for itself. -/
def part? (draft : ClassDraft) : Option GlobPart :=
  let ranges := if draft.inRange then ('-', '-') :: draft.ranges else draft.ranges
  (ranges.reverse.mapM byteRanges?).map fun found => .byteClass draft.negated found.flatten

end ClassDraft

/-- The class that opens before some characters, and the characters in it. -/
def beginClass : Chars → ClassDraft × Chars
  | '!' :: listed => ({ negated := true }, listed)
  | '^' :: listed => ({ negated := true }, listed)
  | listed => ({ negated := false }, listed)

/-- Whether the characters after the bracket of a class leave it open. A closing bracket that
comes first does not close it. -/
def isLeftOpen (text : Chars) : Bool :=
  !(beginClass text).2.tail.any (· == ']')

/-- Whether some characters can be those of a class. -/
def canFill (draft : ClassDraft) (text : Chars) : Bool :=
  (text.foldlM ClassDraft.add? draft).isSome

/-- What an opening bracket stands for. -/
inductive Bracket where
  /-- A class, which must be closed. -/
  | opensClass
  /-- A class if it is closed, or else itself. -/
  | opensClosedClass
  /-- Itself. -/
  | standsForItself
deriving DecidableEq, Repr

/-! ### Globs -/

/-- What surrounds alternatives: the choices and the parts before them, latest first. -/
structure Frame where
  choices : List Glob
  parts : Glob

/-- What has been read of a glob, latest first, and what surrounds it, innermost first. -/
structure Draft where
  choices : List Glob := []
  parts : Glob := []
  outer : List Frame := []

namespace Draft

/-- Whether alternatives are open. -/
def isInside (draft : Draft) : Bool :=
  !draft.outer.isEmpty

/-- The draft with one more part. -/
def push (draft : Draft) (part : GlobPart) : Draft :=
  { draft with parts := part :: draft.parts }

/-- The draft inside of new alternatives. -/
def openChoices (draft : Draft) : Draft :=
  { choices := [], parts := [], outer := ⟨draft.choices, draft.parts⟩ :: draft.outer }

/-- The draft after a comma, which begins the next choice if alternatives are open. -/
def nextChoice (draft : Draft) : Draft :=
  if draft.isInside then
    { draft with choices := draft.parts.reverse :: draft.choices, parts := [] }
  else draft.push (.literal ',')

/-- The draft outside of the innermost alternatives. -/
def closeChoices? (draft : Draft) : Option Draft :=
  match draft.outer with
  | frame :: outer =>
    let choices := (draft.parts.reverse :: draft.choices).reverse
    some { choices := frame.choices, parts := .alternatives choices :: frame.parts, outer }
  | [] => none

/-- The draft after two stars behind a slash: the slash, or the stars before it, and these
become one part. -/
def crossDirectories (draft : Draft) (isLast : Bool) : Draft :=
  match draft.parts with
  | .leadingDirectories :: _ => draft
  | .everythingBelow :: _ => draft
  | _ :: parts =>
    { draft with
      parts := (if isLast then .everythingBelow else .directoriesBetween) :: parts }
  | [] => draft

/-- The draft after two stars that are no more than two single ones. -/
def pushStars (draft : Draft) : Draft :=
  (draft.push .anyBytes).push .anyBytes

/-- The whole glob, if nothing is left open. -/
def finish? (draft : Draft) : Option Glob :=
  if draft.isInside then none else some draft.parts.reverse

end Draft

/-- Whether a character ends a choice. -/
def endsChoice (character : Char) : Bool :=
  character == ',' || character == '\x7d'

/-- Whether two stars after the character `previous` may cross directories. -/
def mayCross (draft : Draft) (previous : Option Char) : Bool :=
  previous = some '/' || (draft.isInside && (previous = some ',' || previous = some '\x7b'))

/-- What is being read: parts of a glob, or the characters of a class. -/
inductive Reader where
  | parts (draft : Draft)
  | charClass (draft : Draft) (held : ClassDraft)

/-- Reads a glob from a text that follows the character `previous`. -/
def readFrom? (bracket : Bracket) (previous : Option Char) : Reader → Chars → Option Glob
  | .charClass _ _, [] => none
  | .charClass draft held, character :: text =>
    if character = ']' ∧ !held.isFirst then
      match held.part? with
      | some part => readFrom? bracket (some ']') (.parts (draft.push part)) text
      | none => none
    else
      match held.add? character with
      | some more => readFrom? bracket (some character) (.charClass draft more) text
      | none => none
  | .parts draft, [] => draft.finish?
  | .parts draft, '*' :: '*' :: '/' :: text =>
    if draft.parts.isEmpty then
      readFrom? bracket (some '/') (.parts (draft.push .leadingDirectories)) text
    else if mayCross draft previous then
      readFrom? bracket (some '/') (.parts (draft.crossDirectories false)) text
    else readFrom? bracket (some '/') (.parts (draft.pushStars.push (.literal '/'))) text
  | .parts draft, ['*', '*'] =>
    if draft.parts.isEmpty then (draft.push .leadingDirectories).finish?
    else if mayCross draft previous then (draft.crossDirectories true).finish?
    else draft.pushStars.finish?
  | .parts draft, '*' :: '*' :: character :: text =>
    if !draft.parts.isEmpty && mayCross draft previous && draft.isInside &&
        endsChoice character then
      readFrom? bracket (some '*') (.parts (draft.crossDirectories true)) (character :: text)
    else readFrom? bracket (some '*') (.parts draft.pushStars) (character :: text)
  | .parts draft, '*' :: text =>
    readFrom? bracket (some '*') (.parts (draft.push .anyBytes)) text
  | .parts draft, '?' :: text =>
    readFrom? bracket (some '?') (.parts (draft.push .anyByte)) text
  | .parts draft, '[' :: text =>
    if bracket = .standsForItself then
      readFrom? bracket (some '[') (.parts (draft.push (.literal '['))) text
    else if bracket = .opensClosedClass ∧ isLeftOpen text then
      if canFill (beginClass text).1 (beginClass text).2 then
        readFrom? .standsForItself (some '[') (.parts (draft.push (.literal '['))) text
      else none
    else
      match text with
      | '!' :: listed => readFrom? bracket (some '!') (.charClass draft { negated := true }) listed
      | '^' :: listed => readFrom? bracket (some '^') (.charClass draft { negated := true }) listed
      | listed => readFrom? bracket (some '[') (.charClass draft { negated := false }) listed
  | .parts draft, '\x7b' :: text =>
    readFrom? bracket (some '\x7b') (.parts draft.openChoices) text
  | .parts draft, '\x7d' :: text =>
    match draft.closeChoices? with
    | some closed => readFrom? bracket (some '\x7d') (.parts closed) text
    | none => none
  | .parts draft, ',' :: text => readFrom? bracket (some ',') (.parts draft.nextChoice) text
  | .parts _, ['\\'] => none
  | .parts draft, '\\' :: character :: text =>
    readFrom? bracket (some character) (.parts (draft.push (.literal character))) text
  | .parts draft, character :: text =>
    readFrom? bracket (some character) (.parts (draft.push (.literal character))) text

/-- Reads a glob. -/
def read? (bracket : Bracket) (text : Chars) : Option Glob :=
  readFrom? bracket none (.parts {}) text

/-- Whether a glob matches a path. Two stars alone match every path. -/
def matchesPath (glob : Glob) (path : Chars) : Bool :=
  match glob with
  | [.leadingDirectories] => true
  | _ => matchParts List.isEmpty (bytesOf path) glob

end CodeAtlas.Glob
