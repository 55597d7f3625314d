/-
This file says which characters are blank and what depends on it: trimming, words, and
the lines of a text. Blank is the property White_Space of the Unicode standard, which
holds of 25 characters.
-/

import CodeAtlas.Text.Chars

namespace CodeAtlas.Text

/-- Whether a character has the property White_Space. -/
def isBlank (character : Char) : Bool :=
  let code := character.toNat
  (0x9 ≤ code && code ≤ 0xD) || code == 0x20 || code == 0x85 || code == 0xA0 ||
    code == 0x1680 || (0x2000 ≤ code && code ≤ 0x200A) || code == 0x2028 || code == 0x2029 ||
    code == 0x202F || code == 0x205F || code == 0x3000

/-! ### Trimming -/

/-- The text without blanks at its beginning. -/
def trimFront (text : Chars) : Chars :=
  text.dropWhile isBlank

/-- The text without blanks at its end. -/
def trimBack (text : Chars) : Chars :=
  dropEnd isBlank text

/-- The text without blanks at either end. -/
def trim (text : Chars) : Chars :=
  dropAround isBlank text

/-- The maximal runs of characters that are not blank. -/
def words (text : Chars) : List Chars :=
  (splitWhere isBlank text).filter fun word => !word.isEmpty

/-- The words of a text with one space between neighbours. -/
def collapse (text : Chars) : Chars :=
  join [' '] (words text)

/-! ### Lines -/

/-- A line without the carriage return at its end. -/
def dropReturn (line : Chars) : Chars :=
  (stripBack? ['\r'] line).getD line

/-- Of the pieces between newlines, all but the last are lines whose carriage return belongs
to the line break; the last is a line only if something stands in it. -/
def linesOfPieces : List Chars → List Chars
  | [] => []
  | [last] => if last.isEmpty then [] else [last]
  | piece :: next :: pieces => dropReturn piece :: linesOfPieces (next :: pieces)

/-- The lines of a text. A newline at the end begins no further line. -/
def lines (text : Chars) : List Chars :=
  linesOfPieces (splitWhere (· = '\n') text)

/-- The lines put together again with newlines between them. -/
def unlines (lines : List Chars) : Chars :=
  join ['\n'] lines

end CodeAtlas.Text
