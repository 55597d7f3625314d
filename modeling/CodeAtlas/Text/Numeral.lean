/-
This file reads numbers that are written in decimal digits.
-/

import CodeAtlas.Text.Chars

namespace CodeAtlas.Text

/-- The number that decimal digits write, of which there is at least one. -/
def number? (digits : Chars) : Option Nat :=
  if digits.isEmpty || !digits.all Char.isDigit then none
  else some (digits.foldl (fun value digit => value * 10 + (digit.toNat - '0'.toNat)) 0)

/-- The machine word of 64 bits that decimal digits write. A plus may stand in front of them. -/
def word64? (text : Chars) : Option Nat :=
  (number? ((stripFront? ['+'] text).getD text)).filter (· < UInt64.size)

end CodeAtlas.Text
