/-
This file reads the values of the TOML format that are single words: numbers, truth values and
moments in time.
-/

import CodeAtlas.Toml.Value

namespace CodeAtlas.Toml

open Text

/-! ### Digits -/

/-- The value of a digit to a base of at most sixteen. -/
def digitValue? (base : Nat) (digit : Char) : Option Nat :=
  let value :=
    if digit.isDigit then some (digit.toNat - '0'.toNat)
    else if 'a' ≤ digit ∧ digit ≤ 'f' then some (digit.toNat - 'a'.toNat + 10)
    else if 'A' ≤ digit ∧ digit ≤ 'F' then some (digit.toNat - 'A'.toNat + 10)
    else none
  value.filter (· < base)

/-- The value of digits, with the value of those before them. -/
def digitsFrom? (base held : Nat) : Chars → Option Nat
  | [] => some held
  | ['_'] => none
  | '_' :: digit :: digits => do digitsFrom? base (held * base + (← digitValue? base digit)) digits
  | digit :: digits => do digitsFrom? base (held * base + (← digitValue? base digit)) digits

/-- The value of digits, of which there is at least one. Between two digits an underscore may
stand. -/
def digits? (base : Nat) : Chars → Option Nat
  | [] => none
  | digit :: digits => do digitsFrom? base (← digitValue? base digit) digits

/-- The value of decimal digits without zeros in front. -/
def decimal? : Chars → Option Nat
  | ['0'] => some 0
  | '0' :: _ => none
  | digits => digits? 10 digits

/-! ### Numbers -/

/-- Whether a whole number fits in 64 bits. -/
def fitsWord (value : Int) : Bool :=
  Int64.minValue.toInt ≤ value && value ≤ Int64.maxValue.toInt

/-- A whole number. -/
def integer? (word : Chars) : Option Int :=
  let value := match word with
    | '0' :: 'x' :: digits => (digits? 16 digits).map Int.ofNat
    | '0' :: 'o' :: digits => (digits? 8 digits).map Int.ofNat
    | '0' :: 'b' :: digits => (digits? 2 digits).map Int.ofNat
    | '+' :: digits => (decimal? digits).map Int.ofNat
    | '-' :: digits => (decimal? digits).map fun value => -(Int.ofNat value)
    | digits => (decimal? digits).map Int.ofNat
  value.filter fitsWord

/-- A word without the sign in front of it. -/
def withoutSign : Chars → Chars
  | '+' :: word => word
  | '-' :: word => word
  | word => word

/-- Whether a word is an exponent, after the letter that introduces it. -/
def isExponent (word : Chars) : Bool :=
  (digits? 10 (withoutSign word)).isSome

/-- A word split at its first character of some. -/
def splitAtAny? (marks : List Char) (word : Chars) : Option (Chars × Chars) :=
  match word.dropWhile fun character => character ∉ marks with
  | _ :: after => some (word.takeWhile fun character => character ∉ marks, after)
  | [] => none

/-- Whether a word is a number with a fraction, an exponent, or no finite value. -/
def isFraction (word : Chars) : Bool :=
  let number := withoutSign word
  if number = "inf".toList ∨ number = "nan".toList then true
  else
    let (mantissa, exponentFits) := match splitAtAny? ['e', 'E'] number with
      | some (mantissa, exponent) => (mantissa, isExponent exponent)
      | none => (number, splitFirst? ['.'] number |>.isSome)
    let mantissaFits := match splitFirst? ['.'] mantissa with
      | some (whole, part) => (decimal? whole).isSome && (digits? 10 part).isSome
      | none => (decimal? mantissa).isSome
    exponentFits && mantissaFits

/-! ### Moments -/

/-- A number of a fixed count of digits. -/
def fixed? (count : Nat) (word : Chars) : Option Nat :=
  if word.length = count ∧ word.all Char.isDigit then digits? 10 word else none

/-- Whether a year has a day more. -/
def isLeapYear (year : Nat) : Bool :=
  year % 4 == 0 && (year % 100 != 0 || year % 400 == 0)

/-- The number of days of a month. -/
def daysOfMonth (year month : Nat) : Nat :=
  if month = 2 then if isLeapYear year then 29 else 28
  else if month ∈ [4, 6, 9, 11] then 30
  else 31

/-- Whether a word is a date. -/
def isDate (word : Chars) : Bool :=
  match splitWhere (· = '-') word with
  | [year, month, day] =>
    match fixed? 4 year, fixed? 2 month, fixed? 2 day with
    | some year, some month, some day =>
      1 ≤ month && month ≤ 12 && 1 ≤ day && day ≤ daysOfMonth year month
    | _, _, _ => false
  | _ => false

/-- Whether a word is a number of two digits that is not greater than `most`. -/
def isUpTo (most : Nat) (word : Chars) : Bool :=
  (fixed? 2 word).any (· ≤ most)

/-- Whether a word is a number of seconds, perhaps with a fraction. -/
def isSecond (word : Chars) : Bool :=
  match splitFirst? ['.'] word with
  | some (second, part) => isUpTo 60 second && !part.isEmpty && part.all Char.isDigit
  | none => isUpTo 60 word

/-- Whether a word is a time of day. -/
def isTime (word : Chars) : Bool :=
  match splitWhere (· = ':') word with
  | [hour, minute, second] => isUpTo 23 hour && isUpTo 59 minute && isSecond second
  | _ => false

/-- Whether a word is a distance from the time zone of Greenwich. -/
def isZone (word : Chars) : Bool :=
  match splitWhere (· = ':') word with
  | [hour, minute] => isUpTo 23 hour && isUpTo 59 minute
  | _ => false

/-- Whether a word is a time of day, perhaps with a time zone. -/
def isZonedTime (word : Chars) : Bool :=
  isTime word ||
    (match stripBack? ['Z'] word, stripBack? ['z'] word with
      | some time, _ => isTime time
      | none, some time => isTime time
      | none, none => false) ||
    match splitAtAny? ['+', '-'] word with
    | some (time, zone) => isTime time && isZone zone
    | none => false

/-- Whether a word is a date with a time of day. -/
def isDatedTime (word : Chars) : Bool :=
  match word.drop 10 with
  | mark :: time => mark ∈ ['T', 't', ' '] && isDate (word.take 10) && isZonedTime time
  | [] => false

/-- Whether a word is a moment in time. -/
def isMoment (word : Chars) : Bool :=
  isDate word || isTime word || isDatedTime word

/-! ### Words -/

/-- The value of a word. -/
def ofWord? (word : Chars) : Option Toml :=
  if word = "true".toList then some (.boolean true)
  else if word = "false".toList then some (.boolean false)
  else if isMoment word then some (.moment (String.ofList word))
  else if isFraction word then some (.fraction (String.ofList word))
  else (integer? word).map .integer

/-- Whether a character may stand in a word. -/
def isWordChar (character : Char) : Bool :=
  character.isAlphanum || character ∈ ['_', '+', '-', '.', ':']

/-- Takes the word at the beginning of a text. A date and a time of day with a space between
them are one word. -/
def takeWord (text : Chars) : Chars × Chars :=
  let word := text.takeWhile isWordChar
  let rest := text.dropWhile isWordChar
  match rest with
  | ' ' :: hour :: digit :: ':' :: more =>
    if isDate word ∧ hour.isDigit ∧ digit.isDigit then
      let time := hour :: digit :: ':' :: more
      (word ++ ' ' :: time.takeWhile isWordChar, time.dropWhile isWordChar)
    else (word, rest)
  | _ => (word, rest)

end CodeAtlas.Toml
