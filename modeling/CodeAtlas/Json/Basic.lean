/-
This file holds values of the JSON data format and how they are written: two spaces for each
level, one member or element to a line, and nothing between the brackets of an empty value.
-/

import CodeAtlas.Text.Chars

namespace CodeAtlas

/-- A value of the JSON data format. The number of mantissa `m` and exponent `e` is `m` divided
by ten `e` times. -/
inductive Json where
  | null
  | bool (value : Bool)
  | number (mantissa : Int) (exponent : Nat)
  | string (value : String)
  | array (elements : List Json)
  | object (members : List (String × Json))
deriving Repr, Inhabited

namespace Json

/-- A whole number that is not negative. -/
def nat (value : Nat) : Json :=
  number value 0

/-- A list of texts. -/
def strings (values : List String) : Json :=
  array (values.map string)

/-- A value or null. -/
def orNull {α : Type} (encode : α → Json) : Option α → Json
  | some value => encode value
  | none => null

/-! ### Strings -/

/-- A digit to the base sixteen. -/
def hexDigit (value : Nat) : Char :=
  (Nat.toDigits 16 (value % 16)).headD '0'

/-- How a character is written in a string. Only quotes, backslashes and control characters are
escaped. -/
def escape (character : Char) : Text.Chars :=
  if character = '"' then ['\\', '"']
  else if character = '\\' then ['\\', '\\']
  else if character = '\n' then ['\\', 'n']
  else if character = '\r' then ['\\', 'r']
  else if character = '\t' then ['\\', 't']
  else if character.toNat = 0x8 then ['\\', 'b']
  else if character.toNat = 0xC then ['\\', 'f']
  else if character.toNat < 0x20 then
    ['\\', 'u', '0', '0', hexDigit (character.toNat / 16), hexDigit character.toNat]
  else [character]

/-- A text as a string in quotes. -/
def quote (text : String) : String :=
  "\"" ++ String.ofList (text.toList.flatMap escape) ++ "\""

/-! ### Printing -/

/-- A number in decimal digits. -/
def printNumber (mantissa : Int) (exponent : Nat) : String :=
  if exponent = 0 then toString mantissa else toString mantissa ++ "e-" ++ toString exponent

/-- The beginning of a line at some level. -/
def lineStart (level : Nat) : String :=
  "\n" ++ String.ofList (List.replicate (2 * level) ' ')

/-- What stands before a member or an element: a comma unless it is the first. -/
def before (isFirst : Bool) (level : Nat) : String :=
  (if isFirst then "" else ",") ++ lineStart level

mutual

/-- A value at some level. -/
def printAt (level : Nat) : Json → String
  | null => "null"
  | bool true => "true"
  | bool false => "false"
  | number mantissa exponent => printNumber mantissa exponent
  | string text => quote text
  | array [] => "[]"
  | array (element :: elements) =>
    "[" ++ printElements (level + 1) true (element :: elements) ++ lineStart level ++ "]"
  | object [] => "\x7b\x7d"
  | object (entry :: members) =>
    "\x7b" ++ printMembers (level + 1) true (entry :: members) ++ lineStart level ++ "\x7d"

/-- The elements of an array. -/
def printElements (level : Nat) (isFirst : Bool) : List Json → String
  | [] => ""
  | element :: elements =>
    before isFirst level ++ printAt level element ++ printElements level false elements

/-- The members of an object. -/
def printMembers (level : Nat) (isFirst : Bool) : List (String × Json) → String
  | [] => ""
  | (key, value) :: members =>
    before isFirst level ++ quote key ++ ": " ++ printAt level value ++
      printMembers level false members

end

/-- A value as a text. -/
def print (value : Json) : String :=
  printAt 0 value

end Json

end CodeAtlas
