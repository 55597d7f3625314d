/-
This file reads data from JSON values. A record is an object with its fields as members, or
an array of its fields in their order. Members that name no field are passed over. An
optional field may be missing or null, and a field with a default may be missing.
-/

import CodeAtlas.Json.Basic

namespace CodeAtlas.Json

/-! ### Simple values -/

/-- The greatest whole number that is read. -/
def maxWord : Nat := UInt64.size - 1

/-- Reads a truth value. -/
def bool? : Json → Option Bool
  | bool value => some value
  | _ => none

/-- Reads a text. -/
def string? : Json → Option String
  | string value => some value
  | _ => none

/-- Reads a whole number that is not negative and fits in 64 bits. -/
def nat? : Json → Option Nat
  | number (.ofNat value) 0 => if value ≤ maxWord then some value else none
  | _ => none

/-- Reads a list. -/
def list? {α : Type} (read : Json → Option α) : Json → Option (List α)
  | array elements => elements.mapM read
  | _ => none

/-- Reads a list of texts. -/
def strings? : Json → Option (List String) :=
  list? string?

/-- Reads a value that may be null. -/
def nullable? {α : Type} (read : Json → Option α) : Json → Option (Option α)
  | null => some none
  | value => (read value).map some

/-- Reads one of some words. A word is given as a string, or as an object with the word as its
only key and null as its value. -/
def word? : Json → Option String
  | string value => some value
  | object [(value, null)] => some value
  | _ => none

/-! ### Records -/

/-- The value of a key among some members. -/
def member? (key : String) : List (String × Json) → Option Json
  | [] => none
  | (held, value) :: members => if held = key then some value else member? key members

/-- The field of a record with a name and a place in the order of the fields. -/
def field? (record : Json) (place : Nat) (name : String) : Option Json :=
  match record with
  | object members => member? name members
  | array elements => elements[place]?
  | _ => none

/-- Whether a value can be a record with so many fields. -/
def isRecord (fields : Nat) : Json → Bool
  | object _ => true
  | array elements => elements.length ≤ fields
  | _ => false

/-- Reads a field that must be there. -/
def required {α : Type} (read : Json → Option α) (record : Json) (place : Nat) (name : String) :
    Option α :=
  (record.field? place name).bind read

/-- Reads a field that stands for `default` when it is missing. -/
def defaulted {α : Type} (default : α) (read : Json → Option α) (record : Json) (place : Nat)
    (name : String) : Option α :=
  match record.field? place name with
  | some value => read value
  | none => some default

/-- Reads a field that may be null. Only in an object may it be missing. -/
def optional {α : Type} (read : Json → Option α) (record : Json) (place : Nat) (name : String) :
    Option (Option α) :=
  match record with
  | object members =>
    match member? name members with
    | some value => nullable? read value
    | none => some none
  | _ => (record.field? place name).bind (nullable? read)

end CodeAtlas.Json
