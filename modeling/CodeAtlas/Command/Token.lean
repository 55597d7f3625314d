/-
This file takes a command line apart. Every argument is a switch, several letters of switches,
the value of the switch before it, a word that opens a scope, or any other word. What cannot be
taken apart ends the tokens, so that whatever was said before it still counts.
-/

import CodeAtlas.Command.Switch
import CodeAtlas.Text.Chars

namespace CodeAtlas.Command

open Text

/-- What is wrong with a command line. -/
inductive UsageError where
  /-- There is no such switch. -/
  | unknownSwitch (argument : String)
  /-- A word stands where none belongs. -/
  | unexpectedWord (argument : String)
  | missingValue (switch : Switch)
  | unwantedValue (switch : Switch)
  | invalidValue (switch : Switch) (value : String)
  /-- A path is empty. -/
  | emptyPath
  | repeated (switch : Switch)
  | missingCommand
deriving DecidableEq, Repr

/-- What is said about a wrong command line. -/
def UsageError.message : UsageError → String
  | unknownSwitch argument => "unexpected argument '" ++ argument ++ "' found"
  | unexpectedWord argument => "unexpected argument '" ++ argument ++ "' found"
  | missingValue switch => "a value is required for '--" ++ switch.name ++ "' but none was supplied"
  | unwantedValue switch => "unexpected value for '--" ++ switch.name ++ "' found"
  | invalidValue switch value => "invalid value '" ++ value ++ "' for '--" ++ switch.name ++ "'"
  | emptyPath => "a path must not be empty"
  | repeated switch => "the argument '--" ++ switch.name ++ "' cannot be used multiple times"
  | missingCommand => "a subcommand is required but one was not provided"

/-- One thing that a command line says. -/
inductive Token where
  | flag (switch : Switch)
  | value (switch : Switch) (text : String)
  | word (text : String)
  /-- A scope is opened, to which all later arguments belong. -/
  | command (scope : Scope) (arguments : List String)
  | wrong (error : UsageError)
deriving DecidableEq, Repr

/-! ### Single arguments -/

/-- What one argument says, with the switch at its end that still waits for a value. -/
structure Reading where
  tokens : List Token
  waiting : Option Switch := none
deriving DecidableEq, Repr

/-- Reads what follows two dashes: a name, and after a mark of equality a value. -/
def readName (scope : Scope) (text : Chars) : Reading :=
  let (name, value) := match splitFirst? ['='] text with
    | some (name, value) => (name, some value)
    | none => (text, none)
  match scope.named? (String.ofList name) with
  | none => { tokens := [.wrong (.unknownSwitch (String.ofList ('-' :: '-' :: name)))] }
  | some switch =>
    match switch.takesValue, value with
    | true, some value => { tokens := [.value switch (String.ofList value)] }
    | true, none => { tokens := [], waiting := some switch }
    | false, some _ => { tokens := [.wrong (.unwantedValue switch)] }
    | false, none => { tokens := [.flag switch] }

/-- Reads the letters that follow one dash. After a letter whose switch takes a value stands the
value, with or without a mark of equality. -/
def readLetters (scope : Scope) : Chars → Reading
  | [] => { tokens := [] }
  | letter :: rest =>
    match scope.lettered? letter with
    | none => { tokens := [.wrong (.unknownSwitch (String.ofList ['-', letter]))] }
    | some switch =>
      if switch.takesValue then
        match rest with
        | [] => { tokens := [], waiting := some switch }
        | '=' :: value => { tokens := [.value switch (String.ofList value)] }
        | value => { tokens := [.value switch (String.ofList value)] }
      else
        let reading := readLetters scope rest
        { reading with tokens := .flag switch :: reading.tokens }

/-- Reads an argument. A dash alone is a word. -/
def readArgument (scope : Scope) (argument : String) : Reading :=
  match argument.toList with
  | '-' :: '-' :: text => readName scope text
  | '-' :: letter :: letters => readLetters scope (letter :: letters)
  | _ => { tokens := [.word argument] }

/-- Whether an argument is written like a switch, so that it cannot be the value of one. -/
def isSwitchLike (argument : String) : Bool :=
  match argument.toList with
  | '-' :: _ :: _ => true
  | _ => false

/-! ### Command lines -/

/-- The tokens of the arguments in a scope. Two dashes alone turn all later arguments into
words. -/
def tokens (scope : Scope) : List String → List Token
  | [] => []
  | argument :: rest =>
    if argument = "--" then rest.map .word
    else
      match scope.command? argument with
      | some command => [.command command rest]
      | none =>
        let reading := readArgument scope argument
        match reading.waiting with
        | none => reading.tokens ++ tokens scope rest
        | some switch =>
          match rest with
          | value :: later =>
            if isSwitchLike value then reading.tokens ++ [.wrong (.missingValue switch)]
            else reading.tokens ++ .value switch value :: tokens scope later
          | [] => reading.tokens ++ [.wrong (.missingValue switch)]

end CodeAtlas.Command
