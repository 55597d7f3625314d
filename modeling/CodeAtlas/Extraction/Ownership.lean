/-
This file gives every function that lies within the lines of a class to that class. When
several classes surround a function, the one with the fewest lines takes it; of those, the one
that begins last, and of those, the first.
-/

import CodeAtlas.Entity.Basic

namespace CodeAtlas.Ownership

/-! ### The owner of a function -/

/-- Whether one class is a nearer owner than another. -/
def nearer (first second : Class) : Bool :=
  first.lineCount < second.lineCount ||
    (first.lineCount == second.lineCount && second.startLine < first.startLine)

/-- The nearest owner of a range of lines among some classes, with its index counted from
`index` on, as good as the nearest found before. -/
def nearestFrom (startLine endLine : Nat) (index : Nat) (best : Option (Nat × Class)) :
    List Class → Option (Nat × Class)
  | [] => best
  | owner :: owners =>
    let better :=
      if owner.containsLines startLine endLine then
        match best with
        | none => some (index, owner)
        | some (_, held) => if nearer owner held then some (index, owner) else best
      else best
    nearestFrom startLine endLine (index + 1) better owners

/-- The index of the class that takes a function, if any does. -/
def owner? (classes : List Class) (function : Function) : Option Nat :=
  (nearestFrom function.startLine function.endLine 0 none classes).map (·.1)

/-! ### Moving functions -/

/-- The function as a method. -/
def asMethod (function : Function) : Function :=
  { function with isMethod := true }

/-- The class with one more method, unless it has a method at the same place. -/
def receive (owner : Class) (function : Function) : Class :=
  if owner.methods.any fun method => method.offset = function.offset then owner
  else { owner with methods := owner.methods ++ [asMethod function] }

/-- The classes after the function has gone to its owner. -/
def place (classes : List Class) (function : Function) : List Class :=
  match owner? classes function with
  | some index => classes.modify index (receive · function)
  | none => classes

/-- Whether one method stands before another, or at the same place. -/
def standsBefore (first second : Function) : Bool :=
  first.startLine < second.startLine ||
    (first.startLine == second.startLine && first.offset ≤ second.offset)

/-- The class with its methods in the order of their places. -/
def sortMethods (owner : Class) : Class :=
  { owner with methods := owner.methods.mergeSort standsBefore }

/-- The file with every function that has an owner among the methods of its owner. If no
function has one, the file stays as it is. -/
def assign (file : FileRecord) : FileRecord :=
  if file.functions.any fun function => (owner? file.classes function).isSome then
    { file with
      classes := (file.functions.foldl place file.classes).map sortMethods
      functions := file.functions.filter fun function =>
        (owner? file.classes function).isNone }
  else file

end CodeAtlas.Ownership
