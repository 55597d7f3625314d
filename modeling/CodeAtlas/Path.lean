/-
This file reads paths. A path is a text of pieces between slashes; of the pieces, the empty
ones and the single dots name nothing, except a dot at the very beginning of a relative path.
What is left are the components, and all questions about a path are asked of them.
-/

import CodeAtlas.Text.Chars

namespace CodeAtlas.Path

open Text

/-! ### Components -/

/-- What a piece of a path names. -/
inductive Component where
  /-- The slash at the beginning of an absolute path. -/
  | root
  /-- A dot at the beginning of a relative path. -/
  | here
  /-- Two dots. -/
  | above
  /-- Any other name. -/
  | name (text : Chars)
deriving DecidableEq, Repr

/-- How a component is written. -/
def Component.text : Component → Chars
  | .root => ['/']
  | .here => ['.']
  | .above => ['.', '.']
  | .name text => text

/-- Whether a path begins at the root. -/
def isAbsolute (path : String) : Bool :=
  path.toList.head? = some '/'

/-- The pieces of a path, without the slash at its beginning. -/
def pieces (path : String) : List Chars :=
  splitWhere (· = '/') (if isAbsolute path then path.toList.tail else path.toList)

/-- The component that a piece names when it does not stand at the beginning. -/
def innerComponent? (piece : Chars) : Option Component :=
  if piece = [] ∨ piece = ['.'] then none
  else if piece = ['.', '.'] then some .above
  else some (.name piece)

/-- The components of a path. -/
def components (path : String) : List Component :=
  if isAbsolute path then .root :: (pieces path).filterMap innerComponent?
  else
    match pieces path with
    | ['.'] :: rest => .here :: rest.filterMap innerComponent?
    | all => all.filterMap innerComponent?

/-! ### The last component -/

/-- The last component, if it is a name. -/
def fileName? (path : String) : Option Chars :=
  match (components path).getLast? with
  | some (.name text) => some text
  | _ => none

/-- The part of a name after its last dot, unless that dot begins the name. -/
def nameExtension? (name : Chars) : Option Chars :=
  match splitLast? ['.'] name with
  | some (_ :: _, extension) => some extension
  | _ => none

/-- The extension of the last component. -/
def extension? (path : String) : Option Chars :=
  (fileName? path).bind nameExtension?

/-! ### Directories above a path -/

/-- Whether the last of some pieces, given in reverse, names nothing. -/
def namesNothing (absolute : Bool) (piece : Chars) (earlier : List Chars) : Bool :=
  piece.isEmpty || (piece = ['.'] && (absolute || !earlier.isEmpty))

/-- The pieces, in reverse, without those at the end that name nothing. -/
def dropNothings (absolute : Bool) : List Chars → List Chars
  | [] => []
  | piece :: earlier =>
    if namesNothing absolute piece earlier then dropNothings absolute earlier
    else piece :: earlier

/-- The path of some pieces, given in reverse. -/
def ofReversed (absolute : Bool) (reversed : List Chars) : String :=
  String.ofList ((if absolute then ['/'] else []) ++ join ['/'] reversed.reverse)

/-- The paths that are left when the last component is taken away, again and again. -/
def parentsOfReversed (absolute : Bool) : List Chars → List String
  | [] => []
  | piece :: earlier =>
    if namesNothing absolute piece earlier then parentsOfReversed absolute earlier
    else ofReversed absolute (dropNothings absolute earlier) :: parentsOfReversed absolute earlier

/-- The lexical parents of a path, nearest first. -/
def parents (path : String) : List String :=
  parentsOfReversed (isAbsolute path) (pieces path).reverse

/-- The path without its last component; a path without components has none, nor has the root. -/
def parent? (path : String) : Option String :=
  (parents path).head?

/-! ### Joining and relating -/

/-- A path read from the directory `base`: an absolute path stands for itself. -/
def join (base path : String) : String :=
  if isAbsolute path then path
  else if base.isEmpty || base.toList.getLast? = some '/' then base ++ path
  else base ++ "/" ++ path

/-- The components that follow those of `base`, if the path begins with them. -/
def stripComponents? : List Component → List Component → Option (List Component)
  | [], rest => some rest
  | _ :: _, [] => none
  | base :: bases, component :: rest =>
    if base = component then stripComponents? bases rest else none

/-- A path as seen from the directory `base`, its components with slashes between them. A path
that does not lie below `base` is kept whole. -/
def relativeTo (base path : String) : String :=
  let all := components path
  let rest := (stripComponents? (components base) all).getD all
  String.ofList (Text.join ['/'] (rest.map Component.text))

end CodeAtlas.Path
