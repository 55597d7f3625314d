/-
This file says which files an import may mean. The name of a module becomes a path, and the
path becomes one candidate for each way in which a file can stand for a module.
-/

import CodeAtlas.Entity.Basic
import CodeAtlas.Text.Blank
import CodeAtlas.Text.LowerCase

namespace CodeAtlas.Candidates

open Text

/-! ### From modules to paths -/

/-- The text without the steps `./` and `../` at its beginning. -/
def stripSteps : Chars → Chars
  | '.' :: '/' :: text => stripSteps text
  | '.' :: '.' :: '/' :: text => stripSteps text
  | text => text

/-- The words that stand for a place in the tree of modules rather than for a module. -/
def placeWords : List Chars :=
  ["crate".toList, "self".toList, "super".toList]

/-- What follows a place word and the separator behind it. -/
def afterPlaceWord? (text : Chars) : Option Chars :=
  placeWords.findSome? fun word => stripFront? (word ++ [':', ':']) text

theorem length_afterPlaceWord? {text rest : Chars} (found : afterPlaceWord? text = some rest) :
    rest.length < text.length := by
  obtain ⟨word, _, found⟩ := List.exists_of_findSome?_eq_some found
  rw [eq_append_of_stripFront? found]
  simp
  omega

/-- The text without the place words at its beginning. -/
def stripPlaceWords (text : Chars) : Chars :=
  match _found : afterPlaceWord? text with
  | some rest => stripPlaceWords rest
  | none => text
termination_by text.length
decreasing_by exact length_afterPlaceWord? _found

/-- Whether a character is a slash. -/
def isSlash (character : Char) : Bool :=
  character == '/'

/-- The path that a module stands for, without the extension of a file. A name that has slashes
is a path already. -/
def modulePath (text : Chars) : Chars :=
  let rest := stripPlaceWords ((stripSteps (trim text)).dropWhile (· = '.'))
  if rest ∈ placeWords then []
  else
    let path :=
      if rest.any isSlash then rest
      else replaceChar '.' '/' (replaceChar '\\' '/' (replacePair ':' '/' rest))
    dropAround isSlash path

/-! ### From paths to candidates -/

/-- Whether a module ends in a file extension that is tried. -/
def hasExtension (extensions : List String) (text : Chars) : Bool :=
  match splitLast? ['.'] text with
  | some (stem, extension) =>
    !stem.isEmpty && !endsWith ['.'] stem &&
      extensions.any fun known => sameIgnoringCase known.toList extension
  | none => false

/-- The files that may stand for a module at a path, with one extension. -/
def filesAt (path : Chars) (extension : Chars) : List Chars := [
  path ++ ['.'] ++ extension,
  path ++ "/index.".toList ++ extension,
  path ++ "/__init__.".toList ++ extension,
  path ++ "/mod.".toList ++ extension]

/-- The files that may stand for a module at a path. -/
def ofPath (extensions : List String) (path : Chars) : List Chars :=
  if path.isEmpty then []
  else extensions.flatMap fun extension => filesAt path extension.toList

/-- The files that a module may mean. One that ends in an extension means only itself. -/
def ofModule (extensions : List String) (text : Chars) : List Chars :=
  let name := trim text
  if name.isEmpty then []
  else if hasExtension extensions name then
    let path := (stripSteps name).dropWhile isSlash
    if path.isEmpty then [] else [path]
  else ofPath extensions (modulePath name)

/-- The path of a name that is imported from the module at a path. -/
def namePath (base : Chars) (name : Chars) : Chars :=
  if base.isEmpty then modulePath name else base ++ ['/'] ++ modulePath name

/-- The files that an import may mean: its module, and every imported name as a module below
it. -/
def ofImport (extensions : List String) (statement : Import) : List Chars :=
  let text := statement.moduleName.toList
  let direct := ofModule extensions text
  if hasExtension extensions text then direct
  else
    let names := statement.names.filter (· ≠ Import.wildcard)
    (names.flatMap fun name => ofPath extensions (namePath (modulePath text) name.toList)).foldl
      pushNew direct

/-- The files that a module may mean, as texts. -/
def patterns (moduleName : String) (extensions : List String) : List String :=
  (ofModule extensions moduleName.toList).map String.ofList

end CodeAtlas.Candidates
