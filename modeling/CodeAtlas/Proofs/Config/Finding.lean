/-
This file shows that a fresh configuration file is found and understood. From the directory from
which its path leads to it, it is the nearest there is, its text is read back as it was written, and
the text is that of a configuration.
-/

import CodeAtlas.Config.Loading
import CodeAtlas.Proofs.Files.Following

namespace CodeAtlas

open Text

/-! ### Reading back -/

theorem Text.Utf8.decode?_toUTF8 (text : String) : decode? text.toUTF8 = some text := by
  rw [decode?, String.fromUTF8?, String.toUTF8_eq_toByteArray, dif_pos text.isValidUTF8]
  rfl

namespace FileSystem

variable {files : FileSystem}

theorem readText?_of_standing {path text : String} {place : Place}
    (located : files.locate path = .ok place) (readable : files.refusal? .read place = none)
    (stands : files.standing? place = some (.file text.toUTF8)) :
    files.readText? path = some text := by
  rw [readText?, readBytes, located]
  dsimp only
  rw [readable, standing?_eq_file_iff.mp stands]
  exact Text.Utf8.decode?_toUTF8 text

theorem exists?_of_locate {path : String} {place : Place}
    (located : files.locate path = .ok place) : files.exists? path = true := by
  obtain ⟨_, standing, stands⟩ := locate_eq_ok_iff.mp located
  obtain ⟨entry, standsThere, _⟩ := Option.map_eq_some_iff.mp stands
  rw [exists?, lookup?, located]
  dsimp only
  rw [standsThere, Option.isSome_some]

/-- The path from the root to a directory leads there without following any link. -/
theorem walks_pathOf {place : Place} (names : ∀ name ∈ place, IsName name)
    (isDirectory : files.standing? place = some .directory) (isOpen : IsPassable files place) :
    Path.isAbsolute (pathOf place) = true ∧
      Walks files maxLinks [] (Path.pieces (pathOf place)) maxLinks place := by
  obtain ⟨entries, stands⟩ := standing?_eq_directory_iff.mp isDirectory
  by_cases begun : place = []
  · subst begun
    exact ⟨by decide, walks_replicate_nil isDirectory maxLinks 1⟩
  · have isRooted : (pathOf place).toList = '/' :: ("/".intercalate place).toList := by
      simp [pathOf]
    obtain ⟨absolute, pieces⟩ := Path.pieces_of_cons isRooted
    obtain ⟨isRelative, wayPieces⟩ := Path.pieces_intercalate begun names
    rw [Path.pieces, isRelative, if_neg Bool.false_ne_true] at wayPieces
    rw [if_pos rfl, wayPieces] at pieces
    refine ⟨absolute, ?_⟩
    rw [pieces]
    rw [← List.nil_append place] at isOpen
    exact walks_names rfl names stands (fun path same => by cases same) isOpen maxLinks

end FileSystem

/-! ### The fresh configuration -/

namespace Config

/-- What a fresh configuration file says. -/
def fresh : Config where
  project := { root := ".." }
  discovery := { extensions := ["py", "rs", "js", "jsx", "ts", "tsx", "go", "java", "c", "h", "cpp",
    "hpp", "cs", "rb", "php"] }

theorem toList_template :
    template.toList = templateLines.flatMap fun line => line.toList ++ ['\n'] := by
  rw [template, String.toList_join, List.flatMap_map]
  simp

theorem flatMap_ofList_cons (line : Chars) (lines : List String) :
    (String.ofList line :: lines).flatMap (fun line => line.toList ++ ['\n']) =
      line ++ '\n' :: lines.flatMap fun line => line.toList ++ ['\n'] := by
  simp

/-- The text of a fresh configuration file can be read. -/
theorem parse?_template : parse? template = some fresh := by
  rw [parse?, Toml.read?, toList_template, templateLines]
  -- The characters are spelled out line by line before the text is read.
  repeat rw [flatMap_ofList_cons]
  rw [List.flatMap_nil]
  decide +kernel

theorem isName_fileName : IsName fileName := by
  simp [IsName, fileName]

/-- The path of the configuration file of a directory leads to where the names of the file lead
from the directory. -/
theorem target_fileIn {files : FileSystem} {place target : Place}
    (names : ∀ name ∈ place, IsName name)
    (isDirectory : files.standing? place = some .directory)
    (isOpen : FileSystem.IsPassable files place) {left : Nat}
    (walks : FileSystem.Walks files FileSystem.maxLinks place
      [directoryName.toList, fileName.toList] left target) :
    files.target (fileIn (directoryIn (FileSystem.pathOf place))) = .ok target := by
  obtain ⟨absolute, toPlace⟩ := FileSystem.walks_pathOf names isDirectory isOpen
  have rootNamed : (FileSystem.pathOf place).isEmpty = false := by
    simp [FileSystem.pathOf]
  have directoryRelative : Path.isAbsolute directoryName = false := by decide +kernel
  have fileRelative : Path.isAbsolute fileName = false := by decide +kernel
  have directoryPieces : Path.pieces directoryName = [directoryName.toList] := by decide +kernel
  have filePieces : Path.pieces fileName = [fileName.toList] := by decide +kernel
  have directoryNamed := Path.isEmpty_join rootNamed directoryRelative
  obtain ⟨directoryStart, front, directoryWhole, frontOf⟩ :=
    Path.pieces_join rootNamed directoryRelative
  obtain ⟨fileStart, above, fileWhole, aboveOf⟩ := Path.pieces_join directoryNamed fileRelative
  rw [directoryPieces] at directoryWhole
  rw [filePieces] at fileWhole
  -- The path of the directory ends with its name and not with a slash.
  obtain rfl : front ++ [directoryName.toList] = above := by
    rcases aboveOf with same | same
    · exact directoryWhole.symm.trans same
    · rw [directoryWhole] at same
      have last := (List.append_inj' same rfl).2
      exact absurd last (by decide +kernel)
  refine FileSystem.target_eq_ok_iff.mpr ⟨fun empty => ?_, left, ?_⟩
  · have named := Path.isEmpty_join directoryNamed fileRelative
    rw [fileIn, directoryIn] at empty
    rw [empty] at named
    cases named
  · have start : files.origin (fileIn (directoryIn (FileSystem.pathOf place))) = [] := by
      rw [FileSystem.origin, FileSystem.base, fileIn, directoryIn, fileStart, directoryStart,
        absolute]
      rfl
    rw [start, fileIn, directoryIn, fileWhole, List.append_assoc]
    exact (toPlace.front frontOf).append walks

variable {source : Source}

theorem load_of_readText? {path text : String} {config : Config}
    (reads : source.readText? path = some text) (parses : source.parse? text = some config) :
    load source path = .ok config := by
  rw [load, reads]
  dsimp only
  rw [parses]

theorem nearest?_of_exists? {start : String}
    (there : source.exists? (fileIn (directoryIn start)) = true) :
    nearest? source (start :: Path.parents start) = some start := by
  rw [nearest?, List.find?_cons, there]

theorem find_of_nearest? {start path : String} {config : Config}
    (nearest : nearest? source (start :: Path.parents start) = some path)
    (loads : load source (fileIn (directoryIn path)) = .ok config) :
    find source start = .ok (some ⟨config, directoryIn path⟩) := by
  rw [find, nearest]
  dsimp only
  rw [loads]

/-- A text to which the names of a configuration file lead from a directory, and which may be read,
is the nearest one there is to the directory. What the text says is found. -/
theorem find_of_text {files : FileSystem} {place target : Place} {text : String}
    (names : ∀ name ∈ place, IsName name)
    (isDirectory : files.standing? place = some .directory)
    (isOpen : FileSystem.IsPassable files place) {left : Nat}
    (walks : FileSystem.Walks files FileSystem.maxLinks place
      [directoryName.toList, fileName.toList] left target)
    (readable : files.refusal? .read target = none)
    (stands : files.standing? target = some (.file text.toUTF8))
    (parse? : String → Option Config) :
    nearest? (sourceIn files parse?)
        (FileSystem.pathOf place :: Path.parents (FileSystem.pathOf place)) =
        some (FileSystem.pathOf place) ∧
      files.readText? (fileIn (directoryIn (FileSystem.pathOf place))) = some text ∧
      ∀ config, parse? text = some config →
        find (sourceIn files parse?) (FileSystem.pathOf place) =
          .ok (some ⟨config, directoryIn (FileSystem.pathOf place)⟩) := by
  have located := FileSystem.locate_eq_ok_iff.mpr
    ⟨target_fileIn names isDirectory isOpen walks, _, stands⟩
  have reads := FileSystem.readText?_of_standing located readable stands
  have nearest : nearest? (sourceIn files parse?)
      (FileSystem.pathOf place :: Path.parents (FileSystem.pathOf place)) =
        some (FileSystem.pathOf place) :=
    nearest?_of_exists? (FileSystem.exists?_of_locate located)
  exact ⟨nearest, reads, fun config parses =>
    find_of_nearest? nearest (load_of_readText? reads parses)⟩

end Config

end CodeAtlas
