/-
This file says what making directories and writing files changes. Making directories only adds
directories where nothing stood, and to each of them one of the asked paths leads; this holds
even if the attempt ends early. Writing a file that succeeds changes what stands at its place and
nothing else. So all that differs after a file has been written, with the directories made for it,
is that file and these directories.
-/

import CodeAtlas.Proofs.Files.Following
import CodeAtlas.Proofs.Files.Parents
import Mathlib.Data.List.Basic

namespace CodeAtlas.FileSystem

open Text

variable {before middle after files : FileSystem}

/-! ### Keeping what stands -/

/-- Whether a change has left directories where directories stood, links where links stood and
nowhere else, and something where something stood. -/
structure Keeps (before after : FileSystem) : Prop where
  here : after.here = before.here
  refusal : after.refusal? = before.refusal?
  directory : ∀ place, before.standing? place = some .directory →
    after.standing? place = some .directory
  link : ∀ place, after.linkAt? place = before.linkAt? place
  something : ∀ place standing, before.standing? place = some standing →
    ∃ other, after.standing? place = some other

theorem Keeps.trans (first : Keeps before middle) (second : Keeps middle after) :
    Keeps before after where
  here := second.here.trans first.here
  refusal := second.refusal.trans first.refusal
  directory place isDirectory := second.directory place (first.directory place isDirectory)
  link place := (second.link place).trans (first.link place)
  something place standing stands := by
    obtain ⟨other, standsBetween⟩ := first.something place standing stands
    exact second.something place other standsBetween

theorem Keeps.step (keeps : Keeps before after) {place : Place} {piece : Chars} {taken : Step}
    (stepped : before.step place piece = .ok taken) : after.step place piece = .ok taken := by
  have isDirectory := isDirectory_of_step stepped
  rw [step_of_isDirectory isDirectory] at stepped
  rw [step_of_isDirectory (keeps.directory place isDirectory), keeps.refusal, keeps.link]
  exact stepped

theorem Keeps.walks (keeps : Keeps before after) {links left : Nat} {place last : Place}
    {pieces : List Chars} (walks : Walks before links place pieces left last) :
    Walks after links place pieces left last := by
  induction walks with
  | done => exact .done
  | step stepped _ inductionHypothesis => exact .step (keeps.step stepped) inductionHypothesis
  | follow stepped _ inductionHypothesis => exact .follow (keeps.step stepped) inductionHypothesis

theorem Keeps.origin (keeps : Keeps before after) (path : String) :
    after.origin path = before.origin path := by
  rw [FileSystem.origin, FileSystem.origin, keeps.here]

/-- A path names the place that it named before. -/
theorem Keeps.target (keeps : Keeps before after) {path : String} {place : Place}
    (leads : before.target path = .ok place) : after.target path = .ok place := by
  obtain ⟨named, left, walks⟩ := target_eq_ok_iff.mp leads
  refine target_eq_ok_iff.mpr ⟨named, left, ?_⟩
  rw [keeps.origin]
  exact keeps.walks walks

/-- A path leads where it led before. -/
theorem Keeps.locate (keeps : Keeps before after) {path : String} {place : Place}
    (located : before.locate path = .ok place) : after.locate path = .ok place := by
  obtain ⟨leads, standing, stands⟩ := locate_eq_ok_iff.mp located
  exact locate_eq_ok_iff.mpr ⟨keeps.target leads, keeps.something place standing stands⟩

/-! ### Growing -/

/-- Whether all that a change has done is to make directories where nothing stood, at places of
some kind. -/
structure Grows (before after : FileSystem) (made : Place → Prop) : Prop where
  here : after.here = before.here
  refusal : after.refusal? = before.refusal?
  stands : ∀ place, after.standing? place = before.standing? place ∨
    before.standing? place = none ∧ after.standing? place = some .directory ∧ made place

namespace Grows

variable {made : Place → Prop}

theorem refl (files : FileSystem) (made : Place → Prop) : Grows files files made :=
  ⟨rfl, rfl, fun _ => .inl rfl⟩

theorem mono {madeMore : Place → Prop} (grows : Grows before after made)
    (more : ∀ place, made place → madeMore place) : Grows before after madeMore :=
  ⟨grows.here, grows.refusal, fun place => (grows.stands place).imp_right
    fun ⟨nothing, directory, isMade⟩ => ⟨nothing, directory, more place isMade⟩⟩

theorem trans (first : Grows before middle made) (second : Grows middle after made) :
    Grows before after made := by
  refine ⟨second.here.trans first.here, second.refusal.trans first.refusal, fun place => ?_⟩
  rcases first.stands place with same | ⟨nothing, directory, isMade⟩
  · rw [← same]
    exact second.stands place
  · rcases second.stands place with same | ⟨gone, _, _⟩
    · exact .inr ⟨nothing, same.trans directory, isMade⟩
    · rw [gone] at directory
      cases directory

/-- What stood somewhere stands there still. -/
theorem standing (grows : Grows before after made) {place : Place} {standing : Standing}
    (stands : before.standing? place = some standing) :
    after.standing? place = some standing := by
  rcases grows.stands place with same | ⟨nothing, _, _⟩
  · exact same.trans stands
  · rw [nothing] at stands
    cases stands

theorem keeps (grows : Grows before after made) : Keeps before after where
  here := grows.here
  refusal := grows.refusal
  directory _ := grows.standing
  link place := by
    rw [linkAt?, linkAt?]
    rcases grows.stands place with same | ⟨nothing, directory, _⟩
    · rw [same]
    · rw [nothing, directory]
  something _ standing stands := ⟨standing, grows.standing stands⟩

end Grows

/-! ### New places -/

/-- A new entry gets a name in a directory that is there. -/
theorem of_newPlace_eq_ok {path : String} {place : Place}
    (newPlace : files.newPlace path = .ok place) :
    ∃ front piece above left, Path.pieces path = front ++ [piece] ∧ IsNamePiece piece ∧
      Walks files maxLinks (files.origin path) front left above ∧
      files.standing? above = some .directory ∧ files.refusal? .search above = none ∧
      place = above ++ [String.ofList piece] := by
  rw [FileSystem.newPlace] at newPlace
  split at newPlace
  · cases newPlace
  · next above walked =>
    split at newPlace
    · next entries piece stands searchable last =>
      split at newPlace
      · cases newPlace
      · next notSpecial =>
        obtain ⟨notEmpty, notHere, notUp⟩ :
            piece ≠ [] ∧ piece ≠ ['.'] ∧ piece ≠ ['.', '.'] := by simpa using notSpecial
        obtain ⟨left, walks⟩ := exists_walks_of_walkWithin walked
        exact ⟨_, piece, above, left, (List.dropLast_append_getLast? piece last).symm,
          ⟨notEmpty, notHere, notUp⟩, walks, standing?_eq_directory_iff.mpr ⟨entries, stands⟩,
          searchable, (Except.ok.inj newPlace).symm⟩
    · cases newPlace
    · cases newPlace
    · cases newPlace
    · cases newPlace

/-! ### Making directories -/

theorem of_makeDirectory_eq_ok {path : String} (made : files.makeDirectory path = .ok after) :
    path ≠ "" ∧ ∃ place,
      files.newPlace (String.ofList (dropEnd (· = '/') path.toList)) = .ok place ∧
        files.standing? place = none ∧ after = files.put place (.directory []) := by
  rw [makeDirectory] at made
  split at made
  · cases made
  · next notEmpty =>
    refine ⟨fun empty => notEmpty (String.isEmpty_iff.mpr empty), ?_⟩
    split at made
    · cases made
    · next place isNew =>
      split at made
      · cases made
      · cases made
      · next nothing _ =>
        exact ⟨place, isNew, Option.map_eq_none_iff.mpr nothing, (Except.ok.inj made).symm⟩

/-- A directory put in another one where nothing stood is all that there is more. -/
theorem grows_put_directory {above : Place} {name : String}
    (isDirectory : files.standing? above = some .directory)
    (nothing : files.standing? (above ++ [name]) = none) :
    Grows files (files.put (above ++ [name]) (.directory [])) (· = above ++ [name]) ∧
      (files.put (above ++ [name]) (.directory [])).standing? (above ++ [name]) =
        some .directory := by
  have free : files.IsFree (above ++ [name]) := by
    intro standing stands
    rw [nothing] at stands
    cases stands
  have stands := standing?_put isDirectory Entry.isBare_directory_nil free
  refine ⟨⟨rfl, rfl, fun place => ?_⟩, (stands _).trans (if_pos rfl)⟩
  rw [stands]
  split
  · next same => exact .inr ⟨same ▸ nothing, rfl, same⟩
  · exact .inl rfl

/-- A directory is made at one place where nothing stood, and the path leads there then. -/
theorem grows_makeDirectory {path : String} (made : files.makeDirectory path = .ok after) :
    ∃ place, Grows files after (· = place) ∧ after.locate path = .ok place := by
  obtain ⟨named, place, isNew, nothing, rfl⟩ := of_makeDirectory_eq_ok made
  obtain ⟨front, piece, above, left, pieces, isName, walks, isDirectory, searchable, rfl⟩ :=
    of_newPlace_eq_ok isNew
  obtain ⟨grows, standsNow⟩ := grows_put_directory isDirectory nothing
  have begun : dropEnd (· = '/') path.toList ≠ [] := by
    intro empty
    rw [empty] at pieces
    have last : [[]].getLast? = (front ++ [piece]).getLast? := congrArg List.getLast? pieces
    rw [List.getLast?_concat] at last
    exact isName.1 (Option.some.inj last).symm
  obtain ⟨sameStart, count, wholePieces⟩ := Path.pieces_dropEnd_slash begun
  have stepped := step_of_isNamePiece (grows.standing isDirectory) searchable isName
    (by rw [linkAt?, standsNow])
  refine ⟨_, grows, locate_eq_ok_iff.mpr
    ⟨target_eq_ok_iff.mpr ⟨named, left, ?_⟩, _, standsNow⟩⟩
  -- The path leads on from the new directory by nothing but the slashes at its end.
  rw [wholePieces, pieces, grows.keeps.origin, origin, base, sameStart, List.append_assoc]
  exact (grows.keeps.walks walks).append
    (.step stepped (walks_replicate_nil standsNow left count))

/-- Whatever becomes of an attempt to make directories, directories are all that it has made, and
to each of them one of the paths leads. -/
theorem grows_makeDirectories (files : FileSystem) (paths : List String) :
    Grows files (files.makeDirectories paths).files fun place =>
      ∃ path ∈ paths, (files.makeDirectories paths).files.locate path = .ok place := by
  induction paths with
  | nil => exact .refl _ _
  | cons path parents inductionHypothesis =>
    have single {before made : FileSystem} (isMade : before.makeDirectory path = .ok made) :
        Grows before made fun place =>
          ∃ other ∈ path :: parents, made.locate other = .ok place := by
      obtain ⟨place, grows, located⟩ := grows_makeDirectory isMade
      refine grows.mono fun other same => ?_
      subst same
      exact ⟨path, List.mem_cons_self, located⟩
    rw [makeDirectories]
    split
    · exact .refl _ _
    · split
      · next made isMade => exact single isMade
      · -- The parents come first, and what was made for them stays.
        have parentsGrow : Grows files (files.makeDirectories parents).files fun place =>
            ∃ other ∈ path :: parents,
              (files.makeDirectories parents).files.locate other = .ok place :=
          inductionHypothesis.mono fun place ⟨parent, member, located⟩ =>
            ⟨parent, List.mem_cons_of_mem path member, located⟩
        split
        · next above error attempt =>
          rw [attempt] at parentsGrow
          exact parentsGrow
        · next above attempt =>
          rw [attempt] at parentsGrow
          split
          · next made isMade =>
            refine (parentsGrow.mono ?_).trans (single isMade)
            rintro place ⟨parent, member, located⟩
            exact ⟨parent, member, (single isMade).keeps.locate located⟩
          · exact parentsGrow
      · exact .refl _ _

/-! ### Writing -/

/-- What there is room for is everything if it has as many bytes. -/
theorem fitting_eq {place : Place} {content : ByteArray}
    (whole : content.size ≤ (files.fitting place content).size) :
    files.fitting place content = content := by
  unfold fitting at whole ⊢
  cases held : files.room? place with
  | none => rfl
  | some room =>
    rw [held] at whole
    dsimp only at whole ⊢
    rw [ByteArray.size_extract] at whole
    refine ByteArray.ext_getElem (by rw [ByteArray.size_extract]; omega) fun index inside _ => ?_
    simp only [ByteArray.getElem_extract, Nat.zero_add]

theorem isFree_of_writeRefusal? {place : Place} (writable : files.writeRefusal? place = none) :
    files.IsFree place := by
  intro standing stands
  obtain ⟨entry, there, rfl⟩ := Option.map_eq_some_iff.mp stands
  rw [writeRefusal?, there] at writable
  cases entry with
  | file content => exact ⟨content, rfl⟩
  | directory entries => cases writable
  | link path => cases writable

/-- Writing that succeeds puts a file with the whole text at the place that the path names. -/
theorem files_writeText {path text : String}
    (written : (files.writeText path text).error = none) :
    ∃ target, files.target path = .ok target ∧ files.IsFree target ∧
      (files.writeText path text).files = files.put target (.file text.toUTF8) := by
  unfold writeText at written ⊢
  cases leads : files.target path with
  | error error =>
    rw [leads] at written
    cases written
  | ok target =>
    rw [leads] at written
    dsimp only at written ⊢
    cases refused : files.writeRefusal? target with
    | some error =>
      rw [refused] at written
      cases written
    | none =>
      rw [refused] at written
      dsimp only at written ⊢
      have whole : files.fitting target text.toUTF8 = text.toUTF8 := by
        refine fitting_eq (Nat.le_of_not_lt fun short => ?_)
        rw [if_pos (show _ < text.utf8ByteSize from short)] at written
        cases written
      rw [whole]
      exact ⟨target, rfl, isFree_of_writeRefusal? refused, rfl⟩

/-- A file put in the place of nothing or of a file leaves directories and links where they were. -/
theorem keeps_put_file {place : Place} {content : ByteArray} (free : files.IsFree place)
    (noLink : files.linkAt? place = none)
    (stands : ∀ other, (files.put place (.file content)).standing? other =
      if other = place then some (.file content) else files.standing? other) :
    Keeps files (files.put place (.file content)) where
  here := rfl
  refusal := rfl
  directory other isDirectory := by
    rw [stands, if_neg, isDirectory]
    rintro rfl
    obtain ⟨content, isFile⟩ := free _ isDirectory
    cases isFile
  link other := by
    by_cases same : other = place
    · rw [same, noLink, linkAt?, stands, if_pos rfl]
    · rw [linkAt?, linkAt?, stands, if_neg same]
  something other standing standsBefore := by
    rw [stands]
    split
    · exact ⟨_, rfl⟩
    · exact ⟨_, standsBefore⟩

/-- What writing a text to a file does if it succeeds: the path then leads to a file with the text,
where nothing or a file stood, and nothing else has changed. -/
theorem of_writeText {path text : String} (written : (files.writeText path text).error = none) :
    ∃ target, Keeps files (files.writeText path text).files ∧
      (files.writeText path text).files.locate path = .ok target ∧
      ∀ place, (files.writeText path text).files.standing? place =
        if place = target then some (.file text.toUTF8) else files.standing? place := by
  obtain ⟨target, leads, free, after⟩ := files_writeText written
  obtain ⟨named, left, walks⟩ := target_eq_ok_iff.mp leads
  rw [after]
  -- A directory is not written to, so the path ends with a name in one.
  rcases walks.last_cases (splitWhere_ne_nil _ _) with
    isDirectory | ⟨above, name, rfl, isDirectory, noLink⟩
  · obtain ⟨content, isFile⟩ := free _ isDirectory
    cases isFile
  · have stands := standing?_put isDirectory (Entry.isBare_file text.toUTF8) free
    have keeps := keeps_put_file free noLink stands
    exact ⟨_, keeps, locate_eq_ok_iff.mpr ⟨keeps.target leads, _, (stands _).trans (if_pos rfl)⟩,
      stands⟩

/-! ### Directories on the way -/

/-- Whether a place lies properly above another one. -/
def IsAbove (place target : Place) : Prop :=
  place <+: target ∧ place ≠ target

/-- Whether a path is made of what stands in another path at its beginning. The empty path, which
leads nowhere, is such a path. -/
def Precedes (way path : String) : Prop :=
  way = "" ∨ Path.isAbsolute way = Path.isAbsolute path ∧
    ∃ front, front <+: Path.pieces path ∧
      (Path.pieces way = front ∨ Path.pieces way = front ++ [[]])

theorem precedes_of_mem_parents {way path : String} (member : way ∈ Path.parents path) :
    Precedes way path := by
  rcases Path.of_mem_parents member with empty | ⟨absolute, root | isPrefix⟩
  · exact .inl empty
  · exact .inr ⟨absolute, [], List.nil_prefix, .inr root⟩
  · exact .inr ⟨absolute, _, isPrefix.trans (List.dropLast_prefix _), .inl rfl⟩

/-- The path of a directory and its parents stand in the path of a file in it at the beginning. -/
theorem precedes_join {directory name way : String} (isName : IsName name)
    (member : way ∈ directory :: Path.parents directory) :
    Precedes way (Path.join directory name) := by
  cases empty : directory.isEmpty with
  | true =>
    obtain rfl := String.isEmpty_iff.mp empty
    exact .inl (List.mem_singleton.mp member)
  | false =>
    obtain ⟨isRelative, _⟩ :=
      Path.pieces_intercalate (List.cons_ne_nil name []) (by simpa using isName)
    rw [String.intercalate_singleton] at isRelative
    obtain ⟨absolute, front, whole, frontOf⟩ := Path.pieces_join empty isRelative
    have inPath : front <+: Path.pieces (Path.join directory name) :=
      whole ▸ List.prefix_append front _
    have withoutLast : (Path.pieces directory).dropLast <+: front := by
      rcases frontOf with same | same
      · exact same ▸ List.dropLast_prefix _
      · have front : (Path.pieces directory).dropLast = front := by
          rw [same, List.dropLast_concat]
        exact front ▸ List.prefix_rfl
    rcases List.mem_cons.mp member with rfl | member
    · exact .inr ⟨absolute.symm, front, inPath, frontOf⟩
    · rcases Path.of_mem_parents member with empty | ⟨start, root | isPrefix⟩
      · exact .inl empty
      · exact .inr ⟨start.trans absolute.symm, [], List.nil_prefix, .inr root⟩
      · exact .inr ⟨start.trans absolute.symm, _, (isPrefix.trans withoutLast).trans inPath,
          .inl rfl⟩

/-- Where one path precedes another that never goes up and leads on from a place below which no
links stand, the other leads below that place. -/
theorem isPrefix_of_precedes {way path : String} {place target : Place}
    (precedes : Precedes way path) (noUp : ['.', '.'] ∉ Path.pieces path)
    (wayLeads : files.target way = .ok place) (leads : files.target path = .ok target)
    (noLinks : ∀ below, files.linkAt? (place ++ below) = none) : place <+: target := by
  obtain ⟨named, left, wayWalks⟩ := target_eq_ok_iff.mp wayLeads
  obtain ⟨_, _, walks⟩ := target_eq_ok_iff.mp leads
  obtain empty | ⟨absolute, front, ⟨rest, whole⟩, frontOf⟩ := precedes
  · exact absurd empty named
  · have toPlace : Walks files maxLinks (files.origin path) front left place := by
      rw [origin, base, absolute, ← base, ← origin] at wayWalks
      exact wayWalks.front frontOf
    rw [← whole] at walks noUp
    obtain ⟨between, middle, toMiddle, onward⟩ := walks.exists_of_append
    obtain ⟨_, rfl⟩ := toPlace.unique toMiddle
    rw [onward.eq_append_namesOf noLinks fun member => noUp (List.mem_append_right front member)]
    exact List.prefix_append _ _

/-! ### Files with the directories made for them -/

/-- Whether all that differs in a file system is the file to which a path leads, which now holds a
text, and directories that were not there: some of the ways lead to them, and they lie above the
file if the path never goes up. -/
structure WritesOnly (before after : FileSystem) (path text : String) (ways : List String)
    (target : Place) : Prop where
  keeps : Keeps before after
  located : after.locate path = .ok target
  written : after.standing? target = some (.file text.toUTF8)
  elsewhere : ∀ place, place ≠ target → after.standing? place = before.standing? place ∨
    before.standing? place = none ∧ after.standing? place = some .directory ∧
      (∃ way ∈ ways, after.locate way = .ok place) ∧
      (['.', '.'] ∉ Path.pieces path → IsAbove place target)

theorem writesOnly_of_grows {ready : FileSystem} {path text : String} {ways : List String}
    (grows : Grows files ready fun place => ∃ way ∈ ways, ready.locate way = .ok place)
    (precede : ∀ way ∈ ways, Precedes way path)
    (written : (ready.writeText path text).error = none) :
    ∃ target, WritesOnly files (ready.writeText path text).files path text ways target := by
  obtain ⟨target, keeps, located, stands⟩ := of_writeText written
  refine ⟨target, grows.keeps.trans keeps, located, (stands _).trans (if_pos rfl),
    fun place different => ?_⟩
  rw [stands, if_neg different]
  refine (grows.stands place).imp_right fun ⟨nothing, directory, way, member, leads⟩ => ?_
  refine ⟨nothing, directory, ⟨way, member, keeps.locate leads⟩, fun noUp => ⟨?_, different⟩⟩
  -- Nothing stood below the place, so no links stand there.
  refine isPrefix_of_precedes (precede way member) noUp
    (locate_eq_ok_iff.mp (keeps.locate leads)).1 (locate_eq_ok_iff.mp located).1 fun below => ?_
  rw [keeps.link, grows.keeps.link, linkAt?, standing?_append_of_none nothing]

end CodeAtlas.FileSystem
