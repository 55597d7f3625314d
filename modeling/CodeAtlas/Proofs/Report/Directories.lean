/-
This file says which files a directory holds. Names lead from a directory to the files below
it; putting a file into a directory adds the way to it and no other. A directory that is made
of paths is tidy: names stand in it in ascending order, and no directory in it is without
files. Tidy directories that hold the same files are the same, so that neither the order of
the paths nor how often one is given can be seen.
-/

import CodeAtlas.Proofs.Graph.Index
import CodeAtlas.Report.Structure

namespace CodeAtlas.Directory

/-- What holds of a directory if it holds of every directory in it holds of all. -/
@[elab_as_elim]
theorem inductionOn {motive : Directory → Prop}
    (containing : ∀ (directories : List (String × Directory)) (files : List String),
      (∀ entry ∈ directories, motive entry.2) → motive (.containing directories files))
    (directory : Directory) : motive directory := by
  refine @Directory.rec motive (fun directories => ∀ entry ∈ directories, motive entry.2)
    (fun entry => motive entry.2) containing ?_ ?_ ?_ directory
  · intro entry member
    cases member
  · intro head tail holdsHead holdsTail entry member
    rcases List.mem_cons.mp member with rfl | member
    · exact holdsHead
    · exact holdsTail entry member
  · intro name directory holds
    exact holds

/-! ### Files of a directory -/

/-- Whether some names lead from a directory to a file. -/
def Holds : Directory → List String → Prop
  | _, [] => False
  | containing _ files, [file] => file ∈ files
  | containing directories _, name :: step :: steps =>
    ∃ directory, Index.valueIn? name directories = some directory ∧
      Holds directory (step :: steps)

theorem not_holds_nil (directory : Directory) : ¬ Holds directory [] := by
  cases directory
  exact id

theorem not_holds_empty (way : List String) : ¬ Holds empty way := by
  match way with
  | [] => exact id
  | [file] => exact List.not_mem_nil
  | name :: step :: steps =>
    rintro ⟨_, found, _⟩
    cases found

mutual

/-- Whether names stand in a directory in ascending order, and everything in it is tidy and has
files. -/
def Tidy : Directory → Prop
  | containing directories files =>
    (directories.Pairwise fun first second => first.1 < second.1) ∧
      files.Pairwise (· < ·) ∧ AllTidy directories

/-- Whether some directories are tidy and have files. -/
def AllTidy : List (String × Directory) → Prop
  | [] => True
  | (_, directory) :: directories =>
    (∃ way, Holds directory way) ∧ Tidy directory ∧ AllTidy directories

end

theorem allTidy_iff {directories : List (String × Directory)} :
    AllTidy directories ↔
      ∀ entry ∈ directories, (∃ way, Holds entry.2 way) ∧ Tidy entry.2 := by
  induction directories with
  | nil => simp [AllTidy]
  | cons entry directories inductionHypothesis =>
    obtain ⟨name, directory⟩ := entry
    rw [AllTidy, List.forall_mem_cons, inductionHypothesis, and_assoc]

theorem tidy_empty : Tidy empty :=
  ⟨.nil, .nil, trivial⟩

/-- The directory of a name among some directories, or an empty one. -/
def subdirectory (name : String) (directories : List (String × Directory)) : Directory :=
  (Index.valueIn? name directories).getD empty

theorem holds_subdirectory_iff {name : String} {directories : List (String × Directory)}
    {way : List String} :
    Holds (subdirectory name directories) way ↔
      ∃ directory, Index.valueIn? name directories = some directory ∧ Holds directory way := by
  unfold subdirectory
  cases Index.valueIn? name directories with
  | none => simp [not_holds_empty]
  | some directory => simp

theorem tidy_subdirectory (name : String) {directories : List (String × Directory)}
    (ascending : directories.Pairwise fun first second => first.1 < second.1)
    (tidy : AllTidy directories) : Tidy (subdirectory name directories) := by
  unfold subdirectory
  cases found : Index.valueIn? name directories with
  | none => exact tidy_empty
  | some directory =>
    have member := (Index.valueIn?_eq_some_iff ascending).mp found
    exact (allTidy_iff.mp tidy _ member).2

theorem holds_of_mem {directories : List (String × Directory)}
    (ascending : directories.Pairwise fun first second => first.1 < second.1)
    (files : List String) {entry : String × Directory} (member : entry ∈ directories)
    {way : List String} (held : Holds entry.2 way) :
    Holds (containing directories files) (entry.1 :: way) := by
  match way with
  | [] => exact absurd held (not_holds_nil entry.2)
  | step :: steps => exact ⟨entry.2, (Index.valueIn?_eq_some_iff ascending).mpr member, held⟩

/-- A directory holds its own files and those that the directories in it hold. -/
theorem holds_containing_iff {directories : List (String × Directory)}
    (ascending : directories.Pairwise fun first second => first.1 < second.1)
    {files : List String} {way : List String} :
    Holds (containing directories files) way ↔ (∃ file ∈ files, way = [file]) ∨
      ∃ entry ∈ directories, ∃ rest, way = entry.1 :: rest ∧ Holds entry.2 rest := by
  constructor
  · intro held
    match way with
    | [] => exact absurd held id
    | [file] => exact .inl ⟨file, held, rfl⟩
    | name :: step :: steps =>
      obtain ⟨directory, found, held⟩ := held
      exact .inr ⟨(name, directory), (Index.valueIn?_eq_some_iff ascending).mp found, _, rfl, held⟩
  · rintro (⟨file, member, rfl⟩ | ⟨entry, member, rest, rfl, held⟩)
    · exact member
    · exact holds_of_mem ascending files member held

/-! ### Putting files into a directory -/

/-- A file that is put into a tidy directory is held by it, with all that it held before. -/
theorem holds_insert_iff (file : String) (steps : List String) {directory : Directory}
    (tidy : Tidy directory) (way : List String) :
    Holds (insert file steps directory) way ↔ way = steps ++ [file] ∨ Holds directory way := by
  induction steps generalizing directory way with
  | nil =>
    obtain ⟨directories, files⟩ := directory
    match way with
    | [] => simp [not_holds_nil]
    | [name] => simp [insert, Holds, TextSet.mem_insertIn]
    | name :: step :: way => simp [insert, Holds]
  | cons step steps inductionHypothesis =>
    obtain ⟨directories, files⟩ := directory
    obtain ⟨ascending, _, allTidy⟩ := tidy
    match way with
    | [] => simp [not_holds_nil]
    | [name] => simp [insert, Holds]
    | name :: next :: way =>
      rw [insert, Holds, Holds, Index.valueIn?_changeIn ascending]
      by_cases here : name = step
      · subst here
        have deeper := inductionHypothesis (tidy_subdirectory name ascending allTidy) (next :: way)
        rw [if_pos rfl, ← holds_subdirectory_iff]
        simpa [subdirectory] using deeper
      · simp [here]

theorem tidy_insert (file : String) (steps : List String) {directory : Directory}
    (tidy : Tidy directory) : Tidy (insert file steps directory) := by
  induction steps generalizing directory with
  | nil =>
    obtain ⟨directories, files⟩ := directory
    exact ⟨tidy.1, TextSet.ascending_insertIn tidy.2.1, tidy.2.2⟩
  | cons step steps inductionHypothesis =>
    obtain ⟨directories, files⟩ := directory
    obtain ⟨ascending, filesAscend, allTidy⟩ := tidy
    refine ⟨Index.ascending_changeIn ascending, filesAscend, allTidy_iff.mpr ?_⟩
    rintro ⟨name, directory⟩ member
    rw [← Index.valueIn?_eq_some_iff (Index.ascending_changeIn ascending),
      Index.valueIn?_changeIn ascending] at member
    by_cases here : name = step
    · rw [if_pos here] at member
      obtain rfl := Option.some.inj member
      have tidyInside := tidy_subdirectory step ascending allTidy
      have held := (holds_insert_iff file steps tidyInside (steps ++ [file])).mpr (.inl rfl)
      exact ⟨⟨_, held⟩, inductionHypothesis tidyInside⟩
    · rw [if_neg here, Index.valueIn?_eq_some_iff ascending] at member
      exact allTidy_iff.mp allTidy _ member

/-! ### The directory of some paths -/

/-- Whether some names are those of a path. -/
def Names (paths : List String) (way : List String) : Prop :=
  way ≠ [] ∧ ∃ path ∈ paths, steps path = way

theorem insertPath_spec {directory : Directory} (tidy : Tidy directory) (path : String) :
    Tidy (insertPath directory path) ∧ ∀ way, Holds (insertPath directory path) way ↔
      (way ≠ [] ∧ steps path = way) ∨ Holds directory way := by
  unfold insertPath
  dsimp only
  cases last : (steps path).getLast? with
  | none =>
    rw [List.getLast?_eq_none_iff] at last
    refine ⟨tidy, fun way => (or_iff_right ?_).symm⟩
    rintro ⟨named, same⟩
    exact named (same.symm.trans last)
  | some file =>
    obtain ⟨front, whole⟩ := List.getLast?_eq_some_iff.mp last
    have dropped : (steps path).dropLast = front := by rw [whole, List.dropLast_concat]
    refine ⟨tidy_insert file _ tidy, fun way => ?_⟩
    rw [holds_insert_iff file _ tidy, dropped, ← whole, eq_comm]
    refine or_congr_left ⟨fun same => ⟨?_, same⟩, And.right⟩
    rintro rfl
    rw [whole] at same
    simp at same

theorem foldl_insertPath_spec (paths : List String) {directory : Directory}
    (tidy : Tidy directory) :
    Tidy (paths.foldl insertPath directory) ∧ ∀ way,
      Holds (paths.foldl insertPath directory) way ↔ Names paths way ∨ Holds directory way := by
  induction paths generalizing directory with
  | nil => exact ⟨tidy, fun way => by simp [Names]⟩
  | cons path paths inductionHypothesis =>
    obtain ⟨stillTidy, held⟩ := insertPath_spec tidy path
    obtain ⟨tidyAfter, heldAfter⟩ := inductionHypothesis stillTidy
    refine ⟨tidyAfter, fun way => ?_⟩
    rw [List.foldl_cons, heldAfter, held, ← or_assoc, Names, Names, ← and_or_left,
      List.exists_mem_cons_iff, or_comm (a := ∃ _, _)]

theorem tidy_ofPaths (paths : List String) : Tidy (ofPaths paths) :=
  (foldl_insertPath_spec paths tidy_empty).1

/-- The directory of some paths holds the files that they name and no others. -/
theorem holds_ofPaths_iff (paths : List String) (way : List String) :
    Holds (ofPaths paths) way ↔ Names paths way := by
  rw [ofPaths, (foldl_insertPath_spec paths tidy_empty).2 way]
  exact or_iff_left (not_holds_empty way)

/-! ### Directories that hold the same -/

theorem valueIn?_of_holds {name : String} {directories : List (String × Directory)}
    {way : List String} (held : Holds (subdirectory name directories) way) :
    Index.valueIn? name directories = some (subdirectory name directories) := by
  obtain ⟨directory, found, _⟩ := holds_subdirectory_iff.mp held
  rw [subdirectory, found]
  rfl

theorem valueIn?_of_not_holds {name : String} {directories : List (String × Directory)}
    (ascending : directories.Pairwise fun first second => first.1 < second.1)
    (tidy : AllTidy directories) (vacant : ∀ way, ¬ Holds (subdirectory name directories) way) :
    Index.valueIn? name directories = none := by
  refine Option.eq_none_iff_forall_ne_some.mpr fun directory found => ?_
  have member := (Index.valueIn?_eq_some_iff ascending).mp found
  obtain ⟨way, held⟩ := (allTidy_iff.mp tidy _ member).1
  exact vacant way (holds_subdirectory_iff.mpr ⟨directory, found, held⟩)

/-- Tidy directories that hold the same files are the same. -/
theorem Tidy.ext {first second : Directory} (firstTidy : Tidy first) (secondTidy : Tidy second)
    (same : ∀ way, Holds first way ↔ Holds second way) : first = second := by
  induction first using inductionOn generalizing second with
  | containing directories files inductionHypothesis =>
    obtain ⟨others, otherFiles⟩ := second
    obtain ⟨ascending, filesAscend, tidy⟩ := firstTidy
    obtain ⟨othersAscend, otherFilesAscend, othersTidy⟩ := secondTidy
    have sameFiles : files = otherFiles :=
      filesAscend.eq_of_mem_iff otherFilesAscend fun file => same [file]
    have sameWays (name : String) (way : List String) :
        Holds (subdirectory name directories) way ↔ Holds (subdirectory name others) way := by
      match way with
      | [] => simp [not_holds_nil]
      | step :: steps =>
        rw [holds_subdirectory_iff, holds_subdirectory_iff]
        exact same (name :: step :: steps)
    have sameValue (name : String) :
        Index.valueIn? name directories = Index.valueIn? name others := by
      by_cases held : ∃ way, Holds (subdirectory name directories) way
      · obtain ⟨way, held⟩ := held
        have found := valueIn?_of_holds held
        have otherFound := valueIn?_of_holds ((sameWays name way).mp held)
        have member := (Index.valueIn?_eq_some_iff ascending).mp found
        rw [found, otherFound]
        exact congrArg some (inductionHypothesis _ member
          (tidy_subdirectory name ascending tidy) (tidy_subdirectory name othersAscend othersTidy)
          (sameWays name))
      · rw [not_exists] at held
        rw [valueIn?_of_not_holds ascending tidy held,
          valueIn?_of_not_holds othersAscend othersTidy fun way =>
            mt (sameWays name way).mpr (held way)]
    have sameIndex : Index.mk directories ascending = Index.mk others othersAscend :=
      Index.ext_get? sameValue
    have sameDirectories : directories = others := congrArg Index.entries sameIndex
    rw [sameFiles, sameDirectories]

/-- The directory of some paths depends on nothing but the files that they name. -/
theorem ofPaths_congr {paths others : List String}
    (same : ∀ way, Names paths way ↔ Names others way) : ofPaths paths = ofPaths others := by
  refine (tidy_ofPaths paths).ext (tidy_ofPaths others) fun way => ?_
  rw [holds_ofPaths_iff, holds_ofPaths_iff, same]

end CodeAtlas.Directory
