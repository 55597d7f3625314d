/-
This file says which configuration a search finds, whatever tells which files are there, which texts
they hold and what the texts say. From a path upwards, the first directory with a configuration file
decides: whatever becomes of its file becomes of the search, and a file that is broken is never passed
over for one further up.
-/

import CodeAtlas.Proofs.Config.Finding
import CodeAtlas.Proofs.Files.Parents

namespace CodeAtlas.Config

variable {source : Source} {start project : String}

/-! ### The nearest configuration -/

/-- Whether there is a configuration file for a directory, as far as can be told: one that may not be
looked at counts as missing. -/
def IsConfigured (source : Source) (directory : String) : Prop :=
  source.exists? (fileIn (directoryIn directory)) = true

/-- Whether a directory is the first one from a path upwards with a configuration file. -/
def IsNearest (source : Source) (start project : String) : Prop :=
  IsConfigured source project ∧ ∃ below above,
    start :: Path.parents start = below ++ project :: above ∧
      ∀ directory ∈ below, ¬ IsConfigured source directory

theorem nearest?_eq_some_iff :
    nearest? source (start :: Path.parents start) = some project ↔
      IsNearest source start project := by
  rw [nearest?, List.find?_eq_some_iff_append]
  simp only [IsNearest, IsConfigured, Bool.not_eq_true', Bool.not_eq_true]

theorem nearest?_eq_none_iff :
    nearest? source (start :: Path.parents start) = none ↔
      ∀ directory ∈ start :: Path.parents start, ¬ IsConfigured source directory :=
  List.find?_eq_none

/-! ### What is found -/

/-- What may come of a search for a configuration from a path upwards. -/
inductive Finds (source : Source) (start : String) : Except LoadError (Option Found) → Prop
  /-- There is no configuration file. -/
  | nothing (missing : ∀ directory ∈ start :: Path.parents start, ¬ IsConfigured source directory) :
      Finds source start (.ok none)
  /-- The nearest one is a configuration. -/
  | found {project text : String} {config : Config} (nearest : IsNearest source start project)
      (reads : source.readText? (fileIn (directoryIn project)) = some text)
      (parses : source.parse? text = some config) :
      Finds source start (.ok (some ⟨config, directoryIn project⟩))
  /-- The nearest one is no text. -/
  | unreadable {project : String} (nearest : IsNearest source start project)
      (fails : source.readText? (fileIn (directoryIn project)) = none) :
      Finds source start (.error (.unreadable (fileIn (directoryIn project))))
  /-- The nearest one is a text that is no configuration. -/
  | invalid {project text : String} (nearest : IsNearest source start project)
      (reads : source.readText? (fileIn (directoryIn project)) = some text)
      (fails : source.parse? text = none) :
      Finds source start (.error (.invalid (fileIn (directoryIn project))))

/-- What is loaded from a file depends on its text and on what the text says alone. -/
theorem load_congr {others : Source} {path : String}
    (sameText : others.readText? path = source.readText? path)
    (sameReading : ∀ text, source.readText? path = some text →
      others.parse? text = source.parse? text) :
    load others path = load source path := by
  rw [load, load, sameText]
  cases reads : source.readText? path with
  | none => rfl
  | some text =>
    dsimp only
    rw [sameReading text reads]

theorem find_of_isNearest (nearest : IsNearest source start project) :
    find source start = (load source (fileIn (directoryIn project))).map fun config =>
      some ⟨config, directoryIn project⟩ := by
  rw [find, nearest?_eq_some_iff.mpr nearest]
  dsimp only
  cases load source (fileIn (directoryIn project)) <;> rfl

theorem finds_find (source : Source) (start : String) :
    Finds source start (find source start) := by
  cases nearest : nearest? source (start :: Path.parents start) with
  | none =>
    rw [find, nearest]
    exact .nothing (nearest?_eq_none_iff.mp nearest)
  | some project =>
    have nearest := nearest?_eq_some_iff.mp nearest
    rw [find_of_isNearest nearest, load]
    cases reads : source.readText? (fileIn (directoryIn project)) with
    | none => exact .unreadable nearest reads
    | some text =>
      dsimp only
      cases parses : source.parse? text with
      | none => exact .invalid nearest reads parses
      | some config => exact .found nearest reads parses

theorem find_eq_of_finds {outcome : Except LoadError (Option Found)}
    (finds : Finds source start outcome) : find source start = outcome := by
  cases finds with
  | nothing missing => rw [find, nearest?_eq_none_iff.mpr missing]
  | found nearest reads parses =>
    rw [find_of_isNearest nearest, load_of_readText? reads parses]
    rfl
  | unreadable nearest fails =>
    rw [find_of_isNearest nearest, load, fails]
    rfl
  | invalid nearest reads fails =>
    rw [find_of_isNearest nearest, load, reads]
    dsimp only
    rw [fails]
    rfl

/-- A search looks at a path and at all paths upwards from it, and what comes of it is what the
nearest configuration file gives. Nothing else has a say in it. -/
theorem find_eq_iff_finds (source : Source) (start : String) :
    Path.IsAscent (start :: Path.parents start) ∧
      (∀ outcome, find source start = outcome ↔ Finds source start outcome) ∧
      ∀ others project, IsNearest source start project → IsNearest others start project →
        others.readText? (fileIn (directoryIn project)) =
          source.readText? (fileIn (directoryIn project)) →
        (∀ text, source.readText? (fileIn (directoryIn project)) = some text →
          others.parse? text = source.parse? text) →
        find others start = find source start := by
  refine ⟨Path.isAscent_parents start, fun outcome => ⟨?_, find_eq_of_finds⟩, ?_⟩
  · rintro rfl
    exact finds_find source start
  · intro others project nearest nearestThere sameText sameReading
    rw [find_of_isNearest nearest, find_of_isNearest nearestThere, load_congr sameText sameReading]

end CodeAtlas.Config
