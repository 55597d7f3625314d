/-
This file shows that it does not matter where in a source something stands. When whole rows are
put before a source, its record has the same imports, classes and functions as before, with the
same owners in the same order, and only their offsets and lines grow, by the bytes and the rows
that were put there.
-/

import CodeAtlas.Proofs.Extraction.Parts
import CodeAtlas.Proofs.Extraction.Shift
import CodeAtlas.Proofs.Tree.Extent

namespace CodeAtlas

open Text

/-- The file with everything in it some bytes and rows further down. -/
def FileRecord.moved (distance rows : Nat) (file : FileRecord) : FileRecord :=
  { file with
    imports := file.imports.map (Import.moved rows)
    classes := file.classes.map (Class.moved distance rows)
    functions := file.functions.map (Function.moved distance rows) }

/-! ### Owners -/

namespace Ownership

variable (distance rows : Nat)

theorem containsLines_moved (owner : Class) (startLine endLine : Nat) :
    (owner.moved distance rows).containsLines (startLine + rows) (endLine + rows) =
      owner.containsLines startLine endLine := by
  simp only [Class.containsLines, Class.moved, Nat.add_le_add_iff_right]

/-- A class keeps the number of its lines, which are counted from one. -/
theorem lineCount_moved {owner : Class} (numbered : 1 ≤ owner.startLine) :
    (owner.moved distance rows).lineCount = owner.lineCount := by
  have moved : 1 ≤ (owner.moved distance rows).startLine := Nat.le_add_right_of_le numbered
  rw [Class.lineCount, Class.lineCount, lineCount_of_pos numbered, lineCount_of_pos moved]
  simp only [Class.moved, Nat.add_sub_add_right]

theorem nearer_moved {first second : Class} (numbered : 1 ≤ first.startLine)
    (secondNumbered : 1 ≤ second.startLine) :
    nearer (first.moved distance rows) (second.moved distance rows) = nearer first second := by
  unfold nearer
  rw [lineCount_moved _ _ numbered, lineCount_moved _ _ secondNumbered]
  simp only [Class.moved, Nat.add_lt_add_iff_right]

/-- The class that was found, at its index, some bytes and rows further down. -/
def foundMoved (best : Option (Nat × Class)) : Option (Nat × Class) :=
  best.map fun found => (found.1, found.2.moved distance rows)

theorem improved_moved (startLine endLine index : Nat) {best : Option (Nat × Class)}
    (bestNumbered : ∀ held ∈ best, 1 ≤ held.2.startLine) {owner : Class}
    (numbered : 1 ≤ owner.startLine) :
    improved (startLine + rows) (endLine + rows) index (foundMoved distance rows best)
        (owner.moved distance rows) =
      foundMoved distance rows (improved startLine endLine index best owner) := by
  unfold improved
  rw [containsLines_moved]
  split
  · cases best with
    | none => rfl
    | some held =>
      simp only [foundMoved, Option.map_some, nearer_moved _ _ numbered (bestNumbered held rfl)]
      split <;> rfl
  · rfl

/-- What is found is what was found before or the class that was looked at. -/
theorem improved_cases (startLine endLine index : Nat) (best : Option (Nat × Class))
    (owner : Class) :
    improved startLine endLine index best owner = best ∨
      improved startLine endLine index best owner = some (index, owner) := by
  unfold improved
  split
  · cases best with
    | none => exact .inr rfl
    | some held =>
      dsimp only
      split
      · exact .inr rfl
      · exact .inl rfl
  · exact .inl rfl

theorem nearestFrom_moved (startLine endLine index : Nat) {best : Option (Nat × Class)}
    (bestNumbered : ∀ held ∈ best, 1 ≤ held.2.startLine) {owners : List Class}
    (numbered : ∀ owner ∈ owners, 1 ≤ owner.startLine) :
    nearestFrom (startLine + rows) (endLine + rows) index (foundMoved distance rows best)
        (owners.map (Class.moved distance rows)) =
      foundMoved distance rows (nearestFrom startLine endLine index best owners) := by
  induction owners generalizing index best with
  | nil => rfl
  | cons owner owners inductionHypothesis =>
    obtain ⟨ownerNumbered, numbered⟩ := List.forall_mem_cons.mp numbered
    have improvedNumbered : ∀ held ∈ improved startLine endLine index best owner,
        1 ≤ held.2.startLine := by
      intro held found
      rcases improved_cases startLine endLine index best owner with same | same
      · exact bestNumbered held (same ▸ found)
      · rw [same] at found
        exact Option.some.inj found ▸ ownerNumbered
    rw [List.map_cons, nearestFrom_cons, nearestFrom_cons,
      improved_moved _ _ _ _ _ bestNumbered ownerNumbered,
      inductionHypothesis _ improvedNumbered numbered]

/-- The owner of a function stays the same when all of them move. -/
theorem owner?_moved {classes : List Class} (numbered : ∀ owner ∈ classes, 1 ≤ owner.startLine)
    (function : Function) :
    owner? (classes.map (Class.moved distance rows)) (function.moved distance rows) =
      owner? classes function := by
  have noneHeld : ∀ held ∈ (none : Option (Nat × Class)), 1 ≤ held.2.startLine :=
    fun _ found => by cases found
  have nearest :=
    nearestFrom_moved distance rows function.startLine function.endLine 0 noneHeld numbered
  have found := congrArg (Option.map fun found : Nat × Class => found.1) nearest
  rwa [foundMoved, foundMoved, Option.map_none, Option.map_map] at found

theorem keepsOwners_moved {classes : List Class}
    (numbered : ∀ owner ∈ classes, 1 ≤ owner.startLine) :
    KeepsOwners classes (Class.moved distance rows) (Function.moved distance rows) where
  owner := owner?_moved distance rows numbered
  methods owner owned := by
    simp only [Class.moved, List.map_map]
    rfl

end Ownership

namespace Extraction

open Ownership

/-! ### Parts of a record -/

section

variable (file : ParsedFile) (front : Chars)

/-- Behind other text the moved drafts of a category are found, or the same is said about
searching for them. -/
theorem draftsOf_precededBy (category : Category) :
    draftsOf (Catalog.search (file.precededBy front)) (file.precededBy front) category =
      (draftsOf (Catalog.search file) file category).map
        (List.map (Draft.shift (byteLength front))) := by
  have language : (file.precededBy front).language = file.language := rfl
  have grammars : (file.precededBy front).grammars = file.grammars := rfl
  unfold draftsOf Catalog.search
  rw [language, grammars]
  cases Catalog.usable (file.grammars file.language) file.language category with
  | error error => rfl
  | ok query =>
    have captures : capturesOf (query.matches (front ++ file.source))
        (file.rootSite.shift (byteLength front)) =
          (capturesOf (query.matches file.source) file.rootSite).map
            (Capture.shift (byteLength front)) := by
      rw [capturesOf, capturesOf, Query.matches_shift, List.flatMap_map, List.map_flatMap]
      rfl
    show Except.ok (gather category (front ++ file.source)
      (capturesOf (query.matches (front ++ file.source))
        (file.rootSite.shift (byteLength front)))) = _
    rw [captures, gather_shift]
    rfl

theorem imports_precededBy :
    imports (Catalog.search (file.precededBy front)) (file.precededBy front) =
      ((imports (Catalog.search file) file).1,
        (imports (Catalog.search file) file).2.map (Import.moved (rowCount front))) := by
  have source : (file.precededBy front).source = front ++ file.source := rfl
  unfold imports
  rw [draftsOf_precededBy, source]
  cases draftsOf (Catalog.search file) file .imports with
  | error message => rfl
  | ok drafts =>
    simp only [Except.map, List.flatMap_map, List.map_flatMap, importsOf_shift]

variable {front} (options : AnalysisOptions) (rows : EndsRow front)

include rows

theorem classes_precededBy :
    classes (Catalog.search (file.precededBy front)) options (file.precededBy front) =
      ((classes (Catalog.search file) options file).1,
        (classes (Catalog.search file) options file).2.map
          (Class.moved (byteLength front) (rowCount front))) := by
  have source : (file.precededBy front).source = front ++ file.source := rfl
  have language : (file.precededBy front).language = file.language := rfl
  unfold classes
  rw [draftsOf_precededBy, source, language]
  cases draftsOf (Catalog.search file) file .classes with
  | error message => rfl
  | ok drafts =>
    simp only [Except.map, List.filterMap_map, List.map_filterMap, Function.comp_def,
      classOf?_shift file.source options _ _ rows]

theorem functions_precededBy :
    functions (Catalog.search (file.precededBy front)) options (file.precededBy front) =
      ((functions (Catalog.search file) options file).1,
        (functions (Catalog.search file) options file).2.map
          (Function.moved (byteLength front) (rowCount front))) := by
  have source : (file.precededBy front).source = front ++ file.source := rfl
  have language : (file.precededBy front).language = file.language := rfl
  have grammars : (file.precededBy front).grammars = file.grammars := rfl
  unfold functions
  rw [draftsOf_precededBy, source, language]
  cases draftsOf (Catalog.search file) file .functions with
  | error message => rfl
  | ok drafts =>
    unfold Catalog.search
    rw [source, language, grammars]
    cases Catalog.usable (file.grammars file.language) file.language .calls with
    | error error =>
      have part (draft : Draft) :=
        functionOf?_shift file.source options file.language.docStyle draft rows none
      simp only [Option.map_none] at part
      simp only [Except.map, List.filterMap_map, List.map_filterMap, Function.comp_def, part]
    | ok query =>
      have part (draft : Draft) :=
        functionOf?_shift file.source options file.language.docStyle draft rows (some query)
      simp only [Option.map_some] at part
      simp only [Except.map, List.filterMap_map, List.map_filterMap, Function.comp_def, part]

/-! ### Records -/

variable (path : String)

theorem fullRecord_precededBy :
    fullRecord (Catalog.search (file.precededBy front)) options (file.precededBy front) path =
      (fullRecord (Catalog.search file) options file path).moved (byteLength front)
        (rowCount front) := by
  have keeps := keepsOwners_moved (byteLength front) (rowCount front)
    fun _ (member : _ ∈ (classes (Catalog.search file) options file).2) =>
      one_le_startLine_of_mem_classes member
  rw [fullRecord, fullRecord, imports_precededBy, classes_precededBy file options rows,
    functions_precededBy file options rows, withMethods_map keeps, unowned_map keeps]
  rfl

end

theorem dropPrivate_moved (distance rows : Nat) (record : FileRecord) :
    dropPrivate (record.moved distance rows) = (dropPrivate record).moved distance rows := by
  simp only [dropPrivate, FileRecord.moved, List.filter_map, List.map_map, Function.comp_def,
    Class.moved, Function.moved]

/-- Behind whole rows a source has the same record, that many bytes and rows further down: the
same imports, classes and functions in the same order, methods with the same owners, the same
names and texts, and the same errors. -/
theorem record_precededBy (options : AnalysisOptions) (path : String) (file : ParsedFile)
    (front : Chars) (rows : EndsRow front) :
    record options path (file.precededBy front) =
      (record options path file).moved (byteLength front) (rowCount front) := by
  rw [record, record]
  cases granularity : options.granularity with
  | file =>
    rw [recordBy_file _ _ _ _ granularity, recordBy_file _ _ _ _ granularity, imports_precededBy]
    rfl
  | detailed =>
    rw [recordBy_detailed _ _ _ _ granularity, recordBy_detailed _ _ _ _ granularity,
      fullRecord_precededBy file options rows, dropPrivate_moved]
    split <;> rfl

/-- Two rows of comment. -/
def preamble : Chars :=
  "# Shapes\n\n".toList

theorem record_precededBy_shapes :
    EndsRow preamble ∧
      record {} "shapes.py" (shapes.precededBy preamble) =
        (record {} "shapes.py" shapes).moved 10 2 ∧
      (shapes.precededBy preamble).source =
        "# Shapes\n\nclass Shape:\n    def area(self):\n        draw()\n".toList := by
  have rows : EndsRow preamble := .inr (by decide)
  have moved := record_precededBy {} "shapes.py" shapes preamble rows
  have bytes : byteLength preamble = 10 := by decide
  have rowsBefore : rowCount preamble = 2 := by decide
  rw [bytes, rowsBefore] at moved
  exact ⟨rows, moved, by decide⟩

end Extraction

end CodeAtlas
