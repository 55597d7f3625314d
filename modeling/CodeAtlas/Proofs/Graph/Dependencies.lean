/-
This file shows that the dependencies between files are exact. One file depends on another if
some candidate of one of its imports is a part of the other's path; where no two files have
the same path the table holds all such pairs, and whatever the files are it holds no others.
-/

import CodeAtlas.Graph.Resolution
import CodeAtlas.Proofs.Graph.Candidates
import CodeAtlas.Proofs.Graph.Index
import CodeAtlas.Proofs.Text.Search

namespace CodeAtlas.Resolution

open Candidates

/-! ### What it is to depend on a file -/

/-- Whether the file at one path depends on the file at another: the paths are different, and
some file that an import of the first may mean is a part of the path of the second. -/
structure DependsOn (extensions : List String) (files : List FileRecord)
    (source target : String) : Prop where
  different : source ≠ target
  known : ∃ other ∈ files, other.path = target
  meant : ∃ file ∈ files, file.path = source ∧ ∃ statement ∈ file.imports, ∃ candidate,
    MeantBy extensions statement candidate ∧ candidate <:+: target.toList

variable {extensions : List String} {files : List FileRecord}

/-- Whether every file of a list has a file at its path in another list, with at least its
imports. -/
def Covers (others files : List FileRecord) : Prop :=
  ∀ file ∈ files, ∃ other ∈ others, other.path = file.path ∧ file.imports ⊆ other.imports

/-- What depends on a file still does so among files that cover the files at hand. -/
theorem DependsOn.mono {others : List FileRecord} {otherExtensions : List String}
    (covers : Covers others files)
    (same : ∀ extension, extension ∈ extensions ↔ extension ∈ otherExtensions)
    {source target : String} (depends : DependsOn extensions files source target) :
    DependsOn otherExtensions others source target where
  different := depends.different
  known := by
    obtain ⟨file, member, rfl⟩ := depends.known
    obtain ⟨other, otherMember, here, _⟩ := covers file member
    exact ⟨other, otherMember, here⟩
  meant := by
    obtain ⟨file, member, rfl, statement, stated, candidate, meant, part⟩ := depends.meant
    obtain ⟨other, otherMember, here, within⟩ := covers file member
    exact ⟨other, otherMember, here, statement, within stated, candidate, meant.congr same, part⟩

theorem isMeant_iff {file : FileRecord} {path : String} :
    isMeant (candidates extensions file) path = true ↔ ∃ statement ∈ file.imports, ∃ candidate,
      MeantBy extensions statement candidate ∧ candidate <:+: path.toList := by
  rw [isMeant, List.any_eq_true]
  simp only [candidates, List.mem_flatMap, mem_ofImport_iff, Text.occursIn_iff]
  constructor
  · rintro ⟨candidate, ⟨statement, member, meant⟩, part⟩
    exact ⟨statement, member, candidate, meant, part⟩
  · rintro ⟨statement, member, candidate, meant, part⟩
    exact ⟨candidate, ⟨statement, member, meant⟩, part⟩

theorem mem_targets_iff {file : FileRecord} {target : String} :
    target ∈ targets extensions files file ↔
      file.path ≠ target ∧ (∃ other ∈ files, other.path = target) ∧
        ∃ statement ∈ file.imports, ∃ candidate,
          MeantBy extensions statement candidate ∧ candidate <:+: target.toList := by
  simp only [targets, List.mem_map, List.mem_filter, Bool.and_eq_true, decide_eq_true_eq,
    isMeant_iff]
  constructor
  · rintro ⟨other, ⟨member, different, meant⟩, rfl⟩
    exact ⟨fun same => different same.symm, ⟨other, member, rfl⟩, meant⟩
  · rintro ⟨different, ⟨other, member, rfl⟩, meant⟩
    exact ⟨other, ⟨member, fun same => different same.symm, meant⟩, rfl⟩

/-! ### The table of dependencies -/

/-- What a file gives to the table: the set of its targets, if there are any. -/
def entryOf? (extensions : List String) (files : List FileRecord) (file : FileRecord) :
    Option (String × TextSet) :=
  match targets extensions files file with
  | [] => none
  | paths => some (file.path, TextSet.ofList paths)

theorem entryOf?_eq_some_iff {file : FileRecord} {path : String} {set : TextSet} :
    entryOf? extensions files file = some (path, set) ↔
      targets extensions files file ≠ [] ∧ file.path = path ∧
        TextSet.ofList (targets extensions files file) = set := by
  unfold entryOf?
  cases targets extensions files file <;> simp

/-- The entries of the table of dependencies. -/
def entriesOf (extensions : List String) (files : List FileRecord) :
    List (String × TextSet) :=
  files.filterMap (entryOf? extensions files)

theorem dependencies_resolve :
    (resolve files extensions).dependencies = Index.ofEntries (entriesOf extensions files) := rfl

/-- Files with different paths give entries with different keys. -/
theorem nodup_keys_entriesOf (paths : (files.map FileRecord.path).Nodup) :
    ((entriesOf extensions files).map Prod.fst).Nodup := by
  have pairwise : files.Pairwise fun first second => first.path ≠ second.path :=
    List.pairwise_map.mp paths
  refine List.pairwise_map.mpr (pairwise.filterMap _ fun first second different => ?_)
  rintro ⟨one, _⟩ oneFound ⟨two, _⟩ twoFound
  obtain ⟨_, rfl, _⟩ := entryOf?_eq_some_iff.mp oneFound
  obtain ⟨_, rfl, _⟩ := entryOf?_eq_some_iff.mp twoFound
  exact different

theorem mem_entriesOf_iff {path : String} {set : TextSet} :
    (path, set) ∈ entriesOf extensions files ↔
      ∃ file ∈ files, targets extensions files file ≠ [] ∧ file.path = path ∧
        TextSet.ofList (targets extensions files file) = set := by
  simp only [entriesOf, List.mem_filterMap, entryOf?_eq_some_iff]

theorem mem_dependenciesOf_iff {source target : String} :
    target ∈ (resolve files extensions).dependenciesOf source ↔
      ∃ set, (Index.ofEntries (entriesOf extensions files)).get? source = some set ∧
        target ∈ set.toList := by
  rw [Relationships.dependenciesOf, dependencies_resolve]
  cases (Index.ofEntries (entriesOf extensions files)).get? source <;> simp

/-- Every pair of the table is one of files that depend on each other. -/
theorem dependsOn_of_mem_dependenciesOf {source target : String}
    (member : target ∈ (resolve files extensions).dependenciesOf source) :
    DependsOn extensions files source target := by
  obtain ⟨set, found, isTarget⟩ := mem_dependenciesOf_iff.mp member
  obtain ⟨file, fileMember, _, rfl, rfl⟩ :=
    mem_entriesOf_iff.mp (Index.mem_of_get?_ofEntries found)
  obtain ⟨different, known, meant⟩ := mem_targets_iff.mp (TextSet.mem_ofList.mp isTarget)
  exact ⟨different, known, file, fileMember, rfl, meant⟩

/-- If no two files have the same path, all such pairs are in the table. -/
theorem mem_dependenciesOf_of_dependsOn (paths : (files.map FileRecord.path).Nodup)
    {source target : String} (depends : DependsOn extensions files source target) :
    target ∈ (resolve files extensions).dependenciesOf source := by
  obtain ⟨different, known, file, fileMember, rfl, meant⟩ := depends
  have isTarget : target ∈ targets extensions files file :=
    mem_targets_iff.mpr ⟨different, known, meant⟩
  have entry := mem_entriesOf_iff.mpr
    ⟨file, fileMember, List.ne_nil_of_mem isTarget, rfl, rfl⟩
  exact mem_dependenciesOf_iff.mpr ⟨_,
    (Index.get?_ofEntries_eq_some_iff (nodup_keys_entriesOf paths)).mpr entry,
    TextSet.mem_ofList.mpr isTarget⟩

/-- A key of the table is the path of a file and depends on some file. -/
theorem exists_mem_dependenciesOf_of_mem_keys {source : String}
    (member : source ∈ (resolve files extensions).dependencies.keys) :
    ∃ target, target ∈ (resolve files extensions).dependenciesOf source := by
  rw [dependencies_resolve, Index.mem_keys_iff, Option.isSome_iff_exists] at member
  obtain ⟨set, found⟩ := member
  obtain ⟨file, _, notEmpty, _, rfl⟩ :=
    mem_entriesOf_iff.mp (Index.mem_of_get?_ofEntries found)
  obtain ⟨target, isTarget⟩ := List.exists_mem_of_ne_nil _ notEmpty
  exact ⟨target, mem_dependenciesOf_iff.mpr ⟨_, found, TextSet.mem_ofList.mpr isTarget⟩⟩

theorem mem_keys_of_mem_dependenciesOf {source target : String}
    (member : target ∈ (resolve files extensions).dependenciesOf source) :
    source ∈ (resolve files extensions).dependencies.keys := by
  obtain ⟨set, found, _⟩ := mem_dependenciesOf_iff.mp member
  rw [dependencies_resolve, Index.mem_keys_iff, Option.isSome_iff_exists]
  exact ⟨set, found⟩

theorem mem_dependenciesOf_of_get? {source target : String} {set : TextSet}
    (found : (resolve files extensions).dependencies.get? source = some set) :
    target ∈ (resolve files extensions).dependenciesOf source ↔ target ∈ set.toList := by
  rw [Relationships.dependenciesOf, found]
  rfl

theorem mem_keys_dependencies_iff {source : String} :
    source ∈ (resolve files extensions).dependencies.keys ↔
      ∃ target, target ∈ (resolve files extensions).dependenciesOf source :=
  ⟨exists_mem_dependenciesOf_of_mem_keys, fun ⟨_, member⟩ => mem_keys_of_mem_dependenciesOf member⟩

/-- A table of dependencies is known by the pairs of files in it. -/
theorem dependencies_ext {others : List FileRecord} {otherExtensions : List String}
    (same : ∀ source target, target ∈ (resolve files extensions).dependenciesOf source ↔
      target ∈ (resolve others otherExtensions).dependenciesOf source) :
    (resolve files extensions).dependencies = (resolve others otherExtensions).dependencies := by
  refine Index.ext_get? fun source => ?_
  have key : ((resolve files extensions).dependencies.get? source).isSome =
      ((resolve others otherExtensions).dependencies.get? source).isSome := by
    rw [Bool.eq_iff_iff, ← Index.mem_keys_iff, ← Index.mem_keys_iff, mem_keys_dependencies_iff,
      mem_keys_dependencies_iff]
    simp only [same]
  cases first : (resolve files extensions).dependencies.get? source with
  | none =>
    rw [first, Option.isSome_none, eq_comm, Option.isSome_eq_false_iff,
      Option.isNone_iff_eq_none] at key
    exact key.symm
  | some set =>
    rw [first, Option.isSome_some, eq_comm, Option.isSome_iff_exists] at key
    obtain ⟨other, second⟩ := key
    have sets : set = other := TextSet.ext_mem fun target => by
      rw [← mem_dependenciesOf_of_get? first, ← mem_dependenciesOf_of_get? second, same]
    rw [second, sets]

/-! ### Only paths and imports count -/

/-- A file with nothing but its path and its imports. -/
def outline (file : FileRecord) : FileRecord :=
  { path := file.path, language := none, imports := file.imports
    classes := [], functions := [], errors := [] }

theorem targets_outline (extensions : List String) (files : List FileRecord) (file : FileRecord) :
    targets extensions (files.map outline) (outline file) = targets extensions files file := by
  simp only [targets, List.filter_map, List.map_map]
  rfl

theorem dependencies_outline (files : List FileRecord) (extensions : List String) :
    (resolve (files.map outline) extensions).dependencies =
      (resolve files extensions).dependencies := by
  rw [dependencies_resolve, dependencies_resolve, entriesOf, entriesOf, List.filterMap_map]
  refine congrArg _ (List.filterMap_congr fun file _ => ?_)
  rw [Function.comp_apply, entryOf?, entryOf?, targets_outline]
  rfl

theorem imports_outline (files : List FileRecord) (extensions : List String) :
    (resolve (files.map outline) extensions).imports = (resolve files extensions).imports := by
  unfold resolve
  rw [List.flatMap_map]
  rfl

/-- Whether two relationships tell the same of what files import and depend on. -/
structure AgreeOnFiles (first second : Relationships) : Prop where
  imports : first.imports = second.imports
  dependencies : first.dependencies = second.dependencies

theorem agreeOnFiles_of_outline {first second : List FileRecord}
    (same : first.map outline = second.map outline) (extensions : List String) :
    AgreeOnFiles (resolve first extensions) (resolve second extensions) where
  imports := by rw [← imports_outline first, same, imports_outline]
  dependencies := by rw [← dependencies_outline first, same, dependencies_outline]

/-- The dependencies of files with different paths are exactly the pairs of paths of which one
depends on the other, and the keys are exactly the paths that depend on some other. Whatever
the files are, keys and values are paths of files, and nothing depends on itself. -/
theorem resolve_dependencies_exact (files : List FileRecord) (extensions : List String) :
    ((files.map FileRecord.path).Nodup → ∀ source,
      (∀ target, target ∈ (resolve files extensions).dependenciesOf source ↔
        DependsOn extensions files source target) ∧
      (source ∈ (resolve files extensions).dependencies.keys ↔
        ∃ target, DependsOn extensions files source target)) ∧
    (∀ source ∈ (resolve files extensions).dependencies.keys,
      source ∈ files.map FileRecord.path) ∧
    ∀ source target, target ∈ (resolve files extensions).dependenciesOf source →
      target ∈ files.map FileRecord.path ∧ source ≠ target := by
  refine ⟨fun paths source => ⟨fun target => ?_, ?_⟩, fun source member => ?_,
    fun source target member => ?_⟩
  · exact ⟨dependsOn_of_mem_dependenciesOf, mem_dependenciesOf_of_dependsOn paths⟩
  · constructor
    · intro member
      obtain ⟨target, isTarget⟩ := exists_mem_dependenciesOf_of_mem_keys member
      exact ⟨target, dependsOn_of_mem_dependenciesOf isTarget⟩
    · rintro ⟨target, depends⟩
      exact mem_keys_of_mem_dependenciesOf (mem_dependenciesOf_of_dependsOn paths depends)
  · obtain ⟨target, isTarget⟩ := exists_mem_dependenciesOf_of_mem_keys member
    obtain ⟨file, fileMember, same, _⟩ := (dependsOn_of_mem_dependenciesOf isTarget).meant
    exact List.mem_map.mpr ⟨file, fileMember, same⟩
  · have depends := dependsOn_of_mem_dependenciesOf member
    exact ⟨List.mem_map.mpr depends.known, depends.different⟩

/-- Two files, of which one imports the other. -/
def twoFiles : List FileRecord := [
  { path := "main.py", language := some .python
    imports := [
      { raw := "from shapes import *", moduleName := "shapes", names := ["*"], line := 1 }]
    classes := [], functions := [], errors := [] },
  { path := "shapes.py", language := some .python
    imports := [], classes := [], functions := [], errors := [] }]

theorem resolve_dependencies_exact_twoFiles :
    (twoFiles.map FileRecord.path).Nodup ∧
      "shapes.py" ∈ (resolve twoFiles ["py"]).dependenciesOf "main.py" := by
  have paths : (twoFiles.map FileRecord.path).Nodup := by decide
  have stands : StandsFor ["py"] "shapes".toList "shapes.py".toList :=
    .file (by decide) List.mem_cons_self
  have path : modulePath (Text.trim "shapes".toList) = "shapes".toList := by decide +kernel
  have depends : DependsOn ["py"] twoFiles "main.py" "shapes.py" := {
    different := by decide
    known := ⟨_, List.mem_cons_of_mem _ List.mem_cons_self, rfl⟩
    meant := ⟨_, List.mem_cons_self, rfl, _, List.mem_cons_self, "shapes.py".toList,
      .module (.file (by decide) (path.symm ▸ stands)), List.infix_refl _⟩ }
  have exact_ := (resolve_dependencies_exact twoFiles ["py"]).1 paths "main.py"
  exact ⟨paths, (exact_.1 "shapes.py").mpr depends⟩

end CodeAtlas.Resolution
