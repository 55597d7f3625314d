/-
This file says what more files do to the relationships of a project. No dependency and no name
goes away, and what a function calls inside the project it still calls there, in the same order,
with whatever the new files add in between and behind.
-/

import CodeAtlas.Proofs.Graph.Dependencies
import CodeAtlas.Proofs.Graph.Internal
import CodeAtlas.Proofs.Graph.Merging

namespace CodeAtlas.Resolution

open Relationships

variable {files others : List FileRecord}

/-! ### Files among more files -/

theorem covers_of_subset (within : files ⊆ others) : Covers others files :=
  fun file member => ⟨file, within member, rfl, fun _ stated => stated⟩

/-- The names of some files are names of more files. -/
theorem keys_merged_subset (within : files ⊆ others) (extensions : List String)
    (table : MergedTable) :
    ((resolve files extensions).merged table).keys ⊆
      ((resolve others extensions).merged table).keys := by
  intro key member
  obtain ⟨file, fileMember, held⟩ := mem_keys_merged_iff.mp member
  exact mem_keys_merged_iff.mpr ⟨file, within fileMember, held⟩

theorem namesWithin_of_subset (within : files ⊆ others) (extensions : List String) :
    NamesWithin (resolve files extensions) (resolve others extensions) where
  functions := keys_merged_subset within extensions .functionIndex
  classes := keys_merged_subset within extensions .classIndex
  callers := keys_merged_subset within extensions .calls

/-! ### Files behind files -/

/-- What a key of a merged table has is the beginning of what it has with more files behind. -/
theorem exists_prefix_of_get?_merged (others : List FileRecord) {extensions : List String}
    (table : MergedTable) {key : String} {values : List String}
    (found : ((resolve files extensions).merged table).get? key = some values) :
    ∃ longer, ((resolve (files ++ others) extensions).merged table).get? key = some longer ∧
      values <+: longer := by
  rw [get?_merged_append, found]
  cases ((resolve others extensions).merged table).get? key with
  | none => exact ⟨values, rfl, List.prefix_rfl⟩
  | some new => exact ⟨_, rfl, List.prefix_append _ _⟩

/-- What a caller calls inside a project it calls there, in the same order, with more files. -/
theorem exists_sublist_of_get?_internalCalls {extensions : List String} {caller : String}
    {kept : List String}
    (found : (resolve files extensions).internalCalls.get? caller = some kept) :
    ∃ longer, (resolve (files ++ others) extensions).internalCalls.get? caller = some longer ∧
      kept.Sublist longer := by
  obtain ⟨callees, called, rfl, notEmpty⟩ := get?_internalCalls_eq_some_iff.mp found
  obtain ⟨all, calledStill, front⟩ := exists_prefix_of_get?_merged others .calls called
  have within := namesWithin_of_subset (List.subset_append_left files others) extensions
  -- More callees are names of the project, and there are more callees behind the old ones.
  have sublist : (callees.filter (resolve files extensions).isInternalCallee).Sublist
      (all.filter (resolve (files ++ others) extensions).isInternalCallee) :=
    (List.monotone_filter_right callees fun _ => within.isInternalCallee).trans
      (front.sublist.filter _)
  refine ⟨_, get?_internalCalls_eq_some_iff.mpr ⟨all, calledStill, rfl, ?_⟩, sublist⟩
  exact fun empty => notEmpty (List.sublist_nil.mp (empty ▸ sublist))

/-- Adding files takes no name of the project away, and no call inside it; as long as all files
have different paths, it takes no dependency away either. -/
theorem resolve_append_grows (files others : List FileRecord) (extensions : List String) :
    (((files ++ others).map FileRecord.path).Nodup → ∀ source,
      (resolve files extensions).dependenciesOf source ⊆
        (resolve (files ++ others) extensions).dependenciesOf source) ∧
    (∀ name, (resolve files extensions).isKnownName name = true →
      (resolve (files ++ others) extensions).isKnownName name = true) ∧
    ∀ caller kept, (resolve files extensions).internalCalls.get? caller = some kept →
      ∃ longer, (resolve (files ++ others) extensions).internalCalls.get? caller = some longer ∧
        kept.Sublist longer := by
  have within := List.subset_append_left files others
  refine ⟨fun paths source target member => ?_, fun name => ?_, fun caller kept => ?_⟩
  · have depends := dependsOn_of_mem_dependenciesOf member
    exact mem_dependenciesOf_of_dependsOn paths
      (depends.mono (covers_of_subset within) fun _ => Iff.rfl)
  · exact (namesWithin_of_subset within extensions).isKnownName
  · exact exists_sublist_of_get?_internalCalls

/-- A file with a function that calls two others, and imports them from two modules. -/
def mainFile : FileRecord where
  path := "main.py"
  language := some .python
  imports := [
    { raw := "from shapes import area", moduleName := "shapes", names := ["area"], line := 1 },
    { raw := "from colours import paint", moduleName := "colours", names := ["paint"], line := 2 }]
  classes := []
  functions := [
    { name := "main", parameters := "()", returnType := "", doc := "", startLine := 4, endLine := 6
      calls := ["paint", "area"], isMethod := false, isPrivate := false }]
  errors := []

/-- A file with one function that calls nothing. -/
def leafFile (path name : String) : FileRecord where
  path
  language := some .python
  imports := []
  classes := []
  functions := [
    { name, parameters := "(shape)", returnType := "", doc := "", startLine := 1, endLine := 2
      calls := [], isMethod := false, isPrivate := false }]
  errors := []

/-- The files of a project of which one part comes later. -/
def early : List FileRecord := [mainFile, leafFile "shapes.py" "area"]

/-- The part that comes later. -/
def late : List FileRecord := [leafFile "colours.py" "paint"]

theorem resolve_append_grows_late :
    ((early ++ late).map FileRecord.path).Nodup ∧
    ("shapes.py" ∈ (resolve early ["py"]).dependenciesOf "main.py" ∧
      "shapes.py" ∈ (resolve (early ++ late) ["py"]).dependenciesOf "main.py") ∧
    ((resolve early ["py"]).isKnownName "area" = true ∧
      (resolve (early ++ late) ["py"]).isKnownName "area" = true) ∧
    (resolve early ["py"]).internalCalls.get? "main.py::main" = some ["area"] ∧
      ∃ longer, (resolve (early ++ late) ["py"]).internalCalls.get? "main.py::main" =
        some longer ∧ ["area"].Sublist longer := by
  have grows := resolve_append_grows early late ["py"]
  have paths : ((early ++ late).map FileRecord.path).Nodup := by decide
  have depends : "shapes.py" ∈ (resolve early ["py"]).dependenciesOf "main.py" := by
    decide +kernel
  have known : (resolve early ["py"]).isKnownName "area" = true := by decide +kernel
  have kept : (resolve early ["py"]).internalCalls.get? "main.py::main" = some ["area"] := by
    decide +kernel
  exact ⟨paths, ⟨depends, grows.1 paths _ depends⟩, ⟨known, grows.2.1 _ known⟩, kept,
    grows.2.2 _ _ kept⟩

end CodeAtlas.Resolution
