/-
This file shows that the relationships of a project do not depend on the order in which its
files are given. Where no two files have the same path, the dependencies are the same table for
every order of the files and of the imports in each, and for every list of extensions that names
the same ones; the other tables have the same keys with the same values, and only the order of
the values under a key follows that of the files.
-/

import CodeAtlas.Proofs.Graph.Growth
import Mathlib.Data.List.Forall2

namespace CodeAtlas

/-- Whether two tables have the same keys, and every key the same values, in whichever order. -/
structure Index.SameUpToOrder (first second : Index (List String)) : Prop where
  keys : first.keys = second.keys
  values : ∀ key, ((first.get? key).getD []).Perm ((second.get? key).getD [])

namespace Resolution

open Relationships

variable {files middle others : List FileRecord} {extensions otherExtensions : List String}

/-! ### Dependencies -/

/-- Whether a file is another with its imports in some other order. -/
structure ImportsReordered (file other : FileRecord) : Prop where
  imports : file.imports.Perm other.imports
  rest : other = { file with imports := other.imports }

theorem ImportsReordered.path {file other : FileRecord} (reordered : ImportsReordered file other) :
    other.path = file.path := by
  rw [reordered.rest]

theorem ImportsReordered.symm {file other : FileRecord}
    (reordered : ImportsReordered file other) : ImportsReordered other file where
  imports := reordered.imports.symm
  rest := by rw [reordered.rest]

theorem reordered_symm (reordered : List.Forall₂ ImportsReordered files others) :
    List.Forall₂ ImportsReordered others files :=
  (reordered.imp fun _ _ same => same.symm).flip

theorem paths_of_reordered (reordered : List.Forall₂ ImportsReordered files others) :
    others.map FileRecord.path = files.map FileRecord.path := by
  induction reordered with
  | nil => rfl
  | cons same _ inductionHypothesis =>
    rw [List.map_cons, List.map_cons, same.path, inductionHypothesis]

theorem covers_of_reordered (reordered : List.Forall₂ ImportsReordered files others) :
    Covers others files := by
  induction reordered with
  | nil =>
    intro file member
    cases member
  | cons same _ inductionHypothesis =>
    intro file member
    rcases List.mem_cons.mp member with rfl | member
    · exact ⟨_, List.mem_cons_self, same.path, same.imports.subset⟩
    · obtain ⟨other, otherMember, covered⟩ := inductionHypothesis file member
      exact ⟨other, List.mem_cons_of_mem _ otherMember, covered⟩

theorem Covers.trans (outer : Covers others middle) (inner : Covers middle files) :
    Covers others files := by
  intro file member
  obtain ⟨between, betweenMember, here, within⟩ := inner file member
  obtain ⟨other, otherMember, there, further⟩ := outer between betweenMember
  exact ⟨other, otherMember, there.trans here, List.Subset.trans within further⟩

/-- Files with different paths that cover each other have the same table of dependencies. -/
theorem dependencies_eq_of_covers (paths : (files.map FileRecord.path).Nodup)
    (otherPaths : (others.map FileRecord.path).Nodup) (covers : Covers others files)
    (covered : Covers files others)
    (same : ∀ extension, extension ∈ extensions ↔ extension ∈ otherExtensions) :
    (resolve files extensions).dependencies = (resolve others otherExtensions).dependencies := by
  refine dependencies_ext fun source target => ⟨fun member => ?_, fun member => ?_⟩
  · exact mem_dependenciesOf_of_dependsOn otherPaths
      ((dependsOn_of_mem_dependenciesOf member).mono covers same)
  · exact mem_dependenciesOf_of_dependsOn paths
      ((dependsOn_of_mem_dependenciesOf member).mono covered fun extension =>
        (same extension).symm)

/-! ### Imports -/

/-- Where no two files have the same path, a path has the modules of its file. -/
theorem said_imports_of_mem (paths : (files.map FileRecord.path).Nodup) {file : FileRecord}
    (member : file ∈ files) :
    said files .imports file.path = file.imports.map Import.moduleName := by
  induction files with
  | nil => cases member
  | cons head rest inductionHypothesis =>
    obtain ⟨absent, paths⟩ := List.nodup_cons.mp paths
    have parts : said (head :: rest) .imports file.path =
        (if head.path = file.path then head.imports.map Import.moduleName else []) ++
          said rest .imports file.path := List.flatMap_cons
    rcases List.mem_cons.mp member with rfl | member
    · have nothing : said rest .imports file.path = [] := by
        refine said_eq_nil ?_
        rintro ⟨other, otherMember, here, _⟩
        exact absent (List.mem_map.mpr ⟨other, otherMember, here⟩)
      rw [parts, if_pos rfl, nothing, List.append_nil]
    · have elsewhere : head.path ≠ file.path := fun here =>
        absent (List.mem_map.mpr ⟨file, member, here.symm⟩)
      rw [parts, if_neg elsewhere, List.nil_append, inductionHypothesis paths member]

theorem said_imports_perm (paths : (files.map FileRecord.path).Nodup) (order : files.Perm others)
    (path : String) : said files .imports path = said others .imports path := by
  have otherPaths := (order.map FileRecord.path).nodup_iff.mp paths
  by_cases known : ∃ file ∈ files, file.path = path
  · obtain ⟨file, member, rfl⟩ := known
    rw [said_imports_of_mem paths member, said_imports_of_mem otherPaths (order.subset member)]
  · rw [said_eq_nil, said_eq_nil]
    · rintro ⟨file, member, here, _⟩
      exact known ⟨file, order.symm.subset member, here⟩
    · rintro ⟨file, member, here, _⟩
      exact known ⟨file, member, here⟩

theorem hasKey_perm (order : files.Perm others) (table : MergedTable) (key : String) :
    (∃ file ∈ files, HasKey file table key) ↔ ∃ file ∈ others, HasKey file table key := by
  simp only [order.mem_iff]

/-- Where no two files have the same path, their imports are the same table for every order. -/
theorem imports_perm (paths : (files.map FileRecord.path).Nodup) (order : files.Perm others)
    (extensions : List String) :
    (resolve files extensions).imports = (resolve others extensions).imports := by
  refine Index.ext_get? fun path => Option.ext fun modules => ?_
  rw [get?_imports_eq_some_iff, get?_imports_eq_some_iff, said_imports_perm paths order,
    hasKey_perm order]

/-! ### Merged tables and calls -/

theorem said_subset (within : files ⊆ others) (table : MergedTable) (key : String) :
    said files table key ⊆ said others table key := by
  intro value member
  obtain ⟨file, fileMember, isSaid⟩ := List.mem_flatMap.mp member
  exact List.mem_flatMap.mpr ⟨file, within fileMember, isSaid⟩

/-- For every order of the files a merged table has the same keys with the same values. -/
theorem merged_perm (order : files.Perm others) (extensions : List String) (table : MergedTable) :
    ((resolve files extensions).merged table).SameUpToOrder
      ((resolve others extensions).merged table) where
  keys := Index.keys_eq_of_mem_iff fun _ =>
    ⟨(keys_merged_subset order.subset extensions table ·),
      (keys_merged_subset order.symm.subset extensions table ·)⟩
  values key := by
    rw [getD_get?_merged, getD_get?_merged]
    exact Text.perm_eraseDups fun _ =>
      ⟨(said_subset order.subset table key ·), (said_subset order.symm.subset table key ·)⟩

/-- For every order of the files the same callers call the same names inside the project. -/
theorem internalCalls_perm (order : files.Perm others) (extensions : List String) :
    (resolve files extensions).internalCalls.SameUpToOrder
      (resolve others extensions).internalCalls := by
  have values (caller : String) : (((resolve files extensions).internalCalls.get? caller).getD
      []).Perm (((resolve others extensions).internalCalls.get? caller).getD []) := by
    rw [getD_get?_internalCalls, getD_get?_internalCalls,
      (namesWithin_of_subset order.subset extensions).isInternalCallee_eq
        (namesWithin_of_subset order.symm.subset extensions)]
    exact ((merged_perm order extensions .calls).values caller).filter _
  refine ⟨Index.keys_eq_of_mem_iff fun caller => ?_, values⟩
  rw [mem_keys_internalCalls_iff, mem_keys_internalCalls_iff, ne_eq, ne_eq]
  exact not_congr ⟨fun empty => (empty ▸ values caller).symm.eq_nil,
    fun empty => (empty ▸ values caller).eq_nil⟩

/-! ### Every order -/

/-- Where no two files have the same path, the dependencies do not depend on the order of the
files, on the order of the imports in a file, or on the order and the repeats of the extensions.
In another order of the files alone the imports are the same too, and the other tables and the
calls inside the project are the same up to the order of the values under a key. -/
theorem resolve_reordered (files : List FileRecord) (extensions : List String)
    (paths : (files.map FileRecord.path).Nodup) :
    (∀ middle others otherExtensions, files.Perm middle →
      List.Forall₂ ImportsReordered middle others →
      (∀ extension, extension ∈ extensions ↔ extension ∈ otherExtensions) →
      (resolve files extensions).dependencies = (resolve others otherExtensions).dependencies) ∧
    ∀ others, files.Perm others →
      (resolve files extensions).imports = (resolve others extensions).imports ∧
      (resolve files extensions).inheritance.SameUpToOrder
        (resolve others extensions).inheritance ∧
      (resolve files extensions).calls.SameUpToOrder (resolve others extensions).calls ∧
      (resolve files extensions).functionIndex.SameUpToOrder
        (resolve others extensions).functionIndex ∧
      (resolve files extensions).classIndex.SameUpToOrder
        (resolve others extensions).classIndex ∧
      (resolve files extensions).internalCalls.SameUpToOrder
        (resolve others extensions).internalCalls := by
  constructor
  · intro middle others otherExtensions order reordered same
    have otherPaths : (others.map FileRecord.path).Nodup := by
      rw [paths_of_reordered reordered]
      exact (order.map FileRecord.path).nodup_iff.mp paths
    -- The files in their new order stand between the two lists.
    have covers := (covers_of_reordered reordered).trans (covers_of_subset order.subset)
    have covered := (covers_of_subset order.symm.subset).trans
      (covers_of_reordered (reordered_symm reordered))
    exact dependencies_eq_of_covers paths otherPaths covers covered same
  · intro others order
    exact ⟨imports_perm paths order extensions, merged_perm order extensions .inheritance,
      merged_perm order extensions .calls, merged_perm order extensions .functionIndex,
      merged_perm order extensions .classIndex, internalCalls_perm order extensions⟩

/-- A file with its imports from the last to the first. -/
def turned (file : FileRecord) : FileRecord :=
  { file with imports := file.imports.reverse }

theorem resolve_reordered_turned :
    ((early ++ late).map FileRecord.path).Nodup ∧ (early ++ late).Perm (late ++ early) ∧
    List.Forall₂ ImportsReordered (late ++ early) ((late ++ early).map turned) ∧
    (∀ extension, extension ∈ ["py", "js"] ↔ extension ∈ ["js", "py", "py"]) ∧
    (resolve (early ++ late) ["py", "js"]).dependencies =
      (resolve ((late ++ early).map turned) ["js", "py", "py"]).dependencies ∧
    (resolve (early ++ late) ["py", "js"]).imports =
      (resolve (late ++ early) ["py", "js"]).imports ∧
    (resolve (early ++ late) ["py", "js"]).internalCalls.SameUpToOrder
      (resolve (late ++ early) ["py", "js"]).internalCalls := by
  have paths : ((early ++ late).map FileRecord.path).Nodup := by decide
  have order : (early ++ late).Perm (late ++ early) := List.perm_append_comm
  have reordered : List.Forall₂ ImportsReordered (late ++ early) ((late ++ early).map turned) :=
    List.forall₂_map_right_iff.mpr (List.forall₂_same.mpr fun file _ =>
      ⟨(List.reverse_perm file.imports).symm, rfl⟩)
  have extensions : ∀ extension, extension ∈ ["py", "js"] ↔ extension ∈ ["js", "py", "py"] := by
    simp [or_comm]
  have same := resolve_reordered (early ++ late) ["py", "js"] paths
  obtain ⟨imports, _, _, _, _, calls⟩ := same.2 _ order
  exact ⟨paths, order, reordered, extensions, same.1 _ _ _ order reordered extensions, imports,
    calls⟩

end Resolution

end CodeAtlas
