/-
This file says which files an import may mean without saying in which order they are tried. A
module that ends in a known extension means itself. Any other means the files that can stand
for it at its path, with every extension, and the files that can stand for the names imported
from it below that path.
-/

import CodeAtlas.Graph.Candidates

namespace CodeAtlas.Candidates

open Text

/-! ### Files that stand for a path -/

/-- The files that can stand for a path which is not empty: one of its own name, or one of the
three names for the main file of a directory. -/
inductive StandsFor (extensions : List String) (path : Chars) : Chars → Prop
  | file {extension : String} (named : path ≠ []) (tried : extension ∈ extensions) :
    StandsFor extensions path (path ++ ['.'] ++ extension.toList)
  | index {extension : String} (named : path ≠ []) (tried : extension ∈ extensions) :
    StandsFor extensions path (path ++ "/index.".toList ++ extension.toList)
  | package {extension : String} (named : path ≠ []) (tried : extension ∈ extensions) :
    StandsFor extensions path (path ++ "/__init__.".toList ++ extension.toList)
  | module {extension : String} (named : path ≠ []) (tried : extension ∈ extensions) :
    StandsFor extensions path (path ++ "/mod.".toList ++ extension.toList)

theorem mem_ofPath_iff {extensions : List String} {path candidate : Chars} :
    candidate ∈ ofPath extensions path ↔ StandsFor extensions path candidate := by
  unfold ofPath
  constructor
  · intro member
    split at member
    · cases member
    · next named =>
      have named : path ≠ [] := fun empty => named (List.isEmpty_iff.mpr empty)
      obtain ⟨extension, tried, member⟩ := List.mem_flatMap.mp member
      simp only [filesAt, List.mem_cons, List.not_mem_nil, or_false] at member
      rcases member with rfl | rfl | rfl | rfl
      · exact .file named tried
      · exact .index named tried
      · exact .package named tried
      · exact .module named tried
  · intro stands
    have named : path ≠ [] := by
      cases stands <;> assumption
    rw [if_neg fun empty => named (List.isEmpty_iff.mp empty), List.mem_flatMap]
    cases stands with
    | file _ tried => exact ⟨_, tried, by simp [filesAt]⟩
    | index _ tried => exact ⟨_, tried, by simp [filesAt]⟩
    | package _ tried => exact ⟨_, tried, by simp [filesAt]⟩
    | module _ tried => exact ⟨_, tried, by simp [filesAt]⟩

/-! ### Files that an import may mean -/

/-- What a module with a known extension is as a path: without the steps and the slashes at
its beginning. -/
def ownPath (name : Chars) : Chars :=
  (stripSteps name).dropWhile isSlash

/-- The files that a module may mean. -/
inductive MeantByModule (extensions : List String) (text : Chars) : Chars → Prop
  | itself (known : hasExtension extensions (trim text) = true)
    (named : ownPath (trim text) ≠ []) : MeantByModule extensions text (ownPath (trim text))
  | file {candidate : Chars} (unknown : hasExtension extensions (trim text) = false)
    (stands : StandsFor extensions (modulePath (trim text)) candidate) :
    MeantByModule extensions text candidate

/-- The files that an import may mean: those that its module may, and, unless the module ends
in a known extension, those that stand for an imported name below it. The star is no name. -/
inductive MeantBy (extensions : List String) (statement : Import) : Chars → Prop
  | module {candidate : Chars}
    (meant : MeantByModule extensions statement.moduleName.toList candidate) :
    MeantBy extensions statement candidate
  | name {candidate : Chars} {name : String}
    (unknown : hasExtension extensions statement.moduleName.toList = false)
    (imported : name ∈ statement.names) (proper : name ≠ Import.wildcard)
    (stands : StandsFor extensions
      (namePath (modulePath statement.moduleName.toList) name.toList) candidate) :
    MeantBy extensions statement candidate

theorem modulePath_nil : modulePath [] = [] := by
  have stripped : stripPlaceWords [] = [] := by
    rw [stripPlaceWords]
    rfl
  unfold modulePath
  rw [show trim [] = [] from rfl, show (stripSteps []).dropWhile (· = '.') = [] from rfl, stripped]
  rfl

theorem hasExtension_nil (extensions : List String) : hasExtension extensions [] = false := rfl

theorem mem_ofModule_iff {extensions : List String} {text candidate : Chars} :
    candidate ∈ ofModule extensions text ↔ MeantByModule extensions text candidate := by
  unfold ofModule
  constructor
  · intro member
    dsimp only at member
    split at member
    · cases member
    · split at member
      · next known =>
        split at member
        · cases member
        · next named =>
          rw [List.mem_singleton] at member
          subst member
          exact .itself known fun empty => named (List.isEmpty_iff.mpr empty)
      · next unknown =>
        exact .file (Bool.eq_false_iff.mpr unknown) (mem_ofPath_iff.mp member)
  · intro meant
    cases meant with
    | itself known named =>
      have notEmpty : trim text ≠ [] := by
        intro empty
        rw [empty, hasExtension_nil] at known
        cases known
      rw [if_neg fun empty => notEmpty (List.isEmpty_iff.mp empty), if_pos known]
      show ownPath (trim text) ∈ if (ownPath (trim text)).isEmpty then [] else [ownPath (trim text)]
      rw [if_neg fun empty => named (List.isEmpty_iff.mp empty)]
      exact List.mem_singleton_self _
    | file unknown stands =>
      have notEmpty : trim text ≠ [] := by
        intro empty
        rw [empty, modulePath_nil] at stands
        cases stands <;> contradiction
      rw [if_neg fun empty => notEmpty (List.isEmpty_iff.mp empty),
        if_neg (Bool.eq_false_iff.mp unknown)]
      exact mem_ofPath_iff.mpr stands

/-- The candidates of an import are the files that it may mean. -/
theorem mem_ofImport_iff {extensions : List String} {statement : Import} {candidate : Chars} :
    candidate ∈ ofImport extensions statement ↔ MeantBy extensions statement candidate := by
  unfold ofImport
  constructor
  · intro member
    dsimp only at member
    split at member
    · exact .module (mem_ofModule_iff.mp member)
    · next unknown =>
      rw [mem_foldl_pushNew, List.mem_flatMap] at member
      rcases member with member | ⟨name, kept, member⟩
      · exact .module (mem_ofModule_iff.mp member)
      · obtain ⟨imported, proper⟩ := List.mem_filter.mp kept
        exact .name (Bool.eq_false_iff.mpr unknown) imported (of_decide_eq_true proper)
          (mem_ofPath_iff.mp member)
  · intro meant
    dsimp only
    cases meant with
    | module meant =>
      have member := mem_ofModule_iff.mpr meant
      split
      · exact member
      · exact mem_foldl_pushNew.mpr (.inl member)
    | @name name unknown imported proper stands =>
      rw [if_neg (Bool.eq_false_iff.mp unknown), mem_foldl_pushNew, List.mem_flatMap]
      refine .inr ⟨name, List.mem_filter.mpr ⟨imported, ?_⟩, mem_ofPath_iff.mpr stands⟩
      exact decide_eq_true proper

/-! ### Which extensions are tried -/

variable {extensions others : List String}

/-- Extensions count as a set: neither their order nor how often one is named matters. -/
theorem hasExtension_congr (same : ∀ extension, extension ∈ extensions ↔ extension ∈ others)
    (text : Chars) : hasExtension extensions text = hasExtension others text := by
  have tried (test : String → Bool) : extensions.any test = others.any test :=
    Bool.eq_iff_iff.mpr (by simp only [List.any_eq_true, same])
  unfold hasExtension
  simp only [tried]

theorem StandsFor.mono {path candidate : Chars} (within : extensions ⊆ others)
    (stands : StandsFor extensions path candidate) : StandsFor others path candidate := by
  cases stands with
  | file named tried => exact .file named (within tried)
  | index named tried => exact .index named (within tried)
  | package named tried => exact .package named (within tried)
  | module named tried => exact .module named (within tried)

theorem MeantByModule.congr {text candidate : Chars}
    (same : ∀ extension, extension ∈ extensions ↔ extension ∈ others)
    (meant : MeantByModule extensions text candidate) : MeantByModule others text candidate := by
  have within : extensions ⊆ others := fun extension => (same extension).mp
  cases meant with
  | itself known named => exact .itself (hasExtension_congr same _ ▸ known) named
  | file unknown stands =>
    exact .file (hasExtension_congr same _ ▸ unknown) (stands.mono within)

theorem MeantBy.congr {statement : Import} {candidate : Chars}
    (same : ∀ extension, extension ∈ extensions ↔ extension ∈ others)
    (meant : MeantBy extensions statement candidate) : MeantBy others statement candidate := by
  have within : extensions ⊆ others := fun extension => (same extension).mp
  cases meant with
  | module meant => exact .module (meant.congr same)
  | name unknown imported proper stands =>
    exact .name (hasExtension_congr same _ ▸ unknown) imported proper (stands.mono within)

end CodeAtlas.Candidates
