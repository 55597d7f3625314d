/-
This file is about trees in which the definitions of a category begin at places of their own.
There everything that is owned at an offset is owned by one definition, whichever capture of it
comes first.
-/

import CodeAtlas.Proofs.Extraction.Soundness

namespace CodeAtlas.Extraction

open Site

/-- Whether no two definitions of one category begin at the same byte. -/
def DefinitionsApart (file : ParsedFile) : Prop :=
  ∀ (category : Category) (first second : Site), AtOrBelow file.rootSite first →
    AtOrBelow file.rootSite second → first.Defines category.definitionKinds →
    second.Defines category.definitionKinds → first.node.start = second.node.start →
    first = second

/-- The definitions of a category in a file. -/
def definitions (file : ParsedFile) (category : Category) : List Site :=
  file.rootSite.withDescendants.filter fun site =>
    site.parent?.isSome && site.node.kind ∈ category.definitionKinds

theorem mem_definitions_iff {file : ParsedFile} {category : Category} {site : Site} :
    site ∈ definitions file category ↔
      AtOrBelow file.rootSite site ∧ site.Defines category.definitionKinds := by
  rw [definitions, List.mem_filter, mem_withDescendants_iff, Defines]
  simp [Option.isSome_iff_exists]

/-- Whether definitions stand apart can be read off their offsets. -/
theorem definitionsApart_of_nodup {file : ParsedFile}
    (offsets : ∀ category, ((definitions file category).map fun site => site.node.start).Nodup) :
    DefinitionsApart file := by
  intro category first second firstBelow secondBelow firstDefines secondDefines same
  exact List.inj_on_of_nodup_map (offsets category)
    (mem_definitions_iff.mpr ⟨firstBelow, firstDefines⟩)
    (mem_definitions_iff.mpr ⟨secondBelow, secondDefines⟩) same

section Owned

variable {file : ParsedFile} {category : Category} {captures : List Capture} {offset : Nat}

theorem mem_ownedAt_iff {pair : Site × Capture} :
    pair ∈ ownedAt category captures offset ↔
      pair.2 ∈ captures ∧ isAuxiliary pair.2.label = false ∧
        IsOwner category.definitionKinds pair.1 pair.2.site ∧ pair.1.node.start = offset := by
  rw [ownedAt, List.mem_filter, mem_owned_iff, decide_eq_true_eq, and_assoc, and_assoc]

variable (apart : DefinitionsApart file)
  (inFile : ∀ capture ∈ captures, AtOrBelow file.rootSite capture.site)

include apart inFile

/-- Two captures that are owned at one offset have one owner. -/
theorem owner_eq_of_mem_ownedAt {first second : Site × Capture}
    (firstMember : first ∈ ownedAt category captures offset)
    (secondMember : second ∈ ownedAt category captures offset) : first.1 = second.1 := by
  obtain ⟨firstCaptured, _, firstOwns, firstHere⟩ := mem_ownedAt_iff.mp firstMember
  obtain ⟨secondCaptured, _, secondOwns, secondHere⟩ := mem_ownedAt_iff.mp secondMember
  have firstBelow := ((inFile _ firstCaptured).of_mem_withAncestors firstOwns.above).1
  have secondBelow := ((inFile _ secondCaptured).of_mem_withAncestors secondOwns.above).1
  exact apart category _ _ firstBelow secondBelow firstOwns.defines secondOwns.defines
    (firstHere.trans secondHere.symm)

/-- Every capture that is owned at an offset tells which definition stands there. -/
theorem definitionAt?_of_mem_ownedAt {pair : Site × Capture}
    (member : pair ∈ ownedAt category captures offset) :
    definitionAt? category captures offset = some pair.1 := by
  cases owned : ownedAt category captures offset with
  | nil =>
    rw [owned] at member
    cases member
  | cons first rest =>
    have head : first ∈ ownedAt category captures offset := owned ▸ List.mem_cons_self
    rw [definitionAt?, owned, List.head?_cons, Option.map_some,
      owner_eq_of_mem_ownedAt apart inFile head member]

end Owned

end CodeAtlas.Extraction
