/-
This file shows that no definition is lost, doubled or made up on the way from a tree to its
record. The functions of a record, free or methods, stand at exactly those offsets at which a
definition owns a capture that names it, and so do its classes.
-/

import CodeAtlas.Proofs.Extraction.Parts
import CodeAtlas.Proofs.Text.Blank
import CodeAtlas.Proofs.Tree.Extent

namespace CodeAtlas.Extraction

open Text Ownership

/-! ### Definitions that own a name -/

/-- Whether a text names a function: it is not blank. -/
def NamesFunction (text : Chars) : Prop :=
  ∃ character ∈ text, isBlank character = false

/-- Whether a text names a class: something of it is left of it as a name. -/
def NamesClass (text : Chars) : Prop :=
  Names.className (trim text) ≠ []

/-- Whether a definition of some kinds owns one of the names that a query captures. A site
that owns a capture is not the root, is of one of the kinds, and is the nearest such site at
or above the capture. -/
def OwnsName (query : Query) (kinds : List String) (names : Chars → Prop) (file : ParsedFile)
    (owner : Site) : Prop :=
  ∃ capture ∈ capturesOf (query.matches file.source) file.rootSite,
    capture.label = "name" ∧ Site.IsOwner kinds owner capture.site ∧
      names (capture.site.node.text file.source)

theorem firstNonEmpty_none_isSome_iff {text : Chars} :
    (firstNonEmpty none text).isSome = true ↔ text ≠ [] := by
  cases text <;> simp [firstNonEmpty]

theorem namedBy?_functions_isSome_iff {source : Chars} {capture : Capture} :
    (namedBy? .functions source capture).isSome = true ↔
      capture.label = "name" ∧ NamesFunction (capture.site.node.text source) := by
  have named : trim (capture.site.node.text source) ≠ [] ↔
      NamesFunction (capture.site.node.text source) := by
    rw [NamesFunction, ne_eq, trim_eq_nil_iff]
    simp
  by_cases label : capture.label = "name"
  · rw [namedBy?, if_pos label, firstNonEmpty_none_isSome_iff, named]
    exact ⟨fun names => ⟨label, names⟩, And.right⟩
  · rw [namedBy?_of_ne label]
    exact ⟨fun absent => (by cases absent), fun names => absurd names.1 label⟩

theorem namedBy?_classes_isSome_iff {source : Chars} {capture : Capture} :
    (namedBy? .classes source capture).isSome = true ↔
      capture.label = "name" ∧ NamesClass (capture.site.node.text source) := by
  by_cases label : capture.label = "name"
  · rw [namedBy?, if_pos label, firstNonEmpty_none_isSome_iff]
    exact ⟨fun names => ⟨label, names⟩, And.right⟩
  · rw [namedBy?_of_ne label]
    exact ⟨fun absent => (by cases absent), fun names => absurd names.1 label⟩

/-! ### From definitions to records -/

/-- What is made of the drafts that have names stands at the offsets of those drafts. -/
theorem mem_offsets_filterMap_iff {Part : Type} (make : Draft → Option Part)
    {offsetOf : Part → Nat} (made : ∀ draft, (make draft).isSome = draft.name.isSome)
    (placed : ∀ {draft part}, make draft = some part → offsetOf part = draft.offset)
    (drafts : List Draft) (offset : Nat) :
    offset ∈ (drafts.filterMap make).map offsetOf ↔
      ∃ draft ∈ drafts, draft.offset = offset ∧ draft.name.isSome := by
  rw [List.mem_map]
  constructor
  · rintro ⟨part, member, rfl⟩
    obtain ⟨draft, draftMember, found⟩ := List.mem_filterMap.mp member
    refine ⟨draft, draftMember, (placed found).symm, ?_⟩
    rw [← made, found]
    rfl
  · rintro ⟨draft, draftMember, rfl, named⟩
    rw [← made] at named
    obtain ⟨part, found⟩ := Option.isSome_iff_exists.mp named
    exact ⟨part, List.mem_filterMap.mpr ⟨draft, draftMember, found⟩, placed found⟩

variable {options : AnalysisOptions} {file : ParsedFile} {query : Query}

theorem search_of_usable {category : Category}
    (usable : Catalog.usable (file.grammars file.language) file.language category = .ok query) :
    Catalog.search file category = .ok (query.matches file.source) := by
  rw [Catalog.search, usable]

/-- The drafts with names stand at the definitions that own one, if the drafts of the category
are named by the captures whose texts are names. -/
theorem exists_named_draft_iff {category : Category} {names : Chars → Prop}
    (named : ∀ capture, (namedBy? category file.source capture).isSome = true ↔
      capture.label = "name" ∧ names (capture.site.node.text file.source)) (offset : Nat) :
    (∃ draft ∈ draftsBy (query.matches file.source) file category,
      draft.offset = offset ∧ draft.name.isSome) ↔
      ∃ owner, OwnsName query category.definitionKinds names file owner ∧
        owner.node.start = offset := by
  rw [draftsBy, exists_named_iff]
  constructor
  · rintro ⟨owner, here, capture, captured, isOwner, gives⟩
    obtain ⟨label, isName⟩ := (named capture).mp gives
    exact ⟨owner, ⟨capture, captured, label, isOwner, isName⟩, here⟩
  · rintro ⟨owner, ⟨capture, captured, label, isOwner, isName⟩, here⟩
    exact ⟨owner, here, capture, captured, isOwner, (named capture).mpr ⟨label, isName⟩⟩

/-- The functions that are found stand at the definitions that own the name of one. -/
theorem mem_offsets_functions_iff
    (usable : Catalog.usable (file.grammars file.language) file.language .functions = .ok query)
    (offset : Nat) :
    offset ∈ (functions (Catalog.search file) options file).2.map Function.offset ↔
      ∃ owner, OwnsName query Category.functions.definitionKinds NamesFunction file owner ∧
        owner.node.start = offset := by
  rw [functions_ok (search_of_usable usable),
    mem_offsets_filterMap_iff (functionOf? options file.language.docStyle file.source _)
      (fun _ => Option.isSome_map) offset_of_functionOf?]
  exact exists_named_draft_iff (fun _ => namedBy?_functions_isSome_iff) offset

/-- The classes that are found stand at the definitions that own the name of one. -/
theorem mem_offsets_classes_iff
    (usable : Catalog.usable (file.grammars file.language) file.language .classes = .ok query)
    (offset : Nat) :
    offset ∈ (classes (Catalog.search file) options file).2.map Class.offset ↔
      ∃ owner, OwnsName query Category.classes.definitionKinds NamesClass file owner ∧
        owner.node.start = offset := by
  rw [classes_ok (search_of_usable usable),
    mem_offsets_filterMap_iff (classOf? options file.language.docStyle file.source)
      (fun _ => Option.isSome_map) offset_of_classOf?]
  exact exists_named_draft_iff (fun _ => namedBy?_classes_isSome_iff) offset

/-! ### The definitions of a record -/

/-- The functions of a record, methods among them, stand once each at the definitions that
own the name of a function, and its classes once each at those that own the name of a
class. -/
theorem offsets_record (options : AnalysisOptions) (path : String) (file : ParsedFile)
    {functionQuery classQuery : Query}
    (functionsUsable :
      Catalog.usable (file.grammars file.language) file.language .functions = .ok functionQuery)
    (classesUsable :
      Catalog.usable (file.grammars file.language) file.language .classes = .ok classQuery)
    (detailed : options.granularity = .detailed) (wanted : options.includePrivate = true) :
    (((record options path file).allFunctions.map Function.offset).Nodup ∧
      ∀ offset, offset ∈ (record options path file).allFunctions.map Function.offset ↔
        ∃ owner, OwnsName functionQuery Category.functions.definitionKinds NamesFunction file
          owner ∧ owner.node.start = offset) ∧
      ((record options path file).classes.map Class.offset).Nodup ∧
      ∀ offset, offset ∈ (record options path file).classes.map Class.offset ↔
        ∃ owner, OwnsName classQuery Category.classes.definitionKinds NamesClass file
          owner ∧ owner.node.start = offset := by
  rw [record_eq_fullRecord path detailed wanted, allFunctions_fullRecord]
  show _ ∧ ((withMethods _ _).map Class.offset).Nodup ∧
    ∀ offset, offset ∈ (withMethods _ _).map Class.offset ↔ _
  rw [map_offset_withMethods]
  refine ⟨⟨?_, fun offset => ?_⟩, ?_, fun offset => ?_⟩
  · exact nodup_offsets_allAfter (offsets_functions _ options file)
  · rw [mem_offsets_allAfter_iff]
    exact mem_offsets_functions_iff functionsUsable offset
  · have ascending := offsets_classes (Catalog.search file) options file
    exact List.pairwise_map.mpr (ascending.imp fun before => Nat.ne_of_lt before)
  · exact mem_offsets_classes_iff classesUsable offset

theorem offsets_record_shapes :
    Catalog.usable (shapes.grammars shapes.language) shapes.language .functions =
        .ok Functions.python ∧
      Catalog.usable (shapes.grammars shapes.language) shapes.language .classes =
        .ok Classes.python ∧
      ∀ offset,
        offset ∈ (record { includePrivate := true } "shapes.py" shapes).allFunctions.map
          Function.offset ↔
        ∃ owner, OwnsName Functions.python Category.functions.definitionKinds
          NamesFunction shapes owner ∧ owner.node.start = offset :=
  ⟨rfl, rfl, (offsets_record { includePrivate := true } "shapes.py" shapes
    (show Catalog.usable {} .python .functions = .ok Functions.python from rfl)
    (show Catalog.usable {} .python .classes = .ok Classes.python from rfl)
    rfl rfl).1.2⟩

end CodeAtlas.Extraction
