/-
This file says what holds of the record of every source with a well-formed tree, whatever is
asked for. Its classes, its functions and the methods of each class stand in the order of
their offsets, no function stands in it twice, lines begin at one and do not run backwards,
methods lie within their class, names and modules are not empty, lists of names have no
repeats, calls and documentation keep to their limits, and nothing private is in it unless
private things are wanted.
-/

import CodeAtlas.Proofs.Extraction.Parts
import CodeAtlas.Proofs.Query.Locality
import CodeAtlas.Proofs.Tree.Extent

namespace CodeAtlas

/-! ### Sound records -/

/-- What holds of every import of a record. -/
structure Import.Sound (statement : Import) : Prop where
  module_named : statement.moduleName ≠ ""
  names_once : statement.names.Nodup
  line_pos : 1 ≤ statement.line

/-- What holds of every function and method of a record. -/
structure Function.Sound (function : Function) : Prop where
  named : function.name ≠ ""
  line_pos : 1 ≤ function.startLine
  lines : function.startLine ≤ function.endLine
  calls_length : function.calls.length ≤ 20
  calls_once : function.calls.Nodup
  calls_allowed : ∀ name ∈ function.calls, Callees.isDenied name = false
  doc_length : function.doc.length ≤ 203
  marked : function.isPrivate = Names.isPrivate function.name

/-- What holds of every class of a record. -/
structure Class.Sound (owner : Class) : Prop where
  named : owner.name ≠ ""
  line_pos : 1 ≤ owner.startLine
  lines : owner.startLine ≤ owner.endLine
  bases_once : owner.bases.Nodup
  doc_length : owner.doc.length ≤ 203
  marked : owner.isPrivate = Names.isPrivate owner.name
  methods : ∀ method ∈ owner.methods, method.Sound ∧ method.isMethod = true ∧
    owner.startLine ≤ method.startLine ∧ method.endLine ≤ owner.endLine
  methods_ascend : owner.methods.Pairwise fun first second => first.offset < second.offset

/-- What holds of every record. -/
structure FileRecord.Sound (file : FileRecord) : Prop where
  imports : ∀ statement ∈ file.imports, statement.Sound
  imports_ascend : file.imports.Pairwise fun first second => first.line ≤ second.line
  classes : ∀ owner ∈ file.classes, owner.Sound
  classes_ascend : file.classes.Pairwise fun first second => first.offset < second.offset
  functions : ∀ function ∈ file.functions, function.Sound
  functions_ascend : file.functions.Pairwise fun first second => first.offset < second.offset
  functions_once : (file.allFunctions.map Function.offset).Nodup

/-- What holds of a record without private things: no name in it is private. -/
structure FileRecord.Open (file : FileRecord) : Prop where
  classes : ∀ owner ∈ file.classes, Names.isPrivate owner.name = false
  methods : ∀ owner ∈ file.classes, ∀ method ∈ owner.methods,
    Names.isPrivate method.name = false
  functions : ∀ function ∈ file.functions, Names.isPrivate function.name = false

namespace Extraction

open Text Ownership

/-! ### Texts -/

theorem length_truncate_le (text : Chars) : (Docs.truncate text).length ≤ 203 := by
  unfold Docs.truncate
  split
  · next short => exact Nat.le_trans short (by decide)
  · rw [List.length_append, List.length_take]
    exact Nat.add_le_add_right (Nat.min_le_left _ _) 3

theorem length_docOf_le (options : AnalysisOptions) (style : DocStyle) (source : Chars)
    (draft : Draft) : (docOf options style source draft).length ≤ 203 := by
  unfold docOf
  split
  · rw [String.length_ofList]
    cases style <;> exact length_truncate_le _
  · exact Nat.zero_le _

theorem ofList_ne_empty {text : Chars} (named : text ≠ []) : String.ofList text ≠ "" := by
  intro empty
  have same := congrArg String.toList empty
  rw [String.toList_ofList] at same
  exact named same

theorem nodup_inSourceOrder (items : List Placed) : (inSourceOrder items).Nodup :=
  nodup_distinct _

theorem mem_inSourceOrder {items : List Placed} {text : String} :
    text ∈ inSourceOrder items ↔ ∃ item ∈ items, String.ofList item.text = text := by
  unfold inSourceOrder
  simp only [mem_distinct, List.mem_map, List.mem_mergeSort]

/-! ### Calls -/

theorem kept_sublist (calls : List Callees.Call) : ∃ allowed : List String,
    (Callees.kept calls).Sublist (distinct allowed) ∧
      ∀ name ∈ allowed, Callees.isDenied name = false := by
  refine ⟨_, List.take_sublist _ _, fun name member => ?_⟩
  simpa using (List.mem_filter.mp member).2

/-- A list of calls keeps to its limit, and has neither repeats nor denied names. -/
theorem kept_sound (calls : List Callees.Call) :
    (Callees.kept calls).length ≤ 20 ∧ (Callees.kept calls).Nodup ∧
      ∀ name ∈ Callees.kept calls, Callees.isDenied name = false := by
  obtain ⟨allowed, sublist, open_⟩ := kept_sublist calls
  refine ⟨?_, (nodup_distinct allowed).sublist sublist, fun name member => ?_⟩
  · exact List.length_take_le _ _
  · exact open_ name (mem_distinct.mp (sublist.subset member))

/-! ### Drafts -/

variable {file : ParsedFile} {options : AnalysisOptions}

/-- The catalog's searches stay below the site at which they are begun. -/
theorem atOrBelow_of_mem_capturesOf {category : Category} {run : Site → List Match}
    (usable : Catalog.search file category = .ok run) {site : Site} {capture : Capture}
    (member : capture ∈ capturesOf run site) : Site.AtOrBelow site capture.site := by
  unfold Catalog.search at usable
  split at usable
  · cases usable
    obtain ⟨found, foundMember, member⟩ := List.mem_flatMap.mp member
    exact Query.atOrBelow_of_mem_matches foundMember member
  · cases usable

/-- What the catalog's searches capture in a part of a file they capture in the file. -/
theorem mem_capturesOf_of_atOrBelow {category : Category} {run : Site → List Match}
    (usable : Catalog.search file category = .ok run) {scope narrower : Site}
    (inScope : Site.AtOrBelow scope narrower) {capture : Capture}
    (member : capture ∈ capturesOf run narrower) : capture ∈ capturesOf run scope := by
  unfold Catalog.search at usable
  split at usable
  · cases usable
    obtain ⟨found, foundMember, member⟩ := List.mem_flatMap.mp member
    exact List.mem_flatMap.mpr ⟨found, Query.mem_matches_of_atOrBelow inScope foundMember, member⟩
  · cases usable

/-- A draft stands at a site of the file. -/
theorem site_mem_file {category : Category} {run : Site → List Match}
    (usable : Catalog.search file category = .ok run) {draft : Draft}
    (member : draft ∈ draftsBy run file category) :
    Site.AtOrBelow file.rootSite draft.site := by
  obtain ⟨capture, captured, isOwner⟩ := exists_isOwner_of_mem_gather category _ _ member
  exact ((atOrBelow_of_mem_capturesOf usable captured).of_mem_withAncestors isOwner.above).1

/-- The site in which the calls of a draft are searched for is one of the file. -/
theorem scope_mem_file {category : Category} {run : Site → List Match}
    (usable : Catalog.search file category = .ok run) {draft : Draft}
    (member : draft ∈ draftsBy run file category) :
    Site.AtOrBelow file.rootSite (draft.body.getD draft.site) := by
  cases body : draft.body with
  | none => exact site_mem_file usable member
  | some site =>
    rw [(exists_addAll_of_mem_gather category _ _ member).2] at body
    obtain ⟨capture, isOwned, gives⟩ := List.exists_of_findSome?_eq_some body
    obtain ⟨⟨owner, _⟩, pairMember, rfl⟩ := List.mem_map.mp isOwned
    obtain ⟨_, rfl⟩ := Option.ite_some_none_eq_some.mp gives
    have captured := (mem_owned_iff.mp (List.mem_filter.mp pairMember).1).1
    exact atOrBelow_of_mem_capturesOf usable captured

theorem name_ne_nil {category : Category} {source : Chars} {captures : List Capture}
    {draft : Draft} (member : draft ∈ gather category source captures) {name : Chars}
    (named : draft.name = some name) : name ≠ [] := by
  rw [(exists_addAll_of_mem_gather category source captures member).2] at named
  obtain ⟨_, _, gives⟩ := List.exists_of_findSome?_eq_some named
  exact ne_nil_of_namedBy? gives

theorem module_ne_nil {category : Category} {source : Chars} {captures : List Capture}
    {draft : Draft} (member : draft ∈ gather category source captures) {item : Placed}
    (isModule : item ∈ draft.modules) : item.text ≠ [] := by
  rw [(exists_addAll_of_mem_gather category source captures member).2] at isModule
  obtain ⟨_, _, gives⟩ := List.mem_flatMap.mp isModule
  exact text_ne_nil_of_mem_modulesBy gives

/-! ### Parts of a record -/

theorem sound_import {run : Site → List Match} {statement : Import}
    (member : statement ∈ (draftsBy run file .imports).flatMap (importsOf file.source)) :
    statement.Sound := by
  obtain ⟨draft, draftMember, isImport⟩ := List.mem_flatMap.mp member
  obtain ⟨moduleName, isModule, rfl⟩ := List.mem_map.mp isImport
  obtain ⟨item, itemMember, rfl⟩ := mem_inSourceOrder.mp isModule
  exact {
    module_named := ofList_ne_empty (module_ne_nil draftMember itemMember)
    names_once := nodup_inSourceOrder _
    line_pos := Nat.le_add_left 1 _ }

/-- Imports stand in the order of their definitions, so their lines do not decrease. -/
theorem imports_ascend (run : Site → List Match) :
    ((draftsBy run file .imports).flatMap (importsOf file.source)).Pairwise fun first second =>
      first.line ≤ second.line := by
  have line {draft : Draft} {statement : Import}
      (member : statement ∈ importsOf file.source draft) :
      statement.line = rowAt file.source draft.offset + 1 := by
    obtain ⟨_, _, rfl⟩ := List.mem_map.mp member
    rfl
  rw [List.pairwise_flatMap]
  constructor
  · intro draft _
    refine List.pairwise_of_forall_mem_list fun first firstMember second secondMember => ?_
    exact Nat.le_of_eq ((line firstMember).trans (line secondMember).symm)
  · refine List.Pairwise.imp ?_ (ascending_gather .imports file.source _)
    intro first second before one oneMember two twoMember
    rw [line oneMember, line twoMember]
    exact Nat.succ_le_succ (rowAt_mono file.source (Nat.le_of_lt before))

theorem exists_calls_of_functionOf? {style : DocStyle} {source : Chars}
    {search : Option (Site → List Match)} {draft : Draft} {function : Function}
    (found : functionOf? options style source search draft = some function) :
    ∃ calls, function.calls = Callees.kept calls := by
  obtain ⟨_, _, rfl⟩ := Option.map_eq_some_iff.mp found
  cases search with
  | none => exact ⟨[], by simp [Callees.kept, distinct]⟩
  | some run => exact ⟨_, rfl⟩

/-- Every function that is found is sound, and so is the method that it may become. -/
theorem sound_function (wellFormed : file.WellFormed) {function : Function}
    (member : function ∈ (functions (Catalog.search file) options file).2) :
    function.Sound ∧ (asMethod function).Sound := by
  obtain ⟨run, usable, draft, draftMember, found⟩ := exists_draft_of_mem_functions member
  obtain ⟨calls, same⟩ := exists_calls_of_functionOf? found
  have kept := kept_sound calls
  rw [← same] at kept
  have sound : function.Sound := by
    obtain ⟨name, named, rfl⟩ := Option.map_eq_some_iff.mp found
    exact {
      named := ofList_ne_empty (name_ne_nil draftMember named)
      line_pos := Nat.le_add_left 1 _
      lines := Nat.succ_le_succ
        (Site.startRow_le_stopRow wellFormed (site_mem_file usable draftMember))
      calls_length := kept.1
      calls_once := kept.2.1
      calls_allowed := kept.2.2
      doc_length := length_docOf_le options file.language.docStyle file.source draft
      marked := rfl }
  exact ⟨sound, { sound with }⟩

/-- A class that is found is sound with any methods that are, lie within it and stand in
order. -/
theorem sound_class (wellFormed : file.WellFormed) {owner : Class}
    (member : owner ∈ (classes (Catalog.search file) options file).2) (methods : List Function)
    (sound : ∀ method ∈ methods, method.Sound ∧ method.isMethod = true ∧
      owner.startLine ≤ method.startLine ∧ method.endLine ≤ owner.endLine)
    (ascend : methods.Pairwise fun first second => first.offset < second.offset) :
    Class.Sound { owner with methods } := by
  obtain ⟨run, usable, draft, draftMember, found⟩ := exists_draft_of_mem_classes member
  obtain ⟨name, named, rfl⟩ := Option.map_eq_some_iff.mp found
  exact {
    named := ofList_ne_empty (name_ne_nil draftMember named)
    line_pos := Nat.le_add_left 1 _
    lines := Nat.succ_le_succ
      (Site.startRow_le_stopRow wellFormed (site_mem_file usable draftMember))
    bases_once := nodup_inSourceOrder _
    doc_length := length_docOf_le options file.language.docStyle file.source draft
    marked := rfl
    methods := sound
    methods_ascend := ascend }

/-! ### Giving functions to classes -/

/-- A function lies within the lines of the class that takes it. -/
theorem lines_of_owner? {classes : List Class} {function : Function} {index : Nat}
    {owner : Class} (home : owner? classes function = some index)
    (found : classes[index]? = some owner) :
    owner.startLine ≤ function.startLine ∧ function.endLine ≤ owner.endLine := by
  obtain ⟨nearest, there, contains, _⟩ := isNearest_of_owner? home
  cases there.symm.trans found
  simpa [Class.containsLines] using contains

/-- A class is sound with the functions that it takes. -/
theorem sound_withMethods (wellFormed : file.WellFormed) {owner : Class}
    (member : owner ∈ withMethods (classes (Catalog.search file) options file).2
      (functions (Catalog.search file) options file).2) : owner.Sound := by
  obtain ⟨index, bare, found, rfl⟩ := exists_of_mem_withMethods member
  refine sound_class wellFormed (List.mem_of_getElem? found) _ ?_ ?_
  · intro method isMethod
    obtain ⟨function, isOwned, rfl⟩ := List.mem_map.mp isMethod
    obtain ⟨functionMember, home⟩ := mem_ownedBy_iff.mp isOwned
    exact ⟨(sound_function wellFormed functionMember).2, rfl, lines_of_owner? home found⟩
  · exact List.pairwise_map.mpr ((offsets_functions _ options file).filter _)

/-- Classes that take functions stand in the order in which they stood. -/
theorem ascend_withMethods {classes : List Class}
    (ascend : classes.Pairwise fun first second => first.offset < second.offset)
    (functions : List Function) :
    (withMethods classes functions).Pairwise fun first second =>
      first.offset < second.offset := by
  have offsets : ((withMethods classes functions).map Class.offset).Pairwise (· < ·) := by
    rw [map_offset_withMethods]
    exact List.pairwise_map.mpr ascend
  exact List.pairwise_map.mp offsets

theorem sound_imports {statement : Import}
    (member : statement ∈ (imports (Catalog.search file) file).2) : statement.Sound := by
  unfold imports at member
  cases usable : Catalog.search file .imports with
  | ok run =>
    rw [draftsOf_ok usable] at member
    exact sound_import member
  | error message =>
    rw [draftsOf_error usable] at member
    cases member

theorem ascend_imports :
    (imports (Catalog.search file) file).2.Pairwise fun first second =>
      first.line ≤ second.line := by
  unfold imports
  cases usable : Catalog.search file .imports with
  | ok run =>
    rw [draftsOf_ok usable]
    exact imports_ascend run
  | error message =>
    rw [draftsOf_error usable]
    exact .nil

/-- The record with everything that is private is sound. -/
theorem sound_fullRecord (options : AnalysisOptions) (path : String)
    (wellFormed : file.WellFormed) :
    (fullRecord (Catalog.search file) options file path).Sound where
  imports _ := sound_imports
  imports_ascend := ascend_imports
  classes _ := sound_withMethods wellFormed
  classes_ascend := ascend_withMethods (offsets_classes _ options file) _
  functions _ member := (sound_function wellFormed (mem_unowned_iff.mp member).1).1
  functions_ascend := (offsets_functions _ options file).filter _
  functions_once := nodup_offsets_allAfter (offsets_functions _ options file)

/-! ### Leaving out what is private -/

/-- A class without its private methods. -/
def publicMethods (owner : Class) : Class :=
  { owner with methods := owner.methods.filter fun method => !method.isPrivate }

theorem sound_publicMethods {owner : Class} (sound : owner.Sound) :
    (publicMethods owner).Sound :=
  { sound with
    methods := fun method member => sound.methods method (List.mem_filter.mp member).1
    methods_ascend := sound.methods_ascend.filter _ }

theorem exists_of_mem_dropPrivate_classes {record : FileRecord} {owner : Class}
    (member : owner ∈ (dropPrivate record).classes) :
    ∃ whole ∈ record.classes, whole.isPrivate = false ∧ owner = publicMethods whole := by
  obtain ⟨whole, kept, rfl⟩ := List.mem_map.mp member
  obtain ⟨wholeMember, visible⟩ := List.mem_filter.mp kept
  exact ⟨whole, wholeMember, by simpa using visible, rfl⟩

/-- What is left of the functions and methods stands in the order in which it stood. -/
theorem allFunctions_dropPrivate_sublist (record : FileRecord) :
    (dropPrivate record).allFunctions.Sublist record.allFunctions := by
  have methods (owners : List Class) :
      (((owners.filter fun owner => !owner.isPrivate).map publicMethods).flatMap
        Class.methods).Sublist (owners.flatMap Class.methods) := by
    induction owners with
    | nil => exact .slnil
    | cons owner owners inductionHypothesis =>
      rw [List.filter_cons, List.flatMap_cons]
      split
      · rw [List.map_cons, List.flatMap_cons]
        exact List.filter_sublist.append inductionHypothesis
      · exact inductionHypothesis.trans (List.sublist_append_right _ _)
  exact List.filter_sublist.append (methods record.classes)

/-- Leaving out what is private keeps a record sound. -/
theorem sound_dropPrivate {record : FileRecord} (sound : record.Sound) :
    (dropPrivate record).Sound where
  imports := sound.imports
  imports_ascend := sound.imports_ascend
  classes owner member := by
    obtain ⟨whole, wholeMember, _, rfl⟩ := exists_of_mem_dropPrivate_classes member
    exact sound_publicMethods (sound.classes whole wholeMember)
  classes_ascend := List.pairwise_map.mpr (sound.classes_ascend.filter _)
  functions function member := sound.functions function (List.mem_filter.mp member).1
  functions_ascend := sound.functions_ascend.filter _
  functions_once :=
    sound.functions_once.sublist ((allFunctions_dropPrivate_sublist record).map _)

/-- A sound record has no private names once what is private has been left out. -/
theorem open_dropPrivate {record : FileRecord} (sound : record.Sound) :
    (dropPrivate record).Open where
  classes owner member := by
    obtain ⟨whole, wholeMember, visible, rfl⟩ := exists_of_mem_dropPrivate_classes member
    exact (sound.classes whole wholeMember).marked.symm.trans visible
  methods owner member method isMethod := by
    obtain ⟨whole, wholeMember, _, rfl⟩ := exists_of_mem_dropPrivate_classes member
    obtain ⟨methodMember, visible⟩ := List.mem_filter.mp isMethod
    have methodSound := ((sound.classes whole wholeMember).methods method methodMember).1
    exact methodSound.marked.symm.trans (by simpa using visible)
  functions function member := by
    obtain ⟨functionMember, visible⟩ := List.mem_filter.mp member
    exact (sound.functions function functionMember).marked.symm.trans (by simpa using visible)

/-! ### Every record -/

/-- The record of every file with a well-formed tree is sound, whatever is asked for, and has
no private names unless private things are wanted. -/
theorem record_sound (options : AnalysisOptions) (path : String) (file : ParsedFile)
    (wellFormed : file.WellFormed) :
    (record options path file).Sound ∧
      (options.includePrivate = false → (record options path file).Open) := by
  unfold record
  cases granularity : options.granularity with
  | file =>
    rw [recordBy_file _ options file path granularity]
    refine ⟨?_, fun _ => ?_⟩
    · exact {
        imports := fun _ => sound_imports
        imports_ascend := ascend_imports
        classes := fun _ member => by cases member
        classes_ascend := .nil
        functions := fun _ member => by cases member
        functions_ascend := .nil
        functions_once := .nil }
    · exact {
        classes := fun _ member => by cases member
        methods := fun _ member => by cases member
        functions := fun _ member => by cases member }
  | detailed =>
    have sound := sound_fullRecord options path wellFormed
    rw [recordBy_detailed _ options file path granularity]
    by_cases wanted : options.includePrivate = true
    · rw [if_pos wanted]
      exact ⟨sound, fun unwanted => by rw [wanted] at unwanted; cases unwanted⟩
    · rw [if_neg wanted]
      exact ⟨sound_dropPrivate sound, fun _ => open_dropPrivate sound⟩

theorem record_sound_shapes :
    shapes.WellFormed ∧ (record {} "shapes.py" shapes).Sound ∧
      (record {} "shapes.py" shapes).Open := by
  obtain ⟨sound, isOpen⟩ := record_sound {} "shapes.py" shapes wellFormed_shapes
  exact ⟨wellFormed_shapes, sound, isOpen rfl⟩

end Extraction

end CodeAtlas
