/-
This file describes the record of a file by its parts. Its classes and functions come from the
drafts of their categories, in the order of their offsets; the record that is read in detail
is made of them by giving every function to its nearest class and, if they are not wanted, by
leaving out what is private. Giving functions away neither loses nor doubles one.
-/

import CodeAtlas.Proofs.Extraction.Drafts
import CodeAtlas.Proofs.Extraction.Ownership
import CodeAtlas.Proofs.Text.Bytes
import Mathlib.Data.List.Nodup

namespace CodeAtlas

/-! ### Functions that are given away -/

/-- The class without its methods. -/
def Class.bare (owner : Class) : Class :=
  { owner with methods := [] }

namespace Ownership

theorem exists_of_mem_withMethods {classes : List Class} {functions : List Function}
    {owner : Class} (member : owner ∈ withMethods classes functions) :
    ∃ (index : Nat) (bare : Class), classes[index]? = some bare ∧
      owner = { bare with methods := (ownedBy classes functions index).map asMethod } := by
  obtain ⟨index, inside, rfl⟩ := List.mem_mapIdx.mp member
  exact ⟨index, classes[index], List.getElem?_eq_getElem inside, rfl⟩

theorem mem_withMethods {classes : List Class} (functions : List Function) {index : Nat}
    {bare : Class} (found : classes[index]? = some bare) :
    { bare with methods := (ownedBy classes functions index).map asMethod } ∈
      withMethods classes functions := by
  obtain ⟨inside, rfl⟩ := List.getElem?_eq_some_iff.mp found
  exact List.mem_mapIdx.mpr ⟨index, inside, rfl⟩

theorem map_offset_withMethods (classes : List Class) (functions : List Function) :
    (withMethods classes functions).map Class.offset = classes.map Class.offset := by
  refine List.ext_getElem? fun index => ?_
  rw [List.getElem?_map, withMethods, List.getElem?_mapIdx, Option.map_map, List.getElem?_map]
  rfl

theorem mem_ownedBy_iff {classes : List Class} {functions : List Function} {index : Nat}
    {function : Function} :
    function ∈ ownedBy classes functions index ↔
      function ∈ functions ∧ owner? classes function = some index := by
  rw [ownedBy, List.mem_filter, decide_eq_true_eq]

theorem mem_unowned_iff {classes : List Class} {functions : List Function}
    {function : Function} :
    function ∈ unowned classes functions ↔
      function ∈ functions ∧ owner? classes function = none := by
  rw [unowned, List.mem_filter, Option.isNone_iff_eq_none]

/-- The functions that are free and the methods of all classes. -/
def allAfter (classes : List Class) (functions : List Function) : List Function :=
  unowned classes functions ++ (withMethods classes functions).flatMap Class.methods

/-- Every function stays a function or becomes a method, and nothing else does. -/
theorem mem_allAfter_iff {classes : List Class} {functions : List Function}
    {function : Function} :
    function ∈ allAfter classes functions ↔
      (function ∈ functions ∧ owner? classes function = none) ∨
        ∃ index moved, moved ∈ functions ∧ owner? classes moved = some index ∧
          function = asMethod moved := by
  rw [allAfter, List.mem_append, mem_unowned_iff, List.mem_flatMap]
  refine or_congr_right ⟨?_, ?_⟩
  · rintro ⟨owner, member, isMethod⟩
    obtain ⟨index, bare, _, rfl⟩ := exists_of_mem_withMethods member
    obtain ⟨moved, owned, rfl⟩ := List.mem_map.mp isMethod
    obtain ⟨movedMember, home⟩ := mem_ownedBy_iff.mp owned
    exact ⟨index, moved, movedMember, home, rfl⟩
  · rintro ⟨index, moved, movedMember, home, rfl⟩
    have found := List.getElem?_eq_getElem (owner?_lt_length home)
    exact ⟨_, mem_withMethods functions found,
      List.mem_map_of_mem (mem_ownedBy_iff.mpr ⟨movedMember, home⟩)⟩

/-- No offset appears or disappears when functions are given away. -/
theorem mem_offsets_allAfter_iff {classes : List Class} {functions : List Function}
    {offset : Nat} :
    offset ∈ (allAfter classes functions).map Function.offset ↔
      offset ∈ functions.map Function.offset := by
  simp only [List.mem_map, mem_allAfter_iff]
  constructor
  · rintro ⟨_, ⟨member, _⟩ | ⟨_, moved, member, _, rfl⟩, rfl⟩
    · exact ⟨_, member, rfl⟩
    · exact ⟨moved, member, rfl⟩
  · rintro ⟨function, member, rfl⟩
    cases home : owner? classes function with
    | none => exact ⟨function, .inl ⟨member, home⟩, rfl⟩
    | some index => exact ⟨asMethod function, .inr ⟨index, function, member, home, rfl⟩, rfl⟩

/-- Two functions at one offset are the same. -/
theorem eq_of_offset_eq {functions : List Function}
    (offsets : functions.Pairwise fun first second => first.offset < second.offset)
    {first second : Function} (firstMember : first ∈ functions)
    (secondMember : second ∈ functions) (same : first.offset = second.offset) :
    first = second := by
  have nodup : (functions.map Function.offset).Nodup :=
    List.pairwise_map.mpr (offsets.imp fun before => Nat.ne_of_lt before)
  exact List.inj_on_of_nodup_map nodup firstMember secondMember same

/-- No offset stands in two places after functions are given away. -/
theorem nodup_offsets_allAfter {classes : List Class} {functions : List Function}
    (offsets : functions.Pairwise fun first second => first.offset < second.offset) :
    ((allAfter classes functions).map Function.offset).Nodup := by
  have nodup : functions.Pairwise fun first second => first.offset ≠ second.offset :=
    offsets.imp fun before => Nat.ne_of_lt before
  have sameHome {first second : Function} (firstMember : first ∈ functions)
      (secondMember : second ∈ functions) (same : first.offset = second.offset) :
      owner? classes first = owner? classes second :=
    congrArg (owner? classes) (eq_of_offset_eq offsets firstMember secondMember same)
  rw [allAfter, List.map_append, List.map_flatMap, List.nodup_append]
  refine ⟨List.pairwise_map.mpr (nodup.filter _), List.nodup_flatMap.mpr ⟨?_, ?_⟩, ?_⟩
  · intro owner member
    obtain ⟨index, bare, _, rfl⟩ := exists_of_mem_withMethods member
    exact List.pairwise_map.mpr (List.pairwise_map.mpr (nodup.filter _))
  · rw [withMethods, List.pairwise_iff_getElem]
    intro first second firstInside secondInside before
    simp only [Function.onFun, List.getElem_mapIdx]
    intro offset inFirst inSecond
    simp only [List.map_map, List.mem_map, mem_ownedBy_iff] at inFirst inSecond
    obtain ⟨one, ⟨oneMember, oneHome⟩, rfl⟩ := inFirst
    obtain ⟨two, ⟨twoMember, twoHome⟩, same⟩ := inSecond
    have homes := (oneHome.symm.trans (sameHome oneMember twoMember same.symm)).trans twoHome
    exact absurd (Option.some.inj homes) (Nat.ne_of_lt before)
  · intro offset isFree other isMethod equal
    subst equal
    obtain ⟨one, oneMember, rfl⟩ := List.mem_map.mp isFree
    obtain ⟨member, free⟩ := mem_unowned_iff.mp oneMember
    obtain ⟨owner, ownerMember, isOffset⟩ := List.mem_flatMap.mp isMethod
    obtain ⟨index, bare, _, rfl⟩ := exists_of_mem_withMethods ownerMember
    obtain ⟨_, isMethod, same⟩ := List.mem_map.mp isOffset
    obtain ⟨two, owned, rfl⟩ := List.mem_map.mp isMethod
    obtain ⟨twoMember, home⟩ := mem_ownedBy_iff.mp owned
    have homes := (home.symm.trans (sameHome twoMember member same)).trans free
    cases homes

/-- What does not tell methods from free functions tells the functions that are given away to be
those that there were. -/
theorem perm_map_allAfter (classes : List Class) {functions : List Function}
    (offsets : functions.Pairwise fun first second => first.offset < second.offset)
    (view : Function → Function) (keepsOffset : ∀ function, (view function).offset = function.offset)
    (sameMoved : ∀ function, view (asMethod function) = view function) :
    ((allAfter classes functions).map view).Perm (functions.map view) := by
  have views (functions : List Function) : (functions.map view).map Function.offset =
      functions.map Function.offset := by
    rw [List.map_map]
    exact List.map_congr_left fun function _ => keepsOffset function
  have before : (functions.map view).Nodup := by
    refine List.Nodup.of_map Function.offset ?_
    rw [views]
    exact List.pairwise_map.mpr (offsets.imp fun before => Nat.ne_of_lt before)
  have after : ((allAfter classes functions).map view).Nodup := by
    refine List.Nodup.of_map Function.offset ?_
    rw [views]
    exact nodup_offsets_allAfter offsets
  refine (List.perm_ext_iff_of_nodup after before).mpr fun seen => ?_
  simp only [List.mem_map, mem_allAfter_iff]
  constructor
  · rintro ⟨_, ⟨member, _⟩ | ⟨_, moved, member, _, rfl⟩, rfl⟩
    · exact ⟨_, member, rfl⟩
    · exact ⟨moved, member, (sameMoved moved).symm⟩
  · rintro ⟨function, member, rfl⟩
    cases home : owner? classes function with
    | none => exact ⟨function, .inl ⟨member, home⟩, rfl⟩
    | some index =>
      exact ⟨asMethod function, .inr ⟨index, function, member, home, rfl⟩, sameMoved function⟩

end Ownership

/-! ### Classes and functions of a file -/

namespace Extraction

open Ownership

variable {search : Catalog.Search} {options : AnalysisOptions} {file : ParsedFile}

/-- The drafts of a category that can be searched for. -/
def draftsBy (run : Site → List Match) (file : ParsedFile) (category : Category) : List Draft :=
  gather category file.source (capturesOf run file.rootSite)

theorem draftsOf_ok {category : Category} {run : Site → List Match}
    (usable : search category = .ok run) :
    draftsOf search file category = .ok (draftsBy run file category) := by
  rw [draftsOf, usable]
  rfl

theorem draftsOf_error {category : Category} {message : String}
    (failed : search category = .error message) :
    draftsOf search file category = .error message := by
  rw [draftsOf, failed]

theorem offset_of_classOf? {style : DocStyle} {source : Text.Chars} {draft : Draft}
    {owner : Class} (found : classOf? options style source draft = some owner) :
    owner.offset = draft.offset := by
  obtain ⟨_, _, rfl⟩ := Option.map_eq_some_iff.mp found
  rfl

theorem offset_of_functionOf? {style : DocStyle} {source : Text.Chars}
    {calls : Option (Site → List Match)} {draft : Draft} {function : Function}
    (found : functionOf? options style source calls draft = some function) :
    function.offset = draft.offset := by
  obtain ⟨_, _, rfl⟩ := Option.map_eq_some_iff.mp found
  rfl

theorem startLine_of_functionOf? {style : DocStyle} {source : Text.Chars}
    {calls : Option (Site → List Match)} {draft : Draft} {function : Function}
    (found : functionOf? options style source calls draft = some function) :
    function.startLine = Text.rowAt source function.offset + 1 := by
  obtain ⟨_, _, rfl⟩ := Option.map_eq_some_iff.mp found
  rfl

theorem imports_ok {run : Site → List Match} (usable : search .imports = .ok run) :
    imports search file = ([], (draftsBy run file .imports).flatMap (importsOf file.source)) := by
  rw [imports, draftsOf_ok usable]

theorem classes_ok {run : Site → List Match} (usable : search .classes = .ok run) :
    classes search options file = ([], (draftsBy run file .classes).filterMap
      (classOf? options file.language.docStyle file.source)) := by
  rw [classes, draftsOf_ok usable]

theorem classes_error {message : String} (failed : search .classes = .error message) :
    classes search options file = ([message], []) := by
  rw [classes, draftsOf_error failed]

/-- The search for calls, if calls can be searched for. -/
def callSearch (search : Catalog.Search) : Option (Site → List Match) :=
  (search .calls).toOption

theorem functions_ok {run : Site → List Match} (usable : search .functions = .ok run) :
    (functions search options file).2 = (draftsBy run file .functions).filterMap
      (functionOf? options file.language.docStyle file.source (callSearch search)) := by
  unfold functions callSearch
  rw [draftsOf_ok usable]
  cases search .calls <;> rfl

theorem functions_error {message : String} (failed : search .functions = .error message) :
    functions search options file = ([message], []) := by
  rw [functions, draftsOf_error failed]

/-- Every class of a file comes from a draft. -/
theorem exists_draft_of_mem_classes {owner : Class}
    (member : owner ∈ (classes search options file).2) :
    ∃ run, search .classes = .ok run ∧ ∃ draft ∈ draftsBy run file .classes,
      classOf? options file.language.docStyle file.source draft = some owner := by
  cases usable : search .classes with
  | ok run =>
    rw [classes_ok usable] at member
    exact ⟨run, rfl, List.mem_filterMap.mp member⟩
  | error message =>
    rw [classes_error usable] at member
    cases member

/-- Every function of a file comes from a draft. -/
theorem exists_draft_of_mem_functions {function : Function}
    (member : function ∈ (functions search options file).2) :
    ∃ run, search .functions = .ok run ∧ ∃ draft ∈ draftsBy run file .functions,
      functionOf? options file.language.docStyle file.source (callSearch search) draft =
        some function := by
  cases usable : search .functions with
  | ok run =>
    rw [functions_ok usable] at member
    exact ⟨run, rfl, List.mem_filterMap.mp member⟩
  | error message =>
    rw [functions_error usable] at member
    cases member

/-- The lines of the classes of a file are counted from one. -/
theorem one_le_startLine_of_mem_classes {owner : Class}
    (member : owner ∈ (classes search options file).2) : 1 ≤ owner.startLine := by
  obtain ⟨_, _, draft, _, found⟩ := exists_draft_of_mem_classes member
  obtain ⟨_, _, rfl⟩ := Option.map_eq_some_iff.mp found
  exact Nat.succ_pos _

variable (search options file)

theorem offsets_classes :
    (classes search options file).2.Pairwise fun first second => first.offset < second.offset := by
  cases usable : search .classes with
  | ok run =>
    rw [classes_ok usable]
    refine List.Pairwise.filterMap _ ?_ (ascending_gather .classes file.source _)
    intro first second before one oneFound two twoFound
    rw [offset_of_classOf? oneFound, offset_of_classOf? twoFound]
    exact before
  | error message =>
    rw [classes_error usable]
    exact .nil

theorem offsets_functions :
    (functions search options file).2.Pairwise fun first second =>
      first.offset < second.offset := by
  cases usable : search .functions with
  | ok run =>
    rw [functions_ok usable]
    refine List.Pairwise.filterMap _ ?_ (ascending_gather .functions file.source _)
    intro first second before one oneFound two twoFound
    rw [offset_of_functionOf? oneFound, offset_of_functionOf? twoFound]
    exact before
  | error message =>
    rw [functions_error usable]
    exact .nil

/-- The parts of a file are ready to be put together. -/
theorem unassigned_parts :
    Unassigned (classes search options file).2 (functions search options file).2 where
  noMethods := by
    intro owner member
    obtain ⟨_, _, _, _, found⟩ := exists_draft_of_mem_classes member
    obtain ⟨_, _, rfl⟩ := Option.map_eq_some_iff.mp found
    rfl
  offsets := offsets_functions search options file
  lines := by
    refine (offsets_functions search options file).imp_of_mem ?_
    intro first second firstMember secondMember before
    obtain ⟨_, _, _, _, firstFound⟩ := exists_draft_of_mem_functions firstMember
    obtain ⟨_, _, _, _, secondFound⟩ := exists_draft_of_mem_functions secondMember
    rw [startLine_of_functionOf? firstFound, startLine_of_functionOf? secondFound]
    exact Nat.succ_le_succ (Text.rowAt_mono file.source (Nat.le_of_lt before))

/-! ### The record of a file -/

/-- The record of a file with everything that is private, read in detail. -/
def fullRecord (path : String) : FileRecord where
  path
  language := some file.language
  imports := (imports search file).2
  classes := withMethods (classes search options file).2 (functions search options file).2
  functions := unowned (classes search options file).2 (functions search options file).2
  errors := syntaxErrors file ++ (imports search file).1 ++ (classes search options file).1 ++
    (functions search options file).1

theorem allFunctions_fullRecord (path : String) :
    (fullRecord search options file path).allFunctions =
      allAfter (classes search options file).2 (functions search options file).2 := rfl

/-- In detail, a record is the full record, without what is private if that is not wanted. -/
theorem recordBy_detailed (path : String) (detailed : options.granularity = .detailed) :
    recordBy search options path file =
      if options.includePrivate then fullRecord search options file path
      else dropPrivate (fullRecord search options file path) := by
  unfold recordBy
  rw [detailed]
  simp only [Granularity.isDetailed, if_true]
  rw [assign_eq (unassigned_parts search options file)]
  rfl

variable {file options} in
/-- In detail and with private things, a record is the full record. -/
theorem record_eq_fullRecord (path : String) (detailed : options.granularity = .detailed)
    (wanted : options.includePrivate = true) :
    record options path file = fullRecord (Catalog.search file) options file path := by
  rw [record, recordBy_detailed _ options file path detailed, if_pos wanted]

/-- Of whole files, a record holds the imports alone. -/
theorem recordBy_file (path : String) (coarse : options.granularity = .file) :
    recordBy search options path file =
      { path, language := some file.language, imports := (imports search file).2
        classes := [], functions := []
        errors := syntaxErrors file ++ (imports search file).1 } := by
  unfold recordBy
  rw [coarse]
  rfl

end Extraction

end CodeAtlas
