/-
This file compares two ways of saying which class a function belongs to. The record goes by
lines: a function belongs to the class with the fewest lines of those whose lines hold the
function's. The tree goes by nesting: the definition of the class stands above the definition
of the function, and no other class stands between. What is nested lies within the lines, so
that nothing that stands in a class is ever free; and where the lines tell classes apart as the
tree does, the two ways agree. Where they do not, as in a source of one line, they may differ.
-/

import CodeAtlas.Proofs.Extraction.Soundness

namespace CodeAtlas.Extraction

open Ownership

/-! ### Nesting -/

/-- The site at which the definition of an offset stands, if the category can be searched
for. -/
def definitionOf? (file : ParsedFile) (category : Category) (offset : Nat) : Option Site :=
  (Catalog.search file category).toOption.bind fun run =>
    definitionAt? category (capturesOf run file.rootSite) offset

/-- Whether the definition of a class stands properly above a definition of some category. -/
def StandsAbove (file : ParsedFile) (owner : Class) (category : Category) (offset : Nat) :
    Prop :=
  ∃ upper lower, definitionOf? file .classes owner.offset = some upper ∧
    definitionOf? file category offset = some lower ∧ Site.IsAbove upper lower

/-- Whether the definition of a class encloses the definition of a function. -/
def Encloses (file : ParsedFile) (owner : Class) (function : Function) : Prop :=
  StandsAbove file owner .functions function.offset

/-- Whether a class is the innermost of some classes that enclose a function. -/
structure IsInnermost (file : ParsedFile) (classes : List Class) (owner : Class)
    (function : Function) : Prop where
  encloses : Encloses file owner function
  innermost : ∀ other ∈ classes, Encloses file other function →
    other = owner ∨ StandsAbove file other .classes owner.offset

/-- Whether a function is where the tree puts it: with the innermost class that encloses it,
or free if none does. -/
structure FollowsTree (file : ParsedFile) (record : FileRecord) (function : Function) : Prop where
  methods : ∀ owner ∈ record.classes,
    function ∈ owner.methods ↔ IsInnermost file record.classes owner function
  free : function ∈ record.functions ↔
    ∀ owner ∈ record.classes, ¬ Encloses file owner function

/-- Whether lines tell where a function stands: only classes that enclose it hold its lines,
and no two of those have the same lines. -/
structure LinesTell (file : ParsedFile) (classes : List Class) (function : Function) : Prop where
  encloses : ∀ owner ∈ classes,
    owner.containsLines function.startLine function.endLine = true →
      Encloses file owner function
  apart : ∀ owner ∈ classes, ∀ other ∈ classes, Encloses file owner function →
    Encloses file other function → span owner = span other → owner = other

/-- Whether a class is one that lines may choose for a function: its lines hold the
function's, and of the classes whose lines do it has the fewest, and of those with as few none
begins later. -/
structure IsNearestByLines (classes : List Class) (owner : Class) (function : Function) :
    Prop where
  contains : owner.containsLines function.startLine function.endLine = true
  fewest : ∀ other ∈ classes,
    other.containsLines function.startLine function.endLine = true →
      owner.lineCount < other.lineCount ∨
        owner.lineCount = other.lineCount ∧ other.startLine ≤ owner.startLine

/-! ### Where definitions stand -/

variable {file : ParsedFile} {options : AnalysisOptions}

theorem definitionOf?_eq_some {category : Category} {run : Site → List Match}
    (usable : Catalog.search file category = .ok run) {draft : Draft}
    (member : draft ∈ draftsBy run file category) :
    definitionOf? file category draft.offset = some draft.site := by
  rw [definitionOf?, usable]
  exact definitionAt?_of_mem_gather category file.source _ member

/-- The definition of a range of lines: it stands in the file, at an offset, on the lines. -/
structure DefinedAt (file : ParsedFile) (category : Category) (offset startLine endLine : Nat)
    (site : Site) : Prop where
  found : definitionOf? file category offset = some site
  inFile : Site.AtOrBelow file.rootSite site
  offset : offset = site.node.start
  startLine : startLine = site.node.startRow file.source + 1
  endLine : endLine = site.node.stopRow file.source + 1

theorem DefinedAt.lines {category : Category} {offset startLine endLine : Nat} {site : Site}
    (defined : DefinedAt file category offset startLine endLine site)
    (wellFormed : file.WellFormed) : startLine ≤ endLine := by
  rw [defined.startLine, defined.endLine]
  exact Nat.succ_le_succ (Site.startRow_le_stopRow wellFormed defined.inFile)

/-- The lines of a definition are counted from one. -/
theorem DefinedAt.numbered {category : Category} {offset startLine endLine : Nat} {site : Site}
    (defined : DefinedAt file category offset startLine endLine site) : 1 ≤ startLine :=
  defined.startLine ▸ Nat.succ_pos _

theorem exists_definedAt_class {owner : Class}
    (member : owner ∈ (classes (Catalog.search file) options file).2) :
    ∃ site, DefinedAt file .classes owner.offset owner.startLine owner.endLine site := by
  obtain ⟨run, usable, draft, draftMember, found⟩ := exists_draft_of_mem_classes member
  obtain ⟨name, named, rfl⟩ := Option.map_eq_some_iff.mp found
  exact ⟨draft.site, definitionOf?_eq_some usable draftMember, site_mem_file usable draftMember,
    rfl, rfl, rfl⟩

theorem exists_definedAt_function {function : Function}
    (member : function ∈ (functions (Catalog.search file) options file).2) :
    ∃ site, DefinedAt file .functions function.offset function.startLine function.endLine
      site := by
  obtain ⟨run, usable, draft, draftMember, found⟩ := exists_draft_of_mem_functions member
  obtain ⟨name, named, rfl⟩ := Option.map_eq_some_iff.mp found
  exact ⟨draft.site, definitionOf?_eq_some usable draftMember, site_mem_file usable draftMember,
    rfl, rfl, rfl⟩

/-- What stands below a class lies within its lines. -/
theorem containsLines_of_standsAbove (wellFormed : file.WellFormed) {owner : Class} {upper : Site}
    (ownerDefined : DefinedAt file .classes owner.offset owner.startLine owner.endLine upper)
    {category : Category} {offset startLine endLine : Nat} {lower : Site}
    (defined : DefinedAt file category offset startLine endLine lower)
    (above : StandsAbove file owner category offset) :
    owner.containsLines startLine endLine = true := by
  obtain ⟨_, _, upperFound, lowerFound, isAbove⟩ := above
  cases ownerDefined.found.symm.trans upperFound
  cases defined.found.symm.trans lowerFound
  have rows := Site.rows_within wellFormed defined.inFile
    (Site.mem_withAncestors_iff.mpr (.inr isAbove))
  rw [Class.containsLines, ownerDefined.startLine, ownerDefined.endLine, defined.startLine,
    defined.endLine]
  simpa using rows

/-- Of two classes that enclose a function, one stands above the other, unless they are
defined at the same place. -/
theorem standsAbove_total {first second : Class} {firstSite secondSite : Site}
    (firstDefined : DefinedAt file .classes first.offset first.startLine first.endLine firstSite)
    (secondDefined :
      DefinedAt file .classes second.offset second.startLine second.endLine secondSite)
    {function : Function} (firstEncloses : Encloses file first function)
    (secondEncloses : Encloses file second function) :
    first.offset = second.offset ∨ StandsAbove file first .classes second.offset ∨
      StandsAbove file second .classes first.offset := by
  obtain ⟨_, lower, firstFound, lowerFound, firstAbove⟩ := firstEncloses
  obtain ⟨_, other, secondFound, otherFound, secondAbove⟩ := secondEncloses
  cases firstDefined.found.symm.trans firstFound
  cases secondDefined.found.symm.trans secondFound
  cases lowerFound.symm.trans otherFound
  rcases Site.isAbove_total firstAbove secondAbove with same | above | above
  · exact .inl (by rw [firstDefined.offset, secondDefined.offset, same])
  · exact .inr (.inl ⟨_, _, firstFound, secondFound, above⟩)
  · exact .inr (.inr ⟨_, _, secondFound, firstFound, above⟩)

/-- Two classes do not stand above each other. -/
theorem not_standsAbove_of_standsAbove {first second : Class}
    (above : StandsAbove file first .classes second.offset) :
    ¬ StandsAbove file second .classes first.offset := by
  rintro ⟨_, _, secondFound, firstFound, below⟩
  obtain ⟨_, _, firstAgain, secondAgain, above⟩ := above
  cases firstFound.symm.trans firstAgain
  cases secondFound.symm.trans secondAgain
  exact Nat.lt_asymm (Site.depth_lt_of_isAbove above) (Site.depth_lt_of_isAbove below)

theorem IsInnermost.unique {classes : List Class} {first second : Class} {function : Function}
    (firstInner : IsInnermost file classes first function)
    (secondInner : IsInnermost file classes second function)
    (firstMember : first ∈ classes) (secondMember : second ∈ classes) : first = second := by
  rcases firstInner.innermost second secondMember secondInner.encloses with same | below
  · exact same.symm
  · rcases secondInner.innermost first firstMember firstInner.encloses with same | above
    · exact same
    · exact absurd below (not_standsAbove_of_standsAbove above)


/-! ### Ownership by lines -/

/-- What a record that has given its functions away by lines is known by: where its classes
and functions are defined, that no two classes are defined at one place, which class lines may
choose, and when a function is free. -/
structure OwnedByLines (file : ParsedFile) (record : FileRecord) : Prop where
  classes : ∀ owner ∈ record.classes, ∃ site,
    DefinedAt file .classes owner.offset owner.startLine owner.endLine site
  functions : ∀ function ∈ record.allFunctions, ∃ site,
    DefinedAt file .functions function.offset function.startLine function.endLine site
  once : ∀ first ∈ record.classes, ∀ second ∈ record.classes,
    first.offset = second.offset → first = second
  nearest : ∀ owner ∈ record.classes, ∀ method ∈ owner.methods,
    IsNearestByLines record.classes owner method
  free : ∀ function ∈ record.allFunctions, function ∈ record.functions ↔
    ∀ owner ∈ record.classes,
      owner.containsLines function.startLine function.endLine = false

section Lines

variable {classes : List Class} {functions : List Function}

/-- The class that takes a function is one that lines may choose. -/
theorem isNearestByLines_of_owner? {index : Nat} {bare : Class} {function : Function}
    (found : classes[index]? = some bare) (home : owner? classes function = some index)
    (methods : List Function) :
    IsNearestByLines (withMethods classes functions) { bare with methods }
      (asMethod function) := by
  obtain ⟨_, there, contains, least⟩ := isNearest_of_owner? home
  cases there.symm.trans found
  refine ⟨contains, fun other member otherContains => ?_⟩
  obtain ⟨place, otherBare, atPlace, rfl⟩ := exists_of_mem_withMethods member
  show bare.lineCount < otherBare.lineCount ∨
    bare.lineCount = otherBare.lineCount ∧ otherBare.startLine ≤ bare.startLine
  rcases least place otherBare atPlace otherContains with nearest | ⟨notNearer, _⟩
  · rw [nearer_iff] at nearest
    omega
  · rw [Bool.eq_false_iff, ne_eq, nearer_iff] at notNearer
    omega

/-- A function is free exactly if no class holds its lines. -/
theorem mem_unowned_iff_of_mem_allAfter {function : Function}
    (member : function ∈ allAfter classes functions) :
    function ∈ unowned classes functions ↔ ∀ owner ∈ withMethods classes functions,
      owner.containsLines function.startLine function.endLine = false := by
  constructor
  · intro isFree owner ownerMember
    obtain ⟨index, bare, found, rfl⟩ := exists_of_mem_withMethods ownerMember
    exact owner?_eq_none_iff.mp (mem_unowned_iff.mp isFree).2 bare (List.mem_of_getElem? found)
  · intro outside
    rcases mem_allAfter_iff.mp member with isFree | ⟨index, moved, _, home, rfl⟩
    · exact mem_unowned_iff.mpr isFree
    · obtain ⟨bare, found, contains, _⟩ := isNearest_of_owner? home
      have notContains := outside _ (mem_withMethods functions found)
      cases contains.symm.trans notContains

end Lines

/-- A record with everything that is private gives its functions away by lines. -/
theorem ownedByLines_fullRecord (options : AnalysisOptions) (path : String)
    (file : ParsedFile) :
    OwnedByLines file (fullRecord (Catalog.search file) options file path) where
  classes owner member := by
    obtain ⟨index, bare, found, rfl⟩ := exists_of_mem_withMethods member
    have defined := exists_definedAt_class (List.mem_of_getElem? found)
    exact defined
  functions function member := by
    rcases mem_allAfter_iff.mp member with ⟨isFound, _⟩ | ⟨_, moved, isFound, _, rfl⟩
    · exact exists_definedAt_function isFound
    · have defined := exists_definedAt_function isFound
      exact defined
  once first firstMember second secondMember same := by
    have ascend := ascend_withMethods (offsets_classes (Catalog.search file) options file)
      (functions (Catalog.search file) options file).2
    have once := List.pairwise_map.mpr (ascend.imp fun before => Nat.ne_of_lt before)
    exact List.inj_on_of_nodup_map once firstMember secondMember same
  nearest owner member method isMethod := by
    obtain ⟨index, bare, found, rfl⟩ := exists_of_mem_withMethods member
    obtain ⟨function, isOwned, rfl⟩ := List.mem_map.mp isMethod
    exact isNearestByLines_of_owner? found (mem_ownedBy_iff.mp isOwned).2 _
  free _ := mem_unowned_iff_of_mem_allAfter

/-! ### Lines and nesting -/

section Record

variable {record : FileRecord} (byLines : OwnedByLines file record)
  (wellFormed : file.WellFormed)

include byLines wellFormed

/-- The lines of a class that encloses a function hold the function's. -/
theorem containsLines_of_encloses {owner : Class} (ownerMember : owner ∈ record.classes)
    {function : Function} (member : function ∈ record.allFunctions)
    (encloses : Encloses file owner function) :
    owner.containsLines function.startLine function.endLine = true := by
  obtain ⟨_, ownerDefined⟩ := byLines.classes owner ownerMember
  obtain ⟨_, defined⟩ := byLines.functions function member
  exact containsLines_of_standsAbove wellFormed ownerDefined defined encloses

/-- Where lines tell, the class that they choose is the innermost that encloses the
function. -/
theorem isInnermost_of_isNearestByLines {owner : Class} (ownerMember : owner ∈ record.classes)
    {function : Function} (member : function ∈ record.allFunctions)
    (tell : LinesTell file record.classes function)
    (nearest : IsNearestByLines record.classes owner function) :
    IsInnermost file record.classes owner function := by
  have encloses := tell.encloses owner ownerMember nearest.contains
  refine ⟨encloses, fun other otherMember otherEncloses => ?_⟩
  obtain ⟨_, ownerDefined⟩ := byLines.classes owner ownerMember
  obtain ⟨_, otherDefined⟩ := byLines.classes other otherMember
  rcases standsAbove_total otherDefined ownerDefined otherEncloses encloses with
    same | above | below
  · exact .inl (byLines.once other otherMember owner ownerMember same)
  · exact .inr above
  · -- The other class lies within the lines of the nearest one, so its lines are the same.
    have contains := containsLines_of_standsAbove wellFormed ownerDefined otherDefined below
    have fewest := nearest.fewest other otherMember
      (containsLines_of_encloses byLines wellFormed otherMember member otherEncloses)
    refine .inl (tell.apart other otherMember owner ownerMember otherEncloses encloses ?_)
    rw [Class.containsLines, Bool.and_eq_true, decide_eq_true_eq, decide_eq_true_eq] at contains
    have ownerLines := ownerDefined.lines wellFormed
    have otherLines := otherDefined.lines wellFormed
    simp only [Class.lineCount, lineCount_of_pos ownerDefined.numbered,
      lineCount_of_pos otherDefined.numbered] at fewest
    have sameStart : other.startLine = owner.startLine := by omega
    have sameEnd : other.endLine = owner.endLine := by omega
    rw [span, span, sameStart, sameEnd]

/-- Where lines tell, a function is where the tree puts it. -/
theorem followsTree_of_linesTell {function : Function} (member : function ∈ record.allFunctions)
    (tell : LinesTell file record.classes function) : FollowsTree file record function := by
  have inner {owner : Class} (ownerMember : owner ∈ record.classes)
      (isMethod : function ∈ owner.methods) : IsInnermost file record.classes owner function :=
    isInnermost_of_isNearestByLines byLines wellFormed ownerMember member tell
      (byLines.nearest owner ownerMember function isMethod)
  constructor
  · intro owner ownerMember
    refine ⟨inner ownerMember, fun isInnermost => ?_⟩
    rcases List.mem_append.mp member with isFree | isMethod
    · have contains := containsLines_of_encloses byLines wellFormed ownerMember member
        isInnermost.encloses
      rw [(byLines.free function member).mp isFree owner ownerMember] at contains
      cases contains
    · obtain ⟨home, homeMember, isMethod⟩ := List.mem_flatMap.mp isMethod
      have same := (inner homeMember isMethod).unique isInnermost homeMember ownerMember
      exact same ▸ isMethod
  · rw [byLines.free function member]
    constructor
    · intro outside owner ownerMember encloses
      have contains := containsLines_of_encloses byLines wellFormed ownerMember member encloses
      rw [outside owner ownerMember] at contains
      cases contains
    · intro notEnclosed owner ownerMember
      refine Bool.eq_false_iff.mpr fun contains => ?_
      exact notEnclosed owner ownerMember (tell.encloses owner ownerMember contains)

end Record

/-- With private things, a record gives its functions away by lines, whatever else is asked
for. -/
theorem ownedByLines_record (path : String) (file : ParsedFile)
    (wanted : options.includePrivate = true) :
    OwnedByLines file (record options path file) := by
  cases granularity : options.granularity with
  | file =>
    rw [record, recordBy_file _ options file path granularity]
    exact {
      classes := fun _ member => by cases member
      functions := fun _ member => by cases member
      once := fun _ member => by cases member
      nearest := fun _ member => by cases member
      free := fun _ member => by cases member }
  | detailed =>
    rw [record_eq_fullRecord path granularity wanted]
    exact ownedByLines_fullRecord options path file

/-- A function belongs to a class that lines may choose, or is free if no class holds its
lines. What a class encloses lies within its lines and so is not free, and where lines tell,
the function is where the tree puts it. -/
theorem record_owns_by_lines (options : AnalysisOptions) (path : String) (file : ParsedFile)
    (wellFormed : file.WellFormed) (wanted : options.includePrivate = true) :
    ∀ function ∈ (record options path file).allFunctions,
      (∀ owner ∈ (record options path file).classes, function ∈ owner.methods →
        IsNearestByLines (record options path file).classes owner function) ∧
      (function ∈ (record options path file).functions ↔
        ∀ owner ∈ (record options path file).classes,
          owner.containsLines function.startLine function.endLine = false) ∧
      (∀ owner ∈ (record options path file).classes, Encloses file owner function →
        owner.containsLines function.startLine function.endLine = true) ∧
      (LinesTell file (record options path file).classes function →
        FollowsTree file (record options path file) function) := by
  have byLines := ownedByLines_record path file wanted
  intro function member
  refine ⟨fun owner ownerMember => byLines.nearest owner ownerMember function,
    byLines.free function member, fun owner ownerMember => ?_, ?_⟩
  · exact containsLines_of_encloses byLines wellFormed ownerMember member
  · exact followsTree_of_linesTell byLines wellFormed member

theorem standsAbove_shapes {owner : Class} (isFirst : owner.offset = 0) :
    StandsAbove shapes owner .functions 17 := by
  have upper : definitionOf? shapes .classes 0 = shapes.rootSite.follow? [0] := by
    with_unfolding_all rfl
  have lower : definitionOf? shapes .functions 17 = shapes.rootSite.follow? [0, 1, 0] := by
    with_unfolding_all rfl
  rw [StandsAbove, isFirst]
  exact ⟨_, _, upper, lower, _, rfl, List.mem_cons_of_mem _ List.mem_cons_self⟩

/-- Where every definition has lines of its own, lines tell. -/
theorem followsTree_shapes :
    shapes.WellFormed ∧
      ∃ function ∈ (record { includePrivate := true } "shapes.py" shapes).allFunctions,
        LinesTell shapes (record { includePrivate := true } "shapes.py" shapes).classes
          function ∧
        FollowsTree shapes (record { includePrivate := true } "shapes.py" shapes)
          function := by
  have isFirst : ∀ owner ∈ (record { includePrivate := true } "shapes.py" shapes).classes,
      owner.offset = 0 := by
    decide +kernel
  have isOnly : ∀ owner ∈ (record { includePrivate := true } "shapes.py" shapes).classes,
      ∀ other ∈ (record { includePrivate := true } "shapes.py" shapes).classes,
        owner = other := by
    decide +kernel
  have isMethod :
      ∃ function ∈ (record { includePrivate := true } "shapes.py" shapes).allFunctions,
        function.offset = 17 := by
    decide +kernel
  obtain ⟨function, member, offset⟩ := isMethod
  have tell : LinesTell shapes
      (record { includePrivate := true } "shapes.py" shapes).classes function := {
    encloses := fun owner ownerMember _ => by
      rw [Encloses, offset]
      exact standsAbove_shapes (isFirst owner ownerMember)
    apart := fun owner ownerMember other otherMember _ _ _ =>
      isOnly owner ownerMember other otherMember }
  have holds := record_owns_by_lines { includePrivate := true } "shapes.py" shapes
    wellFormed_shapes rfl function member
  exact ⟨wellFormed_shapes, function, member, tell, holds.2.2.2 tell⟩

/-! ### One line -/

/-- A script of one line, with a class and a function beside it. -/
def oneLine : ParsedFile where
  language := .javaScript
  source := "class A \x7b\x7d function d() \x7b\x7d\n".toList
  root :=
    ⟨"program", none, 0, 27,
      [⟨"class_declaration", none, 0, 10,
        [⟨"identifier", some "name", 6, 7, []⟩, ⟨"class_body", some "body", 8, 10, []⟩]⟩,
        ⟨"function_declaration", none, 11, 26,
          [⟨"identifier", some "name", 20, 21, []⟩,
            ⟨"formal_parameters", some "parameters", 21, 23, []⟩,
            ⟨"statement_block", some "body", 24, 26, []⟩]⟩]⟩
  hasSyntaxErrors := false

theorem wellFormed_oneLine : oneLine.WellFormed := by
  have length : Text.byteLength oneLine.source = 27 := by decide
  rw [ParsedFile.WellFormed, length]
  simp [oneLine, Node.LiesWithin, Node.AllLieWithin]

/-- In one line, a function that no class encloses becomes a method of the class beside it. -/
theorem exists_not_followsTree_oneLine :
    oneLine.WellFormed ∧
      Catalog.usable (oneLine.grammars oneLine.language) oneLine.language .functions =
        .ok Functions.javaScript ∧
      Catalog.usable (oneLine.grammars oneLine.language) oneLine.language .classes =
        .ok Classes.javaScript ∧
      ∃ function ∈ (record { includePrivate := true } "sample.js" oneLine).allFunctions,
        ¬ FollowsTree oneLine (record { includePrivate := true } "sample.js" oneLine)
          function := by
  have moved : ∃ owner ∈ (record { includePrivate := true } "sample.js" oneLine).classes,
      ∃ method ∈ owner.methods, owner.offset = 0 ∧ method.offset = 11 := by
    decide +kernel
  have ownerDepth : (definitionOf? oneLine .classes 0).map Site.depth = some 1 := by
    decide +kernel
  have methodDepth : (definitionOf? oneLine .functions 11).map Site.depth = some 1 := by
    decide +kernel
  obtain ⟨owner, ownerMember, method, isMethod, ownerOffset, methodOffset⟩ := moved
  have member := List.mem_append_right
    (record { includePrivate := true } "sample.js" oneLine).functions
    (List.mem_flatMap.mpr ⟨owner, ownerMember, isMethod⟩)
  refine ⟨wellFormed_oneLine, rfl, rfl, method, member, fun follows => ?_⟩
  obtain ⟨upper, lower, upperFound, lowerFound, above⟩ :=
    ((follows.methods owner ownerMember).mp isMethod).encloses
  rw [ownerOffset] at upperFound
  rw [methodOffset] at lowerFound
  rw [upperFound, Option.map_some, Option.some.injEq] at ownerDepth
  rw [lowerFound, Option.map_some, Option.some.injEq] at methodDepth
  have deeper := Site.depth_lt_of_isAbove above
  rw [ownerDepth, methodDepth] at deeper
  exact Nat.lt_irrefl 1 deeper

end CodeAtlas.Extraction
