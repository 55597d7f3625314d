/-
This file shows that the settings of an analysis only take away. Every record of a file is the
fullest one without the documentation, the signatures or the private names that were not asked
for: which class takes a function does not depend on any of them, because only lines count
there. What a file imports is the same whatever is asked for, and so are the dependencies
between files.
-/

import CodeAtlas.Project
import CodeAtlas.Proofs.Extraction.Parts
import CodeAtlas.Proofs.Graph.Dependencies
import CodeAtlas.Proofs.Project.Records
import CodeAtlas.Proofs.Tree.Extent

namespace CodeAtlas

/-! ### Taking away -/

/-- Whether everything that can be extracted is asked for. -/
structure AnalysisOptions.Fullest (options : AnalysisOptions) : Prop where
  includePrivate : options.includePrivate = true
  includeDocs : options.includeDocs = true
  includeSignatures : options.includeSignatures = true
  granularity : options.granularity = .detailed

/-- The function without the documentation and the signature that are not asked for. -/
def Function.reduced (options : AnalysisOptions) (function : Function) : Function :=
  { function with
    parameters := if options.includeSignatures then function.parameters else ""
    returnType := if options.includeSignatures then function.returnType else ""
    doc := if options.includeDocs then function.doc else "" }

/-- The class and its methods without the documentation and the signatures that are not asked
for. -/
def Class.reduced (options : AnalysisOptions) (owner : Class) : Class :=
  { owner with
    doc := if options.includeDocs then owner.doc else ""
    methods := owner.methods.map (Function.reduced options) }

namespace FileRecord

/-- The file without the documentation and the signatures that are not asked for. -/
def reduced (options : AnalysisOptions) (file : FileRecord) : FileRecord :=
  { file with
    classes := file.classes.map (Class.reduced options)
    functions := file.functions.map (Function.reduced options) }

/-- The file without the classes that have a private name, with all their methods, and then
without the methods and the functions that have one. -/
def withoutPrivateNames (file : FileRecord) : FileRecord :=
  { file with
    classes := (file.classes.filter fun owner => !Names.isPrivate owner.name).map fun owner =>
      { owner with methods := owner.methods.filter fun method => !Names.isPrivate method.name }
    functions := file.functions.filter fun function => !Names.isPrivate function.name }

/-- What some settings leave of a file that has everything. -/
def projected (options : AnalysisOptions) (file : FileRecord) : FileRecord :=
  if options.includePrivate then file.reduced options
  else (file.reduced options).withoutPrivateNames

end FileRecord

namespace Ownership

variable (options : AnalysisOptions)

/-! ### Only lines decide who takes a function -/

theorem owner?_reduced (classes : List Class) (function : Function) :
    owner? (classes.map (Class.reduced options)) (function.reduced options) =
      owner? classes function := by
  have spans : (classes.map (Class.reduced options)).map span = classes.map span := by
    rw [List.map_map]
    rfl
  exact owner?_congr spans (function.reduced options)

theorem keepsOwners_reduced (classes : List Class) :
    KeepsOwners classes (Class.reduced options) (Function.reduced options) where
  owner := owner?_reduced options classes
  methods owner owned := by
    simp only [Class.reduced, List.map_map]
    rfl

end Ownership

namespace Extraction

open Ownership

variable {full : AnalysisOptions}

/-! ### Parts of a record -/

theorem docOf_reduced (fullest : full.Fullest) (options : AnalysisOptions) (style : DocStyle)
    (source : Text.Chars) (draft : Draft) :
    docOf options style source draft =
      if options.includeDocs then docOf full style source draft else "" := by
  rw [docOf, docOf, if_pos fullest.includeDocs]

theorem signatureText_reduced (fullest : full.Fullest) (options : AnalysisOptions)
    (text : Option Text.Chars) :
    signatureText options text =
      if options.includeSignatures then signatureText full text else "" := by
  rw [signatureText, signatureText, if_pos fullest.includeSignatures]

theorem classOf?_reduced (fullest : full.Fullest) (options : AnalysisOptions) (style : DocStyle)
    (source : Text.Chars) (draft : Draft) :
    classOf? options style source draft =
      (classOf? full style source draft).map (Class.reduced options) := by
  rw [classOf?, classOf?, Option.map_map]
  refine congrArg (fun change => draft.name.map change) (funext fun text => ?_)
  rw [docOf_reduced fullest]
  rfl

theorem functionOf?_reduced (fullest : full.Fullest) (options : AnalysisOptions)
    (style : DocStyle) (source : Text.Chars) (calls : Option (Site → List Match))
    (draft : Draft) :
    functionOf? options style source calls draft =
      (functionOf? full style source calls draft).map (Function.reduced options) := by
  unfold functionOf?
  rw [Option.map_map]
  refine congrArg (fun change => draft.name.map change) (funext fun text => ?_)
  rw [docOf_reduced fullest options, signatureText_reduced fullest options draft.parameters,
    signatureText_reduced fullest options draft.returnType]
  rfl

variable (search : Catalog.Search) (file : ParsedFile)

theorem classes_reduced (fullest : full.Fullest) (options : AnalysisOptions) :
    classes search options file =
      ((classes search full file).1, (classes search full file).2.map (Class.reduced options)) := by
  cases usable : search .classes with
  | ok run =>
    rw [classes_ok usable, classes_ok usable, List.map_filterMap]
    simp only [classOf?_reduced fullest options]
  | error message =>
    rw [classes_error usable, classes_error usable]
    rfl

theorem functions_reduced (fullest : full.Fullest) (options : AnalysisOptions) :
    functions search options file =
      ((functions search full file).1,
        (functions search full file).2.map (Function.reduced options)) := by
  unfold functions
  cases draftsOf search file .functions with
  | ok drafts =>
    cases search .calls with
    | ok run =>
      rw [List.map_filterMap]
      simp only [functionOf?_reduced fullest options]
    | error message =>
      rw [List.map_filterMap]
      simp only [functionOf?_reduced fullest options]
  | error message => rfl

variable (path : String)

/-- What is asked for reduces the record of everything. -/
theorem fullRecord_reduced (fullest : full.Fullest) (options : AnalysisOptions) :
    fullRecord search options file path = (fullRecord search full file path).reduced options := by
  rw [fullRecord, fullRecord, classes_reduced search file fullest options,
    functions_reduced search file fullest options, withMethods_map (keepsOwners_reduced options _),
    unowned_map (keepsOwners_reduced options _)]
  rfl

/-! ### Marks of private things -/

variable {search file} in
theorem isPrivate_of_mem_classes {options : AnalysisOptions} {owner : Class}
    (member : owner ∈ (classes search options file).2) :
    owner.isPrivate = Names.isPrivate owner.name := by
  obtain ⟨_, _, _, _, found⟩ := exists_draft_of_mem_classes member
  obtain ⟨_, _, rfl⟩ := Option.map_eq_some_iff.mp found
  rfl

variable {search file} in
theorem isPrivate_of_mem_functions {options : AnalysisOptions} {function : Function}
    (member : function ∈ (functions search options file).2) :
    function.isPrivate = Names.isPrivate function.name := by
  obtain ⟨_, _, _, _, found⟩ := exists_draft_of_mem_functions member
  obtain ⟨_, _, rfl⟩ := Option.map_eq_some_iff.mp found
  rfl

/-- Whether the marks of a record tell which of its names are private. -/
structure Marked (record : FileRecord) : Prop where
  classes : ∀ owner ∈ record.classes, owner.isPrivate = Names.isPrivate owner.name
  methods : ∀ owner ∈ record.classes, ∀ method ∈ owner.methods,
    method.isPrivate = Names.isPrivate method.name
  functions : ∀ function ∈ record.functions,
    function.isPrivate = Names.isPrivate function.name

theorem marked_fullRecord (options : AnalysisOptions) :
    Marked (fullRecord search options file path) where
  classes owner member := by
    obtain ⟨_, bare, found, rfl⟩ := exists_of_mem_withMethods member
    show bare.isPrivate = Names.isPrivate bare.name
    exact isPrivate_of_mem_classes (List.mem_of_getElem? found)
  methods owner member method isMethod := by
    obtain ⟨_, _, _, rfl⟩ := exists_of_mem_withMethods member
    obtain ⟨moved, owned, rfl⟩ := List.mem_map.mp isMethod
    show moved.isPrivate = Names.isPrivate moved.name
    exact isPrivate_of_mem_functions (mem_ownedBy_iff.mp owned).1
  functions function member := isPrivate_of_mem_functions (mem_unowned_iff.mp member).1

/-- Leaving out what is marked leaves out the private names. -/
theorem dropPrivate_eq_withoutPrivateNames {record : FileRecord} (marked : Marked record) :
    dropPrivate record = record.withoutPrivateNames := by
  have classes := List.filter_congr fun owner member =>
    congrArg not (marked.classes owner member)
  have functions := List.filter_congr fun function member =>
    congrArg not (marked.functions function member)
  rw [dropPrivate, FileRecord.withoutPrivateNames, classes, functions]
  congr 1
  refine List.map_congr_left fun owner kept => ?_
  have member := (List.mem_filter.mp kept).1
  rw [List.filter_congr fun method isMethod =>
    congrArg not (marked.methods owner member method isMethod)]

/-! ### Records -/

variable {file}

/-- In detail, a record is what its settings leave of the record of everything. -/
theorem record_eq_projected (fullest : full.Fullest) {options : AnalysisOptions}
    (detailed : options.granularity = .detailed) :
    record options path file = (record full path file).projected options := by
  rw [record_eq_fullRecord path fullest.granularity fullest.includePrivate, record,
    recordBy_detailed _ options file path detailed,
    dropPrivate_eq_withoutPrivateNames (marked_fullRecord _ file path options),
    fullRecord_reduced _ file path fullest options, FileRecord.projected]

/-- Of whole files, a record has the imports of the record of everything, no classes and no
functions. What is said about searching for classes and functions is missing at the end of its
errors. -/
theorem record_eq_outlined (fullest : full.Fullest) {options : AnalysisOptions}
    (coarse : options.granularity = .file) :
    ∃ errors, errors <+: (record full path file).errors ∧
      record options path file =
        { record full path file with classes := [], functions := [], errors } := by
  rw [record_eq_fullRecord path fullest.granularity fullest.includePrivate, record,
    recordBy_file _ options file path coarse]
  refine ⟨syntaxErrors file ++ (imports (Catalog.search file) file).1, ?_, rfl⟩
  rw [fullRecord, List.append_assoc]
  exact List.prefix_append _ _

/-- Paths and imports do not depend on what is asked for. -/
theorem outline_record (options other : AnalysisOptions) :
    Resolution.outline (record options path file) =
      Resolution.outline (record other path file) := by
  have same (options : AnalysisOptions) : Resolution.outline (record options path file) =
      { path, language := none, imports := (imports (Catalog.search file) file).2
        classes := [], functions := [], errors := [] } := by
    rw [record]
    cases granularity : options.granularity with
    | file =>
      rw [recordBy_file _ options file path granularity]
      rfl
    | detailed =>
      rw [recordBy_detailed _ options file path granularity]
      split <;> rfl
  rw [same, same]

end Extraction

/-! ### Projects -/

open Resolution

theorem Project.outline_recordOfParsed (options other : AnalysisOptions) (path : String)
    (language : Language) (parsed : Except ParseError ParsedFile) :
    outline (recordOfParsed options path language parsed) =
      outline (recordOfParsed other path language parsed) := by
  cases parsed with
  | ok file => exact Extraction.outline_record path options other
  | error error => rfl

/-- Paths and imports of a source file do not depend on what is asked for, whether or not the
file can be read and parsed. -/
theorem Project.outline_recordAlone (parser : Parser) (files : FileSystem)
    (options other : AnalysisOptions) (source : SourceFile) :
    outline (recordAlone parser files options source) =
      outline (recordAlone parser files other source) := by
  unfold recordAlone Project.record
  split
  · rfl
  · split
    · rw [recordOfText_fst, recordOfText_fst]
      exact outline_recordOfParsed options other _ _ _
    · rfl

/-- The record of a file is a projection of the record of everything. In detail it lacks the
documentation, the signatures and the private names that are not asked for; of whole files it
has the imports alone. So settings with the same extensions find the same imports and the same
dependencies between files, however many workers they ask for. -/
theorem Extraction.record_projects {full : AnalysisOptions} (fullest : full.Fullest)
    (options : AnalysisOptions) (path : String) (file : ParsedFile) :
    (options.granularity = .detailed →
      record options path file = (record full path file).projected options) ∧
    (options.granularity = .file →
      ∃ errors, errors <+: (record full path file).errors ∧
        record options path file =
          { record full path file with classes := [], functions := [], errors }) ∧
    ∀ other : AnalysisOptions, other.extensions = options.extensions →
      (∀ sources : List (String × ParsedFile),
        AgreeOnFiles
          (resolve (sources.map fun source => record options source.1 source.2)
            options.extensions)
          (resolve (sources.map fun source => record other source.1 source.2)
            other.extensions)) ∧
      ∀ (parser : Parser) (pools : Pools) (files : FileSystem) (sources : List SourceFile),
        parser.Forgets → pools.KeepOrder →
          AgreeOnFiles (Project.build parser pools files options sources).relationships
            (Project.build parser pools files other sources).relationships := by
  refine ⟨record_eq_projected path fullest, record_eq_outlined path fullest,
    fun other extensions => ⟨fun sources => ?_, fun parser pools files sources forgets keeps => ?_⟩⟩
  · rw [extensions]
    refine agreeOnFiles_of_outline ?_ _
    rw [List.map_map, List.map_map]
    exact List.map_congr_left fun source _ => outline_record source.1 options other
  · rw [Project.build, Project.build, Project.ofRecords, Project.ofRecords, extensions,
      Project.records_eq_map files options forgets keeps,
      Project.records_eq_map files other forgets keeps]
    refine agreeOnFiles_of_outline ?_ _
    rw [List.map_map, List.map_map]
    exact List.map_congr_left fun source _ =>
      Project.outline_recordAlone parser files options other source

theorem Extraction.record_projects_shapes :
    ({ includePrivate := true } : AnalysisOptions).Fullest ∧
      record { includeSignatures := false } "shapes.py" shapes =
        (record { includePrivate := true } "shapes.py" shapes).projected
          { includeSignatures := false } ∧
      (record { granularity := .file } "shapes.py" shapes).classes = [] ∧
      AgreeOnFiles (resolve [record { includeSignatures := false } "shapes.py" shapes] ["py"])
        (resolve [record { granularity := .file } "shapes.py" shapes] ["py"]) ∧
      AgreeOnFiles
        (Project.build (.ofKnown []) .pair {} { includeSignatures := false, workers := some 1 }
          [⟨"/shapes.py", "shapes.py", some .python⟩]).relationships
        (Project.build (.ofKnown []) .pair {} { granularity := .file }
          [⟨"/shapes.py", "shapes.py", some .python⟩]).relationships := by
  have fullest : ({ includePrivate := true } : AnalysisOptions).Fullest := ⟨rfl, rfl, rfl, rfl⟩
  obtain ⟨detailed, _, _⟩ :=
    record_projects fullest { includeSignatures := false } "shapes.py" shapes
  obtain ⟨_, coarse, _⟩ := record_projects fullest { granularity := .file } "shapes.py" shapes
  obtain ⟨_, _, tables⟩ :=
    record_projects fullest { includeSignatures := false, extensions := ["py"] } "shapes.py" shapes
  obtain ⟨_, _, projects⟩ :=
    record_projects fullest { includeSignatures := false, workers := some 1 } "shapes.py" shapes
  obtain ⟨errors, _, outlined⟩ := coarse rfl
  exact ⟨fullest, detailed rfl, congrArg FileRecord.classes outlined,
    (tables { granularity := .file, extensions := ["py"] } rfl).1 [("shapes.py", shapes)],
    (projects { granularity := .file } rfl).2 _ _ _ _ (Parser.ofKnown_forgets [])
      Pools.pair_keepOrder⟩

end CodeAtlas
