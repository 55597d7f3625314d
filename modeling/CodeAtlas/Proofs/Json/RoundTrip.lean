/-
This file shows that an analysis can be read back from its report. Every record is read from its
own members, a table from members in the order of their keys, a set from its elements; only the
offsets are gone, for they are written nowhere and read as zero. As no two values are printed the
same, the report tells everything else.
-/

import CodeAtlas.Proofs.Graph.Index
import CodeAtlas.Proofs.Json.Printing
import CodeAtlas.Report.Format

namespace CodeAtlas

open Json

/-! ### What is kept and what is read -/

/-- A function as it is known without its place. -/
def Function.withoutOffset (function : Function) : Function :=
  { function with offset := 0 }

/-- A class as it is known without its place and those of its methods. -/
def Class.withoutOffsets (owner : Class) : Class :=
  { owner with methods := owner.methods.map Function.withoutOffset, offset := 0 }

/-- A file as it is known without the places of its definitions. -/
def FileRecord.withoutOffsets (file : FileRecord) : FileRecord :=
  { file with
    classes := file.classes.map Class.withoutOffsets
    functions := file.functions.map Function.withoutOffset }

/-- An analysis as it is known without the places of definitions. -/
def Analysis.withoutOffsets (analysis : Analysis) : Analysis :=
  { analysis with files := analysis.files.map FileRecord.withoutOffsets }

/-- Whether the line of an import is a machine word. -/
def Import.Fits (statement : Import) : Prop :=
  statement.line < UInt64.size

/-- Whether the lines of a function are machine words. -/
def Function.Fits (function : Function) : Prop :=
  function.startLine < UInt64.size ∧ function.endLine < UInt64.size

/-- Whether the lines of a class and its methods are machine words. -/
def Class.Fits (owner : Class) : Prop :=
  owner.startLine < UInt64.size ∧ owner.endLine < UInt64.size ∧
    ∀ method ∈ owner.methods, method.Fits

/-- Whether all lines of a file are machine words. -/
def FileRecord.Fits (file : FileRecord) : Prop :=
  (∀ statement ∈ file.imports, statement.Fits) ∧ (∀ owner ∈ file.classes, owner.Fits) ∧
    ∀ function ∈ file.functions, function.Fits

/-- Whether the numbers of an analysis are machine words. -/
def Stats.Fits (stats : Stats) : Prop :=
  stats.filesProcessed < UInt64.size ∧ stats.filesWithErrors < UInt64.size ∧
    stats.imports < UInt64.size ∧ stats.classes < UInt64.size ∧
    stats.functions < UInt64.size ∧ stats.methods < UInt64.size ∧
    stats.extractTime < UInt64.size ∧ stats.resolveTime < UInt64.size

/-- Whether all lines and numbers of an analysis are machine words, as every line and number
that is counted on a machine is. -/
def Analysis.Fits (analysis : Analysis) : Prop :=
  (∀ file ∈ analysis.files, file.Fits) ∧ analysis.stats.Fits

/-! ### Simple values -/

namespace Json

theorem nat?_nat {value : Nat} (fits : value < UInt64.size) : nat? (nat value) = some value :=
  if_pos (Nat.le_sub_one_of_lt fits)

/-- A list is read element by element. -/
theorem list?_array {α β : Type} {read : Json → Option β} {encode : α → Json} {keep : α → β}
    {values : List α} (readsBack : ∀ value ∈ values, read (encode value) = some (keep value)) :
    list? read (array (values.map encode)) = some (values.map keep) := by
  induction values with
  | nil => rfl
  | cons value values inductionHypothesis =>
    obtain ⟨first, readsBack⟩ := List.forall_mem_cons.mp readsBack
    have rest : (values.map encode).mapM read = some (values.map keep) :=
      inductionHypothesis readsBack
    rw [list?, List.map_cons, List.map_cons, List.mapM_cons, first, rest]
    rfl

theorem strings?_strings (values : List String) : strings? (strings values) = some values := by
  have readsBack : ∀ value ∈ values, string? (string value) = some (id value) := fun _ _ => rfl
  rw [strings?, strings, list?_array readsBack, List.map_id]

/-- A field of an object is read from the first member with its name. -/
theorem required_object {α : Type} {read : Json → Option α} {members : List (String × Json)}
    {name : String} {value : Json} (place : Nat) (found : member? name members = some value) :
    required read (object members) place name = read value := by
  rw [required, field?, found, Option.bind_some]

theorem defaulted_object {α : Type} {read : Json → Option α} {default : α}
    {members : List (String × Json)} {name : String} (place : Nat)
    (missing : member? name members = none) :
    defaulted default read (object members) place name = some default := by
  rw [defaulted, field?, missing]

theorem optional_object {α : Type} {read : Json → Option α} {members : List (String × Json)}
    {name : String} {value : Json} (place : Nat) (found : member? name members = some value) :
    optional read (object members) place name = nullable? read value := by
  rw [optional, found]

end Json

/-! ### Entities -/

theorem Import.ofJson?_toJson {statement : Import} (fits : statement.Fits) :
    Import.ofJson? statement.toJson = some statement := by
  simp [Import.ofJson?, Import.toJson, isRecord, required_object, member?, string?,
    strings?_strings, nat?_nat fits]

theorem Function.ofJson?_toJson {function : Function} (fits : function.Fits) :
    Function.ofJson? function.toJson = some function.withoutOffset := by
  simp [Function.ofJson?, Function.toJson, Function.members, isRecord, required_object,
    defaulted_object, member?, string?, bool?, strings?_strings, nat?_nat fits.1, nat?_nat fits.2,
    Function.withoutOffset]

theorem Class.ofJson?_toJson {owner : Class} (fits : owner.Fits) :
    Class.ofJson? owner.toJson = some owner.withoutOffsets := by
  obtain ⟨startFits, endFits, methodsFit⟩ := fits
  have methods := list?_array fun method member =>
    Function.ofJson?_toJson (methodsFit method member)
  simp [Class.ofJson?, Class.toJson, Class.members, isRecord, required_object, defaulted_object,
    member?, string?, bool?, strings?_strings, nat?_nat startFits, nat?_nat endFits, methods,
    Class.withoutOffsets]

theorem nullable?_language (language : Option Language) :
    nullable? Language.ofJson? (orNull Language.toJson language) = some language := by
  cases language with
  | none => rfl
  | some language => exact congrArg (Option.map some) (Language.ofTag?_tag language)

theorem FileRecord.ofJson?_toJson {file : FileRecord} (fits : file.Fits) :
    FileRecord.ofJson? file.toJson = some file.withoutOffsets := by
  obtain ⟨importsFit, classesFit, functionsFit⟩ := fits
  have imports : list? Import.ofJson? (array (file.imports.map Import.toJson)) =
      some (file.imports.map id) :=
    list?_array fun statement member => Import.ofJson?_toJson (importsFit statement member)
  have classes := list?_array fun owner member => Class.ofJson?_toJson (classesFit owner member)
  have functions := list?_array fun function member =>
    Function.ofJson?_toJson (functionsFit function member)
  simp [FileRecord.ofJson?, FileRecord.toJson, FileRecord.encode, isRecord, required_object,
    optional_object, member?, string?, strings?_strings, nullable?_language, imports, classes,
    functions, FileRecord.withoutOffsets]

/-! ### Tables -/

/-- The table of the entries of a table is the table itself. -/
theorem Index.ofEntries_entries {α : Type} (index : Index α) : ofEntries index.entries = index := by
  have once : (index.entries.map Prod.fst).Nodup :=
    List.pairwise_map.mpr (index.ascending.imp fun {first second} before
      (same : first.1 = second.1) => String.lt_irrefl _ (same ▸ before))
  refine ext_get? fun key => Option.ext fun value => ?_
  rw [get?_ofEntries_eq_some_iff once, get?_eq_some_iff]

theorem mapM_readMember? {α : Type} {read : Json → Option α} {encode : α → Json}
    (readsBack : ∀ value, read (encode value) = some value) (entries : List (String × α)) :
    (entries.map fun entry => (entry.1, encode entry.2)).mapM (readMember? read) =
      some entries := by
  induction entries with
  | nil => rfl
  | cons entry entries inductionHypothesis =>
    have first : readMember? read (entry.1, encode entry.2) = some entry :=
      congrArg (Option.map (entry.1, ·)) (readsBack entry.2)
    rw [List.map_cons, List.mapM_cons, first, inductionHypothesis]
    rfl

theorem Index.ofJson?_toJson {α : Type} {read : Json → Option α} {encode : α → Json}
    (readsBack : ∀ value, read (encode value) = some value) (index : Index α) :
    Index.ofJson? read (index.toJson encode) = some index :=
  calc Index.ofJson? read (index.toJson encode)
      = (some index.entries).map ofEntries :=
        congrArg (Option.map ofEntries) (mapM_readMember? readsBack index.entries)
    _ = some index := congrArg some index.ofEntries_entries

theorem TextSet.ofJson?_toJson (set : TextSet) : TextSet.ofJson? set.toJson = some set := by
  have same : TextSet.ofList set.toList = set := ext_mem fun _ => mem_ofList
  rw [TextSet.ofJson?, TextSet.toJson, strings?_strings, Option.map_some, same]

/-! ### Relationships and numbers -/

theorem Relationships.ofJson?_toJson (relationships : Relationships) :
    Relationships.ofJson? relationships.toJson = some relationships := by
  have lists (index : Index (List String)) :
      Index.ofJson? strings? (listsToJson index) = some index :=
    Index.ofJson?_toJson strings?_strings index
  have sets := Index.ofJson?_toJson TextSet.ofJson?_toJson relationships.dependencies
  simp [Relationships.ofJson?, Relationships.toJson, isRecord, required_object, member?, lists,
    sets]

theorem Stats.ofJson?_toJson {stats : Stats} (fits : stats.Fits) :
    Stats.ofJson? stats.toJson = some stats := by
  obtain ⟨processed, withErrors, imports, classes, functions, methods, extract, resolve⟩ := fits
  simp [Stats.ofJson?, Stats.toJson, isRecord, required_object, member?, nat?_nat, *]

/-! ### Analyses -/

theorem Analysis.ofJson?_toJson {analysis : Analysis} (fits : analysis.Fits) :
    Analysis.ofJson? analysis.toJson = some analysis.withoutOffsets := by
  obtain ⟨filesFit, statsFit⟩ := fits
  have files := list?_array fun file member => FileRecord.ofJson?_toJson (filesFit file member)
  simp [Analysis.ofJson?, Analysis.toJson, isRecord, required_object, member?, files,
    Relationships.ofJson?_toJson, Stats.ofJson?_toJson statsFit, Analysis.withoutOffsets]

/-- Offsets are not written. -/
theorem Class.toJson_withoutOffsets (owner : Class) :
    owner.withoutOffsets.toJson = owner.toJson := by
  have methods : owner.withoutOffsets.methods.map Function.toJson =
      owner.methods.map Function.toJson :=
    List.map_map
  rw [Class.toJson, Class.toJson, Class.members, Class.members, methods]
  rfl

theorem FileRecord.toJson_withoutOffsets (file : FileRecord) :
    file.withoutOffsets.toJson = file.toJson := by
  have classes : file.withoutOffsets.classes.map Class.toJson = file.classes.map Class.toJson :=
    List.map_map.trans (List.map_congr_left fun owner _ => owner.toJson_withoutOffsets)
  have functions : file.withoutOffsets.functions.map Function.toJson =
      file.functions.map Function.toJson :=
    List.map_map
  rw [FileRecord.toJson, FileRecord.toJson, encode, encode, classes, functions]
  rfl

theorem Analysis.toJson_withoutOffsets (analysis : Analysis) :
    analysis.withoutOffsets.toJson = analysis.toJson := by
  have files : analysis.withoutOffsets.files.map FileRecord.toJson =
      analysis.files.map FileRecord.toJson :=
    List.map_map.trans (List.map_congr_left fun file _ => file.toJson_withoutOffsets)
  rw [Analysis.toJson, Analysis.toJson, files]
  rfl

/-- The report of an analysis is the text of one value, from which the analysis is read back but
for its offsets. So it is the report of no analysis that differs in anything else, and what is
read back has the same report. -/
theorem Analysis.report_faithful (analysis : Analysis) (fits : analysis.Fits) (rootName : String) :
    (∃ value : Json,
      (∀ other : Json, other.print = analysis.render rootName .json ↔ other = value) ∧
        Analysis.ofJson? value = some analysis.withoutOffsets) ∧
    (∀ (other : Analysis) (otherRoot : String), other.Fits →
      other.render otherRoot .json = analysis.render rootName .json →
        other.withoutOffsets = analysis.withoutOffsets) ∧
    analysis.withoutOffsets.render rootName .json = analysis.render rootName .json := by
  refine ⟨⟨analysis.toJson, fun other => ⟨fun same => print_inj same, congrArg print⟩,
    ofJson?_toJson fits⟩, fun other otherRoot otherFits same => ?_, ?_⟩
  · have sameValue : other.toJson = analysis.toJson := print_inj same
    have sameRead := congrArg Analysis.ofJson? sameValue
    rw [ofJson?_toJson otherFits, ofJson?_toJson fits] at sameRead
    exact Option.some.inj sameRead
  · exact congrArg print analysis.toJson_withoutOffsets

/-- An analysis of one file with one function at some offset. -/
def runAnalysis (offset : Nat) : Analysis where
  files := [{
    path := "lib.rs", language := some .rust, imports := [], classes := []
    functions := [{
      name := "run", parameters := "()", returnType := "", doc := "Runs \"all\".\n"
      startLine := 1, endLine := 3, calls := ["start"], isMethod := false, isPrivate := false
      offset }]
    errors := [] }]
  relationships := ⟨∅, ∅, ∅, (∅ : Index (List String)).insert "lib.rs::run" ["start"], ∅, ∅⟩
  stats := { filesProcessed := 1, functions := 1 }

theorem Analysis.report_faithful_run :
    (runAnalysis 42).Fits ∧ (runAnalysis 7).Fits ∧
      (runAnalysis 7).render "demo" .json = (runAnalysis 42).render "sample" .json ∧
      (runAnalysis 7).withoutOffsets = (runAnalysis 42).withoutOffsets ∧
      ∃ value : Json, value.print = (runAnalysis 42).render "sample" .json ∧
        Analysis.ofJson? value = some (runAnalysis 0) := by
  have fits (offset : Nat) : (runAnalysis offset).Fits := by
    simp [Analysis.Fits, FileRecord.Fits, Function.Fits, Stats.Fits, runAnalysis, UInt64.size]
  have same : (runAnalysis 7).render "demo" .json = (runAnalysis 42).render "sample" .json := rfl
  obtain ⟨⟨value, printed, readBack⟩, told, _⟩ :=
    report_faithful (runAnalysis 42) (fits 42) "sample"
  exact ⟨fits 42, fits 7, same, told _ _ (fits 7) same, value, (printed value).mpr rfl, readBack⟩

end CodeAtlas
