/-
This file says what the analysis of some source files holds. There is one record for each source,
in the same order, and what goes wrong with one source, whether it cannot be read or cannot be
parsed, stands in its own record and in no other. The numbers of an analysis are sums over its
records, so that they can be taken part by part and merged.
-/

import CodeAtlas.Proofs.Extraction.Parts
import CodeAtlas.Proofs.Project.Records

namespace CodeAtlas

/-! ### Numbers -/

namespace Stats

/-- The numbers without the times. -/
def counters (stats : Stats) : Stats :=
  { stats with extractTime := 0, resolveTime := 0 }

/-- The numbers of some files, each counted on its own. -/
def counted (files : List FileRecord) : Stats where
  filesProcessed := files.length
  filesWithErrors := files.countP FileRecord.hasErrors
  imports := (files.flatMap FileRecord.imports).length
  classes := (files.flatMap FileRecord.classes).length
  functions := (files.flatMap FileRecord.functions).length
  methods := (files.flatMap fun file => file.classes.flatMap Class.methods).length

theorem nothing_merge (stats : Stats) : merge {} stats = stats := by
  simp [merge]

theorem merge_assoc (first second third : Stats) :
    merge (merge first second) third = merge first (merge second third) := by
  simp [merge, Nat.add_assoc]

/-- One more file is counted as if it had been counted alone and merged. -/
theorem record_eq_merge (stats : Stats) (file : FileRecord) :
    record stats file = merge stats (record {} file) := by
  simp [record, merge]

theorem foldl_record (stats : Stats) (files : List FileRecord) :
    files.foldl record stats = merge stats (ofFiles files) := by
  induction files generalizing stats with
  | nil => rfl
  | cons file files inductionHypothesis =>
    rw [ofFiles, List.foldl_cons, List.foldl_cons, inductionHypothesis, inductionHypothesis,
      record_eq_merge, merge_assoc]

theorem ofFiles_cons (file : FileRecord) (files : List FileRecord) :
    ofFiles (file :: files) = merge (record {} file) (ofFiles files) :=
  foldl_record (record {} file) files

theorem ofFiles_append (first second : List FileRecord) :
    ofFiles (first ++ second) = merge (ofFiles first) (ofFiles second) := by
  rw [ofFiles, List.foldl_append]
  exact foldl_record (ofFiles first) second

/-- The numbers of groups of files, merged one after another, are those of all the files. -/
theorem foldl_merge (stats : Stats) (groups : List (List FileRecord)) :
    (groups.map ofFiles).foldl merge stats = merge stats (ofFiles groups.flatten) := by
  induction groups generalizing stats with
  | nil => rfl
  | cons group groups inductionHypothesis =>
    rw [List.map_cons, List.foldl_cons, inductionHypothesis, List.flatten_cons, ofFiles_append,
      merge_assoc]

theorem ofFiles_eq_counted (files : List FileRecord) : ofFiles files = counted files := by
  induction files with
  | nil => rfl
  | cons file files inductionHypothesis =>
    rw [ofFiles_cons, inductionHypothesis]
    simp [merge, record, counted, FileRecord.methodCount, List.countP_cons, Nat.add_comm]

end Stats

/-! ### Records -/

namespace Extraction

variable (search : Catalog.Search) (options : AnalysisOptions) (path : String)
  (file : ParsedFile)

theorem path_recordBy : (recordBy search options path file).path = path := by
  cases granularity : options.granularity with
  | file => rw [recordBy_file search options file path granularity]
  | detailed =>
    rw [recordBy_detailed search options file path granularity]
    split <;> rfl

variable {search options path file} {error : String}

theorem exists_of_mem_imports_errors (member : error ∈ (imports search file).1) :
    ∃ category, search category = .error error := by
  cases searched : search .imports with
  | ok run =>
    rw [imports_ok searched] at member
    cases member
  | error message =>
    rw [imports, draftsOf_error searched] at member
    exact ⟨.imports, List.mem_singleton.mp member ▸ searched⟩

theorem exists_of_mem_classes_errors (member : error ∈ (classes search options file).1) :
    ∃ category, search category = .error error := by
  cases searched : search .classes with
  | ok run =>
    rw [classes_ok searched] at member
    cases member
  | error message =>
    rw [classes_error searched] at member
    exact ⟨.classes, List.mem_singleton.mp member ▸ searched⟩

theorem exists_of_mem_functions_errors (member : error ∈ (functions search options file).1) :
    ∃ category, search category = .error error := by
  unfold functions at member
  split at member
  · split at member
    · cases member
    · next message failed => exact ⟨.calls, List.mem_singleton.mp member ▸ failed⟩
  · next message failed =>
    cases searched : search .functions with
    | ok run =>
      rw [draftsOf_ok searched] at failed
      cases failed
    | error reason =>
      rw [draftsOf_error searched] at failed
      rw [List.mem_singleton.mp member, ← Except.error.inj failed]
      exact ⟨.functions, searched⟩

/-- A record complains of nothing but syntax and categories that cannot be searched. -/
theorem of_mem_errors_recordBy (member : error ∈ (recordBy search options path file).errors) :
    error ∈ syntaxErrors file ∨ ∃ category, search category = .error error := by
  cases granularity : options.granularity with
  | file =>
    rw [recordBy_file search options file path granularity] at member
    exact (List.mem_append.mp member).imp_right exists_of_mem_imports_errors
  | detailed =>
    have inFull : error ∈ (fullRecord search options file path).errors := by
      rw [recordBy_detailed search options file path granularity] at member
      split at member <;> exact member
    rcases List.mem_append.mp inFull with inFront | inFunctions
    · rcases List.mem_append.mp inFront with inFront | inClasses
      · exact (List.mem_append.mp inFront).imp_right exists_of_mem_imports_errors
      · exact .inr (exists_of_mem_classes_errors inClasses)
    · exact .inr (exists_of_mem_functions_errors inFunctions)

end Extraction

namespace Project

open Text

variable (parser : Parser) (files : FileSystem) (options : AnalysisOptions)

/-- Whether a source file is in a language and can be read as a text. -/
def Reads (source : SourceFile) (language : Language) (text : String) : Prop :=
  source.language = some language ∧
    (files.readBytes source.path).map Utf8.decodeLossy = .ok text

theorem recordAlone_of_reads {source : SourceFile} {language : Language} {text : String}
    (reads : Reads files source language text) :
    recordAlone parser files options source =
      recordOfParsed options source.relativePath language
        (parser.parse language text parser.fresh).1 := by
  obtain ⟨known, decoded⟩ := reads
  unfold recordAlone record
  rw [known]
  dsimp only
  cases read : files.readBytes source.path with
  | ok content =>
    rw [read] at decoded
    rw [← Except.ok.inj decoded, ← recordOfText_fst]
  | error error =>
    rw [read] at decoded
    cases decoded

/-- What cannot be read leaves a record of nothing but the error. -/
theorem exists_recordAlone_eq_failed {source : SourceFile}
    (unread : ∀ language text, ¬ Reads files source language text) :
    ∃ error, recordAlone parser files options source =
      .failed source.relativePath source.language error := by
  unfold recordAlone record
  cases known : source.language with
  | none => exact ⟨_, rfl⟩
  | some language =>
    dsimp only
    cases read : files.readBytes source.path with
    | ok content => exact absurd ⟨known, by rw [read]; rfl⟩ (unread language _)
    | error error => exact ⟨_, rfl⟩

theorem path_recordOfParsed (path : String) (language : Language)
    (parsed : Except ParseError ParsedFile) :
    (recordOfParsed options path language parsed).path = path := by
  cases parsed with
  | ok file => exact Extraction.path_recordBy _ options path file
  | error error => rfl

theorem path_recordAlone (source : SourceFile) :
    (recordAlone parser files options source).path = source.relativePath := by
  by_cases read : ∃ language text, Reads files source language text
  · obtain ⟨language, text, reads⟩ := read
    rw [recordAlone_of_reads parser files options reads]
    exact path_recordOfParsed options source.relativePath language _
  · push Not at read
    obtain ⟨error, failed⟩ := exists_recordAlone_eq_failed parser files options read
    rw [failed, FileRecord.failed]

/-- What is said of the record of one source. Without a language or a text it is empty but for one
error. Of a text it is what is extracted from it, if the text has a tree; if not, it is empty but
for what the parser says. -/
structure Describes (source : SourceFile) (record : FileRecord) : Prop where
  unread : (source.language = none ∨ ∃ error, files.readBytes source.path = .error error) →
    record.isEmpty = true ∧ record.errors.length = 1
  extracted : ∀ language text file, Reads files source language text →
    (parser.parse language text parser.fresh).1 = .ok file →
      record = Extraction.record options source.relativePath file
  unparsed : ∀ language text error, Reads files source language text →
    (parser.parse language text parser.fresh).1 = .error error →
      record.isEmpty = true ∧ record.errors = [error.message]

theorem describes_recordAlone (source : SourceFile) :
    Describes parser files options source (recordAlone parser files options source) where
  unread := by
    intro without
    have never : ∀ language text, ¬ Reads files source language text := by
      rintro language text ⟨known, decoded⟩
      rcases without with none | ⟨error, failed⟩
      · cases none.symm.trans known
      · rw [failed] at decoded
        cases decoded
    obtain ⟨error, failed⟩ := exists_recordAlone_eq_failed parser files options never
    rw [failed]
    exact ⟨rfl, rfl⟩
  extracted language text file reads parsed := by
    rw [recordAlone_of_reads parser files options reads, parsed, recordOfParsed]
  unparsed language text error reads parsed := by
    rw [recordAlone_of_reads parser files options reads, parsed, recordOfParsed]
    exact ⟨rfl, rfl⟩

variable {parser} (forgets : parser.Forgets) {pools : Pools} (keeps : pools.KeepOrder)

include forgets keeps

/-- If the parser forgets and the pools keep the order, an analysis has one record for each source,
in the order of the sources and under the same paths. Each is the record that its source has alone:
empty but for one error if the source cannot be read or parsed, else what is extracted from it.
However the records are divided into groups, the numbers of the groups merge into those of the
analysis, which count its records. -/
theorem build_isolates (sources : List SourceFile) :
    (build parser pools files options sources).files.map FileRecord.path =
      sources.map SourceFile.relativePath ∧
    (build parser pools files options sources).files =
      sources.flatMap (fun source => (build parser pools files options [source]).files) ∧
    (∀ (index : Nat) (source : SourceFile), sources[index]? = some source →
      ∃ record, (build parser pools files options sources).files[index]? = some record ∧
        Describes parser files options source record) ∧
    (∀ groups : List (List FileRecord),
      groups.flatten = (build parser pools files options sources).files →
        ((groups.map Stats.ofFiles).foldl Stats.merge {}).counters =
          (build parser pools files options sources).stats.counters) ∧
    (build parser pools files options sources).stats.counters =
      Stats.counted (build parser pools files options sources).files := by
  have records (sources : List SourceFile) : (build parser pools files options sources).files =
      sources.map (recordAlone parser files options) :=
    records_eq_map files options forgets keeps sources
  have stats : (build parser pools files options sources).stats =
      Stats.ofFiles (build parser pools files options sources).files := rfl
  refine ⟨?_, ?_, fun index source there => ?_, fun groups divided => ?_, ?_⟩
  · rw [records, List.map_map]
    exact List.map_congr_left fun source _ => path_recordAlone parser files options source
  · simp only [records, List.map_cons, List.map_nil]
    exact List.map_eq_flatMap
  · exact ⟨recordAlone parser files options source, by rw [records, List.getElem?_map, there]; rfl,
      describes_recordAlone parser files options source⟩
  · rw [Stats.foldl_merge, Stats.nothing_merge, divided, stats]
  · rw [stats, Stats.ofFiles_eq_counted]
    rfl

omit forgets keeps

/-- A parser that knows the tree of the empty source in Rust and has no use for Bash. -/
def bashless : Parser :=
  { Parser.ofKnown [⟨.rust, "", false, ⟨"source_file", none, 0, 0, []⟩⟩] with
    prepare := fun language state =>
      if language = .bash then (some "Incompatible language version 9", state)
      else (none, some language) }

theorem bashless_forgets : bashless.Forgets := by
  intro language text first second
  cases language <;> rfl

/-- A file system with two empty sources. -/
def shelf : FileSystem where
  root := .directory [("main.rs", .file ⟨#[]⟩), ("run.sh", .file ⟨#[]⟩)]

/-- Four sources. The first can be read and parsed, the last can only be read. -/
def mixedSources : List SourceFile := [
  ⟨"/main.rs", "main.rs", some .rust⟩,
  ⟨"/notes.txt", "notes.txt", none⟩,
  ⟨"/gone.py", "gone.py", some .python⟩,
  ⟨"/run.sh", "run.sh", some .bash⟩]

/-- The sources that cannot be read or parsed cost nothing but their own records, whichever of two
workers takes them, and wherever the records are divided in two, the numbers of the parts merge
into the same. -/
theorem build_isolates_mixed :
    bashless.Forgets ∧ Pools.pair.KeepOrder ∧
    (build bashless .pair shelf { workers := some 2 } mixedSources).files.map FileRecord.path =
      ["main.rs", "notes.txt", "gone.py", "run.sh"] ∧
    (build bashless .pair shelf { workers := some 2 } mixedSources).files.map FileRecord.errors = [
      [],
      ["Unsupported file extension: txt"],
      ["Failed to read file: No such file or directory (os error 2)"],
      ["Parser unavailable for Bash: Incompatible language version 9"]] ∧
    ∀ front back,
      front ++ back = (build bashless .pair shelf { workers := some 2 } mixedSources).files →
        ((Stats.ofFiles front).merge (Stats.ofFiles back)).counters =
          { filesProcessed := 4, filesWithErrors := 3 } := by
  obtain ⟨paths, _, _, merged, counted⟩ := build_isolates shelf { workers := some 2 }
    bashless_forgets Pools.pair_keepOrder mixedSources
  refine ⟨bashless_forgets, Pools.pair_keepOrder, paths.trans rfl, by decide +kernel,
    fun front back divided => ?_⟩
  have sum := merged [front, back] (by simpa using divided)
  rw [List.map_cons, List.foldl_cons, Stats.nothing_merge] at sum
  refine sum.trans (counted.trans ?_)
  decide +kernel

end Project

end CodeAtlas
