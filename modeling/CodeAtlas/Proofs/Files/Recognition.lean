/-
This file shows that the search for source files and the recognition of languages agree. The one
compares extensions ignoring the case of the letters A to Z, the other by their lower-case forms;
for the extensions of the known languages this is the same. So the search with its usual settings
finds no file whose language is unknown, and of the files to which it comes within its limits it
finds all whose language is known.
-/

import CodeAtlas.Proofs.Files.Limits
import CodeAtlas.Proofs.Project.Building
import CodeAtlas.Proofs.Text.LowerCase

namespace CodeAtlas

open Text

namespace Language

theorem allExtensions_ne_nil : allExtensions ≠ [] := by
  decide

theorem mem_allExtensions_iff {extension : String} :
    extension ∈ allExtensions ↔ ∃ language, extension ∈ extensions language := by
  rw [allExtensions, List.mem_flatMap]
  exact exists_congr fun language => and_iff_right (mem_all language)

/-- Every extension of a language is made of small letters, other than k, and of plus signs. -/
theorem isPlainWord_of_mem_allExtensions : ∀ extension ∈ allExtensions,
    IsPlainWord extension.toList ∧ extension.toList.map Char.toLower = extension.toList := by
  -- The test goes over the characters of the extensions, not over all characters there are.
  have tested : (allExtensions.all fun extension =>
      (extension.toList.all fun character => decide (IsAscii character ∧ character ≠ 'k')) &&
        decide (extension.toList.map Char.toLower = extension.toList)) = true := by
    decide +kernel
  intro extension member
  have passes := List.all_eq_true.mp tested extension member
  rw [Bool.and_eq_true, List.all_eq_true, decide_eq_true_eq] at passes
  exact ⟨fun character inWord => of_decide_eq_true (passes.1 character inWord), passes.2⟩

theorem ofExtension?_isSome_iff {extension : String} :
    (ofExtension? extension).isSome = true ↔
      String.ofList (lower extension.toList) ∈ allExtensions := by
  unfold ofExtension?
  rw [List.find?_isSome, mem_allExtensions_iff]
  simp only [decide_eq_true_eq]
  exact exists_congr fun language => and_iff_right (mem_all language)

/-- An extension belongs to a language exactly if it is one of the extensions of all languages but
for the case of its letters A to Z. -/
theorem ofExtension?_isSome_iff_exists {extension : Chars} :
    (ofExtension? (String.ofList extension)).isSome = true ↔
      ∃ known ∈ allExtensions, known.toList.map Char.toLower = extension.map Char.toLower := by
  rw [ofExtension?_isSome_iff, String.toList_ofList]
  constructor
  · intro member
    obtain ⟨plain, small⟩ := isPlainWord_of_mem_allExtensions _ member
    refine ⟨_, member, ?_⟩
    rw [small]
    exact ((lower_eq_iff plain).mp String.toList_ofList.symm).symm
  · rintro ⟨known, member, same⟩
    obtain ⟨plain, small⟩ := isPlainWord_of_mem_allExtensions known member
    rw [small] at same
    rw [(lower_eq_iff plain).mpr same.symm, String.ofList_toList]
    exact member

end Language

/-! ### Messages -/

section Messages

variable {front : String} {first : Char}

theorem head?_toList_append (begins : front.toList.head? = some first) (back : String) :
    (front ++ back).toList.head? = some first := by
  rw [String.toList_append, List.head?_append, begins, Option.some_or]

theorem head?_failureMessage (language : Language) (category : Category) (reason : String) :
    (Catalog.failureMessage language category reason).toList.head? = some 'Q' := by
  have front : "Query failure (".toList.head? = some 'Q' := by decide +kernel
  unfold Catalog.failureMessage
  repeat refine head?_toList_append ?_ _
  exact front

theorem head?_syntaxErrorMessage : Extraction.syntaxErrorMessage.toList.head? = some 'F' := by
  decide +kernel

theorem head?_unsupported (extension : String) :
    (Project.ReadError.unsupported extension).message.toList.head? = some 'U' := by
  have front : "Unsupported file extension: ".toList.head? = some 'U' := by decide +kernel
  exact head?_toList_append front extension

theorem head?_unreadable (error : FileError) :
    (Project.ReadError.unreadable error).message.toList.head? = some 'F' := by
  have front : "Failed to read file: ".toList.head? = some 'F' := by decide +kernel
  exact head?_toList_append front error.message

theorem head?_unparsed (error : ParseError) :
    (Project.ReadError.unparsed error).message.toList.head? = some 'P' ∨
      (Project.ReadError.unparsed error).message.toList.head? = some 'F' := by
  cases error with
  | unavailable language reason =>
    have front : "Parser unavailable for ".toList.head? = some 'P' := by decide +kernel
    exact .inl (head?_toList_append (head?_toList_append (head?_toList_append front _) _) _)
  | noTree language =>
    have front : "Failed to parse source: ".toList.head? = some 'F' := by decide +kernel
    exact .inr (head?_toList_append (head?_toList_append front _) _)

end Messages

namespace Project

/-- A record that one worker makes is that of one of its sources. -/
theorem exists_of_mem_recordsOf {parser : Parser} {files : FileSystem} {options : AnalysisOptions}
    {sources : List SourceFile} {state : parser.State} {found : FileRecord}
    (member : found ∈ recordsOf parser files options sources state) :
    ∃ source ∈ sources, ∃ before, found = (record parser files options source before).1 := by
  induction sources generalizing state with
  | nil => cases member
  | cons source sources inductionHypothesis =>
    rw [recordsOf] at member
    rcases List.mem_cons.mp member with rfl | member
    · exact ⟨source, List.mem_cons_self, state, rfl⟩
    · obtain ⟨other, isSource, before, same⟩ := inductionHypothesis member
      exact ⟨other, List.mem_cons_of_mem _ isSource, before, same⟩

/-- A record of an analysis is that of one of its sources, whoever makes it. -/
theorem exists_of_mem_records {parser : Parser} {pools : Pools} (keeps : pools.KeepOrder)
    {files : FileSystem} {options : AnalysisOptions} {sources : List SourceFile}
    {found : FileRecord} (member : found ∈ records parser pools files options sources) :
    ∃ source ∈ sources, ∃ before, found = (record parser files options source before).1 := by
  obtain ⟨run, isRun, member⟩ := List.mem_flatMap.mp member
  obtain ⟨source, isSource, before, same⟩ := exists_of_mem_recordsOf member
  refine ⟨source, ?_, before, same⟩
  rw [← keeps.division options sources]
  exact List.mem_flatten_of_mem isRun isSource

/-- What goes wrong with a text that could be parsed is never told in the words for an unknown
language. -/
theorem unsupported_notMem_errors_record_parsed (options : AnalysisOptions) (path : String)
    (file : ParsedFile) (extension : String) :
    (ReadError.unsupported extension).message ∉ (Extraction.record options path file).errors := by
  intro member
  have begins := head?_unsupported extension
  rcases Extraction.of_mem_errors_recordBy member with inSyntax | ⟨category, failed⟩
  · rw [Extraction.syntaxErrors] at inSyntax
    split at inSyntax
    · rw [List.mem_singleton.mp inSyntax, head?_syntaxErrorMessage] at begins
      exact absurd begins (by decide)
    · cases inSyntax
  · rw [Catalog.search] at failed
    split at failed
    · cases failed
    · rw [← Except.error.inj failed, head?_failureMessage] at begins
      exact absurd begins (by decide)

/-- What goes wrong with a source in a known language is never told in the words for an unknown
one. -/
theorem unsupported_notMem_errors_record (parser : Parser) (files : FileSystem)
    (options : AnalysisOptions) {source : SourceFile} (known : source.language.isSome = true)
    (state : parser.State) (extension : String) :
    (ReadError.unsupported extension).message ∉
      (record parser files options source state).1.errors := by
  have begins := head?_unsupported extension
  obtain ⟨language, isLanguage⟩ := Option.isSome_iff_exists.mp known
  rw [record, isLanguage]
  dsimp only
  split
  · next content _ =>
    rw [recordOfText_fst]
    generalize (parser.parse language _ state).1 = parsed
    cases parsed with
    | ok file => exact unsupported_notMem_errors_record_parsed options _ file extension
    | error error =>
      intro member
      rw [List.mem_singleton.mp member] at begins
      rcases head?_unparsed error with isP | isF
      · rw [isP] at begins
        exact absurd begins (by decide)
      · rw [isF] at begins
        exact absurd begins (by decide)
  · intro member
    rw [List.mem_singleton.mp member, head?_unreadable] at begins
    exact absurd begins (by decide)

end Project

namespace Discovery

/-- The usual settings want the extension of a path exactly if it belongs to a language. -/
theorem acceptsExtension_usual (path : String) :
    acceptsExtension {} path = (Language.ofPath? path).isSome := by
  rw [Bool.eq_iff_iff, acceptsExtension_iff, Language.ofPath?]
  cases Path.extension? path with
  | none => simp [Language.allExtensions_ne_nil]
  | some extension =>
    rw [Option.bind_some, Language.ofExtension?_isSome_iff_exists]
    simp [Language.allExtensions_ne_nil]

/-- The usual limits of a search: the extension is that of a known language, the file has no more
than a mebibyte and does not lie below more than ten directories. -/
theorem accepted_usual_iff {files : FileSystem} {file : SourceFile}
    (told : file.language = Language.ofPath? file.path) :
    Accepted files {} file ↔ file.language.isSome = true ∧
      (∀ size, files.size? file.path = some size → size ≤ 1024 * 1024) ∧ file.depth ≤ 10 := by
  rw [told, ← acceptsExtension_usual, acceptsExtension_iff]
  constructor
  · rintro ⟨extension, size, depth⟩
    exact ⟨extension, size _ rfl, depth _ rfl⟩
  · rintro ⟨extension, size, depth⟩
    refine ⟨extension, fun limit isLimit => ?_, fun limit isLimit => ?_⟩
    · rwa [← Option.some.inj isLimit]
    · rwa [← Option.some.inj isLimit]

/-- What the usual settings choose, from whatever a walker has met, is in a known language. -/
theorem language_of_mem_chosen {root : String} {items : List WalkItem} {file : SourceFile}
    (member : file ∈ chosen root {} items) :
    file.language = Language.ofPath? file.path ∧ file.language.isSome = true := by
  obtain ⟨item, _, wanted, rfl⟩ := mem_chosen_iff.mp member
  rw [isWanted, Bool.and_eq_true, Bool.and_eq_true] at wanted
  exact ⟨rfl, (acceptsExtension_usual item.path).symm.trans wanted.1.2⟩

/-- Searching and recognizing agree. The usual settings want the extension of a path exactly if it
belongs to a language. So, whatever the walker, every file that the usual search finds is in a known
language, and in an analysis of what is found no file is complained of as one in an unknown language.
Where the walker follows its rules and does not refuse the usual patterns, of the files to which the
rules about what is passed over let the walk come, those in a known language are found that are
neither too large nor too deep. -/
theorem discover_recognizes (walker : Walker) (files : FileSystem) (root : String) :
    (∀ path, acceptsExtension {} path = (Language.ofPath? path).isSome) ∧
    (∀ sources, discover walker files root {} = .ok sources →
      (∀ file ∈ sources, file.language = Language.ofPath? file.path ∧
        file.language.isSome = true) ∧
      ∀ parser pools options, pools.KeepOrder →
        ∀ record ∈ (Project.build parser pools files options sources).files, ∀ extension,
          (Project.ReadError.unsupported extension).message ∉ record.errors) ∧
    (files.isDirectory root = true → files.root.WellNamed →
      walker.refusal? root (overrides walker {}) = none →
      ∀ passes, walker.Follows files root passes →
        ∃ sources, discover walker files root {} = .ok sources ∧
          ∀ file, file ∈ sources ↔ Discoverable files root (passes (rules walker {})) file ∧
            file.language.isSome = true ∧
            (∀ size, files.size? file.path = some size → size ≤ 1024 * 1024) ∧
            file.depth ≤ 10) := by
  refine ⟨acceptsExtension_usual, fun sources isFound => ?_,
    fun isDirectory wellNamed accepts passes follows => ?_⟩
  · have known : ∀ file ∈ sources, file.language = Language.ofPath? file.path ∧
        file.language.isSome = true := by
      unfold discover at isFound
      split at isFound
      · dsimp only at isFound
        split at isFound
        · cases isFound
        · obtain rfl := Except.ok.inj isFound
          exact fun file member => language_of_mem_chosen member
      · cases isFound
    refine ⟨known, fun parser pools options keeps record member extension => ?_⟩
    obtain ⟨source, isSource, before, rfl⟩ := Project.exists_of_mem_records keeps member
    exact Project.unsupported_notMem_errors_record parser files options (known source isSource).2
      before extension
  · have below : ∀ limit, ({} : DiscoveryOptions).maxDepth = some limit →
        limit.toNat < UInt64.size - 1 := by
      intro limit isLimit
      rw [← Option.some.inj isLimit]
      decide
    refine ⟨_, discover_eq_chosen isDirectory accepts, fun file => ?_⟩
    rw [mem_chosen_depthLimit?_iff follows isDirectory wellNamed below]
    refine and_congr_right fun discoverable => accepted_usual_iff ?_
    obtain ⟨_, _, _, _, rfl⟩ := discoverable
    rfl

/-- A file system with a source whose extension is written in capitals, and with a file whose
extension has a small letter outside ASCII for which S is the capital. -/
def cellar : FileSystem where
  root := .directory [("MAIN.RS", .file ⟨#[10]⟩), ("menu.j\u017f", .file ⟨#[10]⟩)]

/-- The capitals do not keep a file from being found, and the letter that is only like an s makes
no source of the other. -/
theorem discover_recognizes_cellar :
    cellar.isDirectory "/" = true ∧ cellar.root.WellNamed ∧
      Walker.builtIn.refusal? "/" (overrides .builtIn {}) = none ∧
      Walker.builtIn.Follows cellar "/" (Walker.builtInPasses cellar "/") ∧ Pools.pair.KeepOrder ∧
      acceptsExtension {} "/menu.j\u017f" = (Language.ofPath? "/menu.j\u017f").isSome ∧
      ∃ sources, discover .builtIn cellar "/" {} = .ok sources ∧
        (∀ record ∈ (Project.build (.ofKnown []) .pair cellar {} sources).files, ∀ extension,
          (Project.ReadError.unsupported extension).message ∉ record.errors) ∧
        ∀ file, file = ⟨"/MAIN.RS", "MAIN.RS", some .rust⟩ ↔
          Discoverable cellar "/" (Walker.builtInPasses cellar "/" (rules .builtIn {})) file ∧
          file.language.isSome = true ∧
          (∀ size, cellar.size? file.path = some size → size ≤ 1024 * 1024) ∧
          file.depth ≤ 10 := by
  have wellNamed : cellar.root.WellNamed := by
    simp [cellar, Entry.WellNamed, Entry.AllWellNamed, IsName]
  have isDirectory : cellar.isDirectory "/" = true := by decide +kernel
  have follows := Walker.builtIn_follows wellNamed "/"
  obtain ⟨agree, whenFound, whenFollowed⟩ := discover_recognizes .builtIn cellar "/"
  obtain ⟨sources, found, exactly⟩ := whenFollowed isDirectory wellNamed rfl _ follows
  have noComplaint := (whenFound sources found).2 (.ofKnown []) .pair {} Pools.pair_keepOrder
  have only : (discover .builtIn cellar "/" {}).toOption =
      some [⟨"/MAIN.RS", "MAIN.RS", some .rust⟩] := by decide +kernel
  refine ⟨isDirectory, wellNamed, rfl, follows, Pools.pair_keepOrder, agree _, sources, found,
    noComplaint, fun file => ?_⟩
  rw [found] at only
  rw [← exactly, Option.some.inj only, List.mem_singleton]

end Discovery

end CodeAtlas
