/-
This file says what a record lacks when some categories cannot be searched. Each category that
fails takes its own part of the record with it and is named once among the errors; what the
others find stays. Without calls the functions call nothing, and without classes all of them
are free, marked as methods only if their own nodes make them so.
-/

import CodeAtlas.Proofs.Extraction.Parts
import CodeAtlas.Proofs.Tree.Extent
import CodeAtlas.Tree.Parser

namespace CodeAtlas

/-! ### Searches that fail -/

namespace Catalog

/-- The search of a language in which the categories with a reason to fail do so, and each of
the others finds what `runs` says. -/
def failing (language : Language) (reasons : Category → Option String)
    (runs : Category → Site → List Match) : Search := fun category =>
  match reasons category with
  | some reason => .error (failureMessage language category reason)
  | none => .ok (runs category)

/-- The search in which no category fails. -/
def healthy (runs : Category → Site → List Match) : Search := fun category =>
  .ok (runs category)

/-- What the queries of a language would find if all of them could be used. -/
def allRuns (file : ParsedFile) (category : Category) : Site → List Match :=
  (query file.language category).matches file.source

/-- Why the queries of a language cannot be used with a grammar, where they cannot. -/
def unusable (grammar : Grammar) (language : Language) (category : Category) : Option String :=
  match usable grammar language category with
  | .ok _ => none
  | .error error => some error.message

/-- A file is searched with those of its queries that can be used. -/
theorem search_eq_failing (file : ParsedFile) :
    search file = failing file.language (unusable (file.grammars file.language) file.language)
      (allRuns file) := by
  funext category
  unfold search failing unusable
  cases found : usable (file.grammars file.language) file.language category with
  | error error => rfl
  | ok used =>
    have same : used = query file.language category := by
      unfold usable at found
      dsimp only at found
      split at found
      · cases found
      · exact (Except.ok.inj found).symm
    rw [same]
    rfl

/-- A query cannot be used if it asks for a kind that the grammar does not have. -/
theorem unusable_isSome_iff {grammar : Grammar} {language : Language} {category : Category} :
    (unusable grammar language category).isSome ↔
      ∃ kind ∈ (query language category).kinds, grammar.hasKind kind = false := by
  unfold unusable usable
  dsimp only
  cases found : (query language category).kinds.find? fun kind => !grammar.hasKind kind with
  | some kind =>
    have lacks := List.find?_some found
    rw [Bool.not_eq_true'] at lacks
    exact iff_of_true rfl ⟨kind, List.mem_of_find?_eq_some found, lacks⟩
  | none =>
    refine iff_of_false Bool.false_ne_true fun ⟨kind, asked, lacks⟩ => ?_
    have has := List.find?_eq_none.mp found kind asked
    rw [lacks] at has
    exact has rfl

end Catalog

/-- What is known of the grammar of Bash: of the kinds that the general queries ask for, it has
the definitions of functions alone. -/
structure Grammar.OfBash (grammar : Grammar) : Prop where
  functions : grammar.hasKind "function_definition" = true
  noImports : grammar.hasKind "import_statement" = false
  noClasses : grammar.hasKind "class_definition" = false
  noCalls : grammar.hasKind "call_expression" = false

theorem Parser.knownGrammar_ofBash : (Parser.knownGrammar .bash).OfBash := by
  constructor <;> decide

/-- Bash has the general queries, and of those only the one for functions can be used. -/
theorem Catalog.unusable_bash_iff {grammar : Grammar} (ofBash : grammar.OfBash)
    (category : Category) :
    (unusable grammar .bash category).isSome ↔ category ≠ .functions := by
  rw [unusable_isSome_iff]
  cases category with
  | imports => exact iff_of_true ⟨_, List.mem_cons_self, ofBash.noImports⟩ (by decide)
  | classes => exact iff_of_true ⟨_, List.mem_cons_self, ofBash.noClasses⟩ (by decide)
  | calls => exact iff_of_true ⟨_, List.mem_cons_self, ofBash.noCalls⟩ (by decide)
  | functions =>
    have kinds : ∀ kind ∈ (query .bash .functions).kinds, kind = "function_definition" := by
      decide
    refine iff_of_false (fun ⟨kind, asked, lacks⟩ => ?_) (not_not_intro rfl)
    rw [kinds kind asked, ofBash.functions] at lacks
    cases lacks

/-! ### What is left -/

/-- The function without its calls. -/
def Function.silent (function : Function) : Function :=
  { function with calls := [] }

/-- The function without the mark of a method. -/
def Function.unmarked (function : Function) : Function :=
  { function with isMethod := false }

namespace Extraction

open Ownership

section

variable (reasons : Category → Option String)

/-- Whether a category fails. -/
def fails (category : Category) : Bool :=
  (reasons category).isSome

/-- The function without its calls if calls cannot be searched for. -/
def heard (function : Function) : Function :=
  if fails reasons .calls then function.silent else function

/-- What is said about the categories that fail, in order. Calls are searched for in functions,
so that nothing is said about them when functions cannot be searched for. -/
def complaints (language : Language) : List String :=
  [Category.imports, .classes, .functions, .calls].filterMap fun category =>
    if category = .calls ∧ fails reasons .functions then none
    else (reasons category).map (Catalog.failureMessage language category)

/-- What a record by a search in which some categories fail has of the record by the search in
which none does. -/
structure Degrades (file : ParsedFile) (runs : Category → Site → List Match)
    (full degraded : FileRecord) : Prop where
  path : degraded.path = full.path
  language : degraded.language = full.language
  imports : degraded.imports = if fails reasons .imports then [] else full.imports
  classes : degraded.classes.map Class.bare =
    if fails reasons .classes then [] else full.classes.map Class.bare
  /-- Without functions there are no methods either. -/
  no_functions : fails reasons .functions = true → degraded.allFunctions = []
  /-- The functions, free or not, are those that there were, apart from their calls and from the
  mark that a class gives to its methods. -/
  functions : fails reasons .functions = false →
    (degraded.allFunctions.map Function.unmarked).Perm
      (full.allFunctions.map fun function => (heard reasons function).unmarked)
  /-- As long as classes are found, functions stay where they were. -/
  owners : fails reasons .functions = false → fails reasons .classes = false →
    degraded.functions = full.functions.map (heard reasons) ∧
      degraded.classes.map Class.methods =
        full.classes.map fun owner => owner.methods.map (heard reasons)
  /-- A free function is marked as its own node says; without classes all of them are free. -/
  marks : ∀ function ∈ degraded.functions, ∃ site,
    definitionAt? .functions (capturesOf (runs .functions) file.rootSite) function.offset =
        some site ∧
      function.isMethod = isMethodSite site
  errors : degraded.errors = syntaxErrors file ++ complaints reasons file.language

end

/-! ### Parts -/

variable (options : AnalysisOptions) (file : ParsedFile) (reasons : Category → Option String)
  (runs : Category → Site → List Match)

/-- What a search says about a category that fails, if it does. -/
def complaint (language : Language) (category : Category) : List String :=
  ((reasons category).map (Catalog.failureMessage language category)).toList

theorem complaints_eq (language : Language) :
    complaints reasons language =
      complaint reasons language .imports ++ (complaint reasons language .classes ++
        if fails reasons .functions then complaint reasons language .functions
        else complaint reasons language .calls) := by
  unfold complaints complaint fails
  cases imports : reasons .imports <;> cases classes : reasons .classes <;>
    cases functions : reasons .functions <;> cases calls : reasons .calls <;>
    simp [imports, classes, functions, calls]

theorem draftsOf_failing (category : Category) :
    draftsOf (Catalog.failing file.language reasons runs) file category =
      match reasons category with
      | some reason => .error (Catalog.failureMessage file.language category reason)
      | none => .ok (draftsBy (runs category) file category) := by
  unfold draftsOf Catalog.failing
  cases reasons category <;> rfl

theorem imports_failing :
    imports (Catalog.failing file.language reasons runs) file =
      (complaint reasons file.language .imports,
        if fails reasons .imports then [] else (imports (Catalog.healthy runs) file).2) := by
  unfold imports fails complaint
  rw [draftsOf_failing]
  cases reasons .imports <;> rfl

theorem classes_failing :
    classes (Catalog.failing file.language reasons runs) options file =
      (complaint reasons file.language .classes,
        if fails reasons .classes then []
        else (classes (Catalog.healthy runs) options file).2) := by
  unfold classes fails complaint
  rw [draftsOf_failing]
  cases reasons .classes <;> rfl

/-- Without a search for calls a function has none. -/
theorem functionOf?_silent (style : DocStyle) (source : Text.Chars)
    (calls : Option (Site → List Match)) (draft : Draft) :
    functionOf? options style source none draft =
      (functionOf? options style source calls draft).map Function.silent := by
  unfold functionOf?
  rw [Option.map_map]
  rfl

theorem functions_failing :
    functions (Catalog.failing file.language reasons runs) options file =
      if fails reasons .functions then (complaint reasons file.language .functions, [])
      else (complaint reasons file.language .calls,
        (functions (Catalog.healthy runs) options file).2.map (heard reasons)) := by
  unfold functions
  rw [draftsOf_failing]
  unfold fails complaint
  cases reasons .functions with
  | some reason => rfl
  | none =>
    have silence (draft : Draft) := functionOf?_silent options file.language.docStyle file.source
      (some (runs .calls)) draft
    unfold Catalog.failing heard fails
    cases reasons .calls with
    | some reason =>
      show ([_], List.filterMap _ _) = ([_], List.map Function.silent (List.filterMap _ _))
      rw [List.map_filterMap]
      simp only [silence]
      rfl
    | none => exact congrArg (Prod.mk []) (List.map_id _).symm

/-! ### Moving functions -/

theorem heard_asMethod (function : Function) :
    heard reasons (asMethod function) = asMethod (heard reasons function) := by
  unfold heard
  split <;> rfl

/-- The class with its methods without their calls if calls cannot be searched for. -/
def heardClass (owner : Class) : Class :=
  { owner with methods := owner.methods.map (heard reasons) }

theorem keepsOwners_heard (classes : List Class) :
    KeepsOwners classes (heardClass reasons) (heard reasons) where
  owner function := by
    have spans : (classes.map (heardClass reasons)).map span = classes.map span := by
      rw [List.map_map]
      rfl
    rw [owner?_congr spans]
    unfold heard
    split <;> rfl
  methods owner owned := by
    simp only [heardClass, List.map_map, Function.comp_def, heard_asMethod]

/-- Before functions are moved, classes have no methods to lose calls. -/
theorem map_heardClass_classes (search : Catalog.Search) :
    (classes search options file).2.map (heardClass reasons) =
      (classes search options file).2 := by
  have same : ∀ owner ∈ (classes search options file).2, heardClass reasons owner = owner := by
    intro owner member
    have none := (unassigned_parts search options file).noMethods owner member
    rw [heardClass, none, List.map_nil, ← none]
  rw [List.map_congr_left same, List.map_id']

theorem map_bare_withMethods (classes : List Class) (functions : List Function) :
    (withMethods classes functions).map Class.bare = classes.map Class.bare := by
  refine List.ext_getElem? fun index => ?_
  rw [List.getElem?_map, withMethods, List.getElem?_mapIdx, Option.map_map, List.getElem?_map]
  rfl

/-- Without calls the functions are the same to whoever does not look at calls and marks. -/
theorem perm_unmarked_heard (search : Catalog.Search) (classes : List Class) :
    ((allAfter classes ((functions search options file).2.map (heard reasons))).map
        Function.unmarked).Perm
      ((functions search options file).2.map fun function =>
        (heard reasons function).unmarked) := by
  have offset (function : Function) : (heard reasons function).offset = function.offset := by
    unfold heard
    split <;> rfl
  have offsets : ((functions search options file).2.map (heard reasons)).Pairwise
      fun first second => first.offset < second.offset := by
    refine List.pairwise_map.mpr ((offsets_functions search options file).imp fun before => ?_)
    rw [offset, offset]
    exact before
  have moved := perm_map_allAfter classes offsets Function.unmarked (fun _ => rfl) fun _ => rfl
  rw [List.map_map] at moved
  exact moved

/-! ### Records -/

variable (path : String)

/-- A search in which categories fail takes from the record what they would have found. -/
theorem degrades_fullRecord :
    Degrades reasons file runs (fullRecord (Catalog.healthy runs) options file path)
      (fullRecord (Catalog.failing file.language reasons runs) options file path) where
  path := rfl
  language := rfl
  imports := congrArg Prod.snd (imports_failing file reasons runs)
  classes := by
    show (withMethods _ _).map Class.bare = if _ then [] else (withMethods _ _).map Class.bare
    rw [map_bare_withMethods, map_bare_withMethods, classes_failing]
    dsimp only
    split <;> rfl
  no_functions failed := by
    rw [allFunctions_fullRecord, functions_failing, if_pos failed]
    refine List.eq_nil_iff_forall_not_mem.mpr fun function member => ?_
    rcases mem_allAfter_iff.mp member with ⟨absent, _⟩ | ⟨_, _, absent, _⟩ <;> cases absent
  functions found := by
    rw [allFunctions_fullRecord, allFunctions_fullRecord, functions_failing,
      if_neg (Bool.eq_false_iff.mp found)]
    have before := perm_map_allAfter (classes (Catalog.healthy runs) options file).2
      (offsets_functions (Catalog.healthy runs) options file)
      (fun function => (heard reasons function).unmarked)
      (fun function => by unfold heard; split <;> rfl)
      (fun function => by unfold heard; split <;> rfl)
    exact (perm_unmarked_heard options file reasons _ _).trans before.symm
  owners found classesFound := by
    have keeps := keepsOwners_heard reasons (classes (Catalog.healthy runs) options file).2
    have functions := functions_failing options file reasons runs
    have classes := classes_failing options file reasons runs
    rw [if_neg (Bool.eq_false_iff.mp found)] at functions
    rw [if_neg (Bool.eq_false_iff.mp classesFound),
      ← map_heardClass_classes options file reasons] at classes
    show unowned _ _ = (unowned _ _).map _ ∧
      (withMethods _ _).map Class.methods = (withMethods _ _).map _
    rw [functions, classes, unowned_map keeps, withMethods_map keeps, List.map_map]
    exact ⟨rfl, rfl⟩
  marks function member := by
    obtain ⟨run, usable, draft, draftMember, found⟩ :=
      exists_draft_of_mem_functions (mem_unowned_iff.mp member).1
    have same : run = runs .functions := by
      unfold Catalog.failing at usable
      split at usable
      · cases usable
      · exact (Except.ok.inj usable).symm
    refine ⟨draft.site, ?_, ?_⟩
    · rw [offset_of_functionOf? found, ← same]
      exact definitionAt?_of_mem_gather _ _ _ draftMember
    · obtain ⟨_, _, rfl⟩ := Option.map_eq_some_iff.mp found
      rfl
  errors := by
    show syntaxErrors file ++ _ ++ _ ++ _ = _
    rw [imports_failing, classes_failing, functions_failing, complaints_eq, List.append_assoc,
      List.append_assoc]
    cases fails reasons .functions <;> rfl

/-- A category that cannot be searched takes only its own part of the record with it. The
record of a file is degraded so by those queries that cannot be used with the grammar of its
language; in Bash these are the queries for imports, classes and calls. -/
theorem recordBy_degrades (detailed : options.granularity = .detailed)
    (wanted : options.includePrivate = true) :
    Degrades reasons file runs (recordBy (Catalog.healthy runs) options path file)
        (recordBy (Catalog.failing file.language reasons runs) options path file) ∧
      Degrades (Catalog.unusable (file.grammars file.language) file.language) file
        (Catalog.allRuns file) (recordBy (Catalog.healthy (Catalog.allRuns file)) options path file)
        (record options path file) ∧
      ∀ grammar : Grammar, grammar.OfBash → ∀ category : Category,
        fails (Catalog.unusable grammar .bash) category = true ↔ category ≠ .functions := by
  have full (search : Catalog.Search) :
      recordBy search options path file = fullRecord search options file path := by
    rw [recordBy_detailed search options file path detailed, if_pos wanted]
  rw [record, Catalog.search_eq_failing, full, full, full, full]
  exact ⟨degrades_fullRecord options file reasons runs path,
    degrades_fullRecord options file _ _ path, fun _ => Catalog.unusable_bash_iff⟩

/-- Two categories fail for reasons of their own. -/
def withoutClassesAndCalls : Category → Option String
  | .classes => some "Query error at 2:2. Invalid node type class_definition"
  | .calls => some "Query error at 3:1. Invalid field name callee"
  | .imports | .functions => none

theorem recordBy_degrades_shapes :
    ({ includePrivate := true } : AnalysisOptions).granularity = .detailed ∧
      ({ includePrivate := true } : AnalysisOptions).includePrivate = true ∧
      (recordBy (Catalog.failing .python withoutClassesAndCalls (Catalog.allRuns shapes))
        { includePrivate := true } "shapes.py" shapes).classes = [] ∧
      (recordBy (Catalog.failing .python withoutClassesAndCalls (Catalog.allRuns shapes))
        { includePrivate := true } "shapes.py" shapes).errors = [
          "Query failure (Python classes): " ++
            "Query error at 2:2. Invalid node type class_definition",
          "Query failure (Python calls): Query error at 3:1. Invalid field name callee"] ∧
      (Parser.knownGrammar .bash).OfBash ∧
      fails (Catalog.unusable (Parser.knownGrammar .bash) .bash) .functions = false := by
  obtain ⟨degrades, _, bash⟩ := recordBy_degrades { includePrivate := true } shapes
    withoutClassesAndCalls (Catalog.allRuns shapes) "shapes.py" rfl rfl
  have functions := bash _ Parser.knownGrammar_ofBash .functions
  exact ⟨rfl, rfl, List.map_eq_nil_iff.mp degrades.classes, degrades.errors.trans (by decide),
    Parser.knownGrammar_ofBash, Bool.eq_false_iff.mpr fun failed => functions.mp failed rfl⟩

end Extraction

end CodeAtlas
