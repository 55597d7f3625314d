/-
This file compares the calls of a part of a file with those of a wider part. A wider search captures
whatever a narrower one does, so it finds every call that the narrower one finds and lists its name,
unless the list is full. The calls of a function are searched for in its body, or in all of its
definition if it has none; so a function whose list is not full calls whatever is called by a
function further inside.
-/

import CodeAtlas.Proofs.Extraction.Callees
import CodeAtlas.Proofs.Extraction.Definitions

namespace CodeAtlas

open Site

theorem Site.atOrBelow_of_follow? {site below : Site} {indexes : List Nat}
    (found : site.follow? indexes = some below) : AtOrBelow site below := by
  induction indexes generalizing site with
  | nil =>
    cases found
    exact .self
  | cons index indexes inductionHypothesis =>
    rw [follow?] at found
    split at found
    · next child isChild =>
      exact .trans (.child .self (List.mem_of_getElem? isChild)) (inductionHypothesis found)
    · cases found

/-! ### Lists that are not full -/

namespace Callees

variable {source : Text.Chars} {captures wider : List Capture} {name : String}

theorem exists_calls_of_mem_kept (member : name ∈ kept (found source captures)) :
    ∃ capture ∈ captures, Calls source capture name := by
  rw [kept_found_eq] at member
  exact mem_allowedNames_iff.mp (List.mem_of_mem_take member)

/-- A list of calls that is not full has left no name out. -/
theorem mem_kept_of_calls (notFull : (kept (found source captures)).length < 20)
    {capture : Capture} (member : capture ∈ captures) (calls : Calls source capture name) :
    name ∈ kept (found source captures) := by
  rw [kept_found_eq] at notFull ⊢
  rw [List.length_take] at notFull
  have short : (allowedNames source captures).length ≤ 20 := by omega
  rw [List.take_of_length_le short]
  exact mem_allowedNames_iff.mpr ⟨capture, member, calls⟩

/-- With more captures a list has no fewer names, as long as it is not full. -/
theorem kept_subset (within : captures ⊆ wider)
    (notFull : (kept (found source wider)).length < 20) :
    kept (found source captures) ⊆ kept (found source wider) := by
  intro name member
  obtain ⟨capture, captured, calls⟩ := exists_calls_of_mem_kept member
  exact mem_kept_of_calls notFull (within captured) calls

end Callees

/-! ### Where the calls of a function are searched for -/

namespace Extraction

open Ownership

variable {file : ParsedFile} {options : AnalysisOptions}

/-- The site in which the calls of the function at an offset are searched for: the body of its
definition, or the definition itself if it has no body. -/
def callScope? (file : ParsedFile) (offset : Nat) : Option Site :=
  (Catalog.search file .functions).toOption.bind fun run =>
    (draftAt? offset (draftsBy run file .functions)).map fun draft =>
      draft.body.getD draft.site

/-- Whether the calls of a function are those that a search finds in the site in which they are
searched for. -/
structure CallsWithin (file : ParsedFile) (run : Site → List Match) (function : Function)
    (scope : Site) : Prop where
  found : callScope? file function.offset = some scope
  inFile : AtOrBelow file.rootSite scope
  calls : function.calls = Callees.ofMatches file.source (run scope)

/-- Every function of a record was found in the file, where it may not have been a method yet. -/
theorem exists_of_mem_allFunctions_record {path : String} {function : Function}
    (member : function ∈ (record options path file).allFunctions) :
    ∃ found ∈ (functions (Catalog.search file) options file).2,
      function = found ∨ function = asMethod found := by
  have inFull {function : Function}
      (member : function ∈ (fullRecord (Catalog.search file) options file path).allFunctions) :
      ∃ found ∈ (functions (Catalog.search file) options file).2,
        function = found ∨ function = asMethod found := by
    rw [allFunctions_fullRecord, mem_allAfter_iff] at member
    rcases member with ⟨isFound, _⟩ | ⟨_, moved, isFound, _, rfl⟩
    · exact ⟨function, isFound, .inl rfl⟩
    · exact ⟨moved, isFound, .inr rfl⟩
  rw [record] at member
  cases granularity : options.granularity with
  | file =>
    rw [recordBy_file _ options file path granularity] at member
    cases member
  | detailed =>
    rw [recordBy_detailed _ options file path granularity] at member
    split at member
    · exact inFull member
    · exact inFull ((allFunctions_dropPrivate_sublist _).subset member)

theorem exists_callsWithin_of_mem_functions {run : Site → List Match}
    (searchable : Catalog.search file .calls = .ok run) {function : Function}
    (member : function ∈ (functions (Catalog.search file) options file).2) :
    ∃ scope, CallsWithin file run function scope := by
  obtain ⟨runFunctions, usable, draft, draftMember, found⟩ := exists_draft_of_mem_functions member
  have atOffset : draftAt? draft.offset (draftsBy runFunctions file .functions) = some draft :=
    (draftAt?_eq_some_iff (ascending_gather _ _ _)).mpr ⟨draftMember, rfl⟩
  refine ⟨draft.body.getD draft.site, ?_, scope_mem_file usable draftMember, ?_⟩
  · rw [callScope?, usable, offset_of_functionOf? found]
    show (draftAt? draft.offset (draftsBy runFunctions file .functions)).map _ = _
    rw [atOffset]
    rfl
  · obtain ⟨name, named, rfl⟩ := Option.map_eq_some_iff.mp found
    rw [callSearch, searchable]
    rfl

/-- The calls of every function and method of a record are searched for somewhere in the file. -/
theorem exists_callsWithin_of_mem_record {run : Site → List Match}
    (searchable : Catalog.search file .calls = .ok run) {path : String} {function : Function}
    (member : function ∈ (record options path file).allFunctions) :
    ∃ scope, CallsWithin file run function scope := by
  obtain ⟨found, isFound, rfl | rfl⟩ := exists_of_mem_allFunctions_record member
  · exact exists_callsWithin_of_mem_functions searchable isFound
  · obtain ⟨scope, within⟩ := exists_callsWithin_of_mem_functions searchable isFound
    exact ⟨scope, within.found, within.inFile, within.calls⟩

end Extraction

namespace Callees

open Extraction

theorem ofMatches_subset {file : ParsedFile} {run : Site → List Match}
    (searchable : Catalog.search file .calls = .ok run) {outer inner : Site}
    (inside : AtOrBelow outer inner) (notFull : (ofMatches file.source (run outer)).length < 20) :
    ofMatches file.source (run inner) ⊆ ofMatches file.source (run outer) :=
  kept_subset (fun _ => mem_capturesOf_of_atOrBelow searchable inside) notFull

/-- A list of calls that is not full has all names that are listed further inside. So a function
whose list is not full calls whatever is called by a function whose calls are searched for inside
the site in which its own are. -/
theorem ofMatches_widens (file : ParsedFile) (run : Site → List Match)
    (searchable : Catalog.search file .calls = .ok run) :
    (∀ outer inner, AtOrBelow outer inner → (ofMatches file.source (run outer)).length < 20 →
      ∀ name ∈ ofMatches file.source (run inner), name ∈ ofMatches file.source (run outer)) ∧
    ∀ options path, ∀ outer ∈ (record options path file).allFunctions,
      ∀ inner ∈ (record options path file).allFunctions, ∃ outerScope innerScope,
        CallsWithin file run outer outerScope ∧ CallsWithin file run inner innerScope ∧
          (AtOrBelow outerScope innerScope → outer.calls.length < 20 →
            ∀ name ∈ inner.calls, name ∈ outer.calls) := by
  refine ⟨fun outer inner inside notFull name member =>
    ofMatches_subset searchable inside notFull member, ?_⟩
  intro options path outer outerMember inner innerMember
  obtain ⟨outerScope, outerWithin⟩ := exists_callsWithin_of_mem_record searchable outerMember
  obtain ⟨innerScope, innerWithin⟩ := exists_callsWithin_of_mem_record searchable innerMember
  refine ⟨outerScope, innerScope, outerWithin, innerWithin, fun inside notFull name member => ?_⟩
  rw [outerWithin.calls] at notFull ⊢
  rw [innerWithin.calls] at member
  exact ofMatches_subset searchable inside notFull member

/-- A script with a function inside another one. -/
def nested : ParsedFile where
  language := .python
  source := "def outer():\n    def inner():\n        load()\n    save()\n".toList
  root :=
    ⟨"module", none, 0, 56,
      [⟨"function_definition", none, 0, 55,
        [⟨"identifier", some "name", 4, 9, []⟩, ⟨"parameters", some "parameters", 9, 11, []⟩,
          ⟨"block", some "body", 17, 55,
            [⟨"function_definition", none, 17, 44,
              [⟨"identifier", some "name", 21, 26, []⟩,
                ⟨"parameters", some "parameters", 26, 28, []⟩,
                ⟨"block", some "body", 38, 44,
                  [⟨"expression_statement", none, 38, 44,
                    [⟨"call", none, 38, 44,
                      [⟨"identifier", some "function", 38, 42, []⟩,
                        ⟨"argument_list", some "arguments", 42, 44, []⟩]⟩]⟩]⟩]⟩,
              ⟨"expression_statement", none, 49, 55,
                [⟨"call", none, 49, 55,
                  [⟨"identifier", some "function", 49, 53, []⟩,
                    ⟨"argument_list", some "arguments", 53, 55, []⟩]⟩]⟩]⟩]⟩]⟩
  hasSyntaxErrors := false

/-- In the script, functions are met in the order of their places already. -/
theorem draftsBy_nested :
    draftsBy (Functions.python.matches nested.source) nested .functions =
      gather .functions nested.source
        ((Functions.python.matchesByTop nested.source nested.rootSite).flatMap Match.captures) := by
  have ordered : Functions.python.matches nested.source nested.rootSite =
      Functions.python.matchesByTop nested.source nested.rootSite :=
    List.mergeSort_of_pairwise (by decide +kernel)
  rw [draftsBy, capturesOf, ordered]

theorem callScope?_nested :
    callScope? nested 0 = nested.rootSite.follow? [0, 2] ∧
      callScope? nested 17 = nested.rootSite.follow? [0, 2, 0, 2] := by
  have scope (offset : Nat) : callScope? nested offset =
      (draftAt? offset (draftsBy (Functions.python.matches nested.source) nested .functions)).map
        fun draft => draft.body.getD draft.site := rfl
  rw [scope, scope, draftsBy_nested]
  constructor <;> with_unfolding_all rfl

theorem mem_offsets_nested {offset : Nat} (defined : offset = 0 ∨ offset = 17) :
    ∃ function ∈ (record { includePrivate := true } "nested.py" nested).allFunctions,
      function.offset = offset := by
  have named : ∃ draft ∈ draftsBy (Functions.python.matches nested.source) nested .functions,
      draft.offset = offset ∧ draft.name.isSome := by
    rw [draftsBy_nested]
    rcases defined with rfl | rfl <;> decide +kernel
  have searchable : Catalog.search nested .functions =
      .ok (Functions.python.matches nested.source) := rfl
  rw [record_eq_fullRecord _ rfl rfl, allFunctions_fullRecord, ← List.mem_map,
    Ownership.mem_offsets_allAfter_iff, functions_ok searchable]
  exact (mem_offsets_filterMap_iff (functionOf? _ _ _ _) (fun _ => Option.isSome_map)
    offset_of_functionOf? _ _).mpr named

/-- The outer function calls what the inner one calls. -/
theorem ofMatches_widens_nested :
    ∃ run, Catalog.search nested .calls = .ok run ∧
      ∃ outer ∈ (record { includePrivate := true } "nested.py" nested).allFunctions,
        ∃ inner ∈ (record { includePrivate := true } "nested.py" nested).allFunctions,
          outer.offset = 0 ∧ outer.calls.length < 20 ∧ inner.offset = 17 ∧
            inner.calls = ["load"] ∧ "load" ∈ outer.calls := by
  have searchable : Catalog.search nested .calls = .ok (Calls.python.matches nested.source) := rfl
  obtain ⟨outer, outerMember, outerOffset⟩ := mem_offsets_nested (.inl rfl)
  obtain ⟨inner, innerMember, innerOffset⟩ := mem_offsets_nested (.inr rfl)
  obtain ⟨outerScope, innerScope, outerWithin, innerWithin, widens⟩ :=
    (ofMatches_widens nested _ searchable).2 _ _ outer outerMember inner innerMember
  have outerFound := outerWithin.found
  have innerFound := innerWithin.found
  rw [outerOffset, callScope?_nested.1] at outerFound
  rw [innerOffset, callScope?_nested.2] at innerFound
  have inside : AtOrBelow outerScope innerScope := by
    refine atOrBelow_of_follow? (?_ : outerScope.follow? [0, 2] = some innerScope)
    rw [← innerFound, ← Option.bind_some (f := (follow? · [0, 2])), ← outerFound]
    rfl
  obtain rfl := Option.some.inj outerFound
  obtain rfl := Option.some.inj innerFound
  have notFull : outer.calls.length < 20 := by
    rw [outerWithin.calls, ofMatches, Query.matches, List.mergeSort_of_pairwise (by decide +kernel),
      kept, List.mergeSort_of_pairwise (by decide +kernel)]
    decide +kernel
  have calls : inner.calls = ["load"] := by
    rw [innerWithin.calls]
    decide +kernel
  exact ⟨_, searchable, outer, outerMember, inner, innerMember, outerOffset, notFull, innerOffset,
    calls, widens inside notFull "load" (calls ▸ List.mem_singleton_self _)⟩

end Callees

end CodeAtlas
