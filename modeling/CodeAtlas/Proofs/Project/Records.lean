/-
This file says when it does not matter who makes the records of an analysis. A parser that forgets
says the same of a text whatever it parsed before, and pools that keep the order hand every source
to one worker, in its turn. Then the records of an analysis are those that a fresh parser makes of
the sources one by one.
-/

import CodeAtlas.Project

namespace CodeAtlas

/-! ### Parsers and pools -/

/-- Whether what a parser says of a text depends on nothing that it parsed before. -/
def Parser.Forgets (parser : Parser) : Prop :=
  ∀ language text first second,
    (parser.parse language text first).1 = (parser.parse language text second).1

/-- Whether a division gives every source to one worker, in the order of the sources. -/
def KeepsOrder (division : Division) : Prop :=
  ∀ sources, (division sources).flatten = sources

/-- Whether all pools keep the order of the sources. -/
structure Pools.KeepOrder (pools : Pools) : Prop where
  ofSize : ∀ count division, pools.ofSize? count = some division → KeepsOrder division
  shared : KeepsOrder pools.shared

theorem Parser.ofKnown_forgets (known : List KnownTree) : (Parser.ofKnown known).Forgets :=
  fun _ _ _ _ => rfl

theorem Pools.single_keepOrder : Pools.single.KeepOrder where
  ofSize _ _ found := by cases found
  shared _ := List.flatten_singleton

/-- Pools of two workers, of which the first takes the wanted number of sources and the second
takes the rest. -/
def Pools.pair : Pools where
  ofSize? count := some fun sources => [sources.take count, sources.drop count]
  shared sources := [sources]

theorem Pools.pair_keepOrder : Pools.pair.KeepOrder where
  ofSize count division found := by
    cases found
    intro sources
    rw [List.flatten_cons, List.flatten_singleton, List.take_append_drop]
  shared _ := List.flatten_singleton

theorem Pools.KeepOrder.division {pools : Pools} (keeps : pools.KeepOrder)
    (options : AnalysisOptions) : KeepsOrder (Project.division pools options) := by
  unfold Project.division
  split
  · next count _ =>
    cases made : pools.ofSize? count with
    | none => exact keeps.shared
    | some division => exact keeps.ofSize count division made
  · exact keeps.shared

/-! ### Records -/

namespace Project

variable (parser : Parser) (files : FileSystem) (options : AnalysisOptions)

/-- The record of a source by a parser that has parsed nothing before. -/
def recordAlone (source : SourceFile) : FileRecord :=
  (record parser files options source parser.fresh).1

/-- The record of a text that was parsed, or could not be. -/
def recordOfParsed (path : String) (language : Language) :
    Except ParseError ParsedFile → FileRecord
  | .ok file => Extraction.record options path file
  | .error error => .failed path (some language) (ReadError.unparsed error).message

theorem recordOfText_fst (path : String) (language : Language) (text : String)
    (state : parser.State) :
    (recordOfText parser options path language text state).1 =
      recordOfParsed options path language (parser.parse language text state).1 := by
  unfold recordOfText
  rcases parser.parse language text state with ⟨_ | _, _⟩ <;> rfl

variable {parser} (forgets : parser.Forgets)

include forgets

theorem record_fst (source : SourceFile) (state : parser.State) :
    (record parser files options source state).1 = recordAlone parser files options source := by
  unfold recordAlone record
  split
  · rfl
  · split
    · rw [recordOfText_fst, recordOfText_fst, forgets _ _ state parser.fresh]
    · rfl

theorem recordsOf_eq_map (sources : List SourceFile) (state : parser.State) :
    recordsOf parser files options sources state =
      sources.map (recordAlone parser files options) := by
  induction sources generalizing state with
  | nil => rfl
  | cons source sources inductionHypothesis =>
    have first := record_fst files options forgets source state
    unfold recordsOf
    rw [List.map_cons, ← first]
    exact congrArg _ (inductionHypothesis _)

/-- The records of an analysis are those of its sources one by one. -/
theorem records_eq_map {pools : Pools} (keeps : pools.KeepOrder) (sources : List SourceFile) :
    records parser pools files options sources =
      sources.map (recordAlone parser files options) := by
  unfold records
  simp only [recordsOf_eq_map files options forgets]
  rw [← List.map_flatMap, List.flatMap_id', keeps.division options sources]

end Project

end CodeAtlas
