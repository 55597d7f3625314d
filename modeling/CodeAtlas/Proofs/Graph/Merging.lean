/-
This file says what the merged tables of a project hold. In five tables files are joined by name
alone: what any file says under a key stands under that key once, in the order of the files. So
the tables of two lists of files give the tables of both together, key by key.
-/

import CodeAtlas.Graph.Resolution
import CodeAtlas.Proofs.Graph.Index
import CodeAtlas.Proofs.Text.Distinct

namespace CodeAtlas

/-! ### The merged tables -/

/-- The tables in which what several files say under one key is merged. -/
inductive MergedTable where
  | imports
  | inheritance
  | calls
  | functionIndex
  | classIndex
deriving DecidableEq, Repr

/-- One of the merged tables. -/
def Relationships.merged (relationships : Relationships) : MergedTable → Index (List String)
  | .imports => relationships.imports
  | .inheritance => relationships.inheritance
  | .calls => relationships.calls
  | .functionIndex => relationships.functionIndex
  | .classIndex => relationships.classIndex

namespace Resolution

/-- Whether some part of a file has a key of a table: an import in the file at the key, a class of
that name with bases, a function or method with that full name, one with that name, or a class
with that name. -/
def HasKey (file : FileRecord) : MergedTable → String → Prop
  | .imports, path => file.path = path ∧ file.imports ≠ []
  | .inheritance, name => ∃ owner ∈ file.classes, owner.name = name ∧ owner.bases ≠ []
  | .calls, caller =>
    (∃ function ∈ file.functions, file.path ++ "::" ++ function.name = caller) ∨
      ∃ owner ∈ file.classes, ∃ method ∈ owner.methods, owner.name ++ "." ++ method.name = caller
  | .functionIndex, name => ∃ function ∈ file.allFunctions, function.name = name
  | .classIndex, name => ∃ owner ∈ file.classes, owner.name = name

/-- What the parts of a file with a key say under it, in their order. -/
def saidBy (file : FileRecord) : MergedTable → String → List String
  | .imports, path => if file.path = path then file.imports.map Import.moduleName else []
  | .inheritance, name =>
    (file.classes.filter fun owner => owner.name = name).flatMap Class.bases
  | .calls, caller =>
    (file.functions.filter fun function =>
        file.path ++ "::" ++ function.name = caller).flatMap Function.calls ++
      file.classes.flatMap fun owner =>
        (owner.methods.filter fun method =>
          owner.name ++ "." ++ method.name = caller).flatMap Function.calls
  | .functionIndex, name =>
    (file.allFunctions.filter fun function => function.name = name).map fun _ => file.path
  | .classIndex, name =>
    (file.classes.filter fun owner => owner.name = name).map fun _ => file.path

/-- What some files say under a key, in the order of the files. -/
def said (files : List FileRecord) (table : MergedTable) (key : String) : List String :=
  files.flatMap fun file => saidBy file table key

/-! ### Collecting entries -/

/-- All values that some entries give for a key, in their order. -/
def given (key : String) (entries : List (String × List String)) : List String :=
  (entries.filter fun entry => entry.1 = key).flatMap Prod.snd

/-- The table after one more entry. -/
def collectEntry (index : Index (List String)) (entry : String × List String) :
    Index (List String) :=
  index.change entry.1 fun held => entry.2.foldl Text.pushNew (held.getD [])

theorem collect_eq_foldl (entries : List (String × List String)) :
    collect entries = entries.foldl collectEntry ∅ := rfl

theorem given_cons (key : String) (entry : String × List String)
    (entries : List (String × List String)) :
    given key (entry :: entries) =
      (if entry.1 = key then entry.2 else []) ++ given key entries := by
  rw [given, List.filter_cons]
  by_cases here : entry.1 = key
  · rw [if_pos here, if_pos (decide_eq_true here), List.flatMap_cons]
    rfl
  · rw [if_neg here, if_neg (by simpa using here)]
    rfl

theorem given_eq_nil {key : String} {entries : List (String × List String)}
    (absent : key ∉ entries.map Prod.fst) : given key entries = [] := by
  have none : (entries.filter fun entry => entry.1 = key) = [] := by
    refine List.filter_eq_nil_iff.mpr fun entry member here => absent ?_
    exact List.mem_map.mpr ⟨entry, member, of_decide_eq_true here⟩
  rw [given, none, List.flatMap_nil]

/-- An entry is seen at its own key, behind what the key has already. -/
theorem get?_collectEntry (index : Index (List String)) (entry : String × List String)
    (key : String) :
    (collectEntry index entry).get? key =
      if key = entry.1 then some (entry.2.foldl Text.pushNew ((index.get? key).getD []))
      else index.get? key := by
  rw [collectEntry, Index.get?_change]
  split
  · next here => rw [here]
  · rfl

theorem get?_foldl_collectEntry (entries : List (String × List String))
    (index : Index (List String)) (key : String) :
    (entries.foldl collectEntry index).get? key =
      if key ∈ entries.map Prod.fst then
        some ((given key entries).foldl Text.pushNew ((index.get? key).getD []))
      else index.get? key := by
  -- For every table to begin with, as earlier entries may have given values for the key.
  induction entries generalizing index with
  | nil => rfl
  | cons entry entries inductionHypothesis =>
    rw [List.foldl_cons, inductionHypothesis, get?_collectEntry, given_cons, List.map_cons]
    by_cases here : key = entry.1
    · have member : key ∈ entry.1 :: entries.map Prod.fst := here ▸ List.mem_cons_self
      rw [if_pos here, if_pos here.symm, if_pos member, Option.getD_some, List.foldl_append]
      split
      · rfl
      · next absent => rw [given_eq_nil absent, List.foldl_nil]
    · have others : key ∈ entry.1 :: entries.map Prod.fst ↔ key ∈ entries.map Prod.fst :=
        ⟨fun member => (List.mem_cons.mp member).resolve_left here, List.mem_cons_of_mem _⟩
      have notHere : ¬entry.1 = key := fun equal => here equal.symm
      simp only [if_neg here, if_neg notHere, others, List.nil_append]

/-- A key of the collected table has all that was given for it, once each. -/
theorem get?_collect_eq_some_iff {entries : List (String × List String)} {key : String}
    {values : List String} :
    (collect entries).get? key = some values ↔
      key ∈ entries.map Prod.fst ∧ values = (given key entries).eraseDups := by
  rw [collect_eq_foldl, get?_foldl_collectEntry, Index.get?_empty, Option.getD_none]
  rw [← Text.distinct_eq_eraseDups, Text.distinct]
  split
  · next member =>
    rw [Option.some.injEq]
    exact ⟨fun same => ⟨member, same.symm⟩, fun found => found.2.symm⟩
  · next absent =>
    constructor
    · intro found
      cases found
    · rintro ⟨member, _⟩
      exact absurd member absent

example : (collect [("A", ["x"]), ("B", []), ("A", ["y", "x"])]).entries =
    [("A", ["x", "y"]), ("B", [])] := by decide

/-! ### What files say -/

/-- What a file says about a table, as entries. -/
def entriesBy (file : FileRecord) : MergedTable → List (String × List String)
  | .imports => importEntries file
  | .inheritance => baseEntries file
  | .calls => callEntries file
  | .functionIndex => functionEntries file
  | .classIndex => classEntries file

theorem given_flatMap {α : Type} (key : String) (parts : List α)
    (entries : α → List (String × List String)) :
    given key (parts.flatMap entries) = parts.flatMap fun part => given key (entries part) := by
  rw [given, List.filter_flatMap, List.flatMap_assoc]
  rfl

theorem given_append (key : String) (first second : List (String × List String)) :
    given key (first ++ second) = given key first ++ given key second := by
  rw [given, List.filter_append, List.flatMap_append]
  rfl

theorem given_map {α : Type} (key : String) (parts : List α) (name : α → String)
    (values : α → List String) :
    given key (parts.map fun part => (name part, values part)) =
      (parts.filter fun part => name part = key).flatMap values := by
  rw [given, List.filter_map, List.flatMap_map]
  rfl

/-- Parts that say nothing can be left out. -/
theorem flatMap_filter_not_isEmpty {α : Type} (parts : List α) (values : α → List String) :
    (parts.filter fun part => !(values part).isEmpty).flatMap values = parts.flatMap values := by
  induction parts with
  | nil => rfl
  | cons part parts inductionHypothesis =>
    rw [List.filter_cons, List.flatMap_cons]
    cases content : values part with
    | nil => exact inductionHypothesis
    | cons value others =>
      rw [List.isEmpty_cons, Bool.not_false, if_pos rfl, List.flatMap_cons, content,
        inductionHypothesis]

/-- The entries of a file give what its parts say. -/
theorem given_entriesBy (file : FileRecord) (table : MergedTable) (key : String) :
    given key (entriesBy file table) = saidBy file table key := by
  cases table with
  | imports =>
    rw [entriesBy, importEntries, given_cons]
    exact List.append_nil _
  | inheritance =>
    rw [entriesBy, baseEntries, given_map, List.filter_comm, flatMap_filter_not_isEmpty]
    rfl
  | calls =>
    rw [entriesBy, callEntries, given_append, given_map, given_flatMap]
    simp only [given_map]
    rfl
  | functionIndex =>
    rw [entriesBy, functionEntries, given_map, saidBy, List.map_eq_flatMap]
  | classIndex =>
    rw [entriesBy, classEntries, given_map, saidBy, List.map_eq_flatMap]

theorem given_flatMap_entriesBy (files : List FileRecord) (table : MergedTable) (key : String) :
    given key (files.flatMap fun file => entriesBy file table) = said files table key := by
  rw [given_flatMap, said]
  simp only [given_entriesBy]

/-- Except for imports, of which a file has an entry even if there are none, a key has an entry
exactly if some part of the file has it. -/
theorem mem_keys_entriesBy_iff {file : FileRecord} {table : MergedTable} {key : String}
    (others : table ≠ .imports) :
    key ∈ (entriesBy file table).map Prod.fst ↔ HasKey file table key := by
  cases table with
  | imports => contradiction
  | inheritance => simp [entriesBy, baseEntries, HasKey, and_assoc, and_comm]
  | calls => simp [entriesBy, callEntries, HasKey, functionKey, methodKey]
  | functionIndex => simp [entriesBy, functionEntries, HasKey]
  | classIndex => simp [entriesBy, classEntries, HasKey]

/-- What is said under a key is said by a part of the file that has it. -/
theorem hasKey_of_mem_saidBy {file : FileRecord} {table : MergedTable} {key value : String}
    (member : value ∈ saidBy file table key) : HasKey file table key := by
  cases table with
  | imports =>
    obtain ⟨here, member⟩ := List.mem_ite_nil_right.mp member
    exact ⟨here, fun empty => by rw [empty] at member; cases member⟩
  | inheritance =>
    obtain ⟨owner, kept, member⟩ := List.mem_flatMap.mp member
    obtain ⟨ownerMember, named⟩ := List.mem_filter.mp kept
    exact ⟨owner, ownerMember, of_decide_eq_true named, List.ne_nil_of_mem member⟩
  | calls =>
    rcases List.mem_append.mp member with member | member
    · obtain ⟨function, kept, _⟩ := List.mem_flatMap.mp member
      obtain ⟨functionMember, named⟩ := List.mem_filter.mp kept
      exact .inl ⟨function, functionMember, of_decide_eq_true named⟩
    · obtain ⟨owner, ownerMember, member⟩ := List.mem_flatMap.mp member
      obtain ⟨method, kept, _⟩ := List.mem_flatMap.mp member
      obtain ⟨methodMember, named⟩ := List.mem_filter.mp kept
      exact .inr ⟨owner, ownerMember, method, methodMember, of_decide_eq_true named⟩
  | functionIndex =>
    obtain ⟨function, kept, _⟩ := List.mem_map.mp member
    obtain ⟨functionMember, named⟩ := List.mem_filter.mp kept
    exact ⟨function, functionMember, of_decide_eq_true named⟩
  | classIndex =>
    obtain ⟨owner, kept, _⟩ := List.mem_map.mp member
    obtain ⟨ownerMember, named⟩ := List.mem_filter.mp kept
    exact ⟨owner, ownerMember, of_decide_eq_true named⟩

theorem said_eq_nil {files : List FileRecord} {table : MergedTable} {key : String}
    (unheld : ¬∃ file ∈ files, HasKey file table key) : said files table key = [] := by
  refine List.eq_nil_iff_forall_not_mem.mpr fun value member => unheld ?_
  obtain ⟨file, fileMember, member⟩ := List.mem_flatMap.mp member
  exact ⟨file, fileMember, hasKey_of_mem_saidBy member⟩

/-! ### What the tables hold -/

theorem merged_eq_collect (files : List FileRecord) (extensions : List String)
    {table : MergedTable} (others : table ≠ .imports) :
    (resolve files extensions).merged table =
      collect (files.flatMap fun file => entriesBy file table) := by
  cases table with
  | imports => contradiction
  | inheritance => rfl
  | calls => rfl
  | functionIndex => rfl
  | classIndex => rfl

/-- Except for a caller, which may call nothing, a part of a file with a key says something. -/
theorem exists_mem_saidBy {file : FileRecord} {table : MergedTable} {key : String}
    (others : table ≠ .calls) (held : HasKey file table key) :
    ∃ value, value ∈ saidBy file table key := by
  cases table with
  | imports =>
    obtain ⟨here, imported⟩ := held
    obtain ⟨statement, stated⟩ := List.exists_mem_of_ne_nil _ imported
    exact ⟨_, List.mem_ite_nil_right.mpr ⟨here, List.mem_map_of_mem stated⟩⟩
  | inheritance =>
    obtain ⟨owner, member, named, based⟩ := held
    obtain ⟨base, isBase⟩ := List.exists_mem_of_ne_nil _ based
    refine ⟨base, List.mem_flatMap.mpr ⟨owner, ?_, isBase⟩⟩
    exact List.mem_filter.mpr ⟨member, decide_eq_true named⟩
  | calls => contradiction
  | functionIndex =>
    obtain ⟨function, member, named⟩ := held
    exact ⟨_, List.mem_map_of_mem (List.mem_filter.mpr ⟨member, decide_eq_true named⟩)⟩
  | classIndex =>
    obtain ⟨owner, member, named⟩ := held
    exact ⟨_, List.mem_map_of_mem (List.mem_filter.mpr ⟨member, decide_eq_true named⟩)⟩

theorem said_ne_nil_iff {files : List FileRecord} {table : MergedTable} {key : String}
    (others : table ≠ .calls) :
    said files table key ≠ [] ↔ ∃ file ∈ files, HasKey file table key := by
  constructor
  · intro something
    by_contra unheld
    exact something (said_eq_nil unheld)
  · rintro ⟨file, member, held⟩
    obtain ⟨value, isSaid⟩ := exists_mem_saidBy others held
    exact List.ne_nil_of_mem (List.mem_flatMap.mpr ⟨file, member, isSaid⟩)

theorem get?_imports_eq_some_iff {files : List FileRecord} {extensions : List String}
    {path : String} {modules : List String} :
    (resolve files extensions).imports.get? path = some modules ↔
      (∃ file ∈ files, HasKey file .imports path) ∧
        modules = (said files .imports path).eraseDups := by
  have collected : (resolve files extensions).imports =
      (collect (files.flatMap fun file => entriesBy file .imports)).filter
        fun modules => !modules.isEmpty := rfl
  rw [collected, Index.get?_filter_eq_some_iff, get?_collect_eq_some_iff,
    given_flatMap_entriesBy, Bool.not_eq_true', List.isEmpty_eq_false_iff]
  constructor
  · rintro ⟨⟨_, rfl⟩, notEmpty⟩
    refine ⟨(said_ne_nil_iff (by decide)).mp fun empty => ?_, rfl⟩
    exact notEmpty (Text.eraseDups_eq_nil_iff.mpr empty)
  · -- Files without imports have an entry too, until the filter takes the empty lists out.
    rintro ⟨held, rfl⟩
    have modules := (said_ne_nil_iff (by decide)).mpr held
    refine ⟨⟨?_, rfl⟩, fun empty => modules (Text.eraseDups_eq_nil_iff.mp empty)⟩
    obtain ⟨file, member, here, _⟩ := held
    rw [List.map_flatMap, List.mem_flatMap]
    exact ⟨file, member, List.mem_singleton.mpr here.symm⟩

/-- A key stands in a merged table exactly if some part of a file has it, and it has what all
such parts say, once each. -/
theorem get?_merged_eq_some_iff {files : List FileRecord} {extensions : List String}
    {table : MergedTable} {key : String} {values : List String} :
    ((resolve files extensions).merged table).get? key = some values ↔
      (∃ file ∈ files, HasKey file table key) ∧ values = (said files table key).eraseDups := by
  by_cases isImports : table = .imports
  · subst isImports
    exact get?_imports_eq_some_iff
  · rw [merged_eq_collect files extensions isImports, get?_collect_eq_some_iff,
      given_flatMap_entriesBy, List.map_flatMap]
    simp only [List.mem_flatMap, mem_keys_entriesBy_iff isImports]

section

variable {files : List FileRecord} {extensions : List String} {table : MergedTable} {key : String}

theorem mem_keys_merged_iff :
    key ∈ ((resolve files extensions).merged table).keys ↔
      ∃ file ∈ files, HasKey file table key := by
  rw [Index.mem_keys_iff_exists]
  simp only [get?_merged_eq_some_iff, exists_and_left, exists_eq, and_true]

theorem get?_merged_of_hasKey (held : ∃ file ∈ files, HasKey file table key) :
    ((resolve files extensions).merged table).get? key =
      some (said files table key).eraseDups :=
  get?_merged_eq_some_iff.mpr ⟨held, rfl⟩

theorem get?_merged_eq_none (unheld : ¬∃ file ∈ files, HasKey file table key) :
    ((resolve files extensions).merged table).get? key = none :=
  Option.eq_none_iff_forall_not_mem.mpr fun _ found =>
    unheld (get?_merged_eq_some_iff.mp found).1

theorem get?_merged_ne_nil (others : table ≠ .calls) :
    ((resolve files extensions).merged table).get? key ≠ some [] := by
  intro empty
  obtain ⟨held, nothing⟩ := get?_merged_eq_some_iff.mp empty
  exact (said_ne_nil_iff others).mpr held (Text.eraseDups_eq_nil_iff.mp nothing.symm)

/-- Whether a key stands in a table or not, it has what was said under it. -/
theorem getD_get?_merged : (((resolve files extensions).merged table).get? key).getD [] =
    (said files table key).eraseDups := by
  by_cases held : ∃ file ∈ files, HasKey file table key
  · rw [get?_merged_of_hasKey held, Option.getD_some]
  · rw [get?_merged_eq_none held, said_eq_nil held, List.eraseDups_nil, Option.getD_none]

end

/-! ### Two lists of files -/

/-- The values of a key in two tables: those of the first, and behind them those of the second
that are new. -/
def mergeValues : Option (List String) → Option (List String) → Option (List String)
  | some first, some second => some (first ++ second.removeAll first)
  | some first, none => some first
  | none, second => second

/-- The tables of two lists of files give those of both together. -/
theorem get?_merged_append (files others : List FileRecord) (extensions : List String)
    (table : MergedTable) (key : String) :
    ((resolve (files ++ others) extensions).merged table).get? key =
      mergeValues (((resolve files extensions).merged table).get? key)
        (((resolve others extensions).merged table).get? key) := by
  have together :
      said (files ++ others) table key = said files table key ++ said others table key :=
    List.flatMap_append
  have either : (∃ file ∈ files ++ others, HasKey file table key) ↔
      (∃ file ∈ files, HasKey file table key) ∨ ∃ file ∈ others, HasKey file table key := by
    simp only [List.mem_append, or_and_right, exists_or]
  by_cases first : ∃ file ∈ files, HasKey file table key
  · rw [get?_merged_of_hasKey first, get?_merged_of_hasKey (either.mpr (.inl first)), together]
    by_cases second : ∃ file ∈ others, HasKey file table key
    · rw [get?_merged_of_hasKey second, Text.eraseDups_append_eq, mergeValues]
    · rw [get?_merged_eq_none second, said_eq_nil second, List.append_nil, mergeValues]
  · rw [get?_merged_eq_none first, mergeValues]
    by_cases second : ∃ file ∈ others, HasKey file table key
    · rw [get?_merged_of_hasKey second, get?_merged_of_hasKey (either.mpr (.inr second)), together,
        said_eq_nil first, List.nil_append]
    · rw [get?_merged_eq_none second, get?_merged_eq_none fun held =>
        (either.mp held).elim first second]

/-! ### Exact tables -/

/-- A file says its path under the names that it defines, and nothing else. -/
theorem mem_saidBy_iff_of_index {file : FileRecord} {table : MergedTable} {name path : String}
    (index : table = .functionIndex ∨ table = .classIndex) :
    path ∈ saidBy file table name ↔ file.path = path ∧ HasKey file table name := by
  have own {value : String} (member : value ∈ saidBy file table name) : file.path = value := by
    rcases index with rfl | rfl
    · exact (List.mem_map.mp member).elim fun _ found => found.2
    · exact (List.mem_map.mp member).elim fun _ found => found.2
  have others : table ≠ .calls := by
    rcases index with rfl | rfl <;> decide
  constructor
  · exact fun member => ⟨own member, hasKey_of_mem_saidBy member⟩
  · rintro ⟨rfl, held⟩
    obtain ⟨value, member⟩ := exists_mem_saidBy others held
    exact own member ▸ member

theorem mem_getD_get?_index_iff {files : List FileRecord} {extensions : List String}
    {table : MergedTable} {name path : String}
    (index : table = .functionIndex ∨ table = .classIndex) :
    path ∈ (((resolve files extensions).merged table).get? name).getD [] ↔
      ∃ file ∈ files, file.path = path ∧ HasKey file table name := by
  rw [getD_get?_merged, List.mem_eraseDups, said, List.mem_flatMap]
  simp only [mem_saidBy_iff_of_index index]

/-- A merged table has exactly the keys that some part of a file has, with what all such parts
say. The callers are the full names of all functions and methods, no file has an empty list of
modules and no class an empty list of bases, and a name stands in an index with the paths of the
files that define it. The tables of two lists of files, taken key by key, give those of both
together. -/
theorem resolve_merges_exact (files : List FileRecord) (extensions : List String) :
    (∀ table key values, ((resolve files extensions).merged table).get? key = some values ↔
      (∃ file ∈ files, HasKey file table key) ∧ values = (said files table key).eraseDups) ∧
    (∀ caller, caller ∈ (resolve files extensions).calls.keys ↔ ∃ file ∈ files,
      (∃ function ∈ file.functions, file.path ++ "::" ++ function.name = caller) ∨
        ∃ owner ∈ file.classes, ∃ method ∈ owner.methods,
          owner.name ++ "." ++ method.name = caller) ∧
    (∀ key, (resolve files extensions).imports.get? key ≠ some [] ∧
      (resolve files extensions).inheritance.get? key ≠ some []) ∧
    (∀ name path,
      (path ∈ ((resolve files extensions).functionIndex.get? name).getD [] ↔
        ∃ file ∈ files, file.path = path ∧
          ∃ function ∈ file.allFunctions, function.name = name) ∧
      (path ∈ ((resolve files extensions).classIndex.get? name).getD [] ↔
        ∃ file ∈ files, file.path = path ∧ ∃ owner ∈ file.classes, owner.name = name)) ∧
    ∀ (others : List FileRecord) table key,
      ((resolve (files ++ others) extensions).merged table).get? key =
        mergeValues (((resolve files extensions).merged table).get? key)
          (((resolve others extensions).merged table).get? key) := by
  refine ⟨fun _ _ _ => get?_merged_eq_some_iff, fun caller => ?_, fun key => ⟨?_, ?_⟩,
    fun name path => ⟨?_, ?_⟩, fun others table key => ?_⟩
  · show caller ∈ ((resolve files extensions).merged .calls).keys ↔ _
    exact mem_keys_merged_iff
  · show ((resolve files extensions).merged .imports).get? key ≠ some []
    exact get?_merged_ne_nil (by decide)
  · show ((resolve files extensions).merged .inheritance).get? key ≠ some []
    exact get?_merged_ne_nil (by decide)
  · show path ∈ (((resolve files extensions).merged .functionIndex).get? name).getD [] ↔ _
    exact mem_getD_get?_index_iff (.inl rfl)
  · show path ∈ (((resolve files extensions).merged .classIndex).get? name).getD [] ↔ _
    exact mem_getD_get?_index_iff (.inr rfl)
  · exact get?_merged_append files others extensions table key

end Resolution

end CodeAtlas
