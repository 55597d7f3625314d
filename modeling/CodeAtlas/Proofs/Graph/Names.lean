/-
This file says which called names are names of a project, in terms of what its files define. A
caller is known by one text, and for a function that text begins with the path of a file; yet
only the names of classes, functions and methods decide, because the two colons behind a path
tell such a caller from a method. So neither paths nor imports make a call one of the project.
-/

import CodeAtlas.Proofs.Graph.Internal
import CodeAtlas.Proofs.Graph.Merging
import CodeAtlas.Proofs.Text.Search

namespace CodeAtlas

/-- Whether two colons stand in no name of a class or method. -/
structure FileRecord.PlainNames (file : FileRecord) : Prop where
  classes : ∀ owner ∈ file.classes, ¬ "::".toList <:+: owner.name.toList
  methods : ∀ owner ∈ file.classes, ∀ method ∈ owner.methods,
    ¬ "::".toList <:+: method.name.toList

namespace Resolution

open Relationships

/-! ### Names of files -/

/-- Whether some files define a called name: it is the name of a class, or it stands in the name
of a function or method, or in the name of a method behind that of its class. -/
def NamedIn (files : List FileRecord) (callee : String) : Prop :=
  (∃ file ∈ files, ∃ owner ∈ file.classes, owner.name = callee) ∨
    (∃ file ∈ files, ∃ function ∈ file.allFunctions,
      callee.toList <:+: function.name.toList) ∨
    ∃ file ∈ files, ∃ owner ∈ file.classes, ∃ method ∈ owner.methods,
      callee.toList <:+: (owner.name ++ "." ++ method.name).toList

theorem stands_iff {part text : String} : stands part text = true ↔ part.toList <:+: text.toList :=
  Text.occursIn_iff

instance (files : List FileRecord) : DecidablePred (NamedIn files) := fun callee =>
  decidable_of_iff
    (((files.any fun file => file.classes.any fun owner => owner.name == callee) ||
      ((files.any fun file => file.allFunctions.any fun function => stands callee function.name) ||
        files.any fun file => file.classes.any fun owner => owner.methods.any fun method =>
          stands callee (owner.name ++ "." ++ method.name))) = true)
    (by simp only [NamedIn, Bool.or_eq_true, List.any_eq_true, beq_iff_eq, stands_iff])

/-! ### Callers -/

theorem colons_infix_functionKey (file : FileRecord) (function : Function) :
    "::".toList <:+: (functionKey file function).toList := by
  rw [functionKey, String.toList_append, String.toList_append]
  exact ⟨file.path.toList, function.name.toList, rfl⟩

/-- Colons in the full name of a method stand in its own name or in that of its class. -/
theorem not_colons_infix_methodKey {file : FileRecord} (plain : file.PlainNames) {owner : Class}
    (ownerMember : owner ∈ file.classes) {method : Function}
    (methodMember : method ∈ owner.methods) :
    ¬ "::".toList <:+: (methodKey owner method).toList := by
  have key : (methodKey owner method).toList =
      owner.name.toList ++ '.' :: method.name.toList := by
    rw [methodKey, String.toList_append, String.toList_append, List.append_assoc]
    rfl
  rw [key, Text.infix_append_cons_iff (by decide)]
  rintro (inOwner | inMethod)
  · exact plain.classes owner ownerMember inOwner
  · exact plain.methods owner ownerMember method methodMember inMethod

variable {files : List FileRecord} {extensions : List String} {callee : String}

/-- The callers without colons in which a called name stands are methods. -/
theorem exists_caller_iff :
    (∃ caller ∈ (resolve files extensions).calls.keys,
      stands "::" caller = false ∧ stands callee caller = true) ↔
      ∃ file ∈ files, ∃ owner ∈ file.classes, ∃ method ∈ owner.methods,
        ¬ "::".toList <:+: (methodKey owner method).toList ∧
          callee.toList <:+: (methodKey owner method).toList := by
  have keys {caller : String} : caller ∈ (resolve files extensions).calls.keys ↔
      ∃ file ∈ files, HasKey file .calls caller :=
    @mem_keys_merged_iff files extensions .calls caller
  simp only [keys, ← Bool.not_eq_true, stands_iff]
  constructor
  · rintro ⟨_, ⟨file, member, ⟨function, _, rfl⟩ | ⟨owner, ownerMember, method, isMethod, rfl⟩⟩,
      free, part⟩
    · exact absurd (colons_infix_functionKey file function) free
    · exact ⟨file, member, owner, ownerMember, method, isMethod, free, part⟩
  · rintro ⟨file, member, owner, ownerMember, method, isMethod, free, part⟩
    exact ⟨methodKey owner method,
      ⟨file, member, .inr ⟨owner, ownerMember, method, isMethod, rfl⟩⟩, free, part⟩

/-! ### Callees -/

/-- What makes a called name one of the project, in any files: of the methods only those count
in whose full name no colons stand. -/
theorem isInternalCallee_resolve_iff :
    (resolve files extensions).isInternalCallee callee = true ↔
      (∃ file ∈ files, ∃ owner ∈ file.classes, owner.name = callee) ∨
        (∃ file ∈ files, ∃ function ∈ file.allFunctions,
          callee.toList <:+: function.name.toList) ∨
        ∃ file ∈ files, ∃ owner ∈ file.classes, ∃ method ∈ owner.methods,
          ¬ "::".toList <:+: (methodKey owner method).toList ∧
            callee.toList <:+: (methodKey owner method).toList := by
  have functions {name : String} : name ∈ (resolve files extensions).functionIndex.keys ↔
      ∃ file ∈ files, ∃ function ∈ file.allFunctions, function.name = name :=
    @mem_keys_merged_iff files extensions .functionIndex name
  have classes {name : String} : name ∈ (resolve files extensions).classIndex.keys ↔
      ∃ file ∈ files, ∃ owner ∈ file.classes, owner.name = name :=
    @mem_keys_merged_iff files extensions .classIndex name
  rw [isInternalCallee_iff, isKnownName_iff, exists_caller_iff, classes]
  simp only [functions, stands_iff]
  constructor
  · rintro ((⟨file, member, function, isFunction, rfl⟩ | isClass) | part | isMethod)
    · exact .inr (.inl ⟨file, member, function, isFunction, List.infix_rfl⟩)
    · exact .inl isClass
    · obtain ⟨_, ⟨file, member, function, isFunction, rfl⟩, part⟩ := part
      exact .inr (.inl ⟨file, member, function, isFunction, part⟩)
    · exact .inr (.inr isMethod)
  · rintro (isClass | ⟨file, member, function, isFunction, part⟩ | isMethod)
    · exact .inl (.inr isClass)
    · exact .inr (.inl ⟨_, ⟨file, member, function, isFunction, rfl⟩, part⟩)
    · exact .inr (.inr isMethod)

/-- Where names are plain, a called name is one of the project exactly if its files define it. -/
theorem isInternalCallee_iff_namedIn (plain : ∀ file ∈ files, file.PlainNames) :
    (resolve files extensions).isInternalCallee callee = true ↔ NamedIn files callee := by
  rw [isInternalCallee_resolve_iff, NamedIn]
  refine or_congr_right (or_congr_right ⟨?_, ?_⟩)
  · rintro ⟨file, member, owner, ownerMember, method, isMethod, _, part⟩
    exact ⟨file, member, owner, ownerMember, method, isMethod, part⟩
  · rintro ⟨file, member, owner, ownerMember, method, isMethod, part⟩
    exact ⟨file, member, owner, ownerMember, method, isMethod,
      not_colons_infix_methodKey (plain file member) ownerMember isMethod, part⟩

/-- The file without its path and its imports. -/
def anonymous (file : FileRecord) : FileRecord :=
  { file with path := "", imports := [] }

/-- Neither paths nor imports decide whether a called name is one of the project. -/
theorem isInternalCallee_anonymous (files : List FileRecord) (extensions : List String)
    (callee : String) :
    (resolve (files.map anonymous) []).isInternalCallee callee =
      (resolve files extensions).isInternalCallee callee := by
  rw [Bool.eq_iff_iff, isInternalCallee_resolve_iff, isInternalCallee_resolve_iff]
  simp only [List.mem_map, exists_exists_and_eq_and]
  exact Iff.rfl

/-- Where no name of a class or method has two colons in it, the calls inside a project are, for
every caller, its calls of names that the files define, in their order; a caller without any is
left out. Files that differ only in their paths and imports have the same names of the project,
whatever their names are. -/
theorem resolve_internalCalls_exact (files : List FileRecord) (extensions : List String) :
    ((∀ file ∈ files, file.PlainNames) → ∀ caller kept,
      (resolve files extensions).internalCalls.get? caller = some kept ↔
        ∃ callees, (resolve files extensions).calls.get? caller = some callees ∧
          kept = callees.filter (fun callee => decide (NamedIn files callee)) ∧ kept ≠ []) ∧
    ∀ others otherExtensions, others.map anonymous = files.map anonymous → ∀ callee,
      (resolve others otherExtensions).isInternalCallee callee =
        (resolve files extensions).isInternalCallee callee := by
  constructor
  · intro plain caller kept
    have same : (resolve files extensions).isInternalCallee =
        fun callee => decide (NamedIn files callee) := by
      funext callee
      rw [Bool.eq_iff_iff, isInternalCallee_iff_namedIn plain, decide_eq_true_eq]
    rw [get?_internalCalls_eq_some_iff, same]
    simp only [eq_comm (a := kept)]
  · intro others otherExtensions same callee
    rw [← isInternalCallee_anonymous others, same, isInternalCallee_anonymous]

/-- A file with a class of one method, and a function that calls that method by its full name, a
name that is a part of the file's path, and a name that stands nowhere. -/
def canvasFile (path : String) : FileRecord where
  path
  language := some .python
  imports := []
  classes := [
    { name := "Canvas", bases := [], doc := "", startLine := 1, endLine := 3
      methods := [
        { name := "draw", parameters := "(self)", returnType := "", doc := "", startLine := 2
          endLine := 3, calls := [], isMethod := true, isPrivate := false }]
      isPrivate := false }]
  functions := [
    { name := "main", parameters := "()", returnType := "", doc := "", startLine := 5, endLine := 8
      calls := ["Canvas.draw", "canvas", "paint"], isMethod := false, isPrivate := false }]
  errors := []

theorem resolve_internalCalls_exact_canvas :
    (∀ file ∈ [canvasFile "canvas.py"], file.PlainNames) ∧
    (resolve [canvasFile "canvas.py"] []).calls.get? "canvas.py::main" =
      some ["Canvas.draw", "canvas", "paint"] ∧
    ["Canvas.draw"] = ["Canvas.draw", "canvas", "paint"].filter
      (fun callee => decide (NamedIn [canvasFile "canvas.py"] callee)) ∧
    (resolve [canvasFile "canvas.py"] []).internalCalls.get? "canvas.py::main" =
      some ["Canvas.draw"] ∧
    [canvasFile "board.py"].map anonymous = [canvasFile "canvas.py"].map anonymous ∧
    (resolve [canvasFile "board.py"] ["py"]).isInternalCallee "canvas" =
      (resolve [canvasFile "canvas.py"] []).isInternalCallee "canvas" := by
  have plain : ∀ file ∈ [canvasFile "canvas.py"], file.PlainNames := by
    intro file member
    rw [List.mem_singleton.mp member]
    exact ⟨by decide +kernel, by decide +kernel⟩
  have callees : (resolve [canvasFile "canvas.py"] []).calls.get? "canvas.py::main" =
      some ["Canvas.draw", "canvas", "paint"] := by decide +kernel
  have kept : ["Canvas.draw"] = ["Canvas.draw", "canvas", "paint"].filter
      (fun callee => decide (NamedIn [canvasFile "canvas.py"] callee)) := by decide +kernel
  obtain ⟨calls, names⟩ := resolve_internalCalls_exact [canvasFile "canvas.py"] []
  exact ⟨plain, callees, kept,
    (calls plain _ _).mpr ⟨_, callees, kept, List.cons_ne_nil _ _⟩, rfl,
    names [canvasFile "board.py"] ["py"] rfl "canvas"⟩

end Resolution

end CodeAtlas
