/-
This file says which files are tried for the names that an import brings in. Each of them may be a
module of its own below the one it is imported from, and an identifier is the whole path of such a
module, with nothing in it to cut or to replace. Only the words for a place are different: read as
modules they name none, so that for them no file below the module is tried that has their name.
-/

import CodeAtlas.Proofs.Graph.Spelling
import CodeAtlas.Proofs.Text.Identifiers

namespace CodeAtlas.Candidates

open Text

/-! ### Identifiers as modules -/

/-- What a name that is an identifier stands for as a module: itself, or nothing if it is a word
for a place. -/
def namedModule (name : Chars) : Chars :=
  if placeWords.contains name then [] else name

theorem namedModule_of_placeWord {word : Chars} (isWord : word ∈ placeWords) :
    namedModule word = [] :=
  if_pos (List.contains_iff_mem.mpr isWord)

theorem namedModule_of_proper {name : Chars} (proper : name ∉ placeWords) :
    namedModule name = name :=
  if_neg (mt List.contains_iff_mem.mp proper)

theorem isSegment_of_isIdentifier {name : Chars} (identifier : IsIdentifier name) :
    IsSegment name where
  named := identifier.named
  unblank := identifier.unblank
  unmarked mark marked := by
    have unspelled : ∀ mark ∈ marks, isIdentifierChar mark = false := unspelled_of_all (by decide)
    exact identifier.notMem (unspelled mark marked)

theorem isIdentifier_of_mem_placeWords {word : Chars} (isWord : word ∈ placeWords) :
    IsIdentifier word := by
  have spelled : ∀ word ∈ placeWords, word ≠ [] ∧ word.all isIdentifierChar = true := by decide
  obtain ⟨named, spelled⟩ := spelled word isWord
  exact isIdentifier_of_all named spelled

/-- A word for a place leads to no module. -/
theorem modulePath_of_mem_placeWords {word : Chars} (isWord : word ∈ placeWords) :
    modulePath word = [] := by
  have identifier := isIdentifier_of_mem_placeWords isWord
  rw [modulePath, trim_eq_self identifier.unblank,
    dropWhile_stripSteps (identifier.notMem (by decide)) (identifier.notMem (by decide)),
    stripPlaceWords_of_notMem (identifier.notMem (by decide))]
  exact if_pos isWord

/-- An identifier that is no word for a place is a module of one segment. -/
theorem modulePath_of_isIdentifier {name : Chars} (identifier : IsIdentifier name) :
    modulePath name = namedModule name := by
  by_cases isWord : name ∈ placeWords
  · rw [namedModule_of_placeWord isWord, modulePath_of_mem_placeWords isWord]
  · rw [namedModule_of_proper isWord]
    have are : AreSegments [name] := {
      some := List.cons_ne_nil name []
      each := List.forall_mem_singleton.mpr (isSegment_of_isIdentifier identifier)
      proper := fun first begins => Option.some.inj begins ▸ isWord }
    have undotted : Spells [name] (List.replicate 0 '.' ++ ['.'].intercalate [name]) := .dotted 0
    have spells : Spells [name] name := by simpa using undotted
    simpa using spells.modulePath_eq are

theorem namedModule_notMem_placeWords (name : Chars) : namedModule name ∉ placeWords := by
  by_cases isWord : name ∈ placeWords
  · rw [namedModule_of_placeWord isWord]
    decide
  · rwa [namedModule_of_proper isWord]

/-- What an identifier stands for as a module is free of every mark that is in no identifier. -/
theorem notMem_namedModule {name : Chars} (identifier : IsIdentifier name) {mark : Char}
    (unspelled : isIdentifierChar mark = false) : mark ∉ namedModule name := by
  by_cases isWord : name ∈ placeWords
  · rw [namedModule_of_placeWord isWord]
    exact List.not_mem_nil
  · rw [namedModule_of_proper isWord]
    exact identifier.notMem unspelled

theorem namePath_of_isIdentifier {base name : Chars} (named : base ≠ [])
    (identifier : IsIdentifier name) : namePath base name = base ++ ['/'] ++ namedModule name := by
  rw [namePath, if_neg (mt List.isEmpty_iff.mp named), modulePath_of_isIdentifier identifier]

/-! ### Files that stand for a module -/

section

variable {extensions : List String} {path candidate : Chars}

theorem standsFor_iff (named : path ≠ []) :
    StandsFor extensions path candidate ↔
      ∃ extension ∈ extensions, candidate ∈ filesAt path extension.toList := by
  rw [← mem_ofPath_iff, ofPath, if_neg (mt List.isEmpty_iff.mp named), List.mem_flatMap]

/-- The names of a file that stands for the directory it is in. -/
def mainNames : List Chars :=
  ["index".toList, "__init__".toList, "mod".toList]

theorem mem_filesAt_iff {extension : Chars} :
    candidate ∈ filesAt path extension ↔ candidate = path ++ '.' :: extension ∨
      ∃ name ∈ mainNames, candidate = path ++ ['/'] ++ name ++ '.' :: extension := by
  simp [filesAt, mainNames]

/-- Behind the path of a module a dot or a slash follows in every file that stands for it. -/
theorem exists_of_mem_filesAt {extension : Chars} (member : candidate ∈ filesAt path extension) :
    ∃ mark ∈ ['.', '/'], ∃ rest, candidate = path ++ mark :: rest := by
  rcases mem_filesAt_iff.mp member with rfl | ⟨name, _, rfl⟩
  · exact ⟨'.', by decide, extension, rfl⟩
  · exact ⟨'/', by decide, name ++ '.' :: extension, by simp⟩

/-- Two names without dots and slashes that a file begins with below a path are the same. -/
theorem eq_of_below {first second : Chars} (freeFirst : ∀ mark ∈ ['.', '/'], mark ∉ first)
    (freeSecond : ∀ mark ∈ ['.', '/'], mark ∉ second) {mark other : Char}
    (isMark : mark ∈ ['.', '/']) (isOther : other ∈ ['.', '/']) {rest tail : Chars}
    (same : path ++ ['/'] ++ first ++ mark :: rest = path ++ ['/'] ++ second ++ other :: tail) :
    first = second := by
  simp only [List.append_assoc, List.append_cancel_left_eq] at same
  refine (append_inj_of_heads (p := (· ∉ ['.', '/']))
    (fun character member isMark => freeFirst character isMark member)
    (fun character member isMark => freeSecond character isMark member) ?_ ?_ same).1
  · exact fun character begins notMark => notMark (Option.some.inj begins ▸ isMark)
  · exact fun character begins notMark => notMark (Option.some.inj begins ▸ isOther)

/-- The files that stand for a module are no files of a module below it that has the name of a
place. -/
theorem notMem_filesAt_of_placeWord {word : Chars} (isWord : word ∈ placeWords)
    {extension other : Chars} (member : candidate ∈ filesAt (path ++ ['/'] ++ word) extension) :
    candidate ∉ filesAt path other := by
  intro stands
  have identifier := isIdentifier_of_mem_placeWords isWord
  have unspelled : ∀ mark ∈ ['.', '/'], isIdentifierChar mark = false :=
    unspelled_of_all (by decide)
  have free : ∀ mark ∈ ['.', '/'], mark ∉ word := fun mark isMark =>
    identifier.notMem (unspelled mark isMark)
  obtain ⟨mark, isMark, rest, rfl⟩ := exists_of_mem_filesAt member
  rcases mem_filesAt_iff.mp stands with same | ⟨name, isMain, same⟩
  · simp [List.append_assoc] at same
  · -- The main files of a directory have names of their own, none of which is the name of a place.
    have own : ∀ name ∈ mainNames,
        name ≠ [] ∧ name.all isIdentifierChar = true ∧ name ∉ placeWords := by decide
    obtain ⟨named, spelled, proper⟩ := own name isMain
    have freeName : ∀ mark ∈ ['.', '/'], mark ∉ name := fun mark isMark =>
      (isIdentifier_of_all named spelled).notMem (unspelled mark isMark)
    exact proper (eq_of_below free freeName isMark (by decide) same ▸ isWord)

end

/-! ### Files that are tried for imported names -/

section

variable {extensions : List String} {statement : Import}
variable (unknown : hasExtension extensions statement.moduleName.toList = false)
variable (named : modulePath statement.moduleName.toList ≠ [])

include unknown named

/-- The files of an imported identifier are tried, unless it is a word for a place. -/
theorem filesAt_subset_ofImport {name : String} (imported : name ∈ statement.names)
    (identifier : IsIdentifier name.toList) (proper : name.toList ∉ placeWords)
    {extension : String} (tried : extension ∈ extensions) :
    filesAt (modulePath statement.moduleName.toList ++ ['/'] ++ name.toList) extension.toList ⊆
      ofImport extensions statement := by
  intro candidate member
  have notStar : name ≠ Import.wildcard := by
    rintro rfl
    exact identifier.notMem (by decide) (List.mem_singleton_self '*')
  refine mem_ofImport_iff.mpr (.name unknown imported notStar ?_)
  rw [namePath_of_isIdentifier named identifier, standsFor_iff (by simp),
    namedModule_of_proper proper]
  exact ⟨extension, tried, member⟩

/-- No file below a module that has the name of a place is tried if identifiers are imported. -/
theorem notMem_ofImport_of_placeWord
    (trimmed : trim statement.moduleName.toList = statement.moduleName.toList)
    (identifiers : ∀ name ∈ statement.names, name = Import.wildcard ∨ IsIdentifier name.toList)
    {word : Chars} (isWord : word ∈ placeWords) {extension candidate : Chars}
    (member : candidate ∈
      filesAt (modulePath statement.moduleName.toList ++ ['/'] ++ word) extension) :
    candidate ∉ ofImport extensions statement := by
  intro tried
  cases mem_ofImport_iff.mp tried with
  | module meant =>
    cases meant with
    | itself known _ =>
      rw [trimmed, unknown] at known
      cases known
    | file _ stands =>
      rw [trimmed, standsFor_iff named] at stands
      obtain ⟨other, _, stands⟩ := stands
      exact notMem_filesAt_of_placeWord isWord member stands
  | @name name _ imported proper stands =>
    have identifier := (identifiers name imported).resolve_left proper
    rw [namePath_of_isIdentifier named identifier, standsFor_iff (by simp)] at stands
    obtain ⟨other, _, stands⟩ := stands
    obtain ⟨mark, isMark, rest, same⟩ := exists_of_mem_filesAt member
    obtain ⟨otherMark, isOther, tail, sameToo⟩ := exists_of_mem_filesAt stands
    have unspelled : ∀ mark ∈ ['.', '/'], isIdentifierChar mark = false :=
      unspelled_of_all (by decide)
    have isNamed : word = namedModule name.toList := eq_of_below
      (fun mark isMark => (isIdentifier_of_mem_placeWords isWord).notMem (unspelled mark isMark))
      (fun mark isMark => notMem_namedModule identifier (unspelled mark isMark))
      isMark isOther (same.symm.trans sameToo)
    exact namedModule_notMem_placeWords name.toList (isNamed ▸ isWord)

/-- For every imported identifier that is no word for a place the four files below the module are
tried that can stand for a module of this name, with every extension. For a word for a place none
of them is, as long as all that is imported are identifiers. -/
theorem ofImport_tries_identifiers :
    (∀ name ∈ statement.names, IsIdentifier name.toList → name.toList ∉ placeWords →
      ∀ extension ∈ extensions,
        filesAt (modulePath statement.moduleName.toList ++ ['/'] ++ name.toList)
          extension.toList ⊆ ofImport extensions statement) ∧
    (trim statement.moduleName.toList = statement.moduleName.toList →
      (∀ name ∈ statement.names, name = Import.wildcard ∨ IsIdentifier name.toList) →
      ∀ word ∈ placeWords, ∀ extension, ∀ candidate ∈
        filesAt (modulePath statement.moduleName.toList ++ ['/'] ++ word) extension,
          candidate ∉ ofImport extensions statement) :=
  ⟨fun _ imported identifier proper _ tried =>
      filesAt_subset_ofImport unknown named imported identifier proper tried,
    fun trimmed identifiers _ isWord _ _ member =>
      notMem_ofImport_of_placeWord unknown named trimmed identifiers isWord member⟩

end

/-- An import of two modules of a package, one of which has the name of a place. -/
def packageImport : Import where
  raw := "from pkg import helpers, crate"
  moduleName := "pkg"
  names := ["helpers", "crate"]
  line := 1

theorem modulePath_packageImport : modulePath packageImport.moduleName.toList = "pkg".toList :=
  modulePath_of_isIdentifier (isIdentifier_of_all (by decide) (by decide))

theorem identifiers_packageImport :
    ∀ name ∈ packageImport.names, name = Import.wildcard ∨ IsIdentifier name.toList := by
  refine List.forall_mem_cons.mpr ⟨.inr ?_, List.forall_mem_singleton.mpr (.inr ?_)⟩
  · exact isIdentifier_of_all (by decide) (by decide)
  · exact isIdentifier_of_all (by decide) (by decide)

/-- Of the two modules the first is looked for in the package and the second is not. -/
theorem ofImport_tries_identifiers_package :
    filesAt "pkg/helpers".toList "py".toList ⊆ ofImport ["py"] packageImport ∧
      ∀ candidate ∈ filesAt "pkg/crate".toList "py".toList,
        candidate ∉ ofImport ["py"] packageImport := by
  have named : modulePath packageImport.moduleName.toList ≠ [] := by
    rw [modulePath_packageImport]
    decide
  have unknown : hasExtension ["py"] packageImport.moduleName.toList = false := by decide
  have tries := ofImport_tries_identifiers unknown named
  rw [modulePath_packageImport] at tries
  refine ⟨tries.1 "helpers" (by decide) ?_ (by decide) "py" (by decide), ?_⟩
  · exact isIdentifier_of_all (by decide) (by decide)
  · exact tries.2 (by decide) identifiers_packageImport "crate".toList (by decide) "py".toList

/-- Not every identifier that is imported is tried as a module: the name of a place is not. -/
theorem not_filesAt_subset_ofImport_package :
    hasExtension ["py"] packageImport.moduleName.toList = false ∧
      modulePath packageImport.moduleName.toList ≠ [] ∧
      "crate" ∈ packageImport.names ∧ IsIdentifier "crate".toList ∧
      ¬ filesAt (modulePath packageImport.moduleName.toList ++ ['/'] ++ "crate".toList)
        "py".toList ⊆ ofImport ["py"] packageImport := by
  have named : modulePath packageImport.moduleName.toList ≠ [] := by
    rw [modulePath_packageImport]
    decide
  have isPlace : "crate".toList ∈ placeWords := by decide
  refine ⟨by decide, named, by decide, isIdentifier_of_mem_placeWords isPlace, fun within => ?_⟩
  exact notMem_ofImport_of_placeWord (by decide) named (by decide) identifiers_packageImport isPlace
    List.mem_cons_self (within List.mem_cons_self)

end CodeAtlas.Candidates
