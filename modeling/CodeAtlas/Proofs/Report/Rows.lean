/-
This file says which lines of a report keep to one row of its text. All of them do if and only if
no text that is printed has a line break in it. Documentations take no part in that: of each only
its first line is printed.
-/

import CodeAtlas.Proofs.Report.Reading
import CodeAtlas.Proofs.Text.Numerals
import CodeAtlas.Report.Markdown

namespace CodeAtlas

namespace Markdown

/-! ### Lines and rows -/

/-- Whether a text has no line break in it. -/
def IsLine (text : String) : Prop :=
  '\n' ∉ text.toList

instance (text : String) : Decidable (IsLine text) :=
  inferInstanceAs (Decidable ('\n' ∉ text.toList))

/-- Some lines as a text, every line ended by a line break. -/
def written (lines : List String) : String :=
  String.join (lines.map (· ++ "\n"))

theorem rows_written {lines : List String} (areLines : ∀ line ∈ lines, IsLine line) :
    Text.rows (written lines).toList = lines.map String.toList ++ [[]] :=
  Directory.rows_join_lines areLines

/-- Lines are found again as the rows of their text exactly if there are no line breaks in them. -/
theorem rows_written_iff {lines : List String} :
    Text.rows (written lines).toList = lines.map String.toList ++ [[]] ↔
      ∀ line ∈ lines, IsLine line := by
  refine ⟨fun same line member => ?_, rows_written⟩
  have isRow : line.toList ∈ Text.rows (written lines).toList := by
    rw [same]
    exact List.mem_append_left _ (List.mem_map_of_mem member)
  exact Text.unbroken_of_mem_rows isRow

/-! ### Pieces of lines -/

@[simp]
theorem isLine_append {front back : String} :
    IsLine (front ++ back) ↔ IsLine front ∧ IsLine back := by
  simp [IsLine, not_or]

theorem isLine_intercalate {separator : String} (isLine : IsLine separator) {texts : List String} :
    IsLine (separator.intercalate texts) ↔ ∀ text ∈ texts, IsLine text := by
  induction texts with
  | nil => simp [IsLine]
  | cons text texts inductionHypothesis =>
    cases texts with
    | nil => simp [IsLine]
    | cons next texts =>
      rw [List.forall_mem_cons, ← inductionHypothesis]
      simp only [IsLine, String.toList_intercalate, List.map_cons, List.intercalate_cons_cons,
        List.mem_append, not_or] at isLine ⊢
      tauto

@[simp]
theorem isLine_commas {texts : List String} :
    IsLine (", ".intercalate texts) ↔ ∀ text ∈ texts, IsLine text :=
  isLine_intercalate (by simp [IsLine])

@[simp]
theorem isLine_code {text : String} : IsLine (code text) ↔ IsLine text := by
  simp [code, IsLine]

@[simp]
theorem isLine_codeList {texts : List String} :
    IsLine (codeList texts) ↔ ∀ text ∈ texts, IsLine text := by
  simp [codeList]

theorem isLine_toString (number : Nat) : IsLine (toString number) :=
  fun isBreak => by cases Text.isDigit_of_mem_toString isBreak

@[simp]
theorem isLine_lineRange (startLine endLine : Nat) : IsLine (lineRange startLine endLine) := by
  have numbers := And.intro (isLine_toString startLine) (isLine_toString endLine)
  simp only [lineRange, isLine_append, numbers]
  simp [IsLine]

@[simp]
theorem isLine_languageTag (file : FileRecord) : IsLine file.languageTag := by
  unfold FileRecord.languageTag
  cases file.language with
  | none => simp [IsLine]
  | some language => cases language <;> simp [IsLine, Language.tag]

theorem subset_dropReturn (line : Text.Chars) : Text.dropReturn line ⊆ line := by
  unfold Text.dropReturn
  cases found : Text.stripBack? ['\r'] line with
  | none => exact List.Subset.refl line
  | some rest =>
    rw [Text.stripBack?_eq_some_iff.mp found]
    exact List.subset_append_left rest ['\r']

/-- The first line of a documentation has no line break in it, however many lines there are. -/
@[simp]
theorem isLine_firstLine (text : String) : IsLine (firstLine text) := by
  obtain ⟨row, others, divided⟩ := List.exists_cons_of_ne_nil (Text.rows_ne_nil text.toList)
  have isRow : row ∈ Text.rows text.toList := divided ▸ List.mem_cons_self
  have first : (Text.lines text.toList).headD [] ⊆ row := by
    rw [Text.lines, ← Text.rows, divided]
    cases others with
    | nil =>
      rw [Text.linesOfPieces]
      split
      · exact List.nil_subset row
      · exact List.Subset.refl row
    | cons next others => exact subset_dropReturn row
  unfold IsLine firstLine
  rw [String.toList_ofList]
  exact fun inFirst => Text.unbroken_of_mem_rows isRow (first inFirst)

end Markdown

/-! ### Printed texts -/

open Markdown

/-- Whether no text that is printed of a function has a line break, its documentation apart. -/
structure Function.Unbroken (function : Function) : Prop where
  name : IsLine function.name
  parameters : IsLine function.parameters
  returnType : IsLine function.returnType
  calls : ∀ name ∈ function.calls, IsLine name

/-- Whether no text that is printed of a class and its methods has a line break, documentations
apart. -/
structure Class.Unbroken (owner : Class) : Prop where
  name : IsLine owner.name
  bases : ∀ base ∈ owner.bases, IsLine base
  methods : ∀ method ∈ owner.methods, method.Unbroken

/-- Whether no text that is printed of an import has a line break. -/
structure Import.Unbroken (statement : Import) : Prop where
  moduleName : IsLine statement.moduleName
  names : ∀ name ∈ statement.names, IsLine name

/-- Whether no text that is printed of a file has a line break, documentations apart. -/
structure FileRecord.Unbroken (file : FileRecord) : Prop where
  path : IsLine file.path
  imports : ∀ statement ∈ file.imports, statement.Unbroken
  classes : ∀ owner ∈ file.classes, owner.Unbroken
  functions : ∀ function ∈ file.functions, function.Unbroken
  errors : ∀ error ∈ file.errors, IsLine error

namespace Markdown

theorem isLine_signature_iff {function : Function} :
    IsLine function.signature ↔
      IsLine function.name ∧ IsLine function.parameters ∧ IsLine function.returnType := by
  have shown : IsLine (if function.parameters.isEmpty then "()" else function.parameters) ↔
      IsLine function.parameters := by
    split
    · next none => simp +decide [String.isEmpty_iff.mp none]
    · rfl
  dsimp only [Function.signature]
  generalize (if function.parameters.isEmpty then "()" else function.parameters) = parameters
    at shown ⊢
  split
  · next none => simp +decide [shown, String.isEmpty_iff.mp none]
  · simp +decide [shown, and_assoc]

/-- A part that is left out if there is nothing to put there has only what is put there. -/
theorem isLine_unlessEmpty {α : Type} {items : List α} {part : List String} {fine : α → Prop}
    (each : (∀ line ∈ part, IsLine line) ↔ ∀ item ∈ items, fine item) :
    (∀ line ∈ unlessEmpty items part, IsLine line) ↔ ∀ item ∈ items, fine item := by
  cases items with
  | nil => simp [unlessEmpty]
  | cons item items => exact each

/-- A list of entities under a title has what each of them has. -/
theorem isLine_titled {α : Type} {items : List α} {title : String} (isLine : IsLine title)
    {lines : α → List String} {fine : α → Prop}
    (each : ∀ item, (∀ line ∈ lines item, IsLine line) ↔ fine item) :
    (∀ line ∈ unlessEmpty items (["", title] ++ items.flatMap lines), IsLine line) ↔
      ∀ item ∈ items, fine item := by
  refine isLine_unlessEmpty ?_
  rw [List.forall_mem_append, List.forall_mem_flatMap,
    and_iff_right (List.forall_mem_cons.mpr ⟨by decide, List.forall_mem_singleton.mpr isLine⟩)]
  exact forall₂_congr fun item _ => each item

/-- What holds of the lines of a part also holds if the part is left out. -/
theorem forall_mem_unlessEmpty {α : Type} {p : String → Prop} {part : List String}
    (holds : ∀ line ∈ part, p line) (items : List α) : ∀ line ∈ unlessEmpty items part, p line := by
  unfold unlessEmpty
  split
  · exact fun line member => nomatch member
  · exact holds

/-- What holds of the line of a documentation also holds if the line is left out. -/
theorem forall_mem_docLine {p : String → Prop} {front doc : String}
    (holds : p (front ++ firstLine doc)) :
    ∀ line ∈ if doc.isEmpty then [] else [front ++ firstLine doc], p line := by
  split
  · exact fun line member => nomatch member
  · exact List.forall_mem_singleton.mpr holds

theorem isLine_functionLines_iff {indent : String} (isLine : IsLine indent) {function : Function} :
    (∀ line ∈ functionLines indent function, IsLine line) ↔ function.Unbroken := by
  have bullet : IsLine (indent ++ "- " ++ code function.signature ++ " " ++
      lineRange function.startLine function.endLine) ↔ IsLine function.signature := by
    simp +decide [isLine]
  have doc : IsLine (indent ++ "  > " ++ firstLine function.doc) := by simp +decide [isLine]
  have calls : (∀ line ∈ unlessEmpty function.calls
      [indent ++ "  calls: " ++ ", ".intercalate function.calls], IsLine line) ↔
        ∀ name ∈ function.calls, IsLine name :=
    isLine_unlessEmpty (by simp +decide [isLine])
  rw [functionLines, List.forall_mem_append, List.forall_mem_append, List.forall_mem_singleton,
    bullet, calls, isLine_signature_iff,
    and_iff_left (forall_mem_docLine doc)]
  exact ⟨fun ⟨⟨name, parameters, returnType⟩, calls⟩ => ⟨name, parameters, returnType, calls⟩,
    fun ⟨name, parameters, returnType, calls⟩ => ⟨⟨name, parameters, returnType⟩, calls⟩⟩

theorem isLine_classLines_iff {owner : Class} :
    (∀ line ∈ classLines owner, IsLine line) ↔ owner.Unbroken := by
  have bases : IsLine (if owner.bases.isEmpty then ""
      else " (" ++ ", ".intercalate owner.bases ++ ")") ↔ ∀ base ∈ owner.bases, IsLine base := by
    split
    · next none => simp +decide [List.isEmpty_iff.mp none]
    · simp +decide
  have methods : (∀ line ∈ owner.methods.flatMap (functionLines "  "), IsLine line) ↔
      ∀ method ∈ owner.methods, method.Unbroken := by
    rw [List.forall_mem_flatMap]
    exact forall₂_congr fun method _ => isLine_functionLines_iff (by decide)
  have doc : IsLine ("  > " ++ firstLine owner.doc) := by simp +decide
  rw [classLines, List.forall_mem_append, List.forall_mem_append, methods,
    and_iff_left (forall_mem_docLine doc)]
  simp +decide only [List.forall_mem_singleton, isLine_append, isLine_code, bases,
    isLine_lineRange, true_and, and_true]
  exact ⟨fun ⟨⟨name, bases⟩, methods⟩ => ⟨name, bases, methods⟩,
    fun ⟨name, bases, methods⟩ => ⟨⟨name, bases⟩, methods⟩⟩

theorem isLine_importLine_iff {statement : Import} :
    IsLine (importLine statement) ↔ statement.Unbroken := by
  have parts : statement.Unbroken ↔
      IsLine statement.moduleName ∧ ∀ name ∈ statement.names, IsLine name :=
    ⟨fun ⟨moduleName, names⟩ => ⟨moduleName, names⟩, fun ⟨moduleName, names⟩ => ⟨moduleName, names⟩⟩
  rw [parts, importLine]
  split
  · next none => simp +decide [List.isEmpty_iff.mp none]
  · simp +decide

/-- All lines of a file keep to one row exactly if no text that is printed has a line break. -/
theorem isLine_fileLines_iff {file : FileRecord} :
    (∀ line ∈ fileLines file, IsLine line) ↔ file.Unbroken := by
  have title : (∀ line ∈ ["", "### " ++ code file.path ++ " (" ++ file.languageTag ++ ")"],
      IsLine line) ↔ IsLine file.path := by
    simp +decide
  have imports : (∀ line ∈ unlessEmpty file.imports
      (["", "**Imports:**"] ++ file.imports.map importLine), IsLine line) ↔
        ∀ statement ∈ file.imports, statement.Unbroken :=
    isLine_unlessEmpty (by simp +decide [isLine_importLine_iff])
  have errors : (∀ line ∈ unlessEmpty file.errors
      (["", "**Errors:**"] ++ file.errors.map ("- " ++ ·)), IsLine line) ↔
        ∀ error ∈ file.errors, IsLine error :=
    isLine_unlessEmpty (by simp +decide)
  rw [fileLines, List.forall_mem_append, List.forall_mem_append, List.forall_mem_append,
    List.forall_mem_append, title, imports, errors,
    isLine_titled (by decide) fun _ => isLine_classLines_iff,
    isLine_titled (by decide) fun _ => isLine_functionLines_iff (by decide)]
  exact ⟨fun ⟨⟨⟨⟨path, imports⟩, classes⟩, functions⟩, errors⟩ =>
      ⟨path, imports, classes, functions, errors⟩,
    fun ⟨path, imports, classes, functions, errors⟩ =>
      ⟨⟨⟨⟨path, imports⟩, classes⟩, functions⟩, errors⟩⟩

end Markdown

end CodeAtlas
