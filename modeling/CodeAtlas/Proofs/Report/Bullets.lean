/-
This file says how many bullets the section of a file has. Every import, class, method, function
and error has one line that is a bullet, and no other line is one. So the rows of a section have
one bullet for each of them as long as no text that is printed has a line break. Documentations
may have any number of lines, but parameters and return types are printed as they are written:
if they go over several lines, so does the bullet.
-/

import CodeAtlas.Extraction.Basic
import CodeAtlas.Proofs.Report.Rows

namespace CodeAtlas.Markdown

/-! ### Bullets -/

/-- Whether a row is a bullet, perhaps an indented one. -/
def isBullet (row : Text.Chars) : Bool :=
  Text.startsWith "- ".toList (row.dropWhile (· = ' '))

/-- The bullet of a function. -/
def functionBullet (indent : String) (function : Function) : String :=
  indent ++ "- " ++ code function.signature ++ " " ++
    lineRange function.startLine function.endLine

/-- The line of the documentation of a function, if it has one. -/
def docLine? (indent : String) (function : Function) : Option String :=
  if function.doc.isEmpty then none else some (indent ++ "  > " ++ firstLine function.doc)

/-- The line of the calls of a function, if it has any. -/
def callsLine? (indent : String) (function : Function) : Option String :=
  if function.calls.isEmpty then none
  else some (indent ++ "  calls: " ++ ", ".intercalate function.calls)

/-- The bullet of a class. -/
def classBullet (owner : Class) : String :=
  "- " ++ code owner.name ++
    (if owner.bases.isEmpty then "" else " (" ++ ", ".intercalate owner.bases ++ ")") ++ " " ++
    lineRange owner.startLine owner.endLine

/-- The bullets of a class and its methods. -/
def classBullets (owner : Class) : List String :=
  classBullet owner :: owner.methods.map (functionBullet "  ")

/-- The bullets of a file: of its imports, of its classes with their methods, of its functions and
of its errors. -/
def fileBullets (file : FileRecord) : List String :=
  file.imports.map importLine ++ file.classes.flatMap classBullets ++
    file.functions.map (functionBullet "") ++ file.errors.map ("- " ++ ·)

theorem length_fileBullets (file : FileRecord) :
    (fileBullets file).length = file.imports.length + file.classes.length + file.methodCount +
      file.functions.length + file.errors.length := by
  have classes : (file.classes.flatMap classBullets).length =
      file.classes.length + file.methodCount := by
    unfold FileRecord.methodCount
    induction file.classes with
    | nil => rfl
    | cons owner classes inductionHypothesis =>
      simp only [List.flatMap_cons, List.length_append, inductionHypothesis, classBullets,
        List.length_cons, List.length_map]
      omega
  simp only [fileBullets, List.length_append, List.length_map, classes]
  omega

theorem functionLines_eq (indent : String) (function : Function) :
    functionLines indent function = functionBullet indent function ::
      ((docLine? indent function).toList ++ (callsLine? indent function).toList) := by
  unfold functionLines docLine? callsLine? unlessEmpty
  split <;> split <;> rfl

/-! ### The bullets among the lines -/

/-- Some lines that are bullets. -/
def bullets (lines : List String) : List String :=
  lines.filter fun line => isBullet line.toList

theorem bullets_append (front back : List String) :
    bullets (front ++ back) = bullets front ++ bullets back :=
  List.filter_append front back

theorem bullets_eq_nil {lines : List String}
    (none : ∀ line ∈ lines, isBullet line.toList = false) : bullets lines = [] :=
  List.filter_eq_nil_iff.mpr fun line member => by simp [none line member]

theorem bullets_flatMap {α : Type} {lines kept : α → List String}
    (each : ∀ item, bullets (lines item) = kept item) (items : List α) :
    bullets (items.flatMap lines) = items.flatMap kept := by
  rw [bullets, List.filter_flatMap]
  exact List.flatMap_congr fun item _ => each item

theorem bullets_map {α : Type} {line : α → String}
    (each : ∀ item, isBullet (line item).toList = true) (items : List α) :
    bullets (items.map line) = items.map line :=
  List.filter_eq_self.mpr (List.forall_mem_map.mpr fun item _ => each item)

/-- The title of a part is no bullet, and a part that is left out has none. -/
theorem bullets_unlessEmpty {α : Type} {title : String} (noBullet : isBullet title.toList = false)
    (items : List α) (lines : List α → List String) (empty : lines [] = []) :
    bullets (unlessEmpty items (["", title] ++ lines items)) = bullets (lines items) := by
  cases items with
  | nil => rw [empty]; rfl
  | cons item items =>
    have none : bullets ["", title] = [] :=
      bullets_eq_nil (List.forall_mem_cons.mpr ⟨rfl, List.forall_mem_singleton.mpr noBullet⟩)
    rw [unlessEmpty, if_neg (by simp), bullets_append, none, List.nil_append]

section

variable {indent : String} (blank : indent = "" ∨ indent = "  ")

include blank

theorem isBullet_functionBullet (function : Function) :
    isBullet (functionBullet indent function).toList = true := by
  rcases blank with rfl | rfl <;>
    simp [isBullet, functionBullet, Text.startsWith, Text.stripFront?]

/-- Neither the line of a documentation is a bullet nor that of the calls. -/
theorem bullets_functionLines (function : Function) :
    bullets (functionLines indent function) = [functionBullet indent function] := by
  have doc : isBullet (indent ++ "  > " ++ firstLine function.doc).toList = false := by
    rcases blank with rfl | rfl <;> simp [isBullet, Text.startsWith, Text.stripFront?]
  have calls : isBullet (indent ++ "  calls: " ++ ", ".intercalate function.calls).toList =
      false := by
    rcases blank with rfl | rfl <;> simp [isBullet, Text.startsWith, Text.stripFront?]
  have noDoc := bullets_eq_nil (forall_mem_docLine doc)
  have noCalls := bullets_eq_nil
    (forall_mem_unlessEmpty (List.forall_mem_singleton.mpr calls) function.calls)
  rw [functionLines, bullets_append, bullets_append, noDoc, noCalls, List.append_nil,
    List.append_nil]
  exact List.filter_cons_of_pos (isBullet_functionBullet blank function)

end

theorem bullets_classLines (owner : Class) : bullets (classLines owner) = classBullets owner := by
  have bullet : bullets [classBullet owner] = [classBullet owner] := by
    simp [bullets, isBullet, classBullet, Text.startsWith, Text.stripFront?]
  have doc : isBullet ("  > " ++ firstLine owner.doc).toList = false := by
    simp [isBullet, Text.startsWith, Text.stripFront?]
  have noDoc := bullets_eq_nil (forall_mem_docLine doc)
  have methods : bullets (owner.methods.flatMap (functionLines "  ")) =
      owner.methods.map (functionBullet "  ") := by
    rw [bullets_flatMap (bullets_functionLines (.inr rfl)), ← List.map_eq_flatMap]
  have divided : classLines owner = [classBullet owner] ++
      (if owner.doc.isEmpty then [] else ["  > " ++ firstLine owner.doc]) ++
        owner.methods.flatMap (functionLines "  ") := rfl
  rw [divided, bullets_append, bullets_append, bullet, noDoc, methods]
  rfl

theorem isBullet_importLine (statement : Import) :
    isBullet (importLine statement).toList = true := by
  unfold importLine
  split <;> simp [isBullet, Text.startsWith, Text.stripFront?]

/-- The bullets among the lines of a file are those of its entities, one for each. -/
theorem bullets_fileLines (file : FileRecord) : bullets (fileLines file) = fileBullets file := by
  have title : bullets ["", "### " ++ code file.path ++ " (" ++ file.languageTag ++ ")"] = [] := by
    simp [bullets, isBullet, Text.startsWith, Text.stripFront?]
  have error (text : String) : isBullet ("- " ++ text).toList = true := by
    simp [isBullet, Text.startsWith, Text.stripFront?]
  have functions : bullets (file.functions.flatMap (functionLines "")) =
      file.functions.map (functionBullet "") := by
    rw [bullets_flatMap (bullets_functionLines (.inl rfl)), ← List.map_eq_flatMap]
  rw [fileLines, bullets_append, bullets_append, bullets_append, bullets_append, title,
    bullets_unlessEmpty (by decide) _ (List.map importLine) rfl,
    bullets_unlessEmpty (by decide) _ (List.flatMap classLines) rfl,
    bullets_unlessEmpty (by decide) _ (List.flatMap (functionLines "")) rfl,
    bullets_unlessEmpty (by decide) _ (List.map ("- " ++ ·)) rfl, bullets_map isBullet_importLine,
    bullets_flatMap bullets_classLines, functions, bullets_map error]
  rfl

/-! ### The rows of a section -/

theorem filter_isBullet_rows {lines : List String} (areLines : ∀ line ∈ lines, IsLine line) :
    (Text.rows (written lines).toList).filter isBullet = (bullets lines).map String.toList := by
  rw [rows_written areLines, List.filter_append, List.filter_map, bullets]
  exact List.append_nil _

/-- The lines of a file keep to one row each exactly if no text that is printed has a line break,
and then the rows have one bullet for every import, class, method, function and error. A function
has its bullet, at most a line of its documentation and at most one of its calls. -/
theorem rows_fileLines (file : FileRecord) :
    (Text.rows (written (fileLines file)).toList = (fileLines file).map String.toList ++ [[]] ↔
        file.Unbroken) ∧
      (file.Unbroken → (Text.rows (written (fileLines file)).toList).filter isBullet =
        (fileBullets file).map String.toList) ∧
      (fileBullets file).length = file.imports.length + file.classes.length + file.methodCount +
        file.functions.length + file.errors.length ∧
      ∀ indent, IsLine indent → ∀ function : Function,
        Text.rows (written (functionLines indent function)).toList =
            (functionBullet indent function ::
              ((docLine? indent function).toList ++ (callsLine? indent function).toList)).map
                String.toList ++ [[]] ↔
          function.Unbroken := by
  refine ⟨rows_written_iff.trans isLine_fileLines_iff, fun unbroken => ?_,
    length_fileBullets file, fun indent isLine function => ?_⟩
  · rw [filter_isBullet_rows (isLine_fileLines_iff.mpr unbroken), bullets_fileLines]
  · rw [← functionLines_eq]
    exact rows_written_iff.trans (isLine_functionLines_iff isLine)

/-- A file with an import and a class, which has a method and two lines of documentation. -/
def circleRecord : FileRecord where
  path := "circle.py"
  language := some .python
  imports := [⟨"import math", "math", [], 1⟩]
  classes := [{
    name := "Circle", bases := ["Shape"], doc := "A circle.\nIt is round.", startLine := 3
    endLine := 9, isPrivate := false
    methods := [{
      name := "area", parameters := "(self)", returnType := "float", doc := "", startLine := 7
      endLine := 9, calls := ["square"], isMethod := true, isPrivate := false }] }]
  functions := []
  errors := []

/-- The import, the class and its method have a bullet each. -/
theorem rows_fileLines_circle :
    circleRecord.Unbroken ∧
      ((Text.rows (written (fileLines circleRecord)).toList).filter isBullet).length = 3 := by
  have unbroken : circleRecord.Unbroken := isLine_fileLines_iff.mp (by decide +kernel)
  obtain ⟨_, kept, count, _⟩ := rows_fileLines circleRecord
  rw [kept unbroken, List.length_map, count]
  exact ⟨unbroken, rfl⟩

/-- A script with a function whose parameters stand on two lines. -/
def twoLineScript : ParsedFile where
  language := .javaScript
  source := "function f(a,\n  b) \x7b\x7d\n".toList
  root :=
    ⟨"program", none, 0, 22,
      [⟨"function_declaration", none, 0, 21,
        [⟨"identifier", some "name", 9, 10, []⟩,
          ⟨"formal_parameters", some "parameters", 10, 18,
            [⟨"identifier", none, 11, 12, []⟩, ⟨"identifier", none, 16, 17, []⟩]⟩,
          ⟨"statement_block", some "body", 19, 21, []⟩]⟩]⟩
  hasSyntaxErrors := false

/-- The bullet of a function goes over two rows if its parameters do. -/
theorem exists_rows_functionLines_ne :
    ∃ function ∈ (Extraction.record {} "main.js" twoLineScript).allFunctions,
      function.signature = "f(a,\n  b)" ∧
        Text.rows (written (functionLines "" function)).toList =
          ["- `f(a,".toList, "  b)` [L1-2]".toList, []] := by
  decide +kernel

end CodeAtlas.Markdown
