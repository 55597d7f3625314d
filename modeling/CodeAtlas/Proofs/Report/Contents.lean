/-
This file compares the table of contents with the sections of a report. No line of a section begins
as a heading does: each begins with a mark of its own, whatever names and documentations are
printed behind it. So where no printed text has a line break, the headings of a report are those
of the summary and of the table of contents and then the titles that the table lists.
-/

import CodeAtlas.Proofs.Graph.Index
import CodeAtlas.Proofs.Report.Rows
import CodeAtlas.Proofs.Text.Cutting
import CodeAtlas.Proofs.Text.LowerCase

namespace CodeAtlas

open Markdown

/-- Whether no text in the relationships that are printed has a line break. -/
structure Relationships.Unbroken (relationships : Relationships) : Prop where
  dependencies : ∀ entry ∈ relationships.dependencies.entries,
    IsLine entry.1 ∧ ∀ target ∈ entry.2.toList, IsLine target
  inheritance : ∀ entry ∈ relationships.inheritance.entries,
    IsLine entry.1 ∧ ∀ base ∈ entry.2, IsLine base
  calls : ∀ entry ∈ relationships.calls.entries, IsLine entry.1 ∧ ∀ name ∈ entry.2, IsLine name

/-- Whether no text that is printed of an analysis has a line break, documentations apart. -/
structure Analysis.Unbroken (analysis : Analysis) : Prop where
  files : ∀ file ∈ analysis.files, file.Unbroken
  relationships : analysis.relationships.Unbroken

namespace Markdown

/-! ### Reading a report -/

/-- What the heading of a section begins with. -/
def headingMark : Text.Chars :=
  "## ".toList

/-- The titles of the headings among some rows. -/
def headings (rows : List Text.Chars) : List Text.Chars :=
  rows.filterMap (Text.stripFront? headingMark)

/-- The title that a row of the table of contents links. -/
def linkedTitle? (row : Text.Chars) : Option Text.Chars :=
  (Text.stripFront? "- [".toList row).map (Text.beforeFirst [']'])

/-- The titles that the table of contents among some rows lists: those of the rows from the second
one below its heading to the next empty one. -/
def listedTitles (rows : List Text.Chars) : List Text.Chars :=
  (((rows.dropWhile (· ≠ "## Table of Contents".toList)).drop 2).takeWhile
    (!·.isEmpty)).filterMap linkedTitle?

/-- The rows of a report. -/
def reportRows (rootName : String) (analysis : Analysis) : List Text.Chars :=
  Text.rows (report rootName analysis).toList

/-! ### Lines that are no headings -/

/-- Whether a line begins as the heading of a section does. -/
def IsHeading (line : String) : Prop :=
  headingMark <+: line.toList

/-- Whether a text can be told from a heading by what it begins with, whatever follows it. -/
def BeginsApart (text : String) : Prop :=
  ¬ headingMark <+: text.toList ∧ ¬ text.toList <+: headingMark

instance (text : String) : Decidable (BeginsApart text) :=
  inferInstanceAs (Decidable (¬ headingMark <+: text.toList ∧ ¬ text.toList <+: headingMark))

theorem BeginsApart.not_isHeading {line : String} (apart : BeginsApart line) : ¬ IsHeading line :=
  apart.1

theorem BeginsApart.append {front : String} (apart : BeginsApart front) (back : String) :
    BeginsApart (front ++ back) := by
  have inFront : front.toList <+: (front ++ back).toList :=
    String.toList_append ▸ List.prefix_append _ _
  refine ⟨fun isHeading => ?_, fun inMark => apart.2 (inFront.trans inMark)⟩
  exact (List.prefix_or_prefix_of_prefix isHeading inFront).elim apart.1 apart.2

/-- Whether none of some lines begins as a heading does. -/
def Headless (lines : List String) : Prop :=
  ∀ line ∈ lines, ¬ IsHeading line

instance (line : String) : Decidable (IsHeading line) :=
  inferInstanceAs (Decidable (headingMark <+: line.toList))

instance (lines : List String) : Decidable (Headless lines) :=
  inferInstanceAs (Decidable (∀ line ∈ lines, ¬ IsHeading line))

theorem headless_append {front back : List String} :
    Headless (front ++ back) ↔ Headless front ∧ Headless back :=
  List.forall_mem_append

theorem headless_flatMap {α : Type} {lines : α → List String} (each : ∀ item, Headless (lines item))
    (items : List α) : Headless (items.flatMap lines) :=
  List.forall_mem_flatMap.mpr fun item _ => each item

theorem headless_map {α : Type} {line : α → String} (each : ∀ item, ¬ IsHeading (line item))
    (items : List α) : Headless (items.map line) :=
  List.forall_mem_map.mpr fun item _ => each item

theorem not_isHeading_empty : ¬ IsHeading "" := by
  decide

theorem beginsApart_bullet : BeginsApart "- " := by
  decide

theorem headless_functionLines {indent : String} (blank : indent = "" ∨ indent = "  ")
    (function : Function) : Headless (functionLines indent function) := by
  have bullet : BeginsApart (indent ++ "- ") := by rcases blank with rfl | rfl <;> decide
  have doc : BeginsApart (indent ++ "  > ") := by rcases blank with rfl | rfl <;> decide
  have calls : BeginsApart (indent ++ "  calls: ") := by rcases blank with rfl | rfl <;> decide
  refine headless_append.mpr ⟨headless_append.mpr ⟨List.forall_mem_singleton.mpr ?_,
    forall_mem_docLine (doc.append _).not_isHeading⟩,
    forall_mem_unlessEmpty (List.forall_mem_singleton.mpr (calls.append _).not_isHeading) _⟩
  exact (((bullet.append _).append _).append _).not_isHeading

theorem headless_classLines (owner : Class) : Headless (classLines owner) := by
  have doc : BeginsApart "  > " := by decide
  refine headless_append.mpr ⟨headless_append.mpr ⟨List.forall_mem_singleton.mpr ?_,
    forall_mem_docLine (doc.append _).not_isHeading⟩,
    headless_flatMap (headless_functionLines (.inr rfl)) owner.methods⟩
  exact ((((beginsApart_bullet.append _).append _).append _).append _).not_isHeading

theorem not_isHeading_importLine (statement : Import) : ¬ IsHeading (importLine statement) := by
  unfold importLine
  split
  · exact (beginsApart_bullet.append _).not_isHeading
  · exact (((beginsApart_bullet.append _).append _).append _).not_isHeading

/-- The title of a file begins with a mark that is longer than that of a section. -/
theorem headless_fileLines (file : FileRecord) : Headless (fileLines file) := by
  have mark : BeginsApart "### " := by decide
  have title : ¬ IsHeading ("### " ++ code file.path ++ " (" ++ file.languageTag ++ ")") :=
    ((((mark.append _).append _).append _).append _).not_isHeading
  have imports : Headless ["", "**Imports:**"] := by decide
  have classes : Headless ["", "**Classes:**"] := by decide
  have functions : Headless ["", "**Functions:**"] := by decide
  have errors : Headless ["", "**Errors:**"] := by decide
  simp only [fileLines, headless_append]
  refine ⟨⟨⟨⟨?_, forall_mem_unlessEmpty ?_ _⟩, forall_mem_unlessEmpty ?_ _⟩,
    forall_mem_unlessEmpty ?_ _⟩, forall_mem_unlessEmpty ?_ _⟩
  · exact List.forall_mem_cons.mpr ⟨not_isHeading_empty, List.forall_mem_singleton.mpr title⟩
  · exact headless_append.mpr ⟨imports, headless_map not_isHeading_importLine _⟩
  · exact headless_append.mpr ⟨classes, headless_flatMap headless_classLines _⟩
  · exact headless_append.mpr ⟨functions, headless_flatMap (headless_functionLines (.inl rfl)) _⟩
  · exact headless_append.mpr ⟨errors,
      headless_map (fun error => (beginsApart_bullet.append error).not_isHeading) _⟩

/-- The lines of a directory begin with connectors, or with what goes on from those above. -/
theorem headless_directoryLines (directory : Directory) : Headless (directory.lines "") := by
  rw [Directory.topLines_eq]
  refine headless_map (fun entry => ?_) _
  unfold Directory.Drawn.line Directory.Drawn.indent
  cases entry.above with
  | nil => cases entry.isLast <;> simp [IsHeading, headingMark, Directory.connector]
  | cons isLast above =>
    cases isLast <;> simp [IsHeading, headingMark, Directory.continuation, String.toList_join]

/-- A slash behind the name of the root makes no heading of it. -/
theorem not_isHeading_root {rootName : String} (noHeading : ¬ IsHeading rootName) :
    ¬ IsHeading (rootName ++ "/") := by
  intro isHeading
  have front : headingMark <+: rootName.toList ++ ['/'] := by simpa [IsHeading] using isHeading
  rcases List.prefix_concat_iff.mp front with whole | inName
  · simpa [headingMark] using congrArg List.getLast? whole
  · exact noHeading inName

theorem headless_structureLines {rootName : String} (noHeading : ¬ IsHeading rootName)
    (analysis : Analysis) : Headless (structureLines rootName analysis) := by
  have fence : ¬ IsHeading "```" := by decide
  have root : Headless ["", "```", rootName ++ "/"] :=
    List.forall_mem_cons.mpr ⟨not_isHeading_empty, List.forall_mem_cons.mpr ⟨fence,
      List.forall_mem_singleton.mpr (not_isHeading_root noHeading)⟩⟩
  exact headless_append.mpr ⟨headless_append.mpr ⟨root, headless_directoryLines _⟩,
    List.forall_mem_singleton.mpr fence⟩

theorem headless_dependencyLines (analysis : Analysis) : Headless (dependencyLines analysis) := by
  refine headless_append.mpr ⟨List.forall_mem_singleton.mpr not_isHeading_empty,
    headless_map (fun entry => ?_) _⟩
  exact (((beginsApart_bullet.append _).append _).append _).not_isHeading

theorem headless_inheritanceLines (analysis : Analysis) : Headless (inheritanceLines analysis) := by
  have edge : BeginsApart "    " := by decide
  have opening : Headless ["", "```mermaid", "graph TD"] := by decide
  have closing : Headless ["```", ""] := by decide
  refine headless_append.mpr ⟨headless_append.mpr ⟨headless_append.mpr ⟨opening,
    headless_flatMap (fun entry => headless_map (fun base => ?_) _) _⟩, closing⟩,
    headless_map (fun entry => ?_) _⟩
  · exact (((edge.append _).append _).append _).not_isHeading
  · exact (((beginsApart_bullet.append _).append _).append _).not_isHeading

theorem headless_callLines (calls : Index (List String)) : Headless (callLines calls) := by
  refine headless_append.mpr ⟨List.forall_mem_singleton.mpr not_isHeading_empty,
    headless_map (fun entry => ?_) _⟩
  exact (((beginsApart_bullet.append _).append _).append _).not_isHeading

/-! ### Lines without breaks -/

theorem isLine_directoryLines {paths : List String} (areLines : ∀ path ∈ paths, IsLine path) :
    ∀ line ∈ (Directory.ofPaths paths).lines "", IsLine line := by
  refine Directory.unbroken_lines (Directory.tidy_ofPaths paths) (Directory.avoids_newline ?_)
  intro path member step isStep
  obtain ⟨piece, isPiece, rfl⟩ := List.mem_map.mp isStep
  rw [String.toList_ofList]
  exact fun inPiece => areLines path member
    (Text.subset_of_mem_splitWhere (List.mem_filter.mp isPiece).1 inPiece)

theorem isLine_structureLines {rootName : String} (isLine : IsLine rootName) {analysis : Analysis}
    (unbroken : analysis.Unbroken) : ∀ line ∈ structureLines rootName analysis, IsLine line := by
  have paths : ∀ path ∈ analysis.files.map FileRecord.path, IsLine path :=
    List.forall_mem_map.mpr fun file member => (unbroken.files file member).path
  simp only [structureLines, List.forall_mem_append]
  refine ⟨⟨?_, isLine_directoryLines paths⟩, by decide⟩
  simp +decide [isLine]

theorem isLine_dependencyLines {analysis : Analysis} (unbroken : analysis.Unbroken) :
    ∀ line ∈ dependencyLines analysis, IsLine line := by
  simp only [dependencyLines, List.forall_mem_append, List.forall_mem_map]
  refine ⟨by decide, fun entry member => ?_⟩
  obtain ⟨path, targets⟩ :=
    unbroken.relationships.dependencies entry (List.mem_filter.mp member).1
  simpa +decide [path] using targets

theorem isLine_inheritanceLines {analysis : Analysis} (unbroken : analysis.Unbroken) :
    ∀ line ∈ inheritanceLines analysis, IsLine line := by
  simp only [inheritanceLines, List.forall_mem_append, List.forall_mem_map,
    List.forall_mem_flatMap]
  refine ⟨⟨⟨by decide, fun entry member base isBase => ?_⟩, by decide⟩, fun entry member => ?_⟩
  · obtain ⟨name, bases⟩ := unbroken.relationships.inheritance entry member
    simpa +decide [name] using bases base isBase
  · obtain ⟨name, bases⟩ := unbroken.relationships.inheritance entry member
    simpa +decide [name] using bases

/-- The calls within the project are among all calls. -/
theorem exists_of_mem_internalCalls {relationships : Relationships} {entry : String × List String}
    (member : entry ∈ relationships.internalCalls.entries) :
    ∃ names, (entry.1, names) ∈ relationships.calls.entries ∧ entry.2 ⊆ names := by
  obtain ⟨⟨caller, names⟩, isEntry, kept⟩ := List.mem_filterMap.mp member
  obtain ⟨callees, found, rfl⟩ := Option.map_eq_some_iff.mp kept
  refine ⟨names, isEntry, ?_⟩
  dsimp only at found
  split at found
  · cases found
  · obtain rfl := Option.some.inj found
    exact List.filter_sublist.subset

theorem isLine_callLines {analysis : Analysis} (unbroken : analysis.Unbroken) :
    ∀ line ∈ callLines analysis.relationships.internalCalls, IsLine line := by
  simp only [callLines, List.forall_mem_append, List.forall_mem_map]
  refine ⟨by decide, fun entry member => ?_⟩
  obtain ⟨names, isEntry, among⟩ := exists_of_mem_internalCalls member
  obtain ⟨caller, callees⟩ := unbroken.relationships.calls _ isEntry
  simpa +decide [caller] using fun name isCallee => callees name (among isCallee)

/-! ### The sections -/

theorem mem_sections {rootName : String} {analysis : Analysis} {part : Section}
    (member : part ∈ sections rootName analysis) :
    part = ⟨"Project Structure", structureLines rootName analysis⟩ ∨
      part = ⟨"Files", analysis.files.flatMap fileLines⟩ ∨
      part = ⟨"File Dependencies", dependencyLines analysis⟩ ∨
      part = ⟨"Inheritance", inheritanceLines analysis⟩ ∨
      part = ⟨"Call Graph", callLines analysis.relationships.internalCalls⟩ := by
  simp only [sections, List.mem_append, List.mem_cons, List.not_mem_nil, or_false] at member
  rcases member with ((((rfl | rfl) | member) | member) | member)
  · exact .inl rfl
  · exact .inr (.inl rfl)
  · split at member
    · cases member
    · exact .inr (.inr (.inl (List.mem_singleton.mp member)))
  · split at member
    · cases member
    · exact .inr (.inr (.inr (.inl (List.mem_singleton.mp member))))
  · split at member
    · cases member
    · exact .inr (.inr (.inr (.inr (List.mem_singleton.mp member))))

theorem headless_section {rootName : String} (noHeading : ¬ IsHeading rootName)
    {analysis : Analysis} {part : Section} (member : part ∈ sections rootName analysis) :
    Headless part.lines := by
  rcases mem_sections member with rfl | rfl | rfl | rfl | rfl
  · exact headless_structureLines noHeading analysis
  · exact headless_flatMap headless_fileLines _
  · exact headless_dependencyLines analysis
  · exact headless_inheritanceLines analysis
  · exact headless_callLines _

theorem isLine_section {rootName : String} (isLine : IsLine rootName) {analysis : Analysis}
    (unbroken : analysis.Unbroken) {part : Section} (member : part ∈ sections rootName analysis) :
    ∀ line ∈ part.lines, IsLine line := by
  rcases mem_sections member with rfl | rfl | rfl | rfl | rfl
  · exact isLine_structureLines isLine unbroken
  · refine List.forall_mem_flatMap.mpr fun file isFile => ?_
    exact isLine_fileLines_iff.mpr (unbroken.files file isFile)
  · exact isLine_dependencyLines unbroken
  · exact isLine_inheritanceLines unbroken
  · exact isLine_callLines unbroken

/-! ### Their titles -/

/-- The titles of the sections of a report, in order. -/
def titles (rootName : String) (analysis : Analysis) : List String :=
  (sections rootName analysis).map Section.title

theorem titles_eq (rootName : String) (analysis : Analysis) :
    titles rootName analysis = ["Project Structure", "Files"] ++
      (if (dependents analysis).isEmpty then [] else ["File Dependencies"]) ++
      (if analysis.relationships.inheritance.isEmpty then [] else ["Inheritance"]) ++
      (if analysis.relationships.internalCalls.isEmpty then [] else ["Call Graph"]) := by
  simp only [titles, sections, List.map_append, apply_ite (List.map Section.title)]
  rfl

/-- Where a title has no line break, neither has the name to link to. -/
theorem isLine_anchor {title : String} (isLine : IsLine title) : IsLine (anchor title) := by
  intro member
  rw [anchor, String.toList_ofList, Text.replaceChar] at member
  obtain ⟨character, small, same⟩ := List.mem_map.mp member
  split at same
  · exact absurd same (by decide)
  · subst same
    exact isLine (Text.mem_of_mem_lower (by decide) small)

theorem isLine_contentsLine {title : String} (isLine : IsLine title) :
    IsLine (contentsLine title) := by
  simp only [contentsLine, isLine_append]
  exact ⟨⟨⟨⟨by decide, isLine⟩, by decide⟩, isLine_anchor isLine⟩, by decide⟩

/-- No title has a line break or a bracket in it. -/
theorem isLine_of_mem_titles {rootName : String} {analysis : Analysis} {title : String}
    (member : title ∈ titles rootName analysis) : IsLine title ∧ ']' ∉ title.toList := by
  have plain : ∀ title ∈ ["Project Structure", "Files", "File Dependencies", "Inheritance",
      "Call Graph"], IsLine title ∧ ']' ∉ title.toList := by
    decide
  refine plain title ?_
  obtain ⟨part, isPart, rfl⟩ := List.mem_map.mp member
  rcases mem_sections isPart with rfl | rfl | rfl | rfl | rfl <;> simp

theorem isEmpty_dependents_eq_false_iff {analysis : Analysis} :
    (dependents analysis).isEmpty = false ↔
      ∃ path, analysis.relationships.dependenciesOf path ≠ [] := by
  rw [List.isEmpty_eq_false_iff_exists_mem]
  constructor
  · rintro ⟨⟨path, targets⟩, member⟩
    obtain ⟨isEntry, kept⟩ := List.mem_filter.mp member
    refine ⟨path, ?_⟩
    rw [Relationships.dependenciesOf, Index.get?_eq_some_iff.mpr isEntry]
    simpa [TextSet.isEmpty] using kept
  · rintro ⟨path, some⟩
    unfold Relationships.dependenciesOf at some
    cases found : analysis.relationships.dependencies.get? path with
    | none => rw [found] at some; exact absurd rfl some
    | some targets =>
      rw [found] at some
      refine ⟨(path, targets), List.mem_filter.mpr ⟨Index.get?_eq_some_iff.mp found, ?_⟩⟩
      simpa [TextSet.isEmpty] using some

theorem mem_titles_iff {rootName : String} {analysis : Analysis} :
    ("File Dependencies" ∈ titles rootName analysis ↔
        ∃ path, analysis.relationships.dependenciesOf path ≠ []) ∧
      ("Inheritance" ∈ titles rootName analysis ↔
        analysis.relationships.inheritance.isEmpty = false) ∧
      ("Call Graph" ∈ titles rootName analysis ↔
        analysis.relationships.internalCalls.isEmpty = false) := by
  rw [titles_eq, ← isEmpty_dependents_eq_false_iff]
  cases (dependents analysis).isEmpty <;> cases analysis.relationships.inheritance.isEmpty <;>
    cases analysis.relationships.internalCalls.isEmpty <;> decide

/-! ### The lines of a report -/

/-- The lines before the table of contents. -/
def frontLines (analysis : Analysis) : List String :=
  ["# Code Map"] ++ heading "Summary" ++ [""] ++ summary analysis ++ [""]

/-- The lines of some sections with their headings. -/
def bodyLines (parts : List Section) : List String :=
  parts.flatMap fun part => heading part.title ++ part.lines

theorem reportLines_eq (rootName : String) (analysis : Analysis) :
    reportLines rootName analysis = frontLines analysis ++
      ("## Table of Contents" :: "" :: ((titles rootName analysis).map contentsLine ++
        bodyLines (sections rootName analysis))) := by
  simp [reportLines, frontLines, bodyLines, heading, titles]

theorem isLine_summary (analysis : Analysis) : ∀ line ∈ summary analysis, IsLine line := by
  have counted (front : String) (isLine : IsLine front) (number : Nat) :
      IsLine (front ++ toString number) :=
    isLine_append.mpr ⟨isLine, isLine_toString number⟩
  simp only [summary, List.forall_mem_cons]
  exact ⟨counted _ (by decide) _, counted _ (by decide) _, counted _ (by decide) _,
    counted _ (by decide) _, counted _ (by decide) _, counted _ (by decide) _,
    counted _ (by decide) _, fun line member => nomatch member⟩

theorem headless_summary (analysis : Analysis) : Headless (summary analysis) := by
  have counted (front : String) (apart : BeginsApart front) (number : Nat) :
      ¬ IsHeading (front ++ toString number) :=
    (apart.append _).not_isHeading
  simp only [Headless, summary, List.forall_mem_cons]
  exact ⟨counted _ (by decide) _, counted _ (by decide) _, counted _ (by decide) _,
    counted _ (by decide) _, counted _ (by decide) _, counted _ (by decide) _,
    counted _ (by decide) _, fun line member => nomatch member⟩

theorem isLine_reportLines {rootName : String} (isLine : IsLine rootName) {analysis : Analysis}
    (unbroken : analysis.Unbroken) : ∀ line ∈ reportLines rootName analysis, IsLine line := by
  have front : ∀ line ∈ frontLines analysis, IsLine line := by
    simp only [frontLines, List.forall_mem_append]
    exact ⟨⟨by decide, isLine_summary analysis⟩, by decide⟩
  have contents : ∀ line ∈ (titles rootName analysis).map contentsLine, IsLine line :=
    List.forall_mem_map.mpr fun title member =>
      isLine_contentsLine (isLine_of_mem_titles member).1
  have body : ∀ line ∈ bodyLines (sections rootName analysis), IsLine line := by
    refine List.forall_mem_flatMap.mpr fun part isPart => List.forall_mem_append.mpr ⟨?_, ?_⟩
    · have title := (isLine_of_mem_titles (List.mem_map_of_mem isPart)).1
      simp +decide [heading, title]
    · exact isLine_section isLine unbroken isPart
  rw [reportLines_eq]
  simp only [List.forall_mem_append, List.forall_mem_cons]
  exact ⟨front, by decide, by decide, contents, body⟩

/-! ### The headings and the table of contents -/

theorem headings_append (front back : List Text.Chars) :
    headings (front ++ back) = headings front ++ headings back :=
  List.filterMap_append

theorem headings_of_headless {lines : List String} (headless : Headless lines) :
    headings (lines.map String.toList) = [] := by
  refine List.filterMap_eq_nil_iff.mpr (List.forall_mem_map.mpr fun line member => ?_)
  exact Text.stripFront?_eq_none_iff.mpr (headless line member)

theorem headings_heading (title : String) :
    headings ((heading title).map String.toList) = [title.toList] := by
  have mark : ("## " ++ title).toList = headingMark ++ title.toList := String.toList_append
  have found := Text.stripFront?_append headingMark title.toList
  rw [← mark] at found
  simp only [headings, heading, List.map_cons, List.map_nil, List.filterMap_cons, found]
  rfl

/-- The headings of some sections are their titles. -/
theorem headings_bodyLines {parts : List Section} (headless : ∀ part ∈ parts, Headless part.lines) :
    headings ((bodyLines parts).map String.toList) =
      (parts.map Section.title).map String.toList := by
  induction parts with
  | nil => rfl
  | cons part parts inductionHypothesis =>
    obtain ⟨first, others⟩ := List.forall_mem_cons.mp headless
    rw [bodyLines, List.flatMap_cons, ← bodyLines, List.map_append, List.map_append,
      headings_append, headings_append, headings_heading, headings_of_headless first,
      inductionHypothesis others]
    rfl

theorem headings_frontLines (analysis : Analysis) :
    headings ((frontLines analysis).map String.toList) = ["Summary".toList] := by
  have name : Headless ["# Code Map"] := by decide
  have empty : Headless [""] := by decide
  simp only [frontLines, List.map_append, headings_append, headings_heading,
    headings_of_headless name, headings_of_headless empty,
    headings_of_headless (headless_summary analysis)]
  rfl

theorem headings_reportLines {rootName : String} (noHeading : ¬ IsHeading rootName)
    (analysis : Analysis) : headings ((reportLines rootName analysis).map String.toList) =
      "Summary".toList :: "Table of Contents".toList ::
        (titles rootName analysis).map String.toList := by
  have link : BeginsApart "- [" := by decide
  have contents : Headless ((titles rootName analysis).map contentsLine) :=
    headless_map (fun title => ((((link.append _).append _).append _).append _).not_isHeading) _
  have body : headings ((bodyLines (sections rootName analysis)).map String.toList) =
      (titles rootName analysis).map String.toList :=
    headings_bodyLines fun part => headless_section noHeading
  have heading (lines : List String) :
      headings (("## Table of Contents" :: "" :: lines).map String.toList) =
        "Table of Contents".toList :: headings (lines.map String.toList) := rfl
  rw [reportLines_eq, List.map_append, headings_append, headings_frontLines, heading,
    List.map_append, headings_append, headings_of_headless contents, body]
  rfl

theorem linkedTitle?_contentsLine {title : String} (closed : ']' ∉ title.toList) :
    linkedTitle? (contentsLine title).toList = some title.toList := by
  have divided : (contentsLine title).toList =
      "- [".toList ++ (title.toList ++ ']' :: ("(#" ++ anchor title ++ ")").toList) := by
    simp [contentsLine]
  rw [linkedTitle?, divided, Text.stripFront?_append, Option.map_some,
    Text.beforeFirst_append_cons closed]

theorem ne_heading_of_mem_frontLines {analysis : Analysis} {line : String}
    (member : line ∈ frontLines analysis) : line ≠ "## Table of Contents" := by
  have isHeading : IsHeading "## Table of Contents" := ⟨"Table of Contents".toList, by decide⟩
  have others : ∀ line ∈ ["# Code Map"] ++ heading "Summary" ++ [""] ++ [""],
      line ≠ "## Table of Contents" := by
    decide
  simp only [frontLines, List.mem_append] at member others
  rcases member with (((name | heading) | empty) | inSummary) | last
  · exact others line (.inl (.inl (.inl name)))
  · exact others line (.inl (.inl (.inr heading)))
  · exact others line (.inl (.inr empty))
  · rintro rfl
    exact headless_summary analysis _ inSummary isHeading
  · exact others line (.inr last)

/-- The table of contents goes from its heading to the next empty row. -/
theorem listedTitles_append {front contents : List Text.Chars}
    (before : ∀ row ∈ front, row ≠ "## Table of Contents".toList)
    (named : ∀ row ∈ contents, row ≠ []) (rest : List Text.Chars) :
    listedTitles (front ++ "## Table of Contents".toList :: [] :: (contents ++ [] :: rest)) =
      contents.filterMap linkedTitle? := by
  have found : (front ++ "## Table of Contents".toList :: [] :: (contents ++ [] :: rest)).dropWhile
      (· ≠ "## Table of Contents".toList) =
        "## Table of Contents".toList :: [] :: (contents ++ [] :: rest) := by
    rw [List.dropWhile_append_of_pos fun row member => decide_eq_true (before row member)]
    exact List.dropWhile_cons_of_neg (by decide)
  have kept : (contents ++ [] :: rest).takeWhile (!·.isEmpty) = contents := by
    rw [List.takeWhile_append_of_pos fun row member => by simpa using named row member]
    exact List.append_nil contents
  rw [listedTitles, found]
  exact congrArg (List.filterMap linkedTitle?) kept

theorem listedTitles_reportLines (rootName : String) (analysis : Analysis) :
    listedTitles ((reportLines rootName analysis).map String.toList ++ [[]]) =
      (titles rootName analysis).map String.toList := by
  -- The first section begins with the empty line before its heading.
  obtain ⟨rest, body⟩ : ∃ rest, bodyLines (sections rootName analysis) = "" :: rest := ⟨_, rfl⟩
  have divided : (reportLines rootName analysis).map String.toList ++ [[]] =
      (frontLines analysis).map String.toList ++ "## Table of Contents".toList :: [] ::
        ((titles rootName analysis).map (fun title => (contentsLine title).toList) ++
          [] :: (rest.map String.toList ++ [[]])) := by
    rw [reportLines_eq, body]
    simp
  have before : ∀ row ∈ (frontLines analysis).map String.toList,
      row ≠ "## Table of Contents".toList :=
    List.forall_mem_map.mpr fun line member same =>
      ne_heading_of_mem_frontLines member (String.toList_inj.mp same)
  have named : ∀ row ∈ (titles rootName analysis).map fun title => (contentsLine title).toList,
      row ≠ [] :=
    List.forall_mem_map.mpr fun title _ => by simp [contentsLine]
  rw [divided, listedTitles_append before named, List.filterMap_map]
  have linked : ∀ title ∈ titles rootName analysis,
      linkedTitle? (contentsLine title).toList = some title.toList :=
    fun title member => linkedTitle?_contentsLine (isLine_of_mem_titles member).2
  exact (List.filterMap_congr linked).trans (congrFun List.filterMap_eq_map _)

section

variable {rootName : String} (isLine : IsLine rootName) {analysis : Analysis}
  (unbroken : analysis.Unbroken)

include isLine unbroken

theorem reportRows_eq :
    reportRows rootName analysis = (reportLines rootName analysis).map String.toList ++ [[]] :=
  rows_written (isLine_reportLines isLine unbroken)

theorem listedTitles_reportRows :
    listedTitles (reportRows rootName analysis) = (titles rootName analysis).map String.toList := by
  rw [reportRows_eq isLine unbroken, listedTitles_reportLines]

theorem mem_listedTitles_iff {title : String} :
    title.toList ∈ listedTitles (reportRows rootName analysis) ↔
      title ∈ titles rootName analysis := by
  rw [listedTitles_reportRows isLine unbroken]
  exact List.mem_map_of_injective fun _ _ => String.toList_inj.mp

/-- The headings of a report are those of the summary and of the table of contents, and then the
titles that the table lists, in the same order. The relationships between files, between classes
and between functions have a section exactly if there are any. -/
theorem headings_report (noHeading : ¬ IsHeading rootName) :
    headings (reportRows rootName analysis) =
        "Summary".toList :: "Table of Contents".toList ::
          listedTitles (reportRows rootName analysis) ∧
      ("File Dependencies".toList ∈ listedTitles (reportRows rootName analysis) ↔
        ∃ path, analysis.relationships.dependenciesOf path ≠ []) ∧
      ("Inheritance".toList ∈ listedTitles (reportRows rootName analysis) ↔
        analysis.relationships.inheritance.isEmpty = false) ∧
      ("Call Graph".toList ∈ listedTitles (reportRows rootName analysis) ↔
        analysis.relationships.internalCalls.isEmpty = false) := by
  simp only [mem_listedTitles_iff isLine unbroken]
  refine ⟨?_, mem_titles_iff⟩
  rw [listedTitles_reportRows isLine unbroken, reportRows_eq isLine unbroken, headings_append,
    headings_reportLines noHeading]
  exact List.append_nil _

end

/-- An analysis of a file with a class that has a base and two lines of documentation. -/
def dogAnalysis : Analysis where
  files := [{
    path := "pets/dog.py", language := some .python, imports := [], functions := [], errors := []
    classes := [{
      name := "Dog", bases := ["Animal"], doc := "## Dog\n## Not a heading", startLine := 1
      endLine := 5, methods := [], isPrivate := false }] }]
  relationships :=
    ⟨∅, ∅, (∅ : Index (List String)).insert "Dog" ["Animal"], ∅, ∅, ∅⟩
  stats := { filesProcessed := 1, classes := 1 }

/-- A documentation makes no heading, and of the relationships only inheritance has a section. -/
theorem headings_report_dog :
    IsLine "pets" ∧ ¬ IsHeading "pets" ∧ dogAnalysis.Unbroken ∧
      headings (reportRows "pets" dogAnalysis) =
        ["Summary", "Table of Contents", "Project Structure", "Files", "Inheritance"].map
          String.toList := by
  have isLine : IsLine "pets" := by decide
  have noHeading : ¬ IsHeading "pets" := by decide
  have lines : ∀ file ∈ dogAnalysis.files, ∀ line ∈ fileLines file, IsLine line := by
    decide +kernel
  have unbroken : dogAnalysis.Unbroken := {
    files := fun file member => isLine_fileLines_iff.mp (lines file member)
    relationships := ⟨by decide +kernel, by decide +kernel, by decide +kernel⟩ }
  obtain ⟨same, _⟩ := headings_report isLine unbroken noHeading
  refine ⟨isLine, noHeading, unbroken, same.trans ?_⟩
  rw [listedTitles_reportRows isLine unbroken, titles_eq]
  rfl

end Markdown

end CodeAtlas
