/-
This file reads drawings of directories back. What stands behind the indent of a directory tells
the lines of its own entries from those further below, and a line break ends every line, so that
different directories are drawn differently whatever the names in them look like: a name may
hold blanks, connectors and anything else but a line break.
-/

import CodeAtlas.Proofs.Report.Drawing
import CodeAtlas.Proofs.Text.Lines

namespace CodeAtlas.Directory

/-! ### Lines -/

/-- Whether a line shows something below an entry of the directory with some indent. -/
def IsBelow (indent line : String) : Prop :=
  ∃ isLast rest, line = indent ++ continuation isLast ++ rest

/-- A line tells how its entry is connected and what stands behind the connector. -/
theorem connected_inj {indent name otherName : String} {isLast otherIsLast : Bool}
    (same : indent ++ connector isLast ++ name = indent ++ connector otherIsLast ++ otherName) :
    isLast = otherIsLast ∧ name = otherName := by
  rw [String.append_assoc, String.append_assoc, String.append_right_inj] at same
  have sameConnector : isLast = otherIsLast := by
    have sameHead := congrArg (fun line => line.toList.head?) same
    cases isLast <;> cases otherIsLast <;> simp [connector] at sameHead ⊢
  subst sameConnector
  exact ⟨rfl, (String.append_right_inj _).mp same⟩

theorem not_isBelow (indent name : String) (isLast : Bool) :
    ¬ IsBelow indent (indent ++ connector isLast ++ name) := by
  rintro ⟨belowLast, rest, same⟩
  rw [String.append_assoc, String.append_assoc, String.append_right_inj] at same
  have sameHead := congrArg (fun line => line.toList.head?) same
  cases isLast <;> cases belowLast <;> simp [connector, continuation] at sameHead

section

variable {indent line : String}

theorem exists_of_mem_fileLines {files : List String} (member : line ∈ fileLines indent files) :
    ∃ rest, line = indent ++ rest := by
  induction files with
  | nil => cases member
  | cons file files inductionHypothesis =>
    rcases List.mem_cons.mp member with rfl | member
    · exact ⟨connector files.isEmpty ++ file, String.append_assoc⟩
    · exact inductionHypothesis member

theorem exists_of_mem_directoryLines {noFiles : Bool} {directories : List (String × Directory)}
    (inside : ∀ named ∈ directories, ∀ indent, ∀ line ∈ lines indent named.2,
      ∃ rest, line = indent ++ rest)
    (member : line ∈ directoryLines indent noFiles directories) :
    ∃ rest, line = indent ++ rest := by
  induction directories with
  | nil => cases member
  | cons named directories inductionHypothesis =>
    obtain ⟨name, directory⟩ := named
    obtain ⟨insideFirst, inside⟩ := List.forall_mem_cons.mp inside
    rcases List.mem_cons.mp member with rfl | member
    · exact ⟨_, by rw [String.append_assoc, String.append_assoc]⟩
    · rcases List.mem_append.mp member with member | member
      · obtain ⟨rest, rfl⟩ := insideFirst _ line member
        exact ⟨_, String.append_assoc⟩
      · exact inductionHypothesis inside member

/-- Every line of a directory begins with the indent of the directory. -/
theorem exists_of_mem_lines {directory : Directory} (member : line ∈ lines indent directory) :
    ∃ rest, line = indent ++ rest := by
  induction directory using inductionOn generalizing indent line with
  | containing directories files inductionHypothesis =>
    rw [lines] at member
    rcases List.mem_append.mp member with member | member
    · refine exists_of_mem_directoryLines (fun named namedMember indent line => ?_) member
      exact inductionHypothesis named namedMember
    · exact exists_of_mem_fileLines member

theorem isBelow_of_mem_lines {isLast : Bool} {directory : Directory}
    (member : line ∈ lines (indent ++ continuation isLast) directory) : IsBelow indent line := by
  obtain ⟨rest, same⟩ := exists_of_mem_lines member
  exact ⟨isLast, rest, same⟩

/-- The lines of a directory begin with one of its own entries. -/
theorem not_isBelow_of_mem_head? {noFiles : Bool} {directories : List (String × Directory)}
    {files : List String}
    (isHead : line ∈
      (directoryLines indent noFiles directories ++ fileLines indent files).head?) :
    ¬ IsBelow indent line := by
  cases directories with
  | nil =>
    cases files with
    | nil => cases isHead
    | cons file files =>
      obtain rfl := Option.some.inj isHead
      exact not_isBelow indent file _
  | cons named directories =>
    obtain rfl := Option.some.inj isHead
    rw [String.append_assoc]
    exact not_isBelow indent (named.1 ++ "/") _

end

/-! ### Drawings of different directories -/

/-- Whether no name on the way to a file of a directory has some character in it. -/
def Avoids (mark : Char) (directory : Directory) : Prop :=
  ∀ way, Holds directory way → ∀ name ∈ way, mark ∉ name.toList

theorem Avoids.of_mem {mark : Char} {directories : List (String × Directory)}
    {files : List String} (avoids : Avoids mark (containing directories files))
    (ascending : directories.Pairwise fun first second => first.1 < second.1)
    {named : String × Directory} (member : named ∈ directories) : Avoids mark named.2 :=
  fun _ held name onWay =>
    avoids _ (holds_of_mem ascending files member held) name (List.mem_cons_of_mem _ onWay)

theorem fileLines_inj {indent : String} {files others : List String}
    (same : fileLines indent files = fileLines indent others) : files = others := by
  induction files generalizing others with
  | nil =>
    cases others with
    | nil => rfl
    | cons other others => cases same
  | cons file files inductionHypothesis =>
    cases others with
    | nil => cases same
    | cons other others =>
      obtain ⟨sameLine, same⟩ := List.cons.inj same
      rw [(connected_inj sameLine).2, inductionHypothesis same]

/-- A line that ends with a slash shows no file. -/
theorem fileLines_ne_cons {indent name : String} {isLast : Bool} {files rest : List String}
    (avoid : ∀ file ∈ files, '/' ∉ file.toList) :
    fileLines indent files ≠ (indent ++ connector isLast ++ name ++ "/") :: rest := by
  intro same
  cases files with
  | nil => cases same
  | cons file files =>
    obtain ⟨sameLine, _⟩ := List.cons.inj same
    rw [@String.append_assoc _ name] at sameLine
    obtain ⟨_, rfl⟩ := connected_inj sameLine
    exact avoid _ List.mem_cons_self (by simp)

theorem entryLines_inj {indent : String} {directories others : List (String × Directory)}
    {files otherFiles : List String}
    (inside : ∀ named ∈ directories, ∀ other ∈ others, ∀ indent,
      lines indent named.2 = lines indent other.2 → named.2 = other.2)
    (avoid : ∀ file ∈ files, '/' ∉ file.toList)
    (othersAvoid : ∀ file ∈ otherFiles, '/' ∉ file.toList)
    {noFiles noOtherFiles : Bool}
    (same : directoryLines indent noFiles directories ++ fileLines indent files =
      directoryLines indent noOtherFiles others ++ fileLines indent otherFiles) :
    directories = others ∧ files = otherFiles := by
  induction directories generalizing others with
  | nil =>
    cases others with
    | nil => exact ⟨rfl, fileLines_inj same⟩
    | cons other others => exact absurd same (fileLines_ne_cons avoid)
  | cons named directories inductionHypothesis =>
    cases others with
    | nil => exact absurd same.symm (fileLines_ne_cons othersAvoid)
    | cons other others =>
      obtain ⟨name, directory⟩ := named
      obtain ⟨otherName, otherDirectory⟩ := other
      rw [directoryLines, directoryLines, List.cons_append, List.cons_append, List.append_assoc,
        List.append_assoc] at same
      obtain ⟨sameLine, sameRest⟩ := List.cons.inj same
      rw [@String.append_assoc _ name, @String.append_assoc _ otherName] at sameLine
      obtain ⟨sameLast, sameName⟩ := connected_inj sameLine
      rw [sameLast] at sameRest
      -- What is in the two directories ends where the next entry beside them begins.
      obtain ⟨sameInside, sameAfter⟩ := Text.append_inj_of_heads (p := IsBelow indent)
        (fun line => isBelow_of_mem_lines) (fun line => isBelow_of_mem_lines)
        (fun line => not_isBelow_of_mem_head?) (fun line => not_isBelow_of_mem_head?) sameRest
      obtain rfl := (String.append_left_inj "/").mp sameName
      obtain rfl : directory = otherDirectory :=
        inside _ List.mem_cons_self _ List.mem_cons_self _ sameInside
      obtain ⟨rfl, rfl⟩ := inductionHypothesis (fun named member other otherMember =>
        inside named (List.mem_cons_of_mem _ member) other (List.mem_cons_of_mem _ otherMember))
        sameAfter
      exact ⟨rfl, rfl⟩

/-- The lines of a tidy directory tell what is in it. -/
theorem lines_inj {first second : Directory} (firstTidy : Tidy first) (secondTidy : Tidy second)
    (firstAvoids : Avoids '/' first) (secondAvoids : Avoids '/' second) {indent : String}
    (same : lines indent first = lines indent second) : first = second := by
  induction first using inductionOn generalizing second indent with
  | containing directories files inductionHypothesis =>
    obtain ⟨others, otherFiles⟩ := second
    obtain ⟨ascending, _, allTidy⟩ := firstTidy
    obtain ⟨othersAscend, _, othersTidy⟩ := secondTidy
    obtain ⟨rfl, rfl⟩ : directories = others ∧ files = otherFiles := by
      refine entryLines_inj (fun named member other otherMember indent => ?_)
        (fun file member => firstAvoids [file] member file List.mem_cons_self)
        (fun file member => secondAvoids [file] member file List.mem_cons_self) same
      exact inductionHypothesis named member (allTidy_iff.mp allTidy named member).2
        (allTidy_iff.mp othersTidy other otherMember).2 (firstAvoids.of_mem ascending member)
        (secondAvoids.of_mem othersAscend otherMember)
    rfl

/-! ### Texts -/

/-- The drawing of some paths, every line of it ended by a line break. -/
def drawing (paths : List String) : String :=
  String.join (((ofPaths paths).lines "").map (· ++ "\n"))

theorem rows_join_lines {lines : List String} (unbroken : ∀ line ∈ lines, '\n' ∉ line.toList) :
    Text.rows (String.join (lines.map (· ++ "\n"))).toList = lines.map String.toList ++ [[]] := by
  have ended : (String.join (lines.map (· ++ "\n"))).toList =
      (lines.map String.toList).flatMap (· ++ ['\n']) := by
    simp [String.toList_join, List.flatMap_map]
  rw [ended, Text.rows_flatMap_newline (List.forall_mem_map.mpr unbroken)]

theorem join_lines_inj {lines others : List String} (unbroken : ∀ line ∈ lines, '\n' ∉ line.toList)
    (othersUnbroken : ∀ line ∈ others, '\n' ∉ line.toList)
    (same : String.join (lines.map (· ++ "\n")) = String.join (others.map (· ++ "\n"))) :
    lines = others := by
  have sameRows := congrArg (fun text : String => Text.rows text.toList) same
  simp only [rows_join_lines unbroken, rows_join_lines othersUnbroken] at sameRows
  exact (List.map_inj_right fun _ _ => String.toList_inj.mp).mp (List.append_cancel_right sameRows)

theorem notMem_toList_line {entry : Drawn} (unbroken : '\n' ∉ entry.name.toList) :
    '\n' ∉ entry.line.toList := by
  have indentUnbroken : '\n' ∉ (Drawn.indent entry.above).toList := by
    rw [Drawn.indent, String.toList_join, List.mem_flatMap]
    rintro ⟨part, member, inPart⟩
    obtain ⟨isLast, _, rfl⟩ := List.mem_map.mp member
    cases isLast <;> simp [continuation] at inPart
  have connectorUnbroken : '\n' ∉ (connector entry.isLast).toList := by
    cases entry.isLast <;> simp [connector]
  have endUnbroken : '\n' ∉ (if entry.isDirectory then "/" else "").toList := by
    cases entry.isDirectory <;> simp
  simp only [Drawn.line, String.toList_append, List.mem_append]
  tauto

theorem avoids_slash (paths : List String) : Avoids '/' (ofPaths paths) := by
  intro way held name onWay inName
  obtain ⟨_, path, _, rfl⟩ := (holds_ofPaths_iff paths way).mp held
  obtain ⟨piece, member, rfl⟩ := List.mem_map.mp onWay
  have notCut := Text.eq_false_of_mem_splitWhere (List.mem_filter.mp member).1
    (String.toList_ofList ▸ inName)
  simp at notCut

/-- Whether no line break stands in a name on the way to some paths. -/
def Unbroken (paths : List String) : Prop :=
  ∀ path ∈ paths, ∀ step ∈ steps path, '\n' ∉ step.toList

theorem avoids_newline {paths : List String} (unbroken : Unbroken paths) :
    Avoids '\n' (ofPaths paths) := by
  intro way held name onWay
  obtain ⟨_, path, isPath, rfl⟩ := (holds_ofPaths_iff paths way).mp held
  exact unbroken path isPath name onWay

theorem unbroken_lines {directory : Directory} (tidy : Tidy directory)
    (avoids : Avoids '\n' directory) : ∀ line ∈ lines "" directory, '\n' ∉ line.toList := by
  intro line member
  rw [topLines_eq] at member
  obtain ⟨entry, isDrawn, rfl⟩ := List.mem_map.mp member
  obtain ⟨front, sameWay, _, rest, held, _⟩ := shown_of_mem_drawn tidy isDrawn
  refine notMem_toList_line (avoids _ held entry.name (List.mem_append_left _ ?_))
  rw [List.nil_append] at sameWay
  rw [← sameWay, Drawn.way]
  exact List.mem_append_right _ List.mem_cons_self

/-- Drawings of paths without line breaks are the same only if the directories are. -/
theorem drawing_inj {paths others : List String} (unbroken : Unbroken paths)
    (othersUnbroken : Unbroken others) (same : drawing paths = drawing others) :
    ofPaths paths = ofPaths others := by
  refine lines_inj (tidy_ofPaths paths) (tidy_ofPaths others) (avoids_slash paths)
    (avoids_slash others) (join_lines_inj ?_ ?_ same)
  · exact unbroken_lines (tidy_ofPaths paths) (avoids_newline unbroken)
  · exact unbroken_lines (tidy_ofPaths others) (avoids_newline othersUnbroken)

/-! ### The drawing of some paths -/

/-- Whether some entries are those of some paths: each file once and each directory on the way
to one once, in order, with the right connectors and indents. -/
structure Shows (entries : List Drawn) (paths : List String) : Prop where
  files : ∀ way, Names paths way ↔
    ∃ entry ∈ entries, entry.isDirectory = false ∧ entry.way = way
  directories : ∀ way, (way ≠ [] ∧ ∃ rest ≠ [], Names paths (way ++ rest)) ↔
    ∃ entry ∈ entries, entry.isDirectory = true ∧ entry.way = way
  once : entries.Pairwise fun first second =>
    first.isDirectory = second.isDirectory → first.way ≠ second.way
  /-- Only the lines of directories end in a slash. -/
  marked : ∀ entry ∈ entries, entry.line.toList.getLast? = some '/' ↔ entry.isDirectory = true
  /-- The indent of an entry goes on from the line of its directory. -/
  indented : ∀ entry ∈ entries, (entry.directory = [] ∧ entry.above = []) ∨
    ∃ parent ∈ entries, parent.isDirectory = true ∧ parent.way = entry.directory ∧
      entry.above = parent.above ++ [parent.isLast]
  ordered : Ordered entries
  closesLast : ClosesLast entries

theorem once_of_ordered {entries : List Drawn} (ordered : Ordered entries) :
    entries.Pairwise fun first second =>
      first.isDirectory = second.isDirectory → first.way ≠ second.way := by
  refine ordered.imp fun {first second} precedes sameKind sameWay => ?_
  obtain ⟨sameDirectory, sameName⟩ := List.append_inj' sameWay rfl
  rcases precedes sameDirectory with ⟨isDirectory, isFile⟩ | ⟨_, before⟩
  · rw [← sameKind, isDirectory] at isFile
    cases isFile
  · rw [(List.cons.inj sameName).1] at before
    exact List.lt_irrefl _ before

theorem getLast?_line {entry : Drawn} (avoids : '/' ∉ entry.name.toList) :
    entry.line.toList.getLast? = some '/' ↔ entry.isDirectory = true := by
  unfold Drawn.line
  cases entry.isDirectory with
  | true => simp
  | false =>
    refine iff_of_false (fun isLast => ?_) Bool.false_ne_true
    rw [if_neg Bool.false_ne_true, String.append_empty, String.toList_append,
      List.getLast?_append] at isLast
    rcases Option.or_eq_some_iff.mp isLast with inName | ⟨_, inFront⟩
    · exact avoids (List.mem_of_getLast? inName)
    · cases lastEntry : entry.isLast <;> simp [lastEntry, connector] at inFront

/-- What is drawn for some paths is their files and the directories on the way to them. -/
theorem shows_drawn (paths : List String) : Shows (drawn [] [] (ofPaths paths)) paths := by
  have tidy := tidy_ofPaths paths
  have ordered := ordered_drawn tidy [] []
  have shown {entry : Drawn} (member : entry ∈ drawn [] [] (ofPaths paths)) : entry.way ≠ [] ∧
      ∃ rest, Names paths (entry.way ++ rest) ∧ (entry.isDirectory = true ↔ rest ≠ []) := by
    obtain ⟨front, sameWay, begun, rest, held, kind⟩ := shown_of_mem_drawn tidy member
    rw [List.nil_append] at sameWay
    subst sameWay
    exact ⟨begun, rest, (holds_ofPaths_iff paths _).mp held, kind⟩
  have drawnFor {front rest : List String} (begun : front ≠ [])
      (named : Names paths (front ++ rest)) : ∃ entry ∈ drawn [] [] (ofPaths paths),
        entry.way = front ∧ (entry.isDirectory = true ↔ rest ≠ []) :=
    exists_mem_drawn tidy [] [] begun ((holds_ofPaths_iff paths _).mpr named)
  refine ⟨fun way => ⟨fun named => ?_, ?_⟩, fun way => ⟨?_, ?_⟩, once_of_ordered ordered,
    fun entry member => ?_, fun entry member => above_of_mem_drawn member, ordered,
    closesLast_drawn tidy [] []⟩
  · have whole : Names paths (way ++ []) := by rwa [List.append_nil]
    obtain ⟨entry, member, sameWay, kind⟩ := drawnFor named.1 whole
    exact ⟨entry, member, by simpa using kind, sameWay⟩
  · rintro ⟨entry, member, isFile, rfl⟩
    obtain ⟨_, rest, named, kind⟩ := shown member
    obtain rfl : rest = [] := by simpa [isFile] using kind
    simpa using named
  · rintro ⟨begun, rest, goesOn, named⟩
    obtain ⟨entry, member, sameWay, kind⟩ := drawnFor begun named
    exact ⟨entry, member, kind.mpr goesOn, sameWay⟩
  · rintro ⟨entry, member, isDirectory, rfl⟩
    obtain ⟨begun, rest, named, kind⟩ := shown member
    exact ⟨begun, rest, kind.mp isDirectory, named⟩
  · obtain ⟨_, rest, named, _⟩ := shown member
    have held := (holds_ofPaths_iff paths _).mpr named
    refine getLast?_line (avoids_slash paths _ held _ (List.mem_append_left _ ?_))
    exact List.mem_append_right _ List.mem_cons_self

theorem drawing_eq (paths : List String) : drawing paths =
    String.join ((drawn [] [] (ofPaths paths)).map fun entry => entry.line ++ "\n") := by
  rw [drawing, topLines_eq, List.map_map]
  rfl

/-- The drawing of some paths tells which files they name and nothing else: other paths are drawn
the same exactly if they name the same files. Its lines are the files and the directories on the
way to them, each once. -/
theorem drawing_reveals (paths : List String) (unbroken : Unbroken paths) :
    (∀ others, Unbroken others →
      (drawing paths = drawing others ↔ ∀ way, Names paths way ↔ Names others way)) ∧
    ∃ entries : List Drawn,
      drawing paths = String.join (entries.map fun entry => entry.line ++ "\n") ∧
        Shows entries paths := by
  refine ⟨fun others othersUnbroken => ⟨fun same way => ?_, fun same => ?_⟩,
    drawn [] [] (ofPaths paths), drawing_eq paths, shows_drawn paths⟩
  · rw [← holds_ofPaths_iff, ← holds_ofPaths_iff, drawing_inj unbroken othersUnbroken same]
  · rw [drawing, drawing, ofPaths_congr same]

/-- Repeats, other orders and further slashes cannot be seen, and where a file stands can. -/
theorem drawing_reveals_library :
    Unbroken ["src/lib.rs", "src"] ∧ Unbroken ["src", "src//lib.rs", "/src"] ∧
      Unbroken ["src/lib.rs/src"] ∧
      drawing ["src/lib.rs", "src"] = drawing ["src", "src//lib.rs", "/src"] ∧
      drawing ["src/lib.rs", "src"] ≠ drawing ["src/lib.rs/src"] := by
  have library : steps "src/lib.rs" = ["src", "lib.rs"] := by simp [steps, Text.splitWhere]
  have doubled : steps "src//lib.rs" = ["src", "lib.rs"] := by simp [steps, Text.splitWhere]
  have source : steps "src" = ["src"] := by simp [steps, Text.splitWhere]
  have rooted : steps "/src" = ["src"] := by simp [steps, Text.splitWhere]
  have deeper : steps "src/lib.rs/src" = ["src", "lib.rs", "src"] := by
    simp [steps, Text.splitWhere]
  have unbroken : Unbroken ["src/lib.rs", "src"] := by simp [Unbroken, library, source]
  have unbrokenAgain : Unbroken ["src", "src//lib.rs", "/src"] := by
    simp [Unbroken, source, doubled, rooted]
  have unbrokenDeeper : Unbroken ["src/lib.rs/src"] := by simp [Unbroken, deeper]
  obtain ⟨revealed, _⟩ := drawing_reveals _ unbroken
  refine ⟨unbroken, unbrokenAgain, unbrokenDeeper, (revealed _ unbrokenAgain).mpr fun way => ?_,
    fun same => ?_⟩
  · simp only [Names, List.exists_mem_cons_iff, library, doubled, source, rooted, List.not_mem_nil,
      false_and, exists_false, or_false]
    rw [or_left_comm, or_self]
  · have named : Names ["src/lib.rs/src"] ["src"] :=
      ((revealed _ unbrokenDeeper).mp same ["src"]).mp
        ⟨List.cons_ne_nil _ _, "src", by simp, source⟩
    simp [Names, deeper] at named

end CodeAtlas.Directory
