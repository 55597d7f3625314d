/-
This file says what the lines of a directory show. Every line shows one entry: a file that the
directory holds or a directory on the way to one. Among the entries of one directory the
directories come before the files, the names ascend by their bytes, and the last has a connector
of its own. The indent of an entry goes on from the line of the directory in which it stands.
-/

import CodeAtlas.Proofs.Report.Directories
import CodeAtlas.Proofs.Text.ByteOrder
import CodeAtlas.Proofs.Text.Division

namespace CodeAtlas.Directory

/-! ### Entries -/

/-- What one line of a drawing shows. -/
structure Drawn where
  /-- For each directory on the way from the top, whether it is the last entry of its own. -/
  above : List Bool
  /-- The names on the way to the directory in which the entry stands. -/
  directory : List String
  name : String
  isDirectory : Bool
  /-- Whether the entry is drawn with the connector that closes its directory. -/
  isLast : Bool

namespace Drawn

/-- The names on the way to an entry. -/
def way (entry : Drawn) : List String :=
  entry.directory ++ [entry.name]

/-- The indent below some directories. -/
def indent (above : List Bool) : String :=
  String.join (above.map continuation)

/-- The line that shows an entry. -/
def line (entry : Drawn) : String :=
  indent entry.above ++ connector entry.isLast ++ entry.name ++
    if entry.isDirectory then "/" else ""

/-- Whether an entry stands before another of the same directory: directories before files, and
names in the order of their bytes. -/
def Precedes (first second : Drawn) : Prop :=
  (first.isDirectory = true ∧ second.isDirectory = false) ∨
    (first.isDirectory = second.isDirectory ∧
      Text.utf8Bytes first.name < Text.utf8Bytes second.name)

end Drawn

/-- Whether an entry is drawn as the last of its directory exactly if no later one stands in the
same directory. -/
def ClosesLast : List Drawn → Prop
  | [] => True
  | entry :: later =>
    (entry.isLast = true ↔ ∀ other ∈ later, other.directory ≠ entry.directory) ∧
      ClosesLast later

section

variable (above : List Bool) (way : List String)

/-- What the lines of some files show. -/
def drawnFiles : List String → List Drawn
  | [] => []
  | file :: files => ⟨above, way, file, false, files.isEmpty⟩ :: drawnFiles files

end

mutual

/-- What the lines of a directory show. -/
def drawn (above : List Bool) (way : List String) : Directory → List Drawn
  | containing directories files =>
    drawnDirectories above way files.isEmpty directories ++ drawnFiles above way files

/-- What the lines of some directories and of what is in them show. -/
def drawnDirectories (above : List Bool) (way : List String) (noFiles : Bool) :
    List (String × Directory) → List Drawn
  | [] => []
  | (name, directory) :: directories =>
    let isLast := noFiles && directories.isEmpty
    ⟨above, way, name, true, isLast⟩ ::
      (drawn (above ++ [isLast]) (way ++ [name]) directory ++
        drawnDirectories above way noFiles directories)

end

theorem indent_concat (above : List Bool) (isLast : Bool) :
    Drawn.indent (above ++ [isLast]) = Drawn.indent above ++ continuation isLast := by
  simp [Drawn.indent]

theorem fileLines_eq (above : List Bool) (way files : List String) :
    fileLines (Drawn.indent above) files = (drawnFiles above way files).map Drawn.line := by
  induction files with
  | nil => rfl
  | cons file files inductionHypothesis =>
    rw [fileLines, drawnFiles, List.map_cons, inductionHypothesis]
    simp [Drawn.line]

mutual

theorem lines_eq (above : List Bool) (way : List String) :
    (directory : Directory) → lines (Drawn.indent above) directory =
      (drawn above way directory).map Drawn.line
  | containing directories files => by
    rw [lines, drawn, List.map_append, fileLines_eq above way,
      directoryLines_eq above way files.isEmpty directories]

theorem directoryLines_eq (above : List Bool) (way : List String) (noFiles : Bool) :
    (directories : List (String × Directory)) →
      directoryLines (Drawn.indent above) noFiles directories =
        (drawnDirectories above way noFiles directories).map Drawn.line
  | [] => rfl
  | (name, directory) :: directories => by
    rw [directoryLines, drawnDirectories, List.map_cons, List.map_append, ← indent_concat,
      lines_eq _ (way ++ [name]) directory, directoryLines_eq above way noFiles directories]
    rfl

end

theorem topLines_eq (directory : Directory) :
    lines "" directory = (drawn [] [] directory).map Drawn.line :=
  lines_eq [] [] directory

/-! ### What is drawn -/

section

variable {above : List Bool} {way : List String} {noFiles : Bool}
  {directories : List (String × Directory)} {files : List String} {entry : Drawn}

theorem of_mem_drawnFiles (member : entry ∈ drawnFiles above way files) :
    entry.above = above ∧ entry.directory = way ∧ entry.isDirectory = false ∧
      entry.name ∈ files := by
  induction files with
  | nil => cases member
  | cons file files inductionHypothesis =>
    rcases List.mem_cons.mp member with rfl | member
    · exact ⟨rfl, rfl, rfl, List.mem_cons_self⟩
    · obtain ⟨sameAbove, here, isFile, named⟩ := inductionHypothesis member
      exact ⟨sameAbove, here, isFile, List.mem_cons_of_mem _ named⟩

theorem map_name_drawnFiles (above : List Bool) (way files : List String) :
    (drawnFiles above way files).map Drawn.name = files := by
  induction files with
  | nil => rfl
  | cons file files inductionHypothesis => rw [drawnFiles, List.map_cons, inductionHypothesis]

/-- What is drawn for some directories is the directories themselves and what is drawn for what
is in them. -/
theorem mem_drawnDirectories_iff :
    entry ∈ drawnDirectories above way noFiles directories ↔
      ∃ before named after, directories = before ++ named :: after ∧
        (entry = ⟨above, way, named.1, true, noFiles && after.isEmpty⟩ ∨
          entry ∈ drawn (above ++ [noFiles && after.isEmpty]) (way ++ [named.1]) named.2) := by
  induction directories with
  | nil => simp [drawnDirectories]
  | cons head directories inductionHypothesis =>
    obtain ⟨name, directory⟩ := head
    rw [drawnDirectories, List.mem_cons, List.mem_append, inductionHypothesis, ← or_assoc]
    constructor
    · rintro (here | ⟨before, named, after, rfl, among⟩)
      · exact ⟨[], (name, directory), directories, rfl, here⟩
      · exact ⟨(name, directory) :: before, named, after, rfl, among⟩
    · rintro ⟨before, named, after, whole, among⟩
      cases before with
      | nil =>
        obtain ⟨rfl, rfl⟩ := List.cons.inj whole
        exact .inl among
      | cons _ before =>
        obtain ⟨_, whole⟩ := List.cons.inj whole
        exact .inr ⟨before, named, after, whole, among⟩

/-- The directory itself is drawn before what is in it. -/
theorem exists_of_mem_drawnDirectories
    (member : entry ∈ drawnDirectories above way noFiles directories) :
    ∃ named ∈ directories, ∃ isLast,
      (entry = ⟨above, way, named.1, true, isLast⟩ ∨
        entry ∈ drawn (above ++ [isLast]) (way ++ [named.1]) named.2) ∧
      (⟨above, way, named.1, true, isLast⟩ : Drawn) ∈
        drawnDirectories above way noFiles directories ∧
      ∀ inside ∈ drawn (above ++ [isLast]) (way ++ [named.1]) named.2,
        inside ∈ drawnDirectories above way noFiles directories := by
  obtain ⟨before, named, after, rfl, among⟩ := mem_drawnDirectories_iff.mp member
  refine ⟨named, by simp, _, among, ?_, fun inside isInside => ?_⟩
  · exact mem_drawnDirectories_iff.mpr ⟨before, named, after, rfl, .inl rfl⟩
  · exact mem_drawnDirectories_iff.mpr ⟨before, named, after, rfl, .inr isInside⟩

theorem mem_drawnDirectories {named : String × Directory} (member : named ∈ directories) :
    ∃ isLast, (⟨above, way, named.1, true, isLast⟩ : Drawn) ∈
        drawnDirectories above way noFiles directories ∧
      ∀ inside ∈ drawn (above ++ [isLast]) (way ++ [named.1]) named.2,
        inside ∈ drawnDirectories above way noFiles directories := by
  obtain ⟨before, after, rfl⟩ := List.append_of_mem member
  refine ⟨noFiles && after.isEmpty, ?_, fun inside isInside => ?_⟩
  · exact mem_drawnDirectories_iff.mpr ⟨before, named, after, rfl, .inl rfl⟩
  · exact mem_drawnDirectories_iff.mpr ⟨before, named, after, rfl, .inr isInside⟩

end

/-- Everything that is drawn for a directory stands in it or below. -/
theorem isPrefix_of_mem_drawn {directory : Directory} {above : List Bool} {way : List String}
    {entry : Drawn} (member : entry ∈ drawn above way directory) : way <+: entry.directory := by
  induction directory using inductionOn generalizing above way with
  | containing directories files inductionHypothesis =>
    rw [drawn] at member
    rcases List.mem_append.mp member with member | member
    · obtain ⟨named, namedMember, isLast, rfl | inside, _⟩ := exists_of_mem_drawnDirectories member
      · exact List.prefix_rfl
      · exact (List.prefix_append way _).trans (inductionHypothesis named namedMember inside)
    · obtain ⟨_, here, _⟩ := of_mem_drawnFiles member
      exact here ▸ List.prefix_rfl

/-- An entry that is drawn for some directories is one of them or stands in one of them. -/
theorem place_of_mem_drawnDirectories {above : List Bool} {way : List String} {noFiles : Bool}
    {directories : List (String × Directory)} {entry : Drawn}
    (member : entry ∈ drawnDirectories above way noFiles directories) :
    ∃ named ∈ directories,
      (entry.directory = way ∧ entry.isDirectory = true ∧ entry.name = named.1) ∨
        way ++ [named.1] <+: entry.directory := by
  obtain ⟨named, namedMember, isLast, rfl | inside, _⟩ := exists_of_mem_drawnDirectories member
  · exact ⟨named, namedMember, .inl ⟨rfl, rfl, rfl⟩⟩
  · exact ⟨named, namedMember, .inr (isPrefix_of_mem_drawn inside)⟩

/-- A directory is not below itself. -/
theorem not_concat_isPrefix_self (way : List String) (name : String) : ¬ way ++ [name] <+: way :=
  fun isBelow => by simpa using isBelow.length_le

/-- What is drawn for a directory does not stand beside it. -/
theorem directory_ne_parent {above : List Bool} {way : List String} {name : String}
    {directory : Directory} {entry : Drawn}
    (member : entry ∈ drawn above (way ++ [name]) directory) : entry.directory ≠ way := by
  intro same
  have below := isPrefix_of_mem_drawn member
  rw [same] at below
  exact not_concat_isPrefix_self way name below

/-- What stands in one directory and what stands in another of a different name do not stand in
the same one. -/
theorem directory_ne {way : List String} {name : String} {directories : List (String × Directory)}
    (fresh : ∀ named ∈ directories, name ≠ named.1) {above otherAbove : List Bool}
    {noFiles : Bool} {directory : Directory} {first second : Drawn}
    (isFirst : first ∈ drawn above (way ++ [name]) directory)
    (isSecond : second ∈ drawnDirectories otherAbove way noFiles directories) :
    second.directory ≠ first.directory := by
  intro same
  have below : way ++ [name] <+: second.directory := same ▸ isPrefix_of_mem_drawn isFirst
  obtain ⟨named, namedMember, ⟨here, _, _⟩ | otherBelow⟩ := place_of_mem_drawnDirectories isSecond
  · exact not_concat_isPrefix_self way name (here ▸ below)
  · exact fresh named namedMember (Text.eq_of_concat_isPrefix below otherBelow)

/-! ### The order of entries -/

/-- Whether entries of one directory stand in their order. -/
def Ordered (entries : List Drawn) : Prop :=
  entries.Pairwise fun first second =>
    first.directory = second.directory → first.Precedes second

theorem ordered_drawnFiles (above : List Bool) (way : List String) {files : List String}
    (ascending : files.Pairwise (· < ·)) : Ordered (drawnFiles above way files) := by
  have names : (drawnFiles above way files).Pairwise fun first second =>
      first.name < second.name := by
    rw [← List.pairwise_map, map_name_drawnFiles]
    exact ascending
  refine names.imp_of_mem fun {first second} firstMember secondMember before _ => .inr ⟨?_, ?_⟩
  · rw [(of_mem_drawnFiles firstMember).2.2.1, (of_mem_drawnFiles secondMember).2.2.1]
  · exact (Text.lt_iff_utf8Bytes_lt _ _).mp before

theorem ordered_drawnDirectories {directories : List (String × Directory)}
    (inside : ∀ named ∈ directories, ∀ above way, Ordered (drawn above way named.2))
    (ascending : directories.Pairwise fun first second => first.1 < second.1)
    (above : List Bool) (way : List String) (noFiles : Bool) :
    Ordered (drawnDirectories above way noFiles directories) := by
  induction directories with
  | nil => exact .nil
  | cons named directories inductionHypothesis =>
    obtain ⟨name, directory⟩ := named
    obtain ⟨after, ascending⟩ := List.pairwise_cons.mp ascending
    have fresh : ∀ named ∈ directories, name ≠ named.1 := fun named member equal =>
      String.lt_irrefl name (by simpa [← equal] using after named member)
    rw [drawnDirectories]
    refine List.pairwise_cons.mpr ⟨fun other member same => ?_, List.pairwise_append.mpr
      ⟨inside _ List.mem_cons_self _ _, ?_, fun first isFirst second isSecond same => ?_⟩⟩
    · rcases List.mem_append.mp member with member | member
      · exact absurd same.symm (directory_ne_parent member)
      · obtain ⟨named, namedMember, ⟨_, isDirectory, otherName⟩ | below⟩ :=
          place_of_mem_drawnDirectories member
        · refine .inr ⟨isDirectory.symm, ?_⟩
          rw [otherName]
          exact (Text.lt_iff_utf8Bytes_lt _ _).mp (after named namedMember)
        · rw [← same] at below
          exact absurd below (not_concat_isPrefix_self way named.1)
    · exact inductionHypothesis (fun named member => inside named (List.mem_cons_of_mem _ member))
        ascending
    · exact absurd same.symm (directory_ne fresh isFirst isSecond)

/-- Within a directory the directories are drawn before the files, and the names ascend. -/
theorem ordered_drawn {directory : Directory} (tidy : Tidy directory) (above : List Bool)
    (way : List String) : Ordered (drawn above way directory) := by
  induction directory using inductionOn generalizing above way with
  | containing directories files inductionHypothesis =>
    obtain ⟨ascending, filesAscend, allTidy⟩ := tidy
    rw [drawn]
    refine List.pairwise_append.mpr ⟨?_, ordered_drawnFiles above way filesAscend, ?_⟩
    · refine ordered_drawnDirectories (fun named member => ?_) ascending above way _
      exact inductionHypothesis named member (allTidy_iff.mp allTidy named member).2
    · intro first isFirst second isSecond same
      obtain ⟨_, here, isFile, _⟩ := of_mem_drawnFiles isSecond
      obtain ⟨named, _, ⟨_, isDirectory, _⟩ | below⟩ := place_of_mem_drawnDirectories isFirst
      · exact .inl ⟨isDirectory, isFile⟩
      · rw [same, here] at below
        exact absurd below (not_concat_isPrefix_self way named.1)

/-! ### Closing connectors -/

theorem closesLast_append {first second : List Drawn}
    (apart : ∀ entry ∈ first, ∀ other ∈ second, other.directory ≠ entry.directory)
    (firstCloses : ClosesLast first) (secondCloses : ClosesLast second) :
    ClosesLast (first ++ second) := by
  induction first with
  | nil => exact secondCloses
  | cons entry first inductionHypothesis =>
    obtain ⟨here, rest⟩ := firstCloses
    obtain ⟨entryApart, apart⟩ := List.forall_mem_cons.mp apart
    refine ⟨here.trans ⟨fun alone other member => ?_, fun alone other member => ?_⟩,
      inductionHypothesis apart rest⟩
    · rcases List.mem_append.mp member with member | member
      · exact alone other member
      · exact entryApart other member
    · exact alone other (List.mem_append_left _ member)

theorem closesLast_drawnFiles (above : List Bool) (way files : List String) :
    ClosesLast (drawnFiles above way files) := by
  induction files with
  | nil => trivial
  | cons file files inductionHypothesis =>
    refine ⟨?_, inductionHypothesis⟩
    cases files with
    | nil => simp [drawnFiles]
    | cons next files => simp [drawnFiles]

theorem closesLast_drawnDirectories {directories : List (String × Directory)}
    (inside : ∀ named ∈ directories, ∀ above way, ClosesLast (drawn above way named.2))
    (ascending : directories.Pairwise fun first second => first.1 < second.1)
    (above : List Bool) (way files : List String) :
    ClosesLast (drawnDirectories above way files.isEmpty directories ++
      drawnFiles above way files) := by
  induction directories with
  | nil => exact closesLast_drawnFiles above way files
  | cons named directories inductionHypothesis =>
    obtain ⟨name, directory⟩ := named
    obtain ⟨after, ascending⟩ := List.pairwise_cons.mp ascending
    have fresh : ∀ named ∈ directories, name ≠ named.1 := fun named member equal =>
      String.lt_irrefl name (by simpa [← equal] using after named member)
    rw [drawnDirectories, List.cons_append, List.append_assoc]
    refine ⟨?_, closesLast_append (fun entry isEntry other isOther => ?_)
      (inside _ List.mem_cons_self _ _) (inductionHypothesis
        (fun named member => inside named (List.mem_cons_of_mem _ member)) ascending)⟩
    · -- A later entry of the same directory is the next directory or, if there is none, a file.
      constructor
      · intro isLast other member
        obtain ⟨noFiles, noDirectories⟩ := Bool.and_eq_true_iff.mp isLast
        rw [List.isEmpty_iff] at noFiles noDirectories
        subst noFiles noDirectories
        simp only [drawnDirectories, drawnFiles, List.append_nil] at member
        exact directory_ne_parent member
      · intro alone
        cases directories with
        | cons next directories =>
          obtain ⟨isLast, itself, _⟩ :=
            @mem_drawnDirectories above way files.isEmpty _ next List.mem_cons_self
          refine absurd rfl (alone ⟨above, way, next.1, true, isLast⟩ ?_)
          exact List.mem_append_right _ (List.mem_append_left _ itself)
        | nil =>
          cases files with
          | nil => rfl
          | cons file files =>
            refine absurd rfl (alone ⟨above, way, file, false, files.isEmpty⟩ ?_)
            exact List.mem_append_right _ List.mem_cons_self
    · rcases List.mem_append.mp isOther with member | member
      · exact directory_ne fresh isEntry member
      · rw [(of_mem_drawnFiles member).2.1]
        exact (directory_ne_parent isEntry).symm

/-- The closing connector is used for the last entry of every directory and for no other. -/
theorem closesLast_drawn {directory : Directory} (tidy : Tidy directory) (above : List Bool)
    (way : List String) : ClosesLast (drawn above way directory) := by
  induction directory using inductionOn generalizing above way with
  | containing directories files inductionHypothesis =>
    obtain ⟨ascending, _, allTidy⟩ := tidy
    rw [drawn]
    refine closesLast_drawnDirectories (fun named member => ?_) ascending above way files
    exact inductionHypothesis named member (allTidy_iff.mp allTidy named member).2

/-! ### Every file and every directory -/

/-- What is drawn for a tidy directory is its files and the directories on the way to them. -/
theorem shown_of_mem_drawn {directory : Directory} (tidy : Tidy directory) {above : List Bool}
    {way : List String} {entry : Drawn} (member : entry ∈ drawn above way directory) :
    ∃ front, entry.way = way ++ front ∧ front ≠ [] ∧
      ∃ rest, Holds directory (front ++ rest) ∧ (entry.isDirectory = true ↔ rest ≠ []) := by
  induction directory using inductionOn generalizing above way with
  | containing directories files inductionHypothesis =>
    obtain ⟨ascending, _, allTidy⟩ := tidy
    rw [drawn] at member
    rcases List.mem_append.mp member with member | member
    · obtain ⟨named, namedMember, isLast, rfl | inside, _⟩ := exists_of_mem_drawnDirectories member
      · obtain ⟨⟨rest, held⟩, _⟩ := allTidy_iff.mp allTidy named namedMember
        refine ⟨[named.1], rfl, List.cons_ne_nil _ _, rest,
          holds_of_mem ascending files namedMember held, iff_of_true rfl ?_⟩
        rintro rfl
        exact not_holds_nil _ held
      · obtain ⟨front, same, _, rest, held, isDirectory⟩ := inductionHypothesis named namedMember
          (allTidy_iff.mp allTidy named namedMember).2 inside
        refine ⟨named.1 :: front, ?_, List.cons_ne_nil _ _, rest,
          holds_of_mem ascending files namedMember held, isDirectory⟩
        rw [same, List.append_assoc, List.singleton_append]
    · obtain ⟨_, here, isFile, isHeld⟩ := of_mem_drawnFiles member
      refine ⟨[entry.name], by rw [Drawn.way, here], List.cons_ne_nil _ _, [], isHeld, ?_⟩
      simp [isFile]

/-- Every file that a tidy directory holds is drawn, and so is every directory on the way to
it. -/
theorem exists_mem_drawn {directory : Directory} (tidy : Tidy directory) (above : List Bool)
    (way : List String) {front rest : List String} (begun : front ≠ [])
    (held : Holds directory (front ++ rest)) :
    ∃ entry ∈ drawn above way directory, entry.way = way ++ front ∧
      (entry.isDirectory = true ↔ rest ≠ []) := by
  induction directory using inductionOn generalizing above way front with
  | containing directories files inductionHypothesis =>
    obtain ⟨ascending, _, allTidy⟩ := tidy
    obtain ⟨name, front, rfl⟩ := List.exists_cons_of_ne_nil begun
    rw [drawn]
    rcases (holds_containing_iff ascending).mp held with
      ⟨file, isHeld, same⟩ | ⟨named, namedMember, after, same, held⟩
    · obtain ⟨rfl, rfl, rfl⟩ : name = file ∧ front = [] ∧ rest = [] := by simpa using same
      rw [← map_name_drawnFiles above way files] at isHeld
      obtain ⟨entry, member, rfl⟩ := List.mem_map.mp isHeld
      obtain ⟨_, here, isFile, _⟩ := of_mem_drawnFiles member
      refine ⟨entry, List.mem_append_right _ member, by rw [Drawn.way, here], ?_⟩
      simp [isFile]
    · obtain ⟨rfl, rfl⟩ := List.cons.inj same
      obtain ⟨isLast, itself, inside⟩ :=
        @mem_drawnDirectories above way files.isEmpty _ named namedMember
      cases front with
      | nil =>
        refine ⟨_, List.mem_append_left _ itself, rfl, iff_of_true rfl ?_⟩
        rintro rfl
        exact not_holds_nil _ held
      | cons next front =>
        obtain ⟨entry, member, same, isDirectory⟩ := inductionHypothesis named namedMember
          (allTidy_iff.mp allTidy named namedMember).2 (above ++ [isLast]) (way ++ [named.1])
          (List.cons_ne_nil next front) held
        refine ⟨entry, List.mem_append_left _ (inside entry member), ?_, isDirectory⟩
        rw [same, List.append_assoc, List.singleton_append]

/-- The indent of an entry is that of its directory and what continues below that one. -/
theorem above_of_mem_drawn {directory : Directory} {above : List Bool} {way : List String}
    {entry : Drawn} (member : entry ∈ drawn above way directory) :
    (entry.directory = way ∧ entry.above = above) ∨
      ∃ parent ∈ drawn above way directory, parent.isDirectory = true ∧
        parent.way = entry.directory ∧ entry.above = parent.above ++ [parent.isLast] := by
  induction directory using inductionOn generalizing above way with
  | containing directories files inductionHypothesis =>
    rw [drawn] at member ⊢
    rcases List.mem_append.mp member with member | member
    · obtain ⟨named, namedMember, isLast, rfl | inside, itself, all⟩ :=
        exists_of_mem_drawnDirectories member
      · exact .inl ⟨rfl, rfl⟩
      · rcases inductionHypothesis named namedMember inside with
          ⟨here, sameAbove⟩ | ⟨parent, parentInside, isDirectory, sameWay, sameAbove⟩
        · exact .inr ⟨_, List.mem_append_left _ itself, rfl, here.symm, sameAbove⟩
        · exact .inr ⟨parent, List.mem_append_left _ (all parent parentInside), isDirectory,
            sameWay, sameAbove⟩
    · obtain ⟨sameAbove, here, _⟩ := of_mem_drawnFiles member
      exact .inl ⟨here, sameAbove⟩

end CodeAtlas.Directory
