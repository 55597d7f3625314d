/-
This file shows that the limits of a search for source files are filters that do not depend on
each other, for every walker that follows its rules. The walk never comes to what lies too deep, and
the size and the extension of a file are looked at when it has been met; what is found is still what
the search without limits finds, but for the files that one of the limits excludes.
-/

import CodeAtlas.Files.Discovery
import CodeAtlas.Proofs.Files.Walking

namespace CodeAtlas

/-! ### Limits -/

/-- A search with the same rules about what is passed over and without any limits. -/
def DiscoveryOptions.unlimited (options : DiscoveryOptions) : DiscoveryOptions :=
  { options with extensions := [], maxFileSize := none, maxDepth := none }

/-- The number of directories between the root and a file. -/
def SourceFile.depth (file : SourceFile) : Nat :=
  (Path.pieces file.relativePath).length - 1

/-- Whether a file keeps to the limits of a search: its extension is a wanted one but for the
case of its letters, it is small enough if its size can be told, and it does not lie too deep. -/
structure Accepted (files : FileSystem) (options : DiscoveryOptions) (file : SourceFile) :
    Prop where
  extension : options.extensions = [] ∨ ∃ extension, Path.extension? file.path = some extension ∧
    ∃ known ∈ options.extensions, known.toList.map Char.toLower = extension.map Char.toLower
  size : ∀ limit, options.maxFileSize = some limit →
    ∀ size, files.size? file.path = some size → size ≤ limit
  depth : ∀ limit, options.maxDepth = some limit → file.depth ≤ limit.toNat

namespace Discovery

/-- The source file at the end of some names below a root. -/
def sourceBelow (root : String) (way : Place) : SourceFile where
  path := pathBelow root way
  relativePath := "/".intercalate way
  language := Language.ofPath? (pathBelow root way)

/-- Whether a file stands below the root of a search where a walk comes to. -/
def Discoverable (files : FileSystem) (root : String) (passes : Place → Prop) (file : SourceFile) :
    Prop :=
  ∃ way content, files.StandsBelow root way (.file content) ∧ passes way ∧
    file = sourceBelow root way

variable {walker : Walker} {files : FileSystem} {root : String} {options : DiscoveryOptions}
  {passes : WalkRules → Place → Prop} {rules : WalkRules} {deepest : Option UInt64} {way : Place}
  {file : SourceFile}

theorem acceptsExtension_iff {path : String} :
    acceptsExtension options path = true ↔
      options.extensions = [] ∨ ∃ extension, Path.extension? path = some extension ∧
        ∃ known ∈ options.extensions,
          known.toList.map Char.toLower = extension.map Char.toLower := by
  rw [acceptsExtension, Bool.or_eq_true, List.isEmpty_iff]
  cases Path.extension? path with
  | none => simp
  | some extension => simp [Text.sameIgnoringCase]

theorem acceptsSize_iff {size? : Option Nat} :
    acceptsSize options size? = true ↔ ∀ limit, options.maxFileSize = some limit →
      ∀ size, size? = some size → size ≤ limit := by
  unfold acceptsSize
  cases options.maxFileSize <;> cases size? <;> simp

/-- Of what stands below a root the files are wanted whose extension and size are. -/
theorem isWanted_ofEntry_iff {entry : Entry} :
    isWanted options (.ofEntry files root way entry) = true ↔
      (∃ content, entry = .file content) ∧ acceptsExtension options (pathBelow root way) = true ∧
        acceptsSize options (files.size? (pathBelow root way)) = true := by
  have isFile : entry.isFile = true ↔ ∃ content, entry = .file content := by
    cases entry <;> simp [Entry.isFile]
  rw [isWanted, Bool.and_eq_true, Bool.and_eq_true, and_assoc, ← isFile]
  rfl

/-- A walk goes one deeper than the limit on directories, for it counts the root. -/
theorem within_depthLimit?_iff
    (below : ∀ limit, options.maxDepth = some limit → limit.toNat < UInt64.size - 1) {depth : Nat} :
    Walker.Within (depthLimit? options) depth ↔
      ∀ limit, options.maxDepth = some limit → depth ≤ limit.toNat + 1 := by
  unfold Walker.Within depthLimit?
  cases deepest : options.maxDepth with
  | none => simp
  | some limit =>
    have small := below limit deepest
    have next : (limit + 1).toNat = limit.toNat + 1 := by
      rw [UInt64.toNat_add]
      exact Nat.mod_eq_of_lt (by simpa using Nat.add_lt_of_lt_sub small)
    simp [next]

/-! ### Files below a root -/

/-- What stands below a directory and is a file has a name there. -/
theorem ne_nil_of_standsBelow (isDirectory : files.isDirectory root = true) {content : ByteArray}
    (stands : files.StandsBelow root way (.file content)) : way ≠ [] := by
  rintro rfl
  cases FileSystem.eq_directory_of_standsBelow isDirectory stands

theorem sourceFile_ofEntry (isDirectory : files.isDirectory root = true)
    (wellNamed : files.root.WellNamed) {content : ByteArray}
    (stands : files.StandsBelow root way (.file content)) :
    sourceFile root (.ofEntry files root way (.file content)) = sourceBelow root way := by
  obtain ⟨_, _, located, _⟩ := FileSystem.exists_of_isDirectory isDirectory
  obtain ⟨named, _⟩ := FileSystem.target_eq_ok_iff.mp (FileSystem.locate_eq_ok_iff.mp located).1
  have begun := ne_nil_of_standsBelow isDirectory stands
  have relative : Path.relativeTo root (pathBelow root way) = "/".intercalate way := by
    rw [pathBelow_eq begun]
    exact Path.relativeTo_join (by simpa using named) begun (stands.isName wellNamed)
  rw [sourceFile, WalkItem.ofEntry, sourceBelow, relative]

theorem depth_sourceBelow (begun : way ≠ []) (names : ∀ name ∈ way, IsName name) :
    (sourceBelow root way).depth + 1 = way.length := by
  have pieces : (Path.pieces ("/".intercalate way)).length = way.length := by
    rw [(Path.pieces_intercalate begun names).2, List.length_map]
  rw [SourceFile.depth, sourceBelow, pieces]
  exact Nat.sub_add_cancel (List.length_pos_iff.mpr begun)

theorem accepted_sourceBelow_iff
    (below : ∀ limit, options.maxDepth = some limit → limit.toNat < UInt64.size - 1)
    (begun : way ≠ []) (names : ∀ name ∈ way, IsName name) :
    Accepted files options (sourceBelow root way) ↔
      Walker.Within (depthLimit? options) way.length ∧
        acceptsExtension options (pathBelow root way) = true ∧
        acceptsSize options (files.size? (pathBelow root way)) = true := by
  rw [acceptsExtension_iff, acceptsSize_iff, within_depthLimit?_iff below,
    ← @depth_sourceBelow root way begun names]
  constructor
  · rintro ⟨extension, size, depth⟩
    exact ⟨fun limit isLimit => Nat.succ_le_succ (depth limit isLimit), extension, size⟩
  · rintro ⟨depth, extension, size⟩
    exact ⟨extension, size, fun limit isLimit => Nat.le_of_succ_le_succ (depth limit isLimit)⟩

/-- Where nothing is closed to a search, the path of a file below a root leads to the file. -/
theorem lookup?_pathBelow (isDirectory : files.isDirectory root = true)
    (wellNamed : files.root.WellNamed) (isOpen : ∀ place, files.refusal? .search place = none)
    {content : ByteArray} (stands : files.StandsBelow root way (.file content)) :
    files.lookup? (pathBelow root way) = some (.file content) := by
  have begun := ne_nil_of_standsBelow isDirectory stands
  have names := stands.isName wellNamed
  obtain ⟨place, located, there⟩ := stands
  obtain ⟨top, entries, topLocated, topStands⟩ := FileSystem.exists_of_isDirectory isDirectory
  rw [located] at topLocated
  obtain rfl := Except.ok.inj topLocated
  have leads : (Entry.directory entries).at? way = some (.file content) :=
    (FileSystem.at?_append topStands way).symm.trans there
  have located := FileSystem.locate_join located topStands begun names leads
    (fun path same => by cases same) fun above _ _ => isOpen above
  rw [pathBelow_eq begun, FileSystem.lookup?, located]
  exact there

/-! ### Files that are found -/

theorem discover_eq_chosen (isDirectory : files.isDirectory root = true)
    (accepts : walker.refusal? root (overrides walker options) = none) :
    discover walker files root options = .ok (chosen root options
      (walker.items files root (Discovery.rules walker options) (depthLimit? options))) := by
  have same : (Discovery.rules walker options).overrides = overrides walker options := rfl
  rw [discover, if_pos isDirectory]
  dsimp only
  rw [same, accepts]

theorem discover_of_refusal {reason : String} (isDirectory : files.isDirectory root = true)
    (refuses : walker.refusal? root (overrides walker options) = some reason) :
    discover walker files root options = .error (.walk reason) := by
  have same : (Discovery.rules walker options).overrides = overrides walker options := rfl
  rw [discover, if_pos isDirectory]
  dsimp only
  rw [same, refuses]

theorem mem_chosen_iff {items : List WalkItem} :
    file ∈ chosen root options items ↔
      ∃ item ∈ items, isWanted options item = true ∧ sourceFile root item = file := by
  rw [chosen, List.mem_mergeSort, List.mem_map]
  simp only [List.mem_filter, and_assoc]

/-- Of what a walker meets that follows its rules, the wanted files are chosen. -/
theorem mem_chosen_items_iff (follows : walker.Follows files root passes)
    (isDirectory : files.isDirectory root = true) (wellNamed : files.root.WellNamed) :
    file ∈ chosen root options (walker.items files root rules deepest) ↔
      ∃ way content, files.StandsBelow root way (.file content) ∧ passes rules way ∧
        Walker.Within deepest way.length ∧ acceptsExtension options (pathBelow root way) = true ∧
        acceptsSize options (files.size? (pathBelow root way)) = true ∧
        file = sourceBelow root way := by
  rw [mem_chosen_iff]
  constructor
  · rintro ⟨item, member, wanted, rfl⟩
    obtain ⟨way, entry, stands, isPassed, within, rfl⟩ := (follows.met rules deepest item).mp member
    obtain ⟨⟨content, rfl⟩, extension, size⟩ := isWanted_ofEntry_iff.mp wanted
    exact ⟨way, content, stands, isPassed, within, extension, size,
      sourceFile_ofEntry isDirectory wellNamed stands⟩
  · rintro ⟨way, content, stands, isPassed, within, extension, size, rfl⟩
    exact ⟨_, (follows.met rules deepest _).mpr ⟨way, _, stands, isPassed, within, rfl⟩,
      isWanted_ofEntry_iff.mpr ⟨⟨content, rfl⟩, extension, size⟩,
      sourceFile_ofEntry isDirectory wellNamed stands⟩

/-- Without limits every file is found to which the walk comes. -/
theorem mem_chosen_unlimited_iff (follows : walker.Follows files root passes)
    (isDirectory : files.isDirectory root = true) (wellNamed : files.root.WellNamed) :
    file ∈ chosen root options.unlimited (walker.items files root rules none) ↔
      Discoverable files root (passes rules) file := by
  rw [mem_chosen_items_iff follows isDirectory wellNamed]
  constructor
  · rintro ⟨way, content, stands, isPassed, _, _, _, rfl⟩
    exact ⟨way, content, stands, isPassed, rfl⟩
  · rintro ⟨way, content, stands, isPassed, rfl⟩
    exact ⟨way, content, stands, isPassed, Walker.within_none _, rfl, rfl, rfl⟩

/-- With limits those of these files are found that keep to them. -/
theorem mem_chosen_depthLimit?_iff (follows : walker.Follows files root passes)
    (isDirectory : files.isDirectory root = true) (wellNamed : files.root.WellNamed)
    (below : ∀ limit, options.maxDepth = some limit → limit.toNat < UInt64.size - 1) :
    file ∈ chosen root options (walker.items files root rules (depthLimit? options)) ↔
      Discoverable files root (passes rules) file ∧ Accepted files options file := by
  rw [mem_chosen_items_iff follows isDirectory wellNamed]
  have accepted {way : Place} {content : ByteArray}
      (stands : files.StandsBelow root way (.file content)) :=
    @accepted_sourceBelow_iff files root options way below
      (ne_nil_of_standsBelow isDirectory stands) (stands.isName wellNamed)
  constructor
  · rintro ⟨way, content, stands, isPassed, within, extension, size, rfl⟩
    exact ⟨⟨way, content, stands, isPassed, rfl⟩,
      (accepted stands).mpr ⟨within, extension, size⟩⟩
  · rintro ⟨⟨way, content, stands, isPassed, rfl⟩, isAccepted⟩
    obtain ⟨within, extension, size⟩ := (accepted stands).mp isAccepted
    exact ⟨way, content, stands, isPassed, within, extension, size, rfl⟩

/-! ### Order -/

/-- The paths of the files that are met are all different. -/
theorem nodup_relativePaths (follows : walker.Follows files root passes)
    (isDirectory : files.isDirectory root = true) (wellNamed : files.root.WellNamed) :
    ((((walker.items files root rules deepest).filter (isWanted options)).map
      (sourceFile root)).map SourceFile.relativePath).Nodup := by
  have once := (follows.once rules deepest).filter (isWanted options)
  rw [List.map_map, List.Nodup, List.pairwise_map]
  refine List.Pairwise.imp_of_mem (fun {first second} isFirst isSecond different same => ?_) once
  -- An item that is wanted is a file, which stands at the end of the names in its path.
  have standing {item : WalkItem}
      (member : item ∈ (walker.items files root rules deepest).filter (isWanted options)) :
      ∃ way content, files.StandsBelow root way (.file content) ∧
        item = .ofEntry files root way (.file content) := by
    obtain ⟨isMet, wanted⟩ := List.mem_filter.mp member
    obtain ⟨way, entry, stands, _, _, rfl⟩ := (follows.met rules deepest item).mp isMet
    obtain ⟨⟨content, rfl⟩, _⟩ := isWanted_ofEntry_iff.mp wanted
    exact ⟨way, content, stands, rfl⟩
  obtain ⟨way, content, stands, rfl⟩ := standing isFirst
  obtain ⟨other, otherContent, otherStands, rfl⟩ := standing isSecond
  rw [Function.comp_apply, Function.comp_apply, sourceFile_ofEntry isDirectory wellNamed stands,
    sourceFile_ofEntry isDirectory wellNamed otherStands] at same
  have samePieces := congrArg Path.pieces same
  rw [sourceBelow, sourceBelow,
    (Path.pieces_intercalate (ne_nil_of_standsBelow isDirectory stands)
      (stands.isName wellNamed)).2,
    (Path.pieces_intercalate (ne_nil_of_standsBelow isDirectory otherStands)
      (otherStands.isName wellNamed)).2] at samePieces
  obtain rfl := (List.map_inj_right fun _ _ => String.toList_inj.mp).mp samePieces
  obtain ⟨place, located, there⟩ := stands
  obtain ⟨otherPlace, otherLocated, otherThere⟩ := otherStands
  rw [located] at otherLocated
  obtain rfl := Except.ok.inj otherLocated
  rw [there] at otherThere
  exact different (by rw [Option.some.inj otherThere])

/-- What is chosen from what a walker meets that follows its rules is in ascending order, each file
once. -/
theorem ascending_chosen (follows : walker.Follows files root passes)
    (isDirectory : files.isDirectory root = true) (wellNamed : files.root.WellNamed) :
    (chosen root options (walker.items files root rules deepest)).Pairwise fun first second =>
      first.relativePath < second.relativePath := by
  have sorted : (chosen root options (walker.items files root rules deepest)).Pairwise
      fun first second => notAfter first second = true := by
    refine List.pairwise_mergeSort (fun first second third before after => ?_)
      (fun first second => ?_) _
    · exact decide_eq_true
        (String.le_trans (of_decide_eq_true before) (of_decide_eq_true after))
    · rw [Bool.or_eq_true, notAfter, notAfter, decide_eq_true_eq, decide_eq_true_eq]
      exact String.le_total _ _
  have different : (chosen root options (walker.items files root rules deepest)).Pairwise
      fun first second => first.relativePath ≠ second.relativePath := by
    rw [← List.pairwise_map]
    exact ((List.mergeSort_perm _ notAfter).map _).nodup_iff.mpr
      (nodup_relativePaths follows isDirectory wellNamed)
  refine (sorted.and different).imp fun {first second} both => ?_
  exact Std.lt_of_le_of_ne (of_decide_eq_true both.1) both.2

/-! ### Independent filters -/

/-- The limits of a search are independent filters, for every walker that follows its rules. A search
that the walker refuses fails with and without limits. Otherwise a search without limits finds every
file to which the rules about what is passed over let the walk come; with limits it finds those of
them that keep to all limits, each once and in ascending order of their paths. Where nothing is
closed to the search, the size of every file can be told. The greatest machine word is left out, for
the walk counts one more than the limit. -/
theorem discover_limits (walker : Walker) (files : FileSystem) (wellNamed : files.root.WellNamed)
    (root : String) (isDirectory : files.isDirectory root = true)
    (passes : WalkRules → Place → Prop) (follows : walker.Follows files root passes)
    (options : DiscoveryOptions)
    (below : ∀ limit, options.maxDepth = some limit → limit.toNat < UInt64.size - 1) :
    (∃ reason, walker.refusal? root (overrides walker options) = some reason ∧
      discover walker files root options.unlimited = .error (.walk reason) ∧
      discover walker files root options = .error (.walk reason)) ∨
    ∃ all chosen, discover walker files root options.unlimited = .ok all ∧
      discover walker files root options = .ok chosen ∧
      (∀ file, file ∈ all ↔
        Discoverable files root (passes (Discovery.rules walker options)) file) ∧
      (∀ file, file ∈ chosen ↔ file ∈ all ∧ Accepted files options file) ∧
      chosen.Pairwise (fun first second => first.relativePath < second.relativePath) ∧
      ((∀ place, files.refusal? .search place = none) → ∀ file ∈ all, ∃ content,
        files.lookup? file.path = some (.file content) ∧
        files.size? file.path = some content.size) := by
  cases refuses : walker.refusal? root (overrides walker options) with
  | some reason =>
    exact .inl ⟨reason, rfl, discover_of_refusal isDirectory refuses,
      discover_of_refusal isDirectory refuses⟩
  | none =>
    have discoverable (file : SourceFile) :
        file ∈ chosen root options.unlimited
            (walker.items files root (Discovery.rules walker options) none) ↔
          Discoverable files root (passes (Discovery.rules walker options)) file :=
      mem_chosen_unlimited_iff follows isDirectory wellNamed
    refine .inr ⟨_, _, discover_eq_chosen isDirectory refuses,
      discover_eq_chosen isDirectory refuses, discoverable, fun file => ?_,
      ascending_chosen follows isDirectory wellNamed, fun isOpen file member => ?_⟩
    · rw [mem_chosen_depthLimit?_iff follows isDirectory wellNamed below]
      exact and_congr_left' (discoverable file).symm
    · obtain ⟨way, content, stands, _, rfl⟩ := (discoverable file).mp member
      have leads : files.lookup? (sourceBelow root way).path = some (.file content) :=
        lookup?_pathBelow isDirectory wellNamed isOpen stands
      exact ⟨content, leads, by rw [FileSystem.size?, leads]⟩

/-- A file system with sources in two directories. -/
def workshop : FileSystem where
  root := .directory [
    ("src", .directory [
      ("main.rs", .file ⟨#[10, 10]⟩),
      ("tools", .directory [("trim.rs", .file ⟨#[10]⟩)]),
      ("table.rs", .file ⟨#[10, 10, 10]⟩)]),
    ("notes.txt", .file ⟨#[10]⟩)]

/-- A search for small sources that stand in the root itself. -/
def shallow : DiscoveryOptions where
  extensions := ["RS"]
  maxFileSize := some 2
  maxDepth := some 0

/-- The search for small sources finds the one file that is not too large and not too deep. -/
theorem discover_limits_workshop :
    workshop.root.WellNamed ∧ workshop.isDirectory "/src" = true ∧
      Walker.builtIn.Follows workshop "/src" (Walker.builtInPasses workshop "/src") ∧
      ∃ all, discover .builtIn workshop "/src" shallow.unlimited = .ok all ∧
        (∀ file, file ∈ all ↔ Discoverable workshop "/src"
          (Walker.builtInPasses workshop "/src" (Discovery.rules .builtIn shallow)) file) ∧
        ∀ file, file = ⟨"/src/main.rs", "main.rs", some .rust⟩ ↔
          file ∈ all ∧ Accepted workshop shallow file := by
  have wellNamed : workshop.root.WellNamed := by
    simp [workshop, Entry.WellNamed, Entry.AllWellNamed, IsName]
  have isDirectory : workshop.isDirectory "/src" = true := by decide +kernel
  have follows := Walker.builtIn_follows wellNamed "/src"
  have below : ∀ limit, shallow.maxDepth = some limit → limit.toNat < UInt64.size - 1 := by
    intro limit isLimit
    rw [← Option.some.inj isLimit]
    decide
  rcases discover_limits .builtIn workshop wellNamed "/src" isDirectory _ follows shallow below with
    ⟨reason, refuses, _⟩ | ⟨all, chosen, foundAll, foundChosen, discoverable, accepted, _⟩
  · cases refuses
  · have only : (discover .builtIn workshop "/src" shallow).toOption =
        some [⟨"/src/main.rs", "main.rs", some .rust⟩] := by decide +kernel
    rw [foundChosen] at only
    obtain rfl := Option.some.inj only
    refine ⟨wellNamed, isDirectory, follows, all, foundAll, discoverable, fun file => ?_⟩
    rw [← accepted, List.mem_singleton]

end Discovery

end CodeAtlas
