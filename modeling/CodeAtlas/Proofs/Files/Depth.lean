/-
This file says what becomes of a search when its limit on the depth is raised, for every walker that
keeps to depths. A walk counts the root, so its own limit is the next machine word. For every limit
but the greatest that word is one more, and whatever is found with a lesser limit is found with the
greater one; the greatest word is followed by nought, with which a walk does not enter the root.
-/

import CodeAtlas.Proofs.Files.Limits

namespace CodeAtlas

/-- The same search with another limit on the depth, or with none. -/
def DiscoveryOptions.toDepth (options : DiscoveryOptions) (deepest : Option UInt64) :
    DiscoveryOptions :=
  { options with maxDepth := deepest }

namespace Discovery

variable {walker : Walker} {files : FileSystem} {root : String} {options : DiscoveryOptions}
  {limit deeper : UInt64} {file : SourceFile}

/-! ### The limit of a walk -/

/-- The next machine word is one more, unless there is no greater one. -/
theorem toNat_next (limit : UInt64) :
    (limit + 1).toNat = if limit.toNat + 1 < UInt64.size then limit.toNat + 1 else 0 := by
  have bound := limit.toNat_lt_size
  rw [UInt64.toNat_add]
  split
  · next fits => exact Nat.mod_eq_of_lt fits
  · next full =>
    have last : limit.toNat + 1 = UInt64.size :=
      Nat.le_antisymm bound (Nat.le_of_not_lt full)
    rw [show (1 : UInt64).toNat = 1 from rfl, last]
    exact Nat.mod_self _

/-- The limit of a walk is one more than the limit on directories exactly if there is a greater
machine word. -/
theorem depthLimit?_toDepth_iff :
    (depthLimit? (options.toDepth (some limit))).map UInt64.toNat = some (limit.toNat + 1) ↔
      limit.toNat + 1 < UInt64.size := by
  have next : (depthLimit? (options.toDepth (some limit))).map UInt64.toNat =
      some (limit + 1).toNat := rfl
  rw [next, toNat_next, Option.some_inj]
  split
  · next fits => exact iff_of_true rfl fits
  · next full => exact iff_of_false (Nat.succ_ne_zero _).symm full

/-! ### What is found -/

/-- The files that a search of a directory finds with a limit on the depth, or with none. -/
def foundTo (walker : Walker) (files : FileSystem) (root : String) (options : DiscoveryOptions)
    (deepest : Option UInt64) : List SourceFile :=
  chosen root options (walker.items files root (rules walker options)
    (depthLimit? (options.toDepth deepest)))

theorem discover_toDepth (isDirectory : files.isDirectory root = true)
    (accepts : walker.refusal? root (overrides walker options) = none) (deepest : Option UInt64) :
    discover walker files root (options.toDepth deepest) =
      .ok (foundTo walker files root options deepest) :=
  discover_eq_chosen isDirectory accepts

/-- With a limit on the depth a search finds what it finds without one, but for what lies deeper than
the walk goes. -/
theorem mem_foundTo_some_iff (keeps : walker.KeepsDepth files root) :
    file ∈ foundTo walker files root options (some limit) ↔
      ∃ item ∈ walker.items files root (rules walker options) none,
        item.depth ≤ (limit + 1).toNat ∧ isWanted options item = true ∧
          sourceFile root item = file := by
  rw [foundTo, mem_chosen_iff]
  constructor
  · rintro ⟨item, member, wanted, same⟩
    obtain ⟨member, notDeeper⟩ := (keeps.met _ (limit + 1) item).mp member
    exact ⟨item, member, notDeeper, wanted, same⟩
  · rintro ⟨item, member, notDeeper, wanted, same⟩
    exact ⟨item, (keeps.met _ (limit + 1) item).mpr ⟨member, notDeeper⟩, wanted, same⟩

/-- A file that is found with a limit on the depth is found with a greater one, as long as the walk
counts on from that one. -/
theorem foundTo_subset (keeps : walker.KeepsDepth files root) (raised : limit ≤ deeper)
    (fits : deeper.toNat + 1 < UInt64.size) :
    foundTo walker files root options (some limit) ⊆
      foundTo walker files root options (some deeper) := by
  have order : limit.toNat ≤ deeper.toNat := UInt64.le_iff_toNat_le.mp raised
  have next : (limit + 1).toNat ≤ (deeper + 1).toNat := by
    rw [toNat_next, toNat_next, if_pos fits, if_pos (Nat.lt_of_le_of_lt (by omega) fits)]
    exact Nat.succ_le_succ order
  intro file member
  obtain ⟨item, isMet, notDeeper, found⟩ := (mem_foundTo_some_iff keeps).mp member
  exact (mem_foundTo_some_iff keeps).mpr ⟨item, isMet, Nat.le_trans notDeeper next, found⟩

/-- A file that is found with a limit on the depth is found without one. -/
theorem foundTo_subset_none (keeps : walker.KeepsDepth files root) :
    foundTo walker files root options (some deeper) ⊆ foundTo walker files root options none := by
  intro file member
  obtain ⟨item, isMet, _, found⟩ := (mem_foundTo_some_iff keeps).mp member
  exact mem_chosen_iff.mpr ⟨item, isMet, found⟩

/-- With the greatest word for a limit nothing is found. -/
theorem foundTo_of_full (keeps : walker.KeepsDepth files root)
    (isDirectory : files.isDirectory root = true) (full : ¬ deeper.toNat + 1 < UInt64.size) :
    foundTo walker files root options (some deeper) = [] := by
  refine List.eq_nil_iff_forall_not_mem.mpr fun file member => ?_
  obtain ⟨item, isMet, notDeeper, wanted, _⟩ := (mem_foundTo_some_iff keeps).mp member
  rw [toNat_next, if_neg full] at notDeeper
  have isFile := keeps.top isDirectory _ _ item isMet (Nat.le_zero.mp notDeeper)
  rw [isWanted, isFile] at wanted
  cases wanted

/-! ### Searches -/

theorem discover_of_not_isDirectory (noDirectory : files.isDirectory root = false)
    (options : DiscoveryOptions) :
    discover walker files root options = .error (.missingRoot root) := by
  rw [discover, if_neg (by simp [noDirectory])]

/-- A search of what is no directory fails, whatever its limit, and so does one that the walker
refuses. Otherwise, of a limit on the depth, a greater one and none, each finds something, and the one
without a limit finds all that the greater one does. The walk's own limit is one more than the greater
one exactly if that is not the greatest machine word, and exactly then, or if the lesser limit lets
nothing be found, nothing is lost by raising it. -/
theorem discover_raised (walker : Walker) (files : FileSystem) (root : String)
    (keeps : walker.KeepsDepth files root) (options : DiscoveryOptions) (limit deeper : UInt64)
    (raised : limit ≤ deeper) :
    (files.isDirectory root = false ∧ ∀ deepest,
      discover walker files root (options.toDepth deepest) = .error (.missingRoot root)) ∨
    (∃ reason, walker.refusal? root (overrides walker options) = some reason ∧ ∀ deepest,
      discover walker files root (options.toDepth deepest) = .error (.walk reason)) ∨
    ∃ few more all, discover walker files root (options.toDepth (some limit)) = .ok few ∧
      discover walker files root (options.toDepth (some deeper)) = .ok more ∧
      discover walker files root (options.toDepth none) = .ok all ∧ more ⊆ all ∧
      ((depthLimit? (options.toDepth (some deeper))).map UInt64.toNat = some (deeper.toNat + 1) ↔
        deeper.toNat + 1 < UInt64.size) ∧
      (few ⊆ more ↔ deeper.toNat + 1 < UInt64.size ∨ few = []) := by
  cases isDirectory : files.isDirectory root with
  | false => exact .inl ⟨rfl, fun deepest => discover_of_not_isDirectory isDirectory _⟩
  | true =>
    refine .inr ?_
    cases refuses : walker.refusal? root (overrides walker options) with
    | some reason =>
      exact .inl ⟨reason, rfl, fun deepest => discover_of_refusal isDirectory refuses⟩
    | none =>
      refine .inr ⟨_, _, _, discover_toDepth isDirectory refuses _,
        discover_toDepth isDirectory refuses _, discover_toDepth isDirectory refuses _,
        foundTo_subset_none keeps, depthLimit?_toDepth_iff, ?_⟩
      by_cases fits : deeper.toNat + 1 < UInt64.size
      · exact iff_of_true (foundTo_subset keeps raised fits) (.inl fits)
      · rw [foundTo_of_full keeps isDirectory fits, List.subset_nil]
        exact (or_iff_right fits).symm

theorem eq_ok_of_toOption {Error Value : Type} {result : Except Error Value} {value : Value}
    (gives : result.toOption = some value) : result = .ok value := by
  cases result with
  | ok held => exact congrArg Except.ok (Option.some.inj gives)
  | error error => cases gives

/-- A search for the smallest sources. -/
def smallest : DiscoveryOptions where
  extensions := ["rs"]
  maxFileSize := some 1

/-- Raising the limit by one lets the search come to a file in a directory below the root. -/
theorem discover_raised_workshop :
    (0 : UInt64) ≤ 1 ∧ ∃ few more all,
      discover .builtIn workshop "/src" (smallest.toDepth (some 0)) = .ok few ∧
      discover .builtIn workshop "/src" (smallest.toDepth (some 1)) = .ok more ∧
      discover .builtIn workshop "/src" (smallest.toDepth none) = .ok all ∧ few ⊆ more ∧ more ⊆ all ∧
      ⟨"/src/tools/trim.rs", "tools/trim.rs", some .rust⟩ ∈ more := by
  have raised : (0 : UInt64) ≤ 1 := by decide
  have isDirectory : workshop.isDirectory "/src" = true := by decide +kernel
  have comes : (discover .builtIn workshop "/src" (smallest.toDepth (some 1))).toOption =
      some [⟨"/src/tools/trim.rs", "tools/trim.rs", some .rust⟩] := by decide +kernel
  have keeps := Walker.builtIn_keepsDepth workshop "/src"
  rcases discover_raised .builtIn workshop "/src" keeps smallest 0 1 raised with
    ⟨noDirectory, _⟩ | ⟨reason, refuses, _⟩ |
      ⟨few, more, all, foundFew, foundMore, foundAll, within, _, raises⟩
  · rw [isDirectory] at noDirectory
    cases noDirectory
  · cases refuses
  · rw [foundMore] at comes
    obtain rfl := Option.some.inj comes
    exact ⟨raised, few, _, all, foundFew, foundMore, foundAll, raises.mpr (.inl (by decide)),
      within, List.mem_singleton_self _⟩

/-- With the greatest machine word for a limit a search loses the file that it finds in the root
itself with nought for a limit, and the walk's limit is not one more. -/
theorem exists_discover_raised_not_subset :
    ∃ few more, (0 : UInt64) ≤ 0xFFFFFFFFFFFFFFFF ∧
      discover .builtIn workshop "/src" (shallow.toDepth (some 0)) = .ok few ∧
      discover .builtIn workshop "/src" (shallow.toDepth (some 0xFFFFFFFFFFFFFFFF)) = .ok more ∧
      ¬ few ⊆ more ∧
      (depthLimit? (shallow.toDepth (some 0xFFFFFFFFFFFFFFFF))).map UInt64.toNat ≠
        some ((0xFFFFFFFFFFFFFFFF : UInt64).toNat + 1) := by
  have foundFew : (discover .builtIn workshop "/src" (shallow.toDepth (some 0))).toOption =
      some [⟨"/src/main.rs", "main.rs", some .rust⟩] := by decide +kernel
  have foundMore : (discover .builtIn workshop "/src"
      (shallow.toDepth (some 0xFFFFFFFFFFFFFFFF))).toOption = some [] := by decide +kernel
  refine ⟨_, _, by decide, eq_ok_of_toOption foundFew, eq_ok_of_toOption foundMore, ?_, ?_⟩
  · rw [List.subset_nil]
    exact List.cons_ne_nil _ _
  · exact fun next => absurd (depthLimit?_toDepth_iff.mp next) (by decide)

end Discovery

end CodeAtlas
