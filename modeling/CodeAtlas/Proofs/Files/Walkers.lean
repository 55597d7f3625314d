/-
This file says what is assumed of a walker. One that follows its rules meets what stands below the
root and what the rules let pass, each entry once, down to the greatest depth and no deeper. One that
keeps to depths meets with a greatest depth what it meets without one, but for what lies deeper.
Seen from the root, the path of what is met is made of the names on the way to it.
-/

import CodeAtlas.Files.Walker
import CodeAtlas.Proofs.Files.Parents

namespace CodeAtlas

open Text

/-! ### Paths below a root -/

namespace Path

variable {root : String} {way : Place}

theorem componentsOfReversed_append_names {absolute : Bool} {names earlier : List Chars}
    (areNames : ∀ piece ∈ names, piece ≠ [] ∧ piece ≠ ['.'] ∧ piece ≠ ['.', '.']) :
    componentsOfReversed absolute (names.reverse ++ earlier) =
      componentsOfReversed absolute earlier ++ names.map Component.name := by
  induction names using List.reverseRecOn with
  | nil => simp
  | append_singleton names last inductionHypothesis =>
    obtain ⟨notEmpty, notHere, notUp⟩ := areNames last (List.mem_append_right _ List.mem_cons_self)
    have areNames := fun piece member => areNames piece (List.mem_append_left _ member)
    have named (before : List Chars) : component? absolute last before = some (.name last) := by
      rw [component?_eq_inner (.inr (.inr notHere)), innerComponent?, if_neg (by simp [*]),
        if_neg notUp]
    rw [List.reverse_concat, List.cons_append, componentsOfReversed, inductionHypothesis areNames,
      named, Option.toList_some, List.append_assoc, List.map_append, List.map_singleton]

/-- Joined to the path of a directory, names are the components that follow its own. -/
theorem components_join (named : root.isEmpty = false) (begun : way ≠ [])
    (names : ∀ name ∈ way, IsName name) : components (join root ("/".intercalate way)) =
      components root ++ way.map fun name => Component.name name.toList := by
  obtain ⟨isRelative, wayPieces⟩ := pieces_intercalate begun names
  obtain ⟨absolute, front, whole, frontOf⟩ := pieces_join named isRelative
  have sameFront : componentsOfReversed (isAbsolute root) (pieces root).reverse =
      componentsOfReversed (isAbsolute root) front.reverse := by
    rcases frontOf with same | same
    · rw [same]
    · have nothing : namesNothing (isAbsolute root) [] front.reverse = true := rfl
      rw [same, List.reverse_concat, componentsOfReversed, component?_eq_none_iff.mpr nothing,
        Option.toList_none, List.append_nil]
  have areNames : ∀ piece ∈ way.map String.toList,
      piece ≠ [] ∧ piece ≠ ['.'] ∧ piece ≠ ['.', '.'] := by
    intro piece member
    obtain ⟨name, isName, rfl⟩ := List.mem_map.mp member
    exact ⟨(names name isName).1, (names name isName).2.1, (names name isName).2.2.1⟩
  rw [components_eq, components_eq, absolute, whole, wayPieces, List.reverse_append,
    componentsOfReversed_append_names areNames, sameFront, List.map_map, List.append_assoc]
  rfl

theorem stripComponents?_append (base rest : List Component) :
    stripComponents? base (base ++ rest) = some rest := by
  induction base with
  | nil => rfl
  | cons component base inductionHypothesis =>
    rw [List.cons_append, stripComponents?, if_pos rfl, inductionHypothesis]

/-- Seen from a directory, the path of what is below it is made of the names on the way. -/
theorem relativeTo_join (named : root.isEmpty = false) (begun : way ≠ [])
    (names : ∀ name ∈ way, IsName name) :
    relativeTo root (join root ("/".intercalate way)) = "/".intercalate way := by
  rw [relativeTo, components_join named begun names, stripComponents?_append, Option.getD_some,
    List.map_map, join_eq_intercalate]
  apply String.toList_inj.mp
  rw [String.toList_ofList, String.toList_intercalate]
  rfl

end Path

theorem pathBelow_eq {root : String} {way : Place} (begun : way ≠ []) :
    pathBelow root way = Path.join root ("/".intercalate way) := by
  rw [pathBelow, if_neg (by simpa using begun)]

/-- Different ways below a root have different paths. -/
theorem eq_of_pathBelow_eq {root : String} (named : root.isEmpty = false) {way other : Place}
    (begun : way ≠ []) (otherBegun : other ≠ []) (names : ∀ name ∈ way, IsName name)
    (otherNames : ∀ name ∈ other, IsName name)
    (same : pathBelow root way = pathBelow root other) : way = other := by
  rw [pathBelow_eq begun, pathBelow_eq otherBegun] at same
  have sameWay : "/".intercalate way = "/".intercalate other := by
    rw [← Path.relativeTo_join named begun names, same,
      Path.relativeTo_join named otherBegun otherNames]
  have samePieces := congrArg Path.pieces sameWay
  rw [(Path.pieces_intercalate begun names).2,
    (Path.pieces_intercalate otherBegun otherNames).2] at samePieces
  exact (List.map_inj_right fun _ _ => String.toList_inj.mp).mp samePieces

/-- What is said of entries on different ways is different. -/
theorem WalkItem.eq_of_ofEntry_eq {files : FileSystem} {root : String}
    (named : root.isEmpty = false) {way other : Place} {entry otherEntry : Entry}
    (names : ∀ name ∈ way, IsName name) (otherNames : ∀ name ∈ other, IsName name)
    (same : ofEntry files root way entry = ofEntry files root other otherEntry) : way = other := by
  have sameDepth : way.length = other.length := congrArg WalkItem.depth same
  by_cases begun : way = []
  · subst begun
    exact (List.eq_nil_of_length_eq_zero sameDepth.symm).symm
  · have otherBegun : other ≠ [] := by
      rintro rfl
      exact begun (List.eq_nil_of_length_eq_zero sameDepth)
    exact eq_of_pathBelow_eq named begun otherBegun names otherNames (congrArg WalkItem.path same)

/-! ### What is assumed of a walker -/

namespace FileSystem

/-- Whether an entry stands at the end of some names below what a path leads to. -/
def StandsBelow (files : FileSystem) (root : String) (way : Place) (entry : Entry) : Prop :=
  ∃ place, files.locate root = .ok place ∧ files.at? (place ++ way) = some entry

variable {files : FileSystem} {root : String}

theorem exists_of_isDirectory (isDirectory : files.isDirectory root = true) :
    ∃ place entries, files.locate root = .ok place ∧
      files.at? place = some (.directory entries) := by
  rw [FileSystem.isDirectory, lookup?] at isDirectory
  cases located : files.locate root with
  | error error =>
    rw [located] at isDirectory
    cases isDirectory
  | ok place =>
    rw [located] at isDirectory
    obtain ⟨entry, stands, isDirectory⟩ := (Option.any_eq_true _ _).mp isDirectory
    cases entry with
    | directory entries => exact ⟨place, entries, rfl, stands⟩
    | file content => cases isDirectory
    | link target => cases isDirectory

theorem StandsBelow.isName {way : Place} {entry : Entry} (stands : files.StandsBelow root way entry)
    (wellNamed : files.root.WellNamed) : ∀ name ∈ way, IsName name := by
  obtain ⟨place, _, there⟩ := stands
  exact fun name member =>
    wellNamed.isName_of_at? there name (List.mem_append_right place member)

/-- What stands below a directory at the end of no names is the directory. -/
theorem eq_directory_of_standsBelow {entry : Entry} (isDirectory : files.isDirectory root = true)
    (stands : files.StandsBelow root [] entry) : entry.isDirectory = true := by
  obtain ⟨place, entries, located, there⟩ := exists_of_isDirectory isDirectory
  obtain ⟨other, otherLocated, otherThere⟩ := stands
  rw [located] at otherLocated
  obtain rfl := Except.ok.inj otherLocated
  rw [List.append_nil, there] at otherThere
  rw [← Option.some.inj otherThere]
  rfl

end FileSystem

namespace Walker

variable {walker : Walker} {files : FileSystem} {root : String}
  {passes : WalkRules → Place → Prop}

/-- Whether a walk lies within a greatest depth, if there is one. -/
def Within (deepest : Option UInt64) (depth : Nat) : Prop :=
  ∀ limit, deepest = some limit → depth ≤ limit.toNat

theorem within_none (depth : Nat) : Within none depth := by
  intro limit isLimit
  cases isLimit

theorem within_some_iff {limit : UInt64} {depth : Nat} :
    Within (some limit) depth ↔ depth ≤ limit.toNat := by
  simp [Within]

/-- Whether a walker follows the rules below a root. Of the entries there it meets those that the
rules let pass and that lie within the greatest depth, each of them once, and says of them what there
is to say. Whether the rules let an entry pass is a matter of the rules and of the way to it. -/
structure Follows (walker : Walker) (files : FileSystem) (root : String)
    (passes : WalkRules → Place → Prop) : Prop where
  met : ∀ rules deepest item, item ∈ walker.items files root rules deepest ↔
    ∃ way entry, files.StandsBelow root way entry ∧ passes rules way ∧
      Within deepest way.length ∧ item = .ofEntry files root way entry
  once : ∀ rules deepest, (walker.items files root rules deepest).Nodup

/-- Whether a greatest depth takes away from a walk below a directory the entries that lie deeper,
and no others. The directory itself, which is met at no depth at all, is no file. -/
structure KeepsDepth (walker : Walker) (files : FileSystem) (root : String) : Prop where
  met : ∀ rules limit item, item ∈ walker.items files root rules (some limit) ↔
    item ∈ walker.items files root rules none ∧ item.depth ≤ limit.toNat
  top : files.isDirectory root = true → ∀ rules deepest,
    ∀ item ∈ walker.items files root rules deepest, item.depth = 0 → item.isFile = false

/-- A walker that follows its rules keeps to depths. -/
theorem Follows.keepsDepth (follows : walker.Follows files root passes) :
    walker.KeepsDepth files root where
  met rules limit item := by
    rw [follows.met, follows.met]
    constructor
    · rintro ⟨way, entry, stands, isPassed, within, rfl⟩
      exact ⟨⟨way, entry, stands, isPassed, within_none _, rfl⟩, within_some_iff.mp within⟩
    · rintro ⟨⟨way, entry, stands, isPassed, _, rfl⟩, notDeeper⟩
      exact ⟨way, entry, stands, isPassed, within_some_iff.mpr notDeeper, rfl⟩
  top isDirectory rules deepest item member isTop := by
    obtain ⟨way, entry, stands, _, _, rfl⟩ := (follows.met rules deepest item).mp member
    obtain rfl := List.eq_nil_of_length_eq_zero isTop
    have isDirectory := FileSystem.eq_directory_of_standsBelow isDirectory stands
    cases entry with
    | directory entries => rfl
    | file content => cases isDirectory
    | link target => cases isDirectory

end Walker

end CodeAtlas
