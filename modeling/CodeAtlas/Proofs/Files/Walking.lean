/-
This file shows that the built-in walker follows its rules. A walk that goes to any depth meets every
entry to which the rules about what is passed over let it come, each on a way of its own; one that
goes only to some depth meets of these entries those that lie no deeper.
-/

import CodeAtlas.Ignore.Walking
import CodeAtlas.Proofs.Files.Following
import CodeAtlas.Proofs.Files.Walkers

namespace CodeAtlas.Walker

variable {visits : Place → String → Bool → List Surrounding → Bool} {reaches : Nat → Bool}
  {closed? : Place → Option FileError} {way : Place} {depth : Nat}
  {surroundings : List Surrounding} {met : Met}

/-! ### Entries that are met -/

/-- What is met in some entries is met in one of them that takes part in the walk. -/
theorem mem_walkEntries_iff {entries : List (String × Entry)} {item : Except FileError Met} :
    item ∈ walkEntries visits reaches closed? way depth surroundings entries ↔
      ∃ named ∈ entries,
        visits (way ++ [named.1]) named.1 named.2.isDirectory (extend named.1 surroundings) ∧
          item ∈ walkEntry visits reaches closed? (way ++ [named.1]) depth
            (extend named.1 surroundings) named.2 := by
  induction entries with
  | nil => simp [walkEntries]
  | cons named entries inductionHypothesis =>
    obtain ⟨name, entry⟩ := named
    rw [walkEntries, List.mem_append, inductionHypothesis, List.exists_mem_cons_iff]
    refine or_congr_left ?_
    split
    · next visited => exact (and_iff_right visited).symm
    · next passedOver => exact iff_of_false List.not_mem_nil fun both => passedOver both.1

/-- In a directory that is reached the directory itself is met, and what is in it if it may be
listed. -/
theorem mem_walkEntry_directory_iff {entries : List (String × Entry)} :
    .ok met ∈ walkEntry visits reaches closed? way depth surroundings (.directory entries) ↔
      met = ⟨way, .directory entries⟩ ∨
        reaches (depth + 1) = true ∧ closed? way = none ∧ .ok met ∈ walkEntries visits reaches
          closed? way (depth + 1) (⟨.directory entries, []⟩ :: surroundings) entries := by
  rw [walkEntry, List.mem_cons, Except.ok.injEq]
  refine or_congr_right ?_
  cases reaches (depth + 1) with
  | false => simp
  | true =>
    rw [if_pos rfl]
    cases closed? way <;> simp

/-- The walk that goes to any depth. -/
abbrev anyDepth (_ : Nat) : Bool := true

/-- Whether a walk that has come to an entry can go on along some names, each of them the name of
an entry that takes part in the walk, in a directory that may be listed. -/
def Passes (visits : Place → String → Bool → List Surrounding → Bool)
    (closed? : Place → Option FileError) : Place → List Surrounding → Entry → Place → Prop
  | _, _, _, [] => True
  | way, surroundings, entry, name :: names =>
    let around := extend name (⟨entry, []⟩ :: surroundings)
    closed? way = none ∧ ∃ child, entry.child? name = some child ∧
      visits (way ++ [name]) name child.isDirectory around ∧
        Passes visits closed? (way ++ [name]) around child names

/-- A walk cannot go on from an entry without others in it. -/
theorem eq_iff_of_isBare {entry : Entry} (bare : entry.IsBare) : met = ⟨way, entry⟩ ↔
    ∃ names, met.way = way ++ names ∧ Passes visits closed? way surroundings entry names ∧
      entry.at? names = some met.entry := by
  constructor
  · rintro rfl
    exact ⟨[], (List.append_nil way).symm, trivial, rfl⟩
  · rintro ⟨names, sameWay, _, leads⟩
    obtain ⟨metWay, metEntry⟩ := met
    cases names with
    | nil =>
      rw [List.append_nil] at sameWay
      rw [show metWay = way from sameWay, Option.some.inj leads]
    | cons name names =>
      rw [Entry.at?, bare name] at leads
      cases leads

/-- A walk that goes to any depth meets every entry to which it can pass, and no others. -/
theorem mem_walkEntry_iff {entry : Entry} (wellNamed : entry.WellNamed) :
    .ok met ∈ walkEntry visits anyDepth closed? way depth surroundings entry ↔
      ∃ names, met.way = way ++ names ∧ Passes visits closed? way surroundings entry names ∧
        entry.at? names = some met.entry := by
  induction entry using Entry.inductionOn generalizing way depth surroundings with
  | file content =>
    rw [walkEntry, List.mem_singleton, Except.ok.injEq]
    exact eq_iff_of_isBare (Entry.isBare_file content)
  | link target =>
    rw [walkEntry, List.mem_singleton, Except.ok.injEq]
    exact eq_iff_of_isBare fun _ => rfl
  | directory entries inductionHypothesis =>
    obtain ⟨once, allWellNamed⟩ := wellNamed
    rw [mem_walkEntry_directory_iff, mem_walkEntries_iff]
    constructor
    · rintro (rfl | ⟨_, isOpen, named, isNamed, visited, isMet⟩)
      · exact ⟨[], (List.append_nil way).symm, trivial, rfl⟩
      · obtain ⟨_, wellNamed⟩ := Entry.allWellNamed_iff.mp allWellNamed named isNamed
        obtain ⟨names, sameWay, passes, leads⟩ :=
          (inductionHypothesis named isNamed wellNamed).mp isMet
        have isChild := Entry.named?_of_mem once isNamed
        refine ⟨named.1 :: names, ?_, ⟨isOpen, named.2, isChild, visited, passes⟩, ?_⟩
        · rw [sameWay, List.append_assoc, List.singleton_append]
        · rw [Entry.at?, Entry.child?, isChild, Option.bind_some, leads]
    · rintro ⟨names, sameWay, passes, leads⟩
      cases names with
      | nil =>
        obtain ⟨metWay, metEntry⟩ := met
        rw [List.append_nil] at sameWay
        rw [show metWay = way from sameWay, Option.some.inj leads]
        exact .inl rfl
      | cons name names =>
        obtain ⟨isOpen, child, isChild, visited, passes⟩ := passes
        have isNamed : (name, child) ∈ entries := Entry.mem_of_named? isChild
        rw [Entry.at?, isChild, Option.bind_some] at leads
        refine .inr ⟨rfl, isOpen, (name, child), isNamed, visited, (inductionHypothesis _ isNamed
          (Entry.allWellNamed_iff.mp allWellNamed _ isNamed).2).mpr ⟨names, ?_, passes, leads⟩⟩
        rw [sameWay, List.append_assoc, List.singleton_append]

theorem isPrefix_of_mem_walkEntry {entry : Entry}
    (member : .ok met ∈ walkEntry visits reaches closed? way depth surroundings entry) :
    way <+: met.way := by
  induction entry using Entry.inductionOn generalizing way depth surroundings with
  | file content =>
    obtain rfl := Except.ok.inj (List.mem_singleton.mp member)
    exact List.prefix_rfl
  | link target =>
    obtain rfl := Except.ok.inj (List.mem_singleton.mp member)
    exact List.prefix_rfl
  | directory entries inductionHypothesis =>
    rcases mem_walkEntry_directory_iff.mp member with rfl | ⟨_, _, inside⟩
    · exact List.prefix_rfl
    · obtain ⟨named, isNamed, _, isMet⟩ := mem_walkEntries_iff.mp inside
      exact (List.prefix_append way _).trans (inductionHypothesis named isNamed isMet)

/-- What is met in some entries lies below the directory that they are in. -/
theorem exists_of_mem_walkEntries {entries : List (String × Entry)}
    (member : .ok met ∈ walkEntries visits reaches closed? way depth surroundings entries) :
    ∃ named ∈ entries, way ++ [named.1] <+: met.way := by
  obtain ⟨named, isNamed, _, isMet⟩ := mem_walkEntries_iff.mp member
  exact ⟨named, isNamed, isPrefix_of_mem_walkEntry isMet⟩

/-! ### Ways -/

/-- The ways to the entries that are met. -/
def ways (items : List (Except FileError Met)) : List Place :=
  (items.filterMap Except.toOption).map Met.way

theorem ways_append (front back : List (Except FileError Met)) :
    ways (front ++ back) = ways front ++ ways back := by
  rw [ways, List.filterMap_append, List.map_append]
  rfl

theorem mem_filterMap_toOption_iff {items : List (Except FileError Met)} :
    met ∈ items.filterMap Except.toOption ↔ .ok met ∈ items := by
  have isOk (item : Except FileError Met) : item.toOption = some met ↔ item = .ok met := by
    cases item <;> simp [Except.toOption]
  simp only [List.mem_filterMap, isOk, exists_eq_right]

theorem mem_ways_iff {items : List (Except FileError Met)} :
    way ∈ ways items ↔ ∃ met, .ok met ∈ items ∧ met.way = way := by
  simp only [ways, List.mem_map, mem_filterMap_toOption_iff]

theorem nodup_ways_walkEntries {entries : List (String × Entry)}
    (once : (entries.map Prod.fst).Nodup)
    (inside : ∀ named ∈ entries, ∀ way depth surroundings,
      (ways (walkEntry visits reaches closed? way depth surroundings named.2)).Nodup) :
    (ways (walkEntries visits reaches closed? way depth surroundings entries)).Nodup := by
  induction entries with
  | nil => exact .nil
  | cons named entries inductionHypothesis =>
    obtain ⟨name, entry⟩ := named
    obtain ⟨fresh, once⟩ := List.nodup_cons.mp once
    obtain ⟨insideFirst, inside⟩ := List.forall_mem_cons.mp inside
    rw [walkEntries, ways_append]
    refine List.nodup_append.mpr ⟨?_, inductionHypothesis once inside, ?_⟩
    · split
      · exact insideFirst _ _ _
      · exact .nil
    · rintro first isFirst second isSecond rfl
      obtain ⟨met, member, rfl⟩ := mem_ways_iff.mp isFirst
      obtain ⟨other, otherMember, same⟩ := mem_ways_iff.mp isSecond
      split at member
      · obtain ⟨named, isNamed, otherBelow⟩ := exists_of_mem_walkEntries otherMember
        rw [same] at otherBelow
        have sameName := Text.eq_of_concat_isPrefix otherBelow (isPrefix_of_mem_walkEntry member)
        exact fresh (List.mem_map.mpr ⟨named, isNamed, sameName⟩)
      · cases member

/-- No two entries are met on the same way. -/
theorem nodup_ways_walkEntry {entry : Entry} (wellNamed : entry.WellNamed) :
    (ways (walkEntry visits reaches closed? way depth surroundings entry)).Nodup := by
  induction entry using Entry.inductionOn generalizing way depth surroundings with
  | file content => exact List.pairwise_singleton _ way
  | link target => exact List.pairwise_singleton _ way
  | directory entries inductionHypothesis =>
    obtain ⟨once, allWellNamed⟩ := wellNamed
    rw [walkEntry]
    refine List.nodup_cons.mpr ⟨fun isTop => ?_, ?_⟩
    · obtain ⟨met, member, same⟩ := mem_ways_iff.mp isTop
      split at member
      · split at member
        · cases List.mem_singleton.mp member
        · obtain ⟨named, _, below⟩ := exists_of_mem_walkEntries member
          rw [same] at below
          exact absurd below.length_le (by simp)
      · cases member
    · split
      · split
        · exact .nil
        · refine nodup_ways_walkEntries once fun named isNamed way depth surroundings => ?_
          exact inductionHypothesis named isNamed
            (Entry.allWellNamed_iff.mp allWellNamed _ isNamed).2
      · exact .nil

/-! ### Depth -/

/-- Whether a walk that reaches some depth reaches all lesser ones. -/
def Descends (reaches : Nat → Bool) : Prop :=
  ∀ {depth deeper : Nat}, depth ≤ deeper → reaches deeper = true → reaches depth = true

/-- An entry that is met alone has been reached. -/
theorem mem_singleton_iff_reaches (reached : reaches way.length = true) (entry : Entry) :
    (.ok met : Except FileError Met) ∈ [.ok ⟨way, entry⟩] ↔
      .ok met ∈ [(.ok ⟨way, entry⟩ : Except FileError Met)] ∧ reaches met.way.length = true := by
  refine (and_iff_left_of_imp fun member => ?_).symm
  rwa [Except.ok.inj (List.mem_singleton.mp member)]

/-- A walk that goes only to some depth meets the entries of the whole walk that lie no deeper. -/
theorem mem_walkEntry_iff_reaches (descends : Descends reaches) {entry : Entry}
    (reached : reaches way.length = true) :
    .ok met ∈ walkEntry visits reaches closed? way way.length surroundings entry ↔
      .ok met ∈ walkEntry visits anyDepth closed? way way.length surroundings entry ∧
        reaches met.way.length = true := by
  induction entry using Entry.inductionOn generalizing way surroundings with
  | file content => exact mem_singleton_iff_reaches reached (.file content)
  | link target => exact mem_singleton_iff_reaches reached (.link target)
  | directory entries inductionHypothesis =>
    rw [mem_walkEntry_directory_iff, mem_walkEntry_directory_iff]
    have deeper (name : String) : (way ++ [name]).length = way.length + 1 := List.length_append
    constructor
    · rintro (rfl | ⟨enters, isOpen, inside⟩)
      · exact ⟨.inl rfl, reached⟩
      · obtain ⟨named, isNamed, visited, isMet⟩ := mem_walkEntries_iff.mp inside
        rw [← deeper named.1] at enters isMet
        obtain ⟨isMet, isReached⟩ := (inductionHypothesis named isNamed enters).mp isMet
        rw [deeper] at isMet
        exact ⟨.inr ⟨rfl, isOpen, mem_walkEntries_iff.mpr ⟨named, isNamed, visited, isMet⟩⟩,
          isReached⟩
    · rintro ⟨rfl | ⟨_, isOpen, inside⟩, isReached⟩
      · exact .inl rfl
      · obtain ⟨named, isNamed, visited, isMet⟩ := mem_walkEntries_iff.mp inside
        have enters : reaches (way ++ [named.1]).length = true :=
          descends (isPrefix_of_mem_walkEntry isMet).length_le isReached
        rw [← deeper named.1] at isMet
        have isMet := (inductionHypothesis named isNamed enters).mpr ⟨isMet, isReached⟩
        rw [deeper] at enters isMet
        exact .inr ⟨enters, isOpen, mem_walkEntries_iff.mpr ⟨named, isNamed, visited, isMet⟩⟩

theorem reachesDepth_iff {deepest : Option UInt64} :
    reachesDepth deepest depth = true ↔ Within deepest depth := by
  unfold reachesDepth
  cases deepest with
  | none => exact iff_of_true rfl (within_none depth)
  | some limit => rw [within_some_iff, decide_eq_true_iff]

theorem descends_reachesDepth (deepest : Option UInt64) : Descends (reachesDepth deepest) := by
  intro depth deeper less reached
  rw [reachesDepth_iff] at reached ⊢
  exact fun limit isLimit => Nat.le_trans less (reached limit isLimit)

/-! ### The built-in walker -/

section BuiltIn

variable {files : FileSystem} {root : String} {place : Place} {rules : WalkRules}
  {deepest : Option UInt64} {item : WalkItem}

/-- Whether the built-in walker comes to what stands at the end of some names below a root. -/
def builtInPasses (files : FileSystem) (root : String) (rules : WalkRules) (way : Place) : Prop :=
  ∃ place entry, files.locate root = .ok place ∧ files.at? place = some entry ∧
    Passes (isVisited rules) (fun way => files.refusal? .read (place ++ way)) []
      (surroundingsAbove files.root place) entry way

theorem items_builtIn (located : files.locate root = .ok place) :
    builtIn.items files root rules deepest =
      ((Walker.met files place rules deepest).filterMap Except.toOption).map fun met =>
        .ofEntry files root met.way met.entry := by
  unfold Walker.items builtIn
  dsimp only
  rw [located, List.filterMap_map, List.map_filterMap]
  refine List.filterMap_congr fun item _ => ?_
  cases item <;> rfl

theorem mem_items_builtIn_iff (located : files.locate root = .ok place) :
    item ∈ builtIn.items files root rules deepest ↔
      ∃ met, .ok met ∈ Walker.met files place rules deepest ∧
        item = .ofEntry files root met.way met.entry := by
  rw [items_builtIn located]
  simp only [List.mem_map, mem_filterMap_toOption_iff, eq_comm]

theorem items_builtIn_of_error {error : FileError} (notLocated : files.locate root = .error error) :
    builtIn.items files root rules deepest = [] := by
  unfold Walker.items builtIn
  dsimp only
  rw [notLocated]
  rfl

/-- With a greatest depth the entries are met that lie no deeper, and no others. -/
theorem mem_met_iff {found : Met} : .ok found ∈ Walker.met files place rules deepest ↔
    .ok found ∈ Walker.met files place rules none ∧ Within deepest found.way.length := by
  unfold Walker.met
  cases files.at? place with
  | none => simp
  | some entry =>
    have top : reachesDepth deepest ([] : Place).length = true :=
      reachesDepth_iff.mpr fun _ _ => Nat.zero_le _
    rw [← reachesDepth_iff]
    exact mem_walkEntry_iff_reaches (descends_reachesDepth deepest) top

/-- The built-in walker keeps to depths. -/
theorem builtIn_keepsDepth (files : FileSystem) (root : String) :
    builtIn.KeepsDepth files root where
  met rules limit item := by
    cases located : files.locate root with
    | error error => simp [items_builtIn_of_error located]
    | ok place =>
      rw [mem_items_builtIn_iff located, mem_items_builtIn_iff located]
      constructor
      · rintro ⟨met, member, rfl⟩
        obtain ⟨member, within⟩ := mem_met_iff.mp member
        exact ⟨⟨met, member, rfl⟩, within_some_iff.mp within⟩
      · rintro ⟨⟨met, member, rfl⟩, notDeeper⟩
        exact ⟨met, mem_met_iff.mpr ⟨member, within_some_iff.mpr notDeeper⟩, rfl⟩
  top isDirectory rules deepest item member isTop := by
    obtain ⟨place, entries, located, stands⟩ := FileSystem.exists_of_isDirectory isDirectory
    obtain ⟨met, isMet, rfl⟩ := (mem_items_builtIn_iff located).mp member
    rw [Walker.met, stands] at isMet
    rcases mem_walkEntry_directory_iff.mp isMet with rfl | ⟨_, _, inside⟩
    · rfl
    · obtain ⟨named, _, below⟩ := exists_of_mem_walkEntries inside
      rw [List.eq_nil_of_length_eq_zero isTop] at below
      cases List.prefix_nil.mp below

/-- Without a greatest depth everything is met that stands below a root and to which the walk can
pass. -/
theorem mem_met_iff_standsBelow (wellNamed : files.root.WellNamed)
    (located : files.locate root = .ok place) {found : Met} :
    .ok found ∈ Walker.met files place rules none ↔
      files.StandsBelow root found.way found.entry ∧
        builtInPasses files root rules found.way := by
  obtain ⟨_, _, there⟩ := FileSystem.locate_eq_ok_iff.mp located
  obtain ⟨top, stands, _⟩ := Option.map_eq_some_iff.mp there
  rw [Walker.met, stands]
  refine (mem_walkEntry_iff (wellNamed.at? stands)).trans ⟨?_, ?_⟩
  · rintro ⟨names, sameWay, passes, leads⟩
    rw [List.nil_append] at sameWay
    rw [sameWay]
    exact ⟨⟨place, located, (FileSystem.at?_append stands names).trans leads⟩,
      place, top, located, stands, passes⟩
  · rintro ⟨⟨other, otherLocated, leads⟩, otherPlace, otherTop, placeLocated, placeStands, passes⟩
    rw [located] at otherLocated placeLocated
    obtain rfl := Except.ok.inj otherLocated
    obtain rfl := Except.ok.inj placeLocated
    rw [stands] at placeStands
    obtain rfl := Option.some.inj placeStands
    exact ⟨found.way, rfl, passes, (FileSystem.at?_append stands _).symm.trans leads⟩

theorem nodup_ways_met (wellNamed : files.root.WellNamed) :
    (ways (Walker.met files place rules deepest)).Nodup := by
  unfold Walker.met
  cases stands : files.at? place with
  | none => exact .nil
  | some top => exact nodup_ways_walkEntry (wellNamed.at? stands)

/-- In a file system with proper names the built-in walker follows its rules. -/
theorem builtIn_follows (wellNamed : files.root.WellNamed) (root : String) :
    builtIn.Follows files root (builtInPasses files root) where
  met rules deepest item := by
    cases located : files.locate root with
    | error error =>
      rw [items_builtIn_of_error located]
      refine iff_of_false List.not_mem_nil ?_
      rintro ⟨_, _, ⟨_, otherLocated, _⟩, _⟩
      rw [located] at otherLocated
      cases otherLocated
    | ok place =>
      rw [mem_items_builtIn_iff located]
      constructor
      · rintro ⟨found, member, rfl⟩
        obtain ⟨member, within⟩ := mem_met_iff.mp member
        obtain ⟨stands, passes⟩ := (mem_met_iff_standsBelow wellNamed located).mp member
        exact ⟨found.way, found.entry, stands, passes, within, rfl⟩
      · rintro ⟨way, entry, stands, passes, within, rfl⟩
        have isMet := (@mem_met_iff_standsBelow _ _ _ rules wellNamed located ⟨way, entry⟩).mpr
          ⟨stands, passes⟩
        exact ⟨⟨way, entry⟩, mem_met_iff.mpr ⟨isMet, within⟩, rfl⟩
  once rules deepest := by
    cases located : files.locate root with
    | error error =>
      rw [items_builtIn_of_error located]
      exact .nil
    | ok place =>
      have once := @nodup_ways_met files place rules deepest wellNamed
      obtain ⟨named, _⟩ := FileSystem.target_eq_ok_iff.mp (FileSystem.locate_eq_ok_iff.mp located).1
      have names {found : Met}
          (member : found ∈ (Walker.met files place rules deepest).filterMap Except.toOption) :
          ∀ name ∈ found.way, IsName name := by
        have isMet := mem_met_iff.mp (mem_filterMap_toOption_iff.mp member)
        exact ((mem_met_iff_standsBelow wellNamed located).mp isMet.1).1.isName wellNamed
      rw [items_builtIn located]
      rw [ways, List.Nodup, List.pairwise_map] at once
      rw [List.Nodup, List.pairwise_map]
      refine once.imp_of_mem fun {first second} isFirst isSecond different same => different ?_
      exact WalkItem.eq_of_ofEntry_eq (by simpa using named) (names isFirst) (names isSecond) same

end BuiltIn

end CodeAtlas.Walker
