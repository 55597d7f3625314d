/-
This file says where paths lead. A walk along the pieces of a path takes one step after another; a
link that it meets is followed if links are left to it, its own pieces before those that remain. A
walk along some pieces and then along others is a walk along all of them, and from a place below
which no links stand a path that never goes up leads along its names.
-/

import CodeAtlas.Proofs.Files.Standing

namespace CodeAtlas.FileSystem

open Text

variable {files : FileSystem} {links left : Nat} {place last : Place} {pieces : List Chars}

/-! ### Walks -/

/-- A walk along some pieces from one place to another, with the number of links that it may follow
and the number of those that are left at its end. -/
inductive Walks (files : FileSystem) : Nat → Place → List Chars → Nat → Place → Prop
  | done {links : Nat} {place : Place} : Walks files links place [] links place
  | step {links left : Nat} {place next last : Place} {piece : Chars} {pieces : List Chars}
      (stepped : files.step place piece = .ok (.to next))
      (onward : Walks files links next pieces left last) :
      Walks files links place (piece :: pieces) left last
  | follow {links left : Nat} {place start last : Place} {target : String} {piece : Chars}
      {pieces : List Chars} (stepped : files.step place piece = .ok (.along start target))
      (onward : Walks files links start (Path.pieces target ++ pieces) left last) :
      Walks files (links + 1) place (piece :: pieces) left last

theorem walkWithin_nil (files : FileSystem) (links : Nat) (place : Place) :
    files.walkWithin links place [] = .ok place := by
  cases links <;> rfl

theorem walkWithin_cons (files : FileSystem) (links : Nat) (place : Place) (piece : Chars)
    (pieces : List Chars) : files.walkWithin links place (piece :: pieces) =
      match files.step place piece, links with
      | .ok (.to next), _ => files.walkWithin links next pieces
      | .ok (.along _ _), 0 => .error .tooManyLinks
      | .ok (.along start target), less + 1 =>
        files.walkWithin less start (Path.pieces target ++ pieces)
      | .error error, _ => .error error := by
  cases links <;> rw [walkWithin, walkBy] <;>
    rcases files.step place piece with error | (next | ⟨start, target⟩) <;> rfl

theorem exists_walks_of_walkWithin (walked : files.walkWithin links place pieces = .ok last) :
    ∃ left, Walks files links place pieces left last := by
  -- Each link that is followed lessens the number of links, and each step the number of pieces.
  induction links using Nat.strongRecOn generalizing place pieces with
  | ind links withLess =>
    induction pieces generalizing place with
    | nil =>
      rw [walkWithin_nil] at walked
      cases walked
      exact ⟨links, .done⟩
    | cons piece pieces inductionHypothesis =>
      rw [walkWithin_cons] at walked
      cases stepped : files.step place piece with
      | error error =>
        rw [stepped] at walked
        cases walked
      | ok taken =>
        rw [stepped] at walked
        rcases taken with next | ⟨start, target⟩
        · obtain ⟨left, onward⟩ := inductionHypothesis walked
          exact ⟨left, .step stepped onward⟩
        · cases links with
          | zero => cases walked
          | succ less =>
            obtain ⟨left, onward⟩ := withLess less (Nat.lt_succ_self less) walked
            exact ⟨left, .follow stepped onward⟩

theorem Walks.walkWithin_eq_ok (walks : Walks files links place pieces left last) :
    files.walkWithin links place pieces = .ok last := by
  induction walks with
  | done => exact walkWithin_nil files _ _
  | step stepped _ inductionHypothesis =>
    rw [walkWithin_cons, stepped]
    exact inductionHypothesis
  | follow stepped _ inductionHypothesis =>
    rw [walkWithin_cons, stepped]
    exact inductionHypothesis

/-- A walk ends at one place only, with as many links left. -/
theorem Walks.unique {leftToo : Nat} {lastToo : Place}
    (walks : Walks files links place pieces left last)
    (walksToo : Walks files links place pieces leftToo lastToo) :
    left = leftToo ∧ last = lastToo := by
  induction walks with
  | done =>
    cases walksToo
    exact ⟨rfl, rfl⟩
  | step stepped _ inductionHypothesis =>
    cases walksToo with
    | step steppedToo onwardToo =>
      cases stepped.symm.trans steppedToo
      exact inductionHypothesis onwardToo
    | follow steppedToo => cases stepped.symm.trans steppedToo
  | follow stepped _ inductionHypothesis =>
    cases walksToo with
    | step steppedToo => cases stepped.symm.trans steppedToo
    | follow steppedToo onwardToo =>
      cases stepped.symm.trans steppedToo
      exact inductionHypothesis onwardToo

theorem Walks.append {middle : Place} {between : Nat} {more : List Chars}
    (walks : Walks files links place pieces between middle)
    (walksOn : Walks files between middle more left last) :
    Walks files links place (pieces ++ more) left last := by
  induction walks with
  | done => exact walksOn
  | step stepped _ inductionHypothesis => exact .step stepped (inductionHypothesis walksOn)
  | follow stepped _ inductionHypothesis =>
    have onward := inductionHypothesis walksOn
    rw [List.append_assoc] at onward
    exact .follow stepped onward

theorem Walks.exists_of_append {front back : List Chars}
    (walks : Walks files links place (front ++ back) left last) :
    ∃ between middle, Walks files links place front between middle ∧
      Walks files between middle back left last := by
  generalize whole : front ++ back = pieces at walks
  induction walks generalizing front with
  | done =>
    obtain ⟨rfl, rfl⟩ := List.append_eq_nil_iff.mp whole
    exact ⟨_, _, .done, .done⟩
  | step stepped onward inductionHypothesis =>
    cases front with
    | nil =>
      obtain rfl := whole
      exact ⟨_, _, .done, .step stepped onward⟩
    | cons piece front =>
      obtain ⟨rfl, rest⟩ := List.cons.inj whole
      obtain ⟨between, middle, first, second⟩ := inductionHypothesis rest
      exact ⟨between, middle, .step stepped first, second⟩
  | @follow links left place start last target piece pieces stepped onward inductionHypothesis =>
    cases front with
    | nil =>
      obtain rfl := whole
      exact ⟨_, _, .done, .follow stepped onward⟩
    | cons piece front =>
      obtain ⟨rfl, rest⟩ := List.cons.inj whole
      have longer : (Path.pieces target ++ front) ++ back = Path.pieces target ++ pieces := by
        rw [List.append_assoc]
        exact congrArg _ rest
      obtain ⟨between, middle, first, second⟩ := inductionHypothesis longer
      exact ⟨between, middle, .follow stepped first, second⟩

/-! ### Where walks end -/

/-- Empty pieces lead from a directory to itself. -/
theorem walks_replicate_nil (isDirectory : files.standing? place = some .directory)
    (links count : Nat) : Walks files links place (List.replicate count []) links place := by
  induction count with
  | zero => exact .done
  | succ count inductionHypothesis =>
    refine .step ?_ inductionHypothesis
    rw [step_of_isDirectory isDirectory, if_pos rfl]

theorem Walks.eq_of_nothing (walks : Walks files links place [[]] left last) :
    links = left ∧ place = last := by
  cases walks with
  | step stepped onward =>
    cases onward
    refine ⟨rfl, ?_⟩
    rcases step_to_cases stepped with ⟨_, same⟩ | ⟨isUp, _⟩ | ⟨isName, _⟩
    · exact same.symm
    · cases isUp
    · exact absurd rfl isName.1
  | follow stepped => exact absurd rfl (of_step_along stepped).1.1

/-- A slash at the end of a path leads nowhere else. -/
theorem Walks.front {front : List Chars} (walks : Walks files links place pieces left last)
    (frontOf : pieces = front ∨ pieces = front ++ [[]]) :
    Walks files links place front left last := by
  rcases frontOf with rfl | rfl
  · exact walks
  · obtain ⟨between, middle, toMiddle, stays⟩ := walks.exists_of_append
    obtain ⟨rfl, rfl⟩ := stays.eq_of_nothing
    exact toMiddle

theorem isDirectory_dropLast (isDirectory : files.standing? place = some .directory) :
    files.standing? place.dropLast = some .directory := by
  cases place using List.reverseRecOn with
  | nil => exact isDirectory
  | append_singleton above name =>
    rw [List.dropLast_concat]
    rw [standing?, Option.map_eq_some_iff] at isDirectory
    obtain ⟨entry, stands, _⟩ := isDirectory
    rw [FileSystem.at?, Entry.at?_append] at stands
    obtain ⟨around, there, below⟩ := Option.bind_eq_some_iff.mp stands
    rw [Entry.at?] at below
    obtain ⟨_, isChild, _⟩ := Option.bind_eq_some_iff.mp below
    cases around with
    | file content => cases isChild
    | link target => cases isChild
    | directory entries => exact standing?_eq_directory_iff.mpr ⟨entries, there⟩

/-- A walk ends at a directory, or under a name in one that is there, which is no link. -/
theorem Walks.last_cases (walks : Walks files links place pieces left last)
    (begun : pieces ≠ []) : files.standing? last = some .directory ∨
      ∃ above name, last = above ++ [name] ∧ files.standing? above = some .directory ∧
        files.linkAt? last = none := by
  induction walks with
  | done => exact absurd rfl begun
  | @step links left place next last piece pieces stepped onward inductionHypothesis =>
    by_cases ends : pieces = []
    · subst ends
      cases onward
      have isDirectory := isDirectory_of_step stepped
      rcases step_to_cases stepped with ⟨_, rfl⟩ | ⟨_, rfl⟩ | ⟨_, rfl, noLink⟩
      · exact .inl isDirectory
      · exact .inl (isDirectory_dropLast isDirectory)
      · exact .inr ⟨_, _, rfl, isDirectory, noLink⟩
    · exact inductionHypothesis ends
  | follow _ _ inductionHypothesis =>
    exact inductionHypothesis (List.append_ne_nil_of_left_ne_nil (splitWhere_ne_nil _ _) _)

/-! ### Names on the way -/

/-- The names among the pieces of a path. -/
def namesOf (pieces : List Chars) : Place :=
  (pieces.filter fun piece => piece ≠ [] ∧ piece ≠ ['.']).map String.ofList

/-- Where no links stand, a path that never goes up leads along its names. -/
theorem Walks.eq_append_namesOf (walks : Walks files links place pieces left last)
    (noLinks : ∀ way, files.linkAt? (place ++ way) = none) (noUp : ['.', '.'] ∉ pieces) :
    last = place ++ namesOf pieces := by
  induction walks with
  | done => simp [namesOf]
  | @step links left place next last piece pieces stepped onward inductionHypothesis =>
    obtain ⟨notUp, noUp⟩ := not_or.mp (mt List.mem_cons.mpr noUp)
    rcases step_to_cases stepped with ⟨nothing, rfl⟩ | ⟨isUp, _⟩ | ⟨isName, rfl, _⟩
    · rw [inductionHypothesis noLinks noUp]
      rcases nothing with rfl | rfl <;> simp [namesOf]
    · exact absurd isUp.symm notUp
    · rw [inductionHypothesis (fun way => ?_) noUp]
      · simp [namesOf, isName.1, isName.2.1]
      · rw [List.append_assoc]
        exact noLinks _
  | follow stepped =>
    have isLink := (of_step_along stepped).2
    rw [noLinks] at isLink
    cases isLink

/-- Whether every directory above a place may be searched. -/
def IsPassable (files : FileSystem) (place : Place) : Prop :=
  ∀ above, above <+: place → above ≠ place → files.refusal? .search above = none

theorem IsPassable.searchable {name : String} {way : Place}
    (isOpen : IsPassable files (place ++ name :: way)) : files.refusal? .search place = none :=
  isOpen place (List.prefix_append place _) fun same => by
    simpa using congrArg List.length same

theorem isNamePiece_of_isName {name : String} (isName : IsName name) : IsNamePiece name.toList :=
  ⟨isName.1, isName.2.1, isName.2.2.1⟩

/-- Names are followed one after another to what is no link. -/
theorem walks_names {way : Place} {entry target : Entry} (stands : files.at? place = some entry)
    (names : ∀ name ∈ way, IsName name) (leads : entry.at? way = some target)
    (noLink : ∀ path, target ≠ .link path) (isOpen : IsPassable files (place ++ way)) (links : Nat) :
    Walks files links place (way.map String.toList) links (place ++ way) := by
  induction way generalizing place entry with
  | nil =>
    rw [List.append_nil]
    exact .done
  | cons name way inductionHypothesis =>
    obtain ⟨isName, names⟩ := List.forall_mem_cons.mp names
    rw [Entry.at?] at leads
    obtain ⟨child, isChild, leadsOn⟩ := Option.bind_eq_some_iff.mp leads
    have isDirectory : files.standing? place = some .directory := by
      cases entry with
      | file content => cases isChild
      | link path => cases isChild
      | directory entries => exact standing?_eq_directory_iff.mpr ⟨entries, stands⟩
    have standsBelow : files.at? (place ++ [name]) = some child := by
      rw [at?_append stands, Entry.at?, isChild]
      rfl
    -- What is passed on the way is a directory, and what it leads to is no link.
    have passes : files.linkAt? (place ++ [String.ofList name.toList]) = none := by
      rw [String.ofList_toList, linkAt?, standing?, standsBelow]
      cases child with
      | file content => rfl
      | directory entries => rfl
      | link path =>
        cases way with
        | nil => exact absurd (Option.some.inj leadsOn).symm (noLink path)
        | cons next way => cases leadsOn
    have stepped := step_of_isNamePiece isDirectory isOpen.searchable
      (isNamePiece_of_isName isName) passes
    rw [String.ofList_toList] at stepped
    have whole : place ++ name :: way = place ++ [name] ++ way := by
      rw [List.append_assoc, List.singleton_append]
    rw [whole] at isOpen ⊢
    exact .step stepped (inductionHypothesis standsBelow names leadsOn isOpen)

/-! ### Paths -/

theorem target_eq_ok_iff {path : String} : files.target path = .ok place ↔
    path ≠ "" ∧ ∃ left, Walks files maxLinks (files.origin path) (Path.pieces path) left place := by
  rw [target]
  split
  · next empty => simp [String.isEmpty_iff.mp empty]
  · next notEmpty =>
    have named : path ≠ "" := by
      rintro rfl
      exact notEmpty rfl
    rw [and_iff_right named]
    exact ⟨exists_walks_of_walkWithin, fun ⟨_, walks⟩ => walks.walkWithin_eq_ok⟩

theorem locate_eq_ok_iff {path : String} : files.locate path = .ok place ↔
    files.target path = .ok place ∧ ∃ standing, files.standing? place = some standing := by
  rw [locate, standing?]
  cases files.target path with
  | error error => simp
  | ok found =>
    dsimp only
    rw [Except.ok.injEq]
    constructor
    · intro located
      split at located
      · next there =>
        obtain ⟨entry, stands⟩ := Option.isSome_iff_exists.mp there
        cases located
        exact ⟨rfl, _, by rw [stands]; rfl⟩
      · cases located
    · rintro ⟨rfl, standing, stands⟩
      obtain ⟨entry, there, _⟩ := Option.map_eq_some_iff.mp stands
      rw [if_pos (by rw [there]; rfl)]

/-- The path of something below a directory leads there. -/
theorem locate_join {root : String} {way : Place} (located : files.locate root = .ok place)
    {entry target : Entry} (stands : files.at? place = some entry) (begun : way ≠ [])
    (names : ∀ name ∈ way, IsName name) (leads : entry.at? way = some target)
    (noLink : ∀ path, target ≠ .link path) (isOpen : IsPassable files (place ++ way)) :
    files.locate (Path.join root ("/".intercalate way)) = .ok (place ++ way) := by
  obtain ⟨leadsTo, _⟩ := locate_eq_ok_iff.mp located
  obtain ⟨named, left, walks⟩ := target_eq_ok_iff.mp leadsTo
  have notEmpty : root.isEmpty = false := by simpa using named
  obtain ⟨isRelative, wayPieces⟩ := Path.pieces_intercalate begun names
  obtain ⟨absolute, front, whole, frontOf⟩ := Path.pieces_join notEmpty isRelative
  have sameOrigin : files.origin (Path.join root ("/".intercalate way)) = files.origin root := by
    rw [origin, origin, base, base, absolute]
  have leadsThere : files.target (Path.join root ("/".intercalate way)) = .ok (place ++ way) := by
    refine target_eq_ok_iff.mpr ⟨fun empty => ?_, left, ?_⟩
    · have joined := Path.isEmpty_join notEmpty isRelative
      rw [empty] at joined
      cases joined
    · rw [sameOrigin, whole, wayPieces]
      exact (walks.front frontOf).append (walks_names stands names leads noLink isOpen left)
  refine locate_eq_ok_iff.mpr ⟨leadsThere, target.standing, ?_⟩
  rw [standing?, at?_append stands, leads]
  rfl

end CodeAtlas.FileSystem
