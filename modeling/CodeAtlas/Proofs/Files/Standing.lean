/-
This file says what stands at the places of a file system, and what a piece of a path needs of it.
A place holds nothing, a directory, a file with some content or a link. When a file or an empty
directory is put where nothing or a file stood, no other place changes. Where a piece of a path leads
depends on nothing but the directory that it is followed from and the links in it.
-/

import CodeAtlas.Proofs.Files.Naming

namespace CodeAtlas

open Text

/-- What can be seen at a place without looking at what is below it. -/
inductive Standing where
  | directory
  | file (content : ByteArray)
  | link (target : String)

/-! ### Entries -/

namespace Entry

/-- What can be seen of an entry. -/
def standing : Entry → Standing
  | directory _ => .directory
  | file content => .file content
  | link target => .link target

/-- What stands at a place below an entry. -/
def standing? (entry : Entry) (place : Place) : Option Standing :=
  (entry.at? place).map standing

/-- Whether nothing stands below an entry. -/
def IsBare (entry : Entry) : Prop :=
  ∀ name, entry.child? name = none

theorem isBare_file (content : ByteArray) : (file content).IsBare :=
  fun _ => rfl

theorem isBare_directory_nil : (directory []).IsBare :=
  fun _ => rfl

theorem standing?_cons (entry : Entry) (name : String) (place : Place) :
    entry.standing? (name :: place) =
      (entry.child? name).bind fun child => child.standing? place := by
  rw [standing?, at?, Option.map_bind]
  rfl

theorem IsBare.standing?_cons {entry : Entry} (bare : entry.IsBare) (name : String)
    (place : Place) : entry.standing? (name :: place) = none := by
  rw [Entry.standing?_cons, bare name, Option.bind_none]

theorem named?_putNamed (name other : String) (entry : Entry) (entries : List (String × Entry)) :
    named? other (putNamed name entry entries) =
      if name = other then some entry else named? other entries := by
  induction entries with
  | nil => simp [putNamed, named?]
  | cons head entries inductionHypothesis =>
    obtain ⟨held, old⟩ := head
    rw [putNamed]
    split
    · next same =>
      subst same
      rw [named?, named?]
      split <;> rfl
    · next different =>
      rw [named?, named?, inductionHypothesis]
      split
      · next same =>
        subst same
        rw [if_neg (Ne.symm different)]
      · rfl

theorem standing?_putNamed (name : String) (new : Entry) (entries : List (String × Entry))
    (first : String) (rest : Place) :
    (directory (putNamed name new entries)).standing? (first :: rest) =
      if name = first then new.standing? rest
      else (directory entries).standing? (first :: rest) := by
  rw [standing?_cons, standing?_cons, child?, child?, named?_putNamed]
  split
  · rw [Option.bind_some]
  · rfl

theorem put_singleton (new : Entry) (name : String) (entries : List (String × Entry)) :
    put new [name] (directory entries) = directory (putNamed name new entries) := by
  conv => lhs; unfold put
  cases named? name entries with
  | none => rfl
  | some old =>
    dsimp only
    rw [put]

theorem put_cons {name : String} {child : Entry} {entries : List (String × Entry)}
    (there : named? name entries = some child) (new : Entry) (place : Place) :
    put new (name :: place) (directory entries) =
      directory (putNamed name (put new place child) entries) := by
  conv => lhs; unfold put
  rw [there]

/-- Where something bare is put in a directory in the place of nothing or of something bare, no
other place changes. -/
theorem standing?_put {entry new : Entry} {above : Place} {name : String}
    {entries : List (String × Entry)} (leads : entry.at? above = some (.directory entries))
    (newBare : new.IsBare) (oldBare : ∀ old, named? name entries = some old → old.IsBare)
    (place : Place) : (put new (above ++ [name]) entry).standing? place =
      if place = above ++ [name] then some new.standing else entry.standing? place := by
  induction above generalizing entry place with
  | nil =>
    obtain rfl := Option.some.inj leads
    rw [List.nil_append, put_singleton]
    cases place with
    | nil => rfl
    | cons first rest =>
      rw [standing?_putNamed]
      by_cases same : name = first
      · subst same
        rw [if_pos rfl]
        cases rest with
        | nil =>
          rw [if_pos rfl]
          rfl
        | cons second rest =>
          rw [newBare.standing?_cons, if_neg (by simp), standing?_cons, child?]
          cases there : named? name entries with
          | none => rfl
          | some old => rw [Option.bind_some, (oldBare old there).standing?_cons]
      · rw [if_neg same, if_neg]
        simp [Ne.symm same]
  | cons way above inductionHypothesis =>
    rw [at?] at leads
    obtain ⟨child, isChild, leadsOn⟩ := Option.bind_eq_some_iff.mp leads
    cases entry with
    | file content => cases isChild
    | link target => cases isChild
    | directory around =>
      rw [List.cons_append, put_cons isChild]
      cases place with
      | nil => rfl
      | cons first rest =>
        rw [standing?_putNamed]
        by_cases same : way = first
        · subst same
          rw [if_pos rfl, standing?_cons, isChild, Option.bind_some, inductionHypothesis leadsOn]
          simp
        · rw [if_neg same, if_neg]
          simp [Ne.symm same]

end Entry

/-! ### Places -/

namespace FileSystem

/-- What stands at a place of a file system. -/
def standing? (files : FileSystem) (place : Place) : Option Standing :=
  (files.at? place).map Entry.standing

variable {files : FileSystem} {place : Place}

theorem at?_append {entry : Entry} (stands : files.at? place = some entry) (way : Place) :
    files.at? (place ++ way) = entry.at? way := by
  rw [FileSystem.at?] at stands ⊢
  rw [Entry.at?_append, stands, Option.bind_some]

theorem standing?_eq_directory_iff :
    files.standing? place = some .directory ↔
      ∃ entries, files.at? place = some (.directory entries) := by
  unfold standing?
  rw [Option.map_eq_some_iff]
  constructor
  · rintro ⟨entry, stands, same⟩
    cases entry with
    | directory entries => exact ⟨entries, stands⟩
    | file content => cases same
    | link target => cases same
  · rintro ⟨entries, stands⟩
    exact ⟨_, stands, rfl⟩

theorem standing?_eq_directory_iff_any :
    files.standing? place = some .directory ↔ (files.at? place).any Entry.isDirectory = true := by
  unfold standing?
  cases files.at? place with
  | none => simp
  | some entry => cases entry <;> simp [Entry.standing, Entry.isDirectory]

theorem standing?_eq_file_iff {content : ByteArray} :
    files.standing? place = some (.file content) ↔ files.at? place = some (.file content) := by
  unfold standing?
  rw [Option.map_eq_some_iff]
  constructor
  · rintro ⟨entry, stands, same⟩
    cases entry with
    | directory entries => cases same
    | file held => rwa [← Standing.file.inj same]
    | link target => cases same
  · intro stands
    exact ⟨_, stands, rfl⟩

/-- What stands in a directory under a name. -/
theorem standing?_concat {entries : List (String × Entry)}
    (stands : files.at? place = some (.directory entries)) (name : String) :
    files.standing? (place ++ [name]) = (Entry.named? name entries).map Entry.standing := by
  rw [standing?, at?_append stands, Entry.at?, Entry.child?]
  cases Entry.named? name entries <;> rfl

/-- Whether nothing but a file stands at a place, if anything does. -/
def IsFree (files : FileSystem) (place : Place) : Prop :=
  ∀ standing, files.standing? place = some standing → ∃ content, standing = .file content

/-- A file or an empty directory put in a directory in the place of nothing or of a file changes
no other place. -/
theorem standing?_put {new : Entry} {name : String}
    (isDirectory : files.standing? place = some .directory) (newBare : new.IsBare)
    (free : files.IsFree (place ++ [name])) (other : Place) :
    (files.put (place ++ [name]) new).standing? other =
      if other = place ++ [name] then some new.standing else files.standing? other := by
  obtain ⟨entries, stands⟩ := standing?_eq_directory_iff.mp isDirectory
  refine Entry.standing?_put stands newBare (fun old there => ?_) other
  obtain ⟨content, isFile⟩ := free old.standing (by rw [standing?_concat stands, there]; rfl)
  cases old with
  | directory entries => cases isFile
  | file content => exact Entry.isBare_file content
  | link target => cases isFile

/-- What nothing stands at, nothing stands below. -/
theorem standing?_append_of_none (nothing : files.standing? place = none) (way : Place) :
    files.standing? (place ++ way) = none := by
  rw [standing?, Option.map_eq_none_iff] at nothing ⊢
  rw [FileSystem.at?] at nothing ⊢
  rw [Entry.at?_append, nothing, Option.bind_none]

/-! ### Steps -/

/-- The path for which the link at a place stands, if there is one. -/
def linkAt? (files : FileSystem) (place : Place) : Option String :=
  match files.standing? place with
  | some (.link target) => some target
  | _ => none

theorem isDirectory_of_step {piece : Chars} {next : Step}
    (stepped : files.step place piece = .ok next) : files.standing? place = some .directory := by
  rw [step] at stepped
  split at stepped
  · next entries stands => exact standing?_eq_directory_iff.mpr ⟨entries, stands⟩
  · cases stepped
  · cases stepped
  · cases stepped

/-- Where a piece of a path leads from a directory depends on whether the directory may be searched
and on the link that stands in it under that name. -/
theorem step_of_isDirectory (isDirectory : files.standing? place = some .directory)
    (piece : Chars) : files.step place piece =
      if piece = [] then .ok (.to place)
      else match files.refusal? .search place with
        | some error => .error error
        | none =>
          if piece = ['.'] then .ok (.to place)
          else if piece = ['.', '.'] then .ok (.to place.dropLast)
          else match files.linkAt? (place ++ [String.ofList piece]) with
            | some target => .ok (.along (base place target) target)
            | none => .ok (.to (place ++ [String.ofList piece])) := by
  obtain ⟨entries, stands⟩ := standing?_eq_directory_iff.mp isDirectory
  have stepped : files.step place piece = files.stepFrom place entries piece := by
    rw [step, stands]
  rw [stepped, stepFrom, linkAt?, standing?_concat stands]
  dsimp only
  cases Entry.named? (String.ofList piece) entries with
  | none => rfl
  | some entry => cases entry <;> rfl

/-- Whether a piece of a path is a name, and not one of the pieces with a meaning of their own. -/
def IsNamePiece (piece : Chars) : Prop :=
  piece ≠ [] ∧ piece ≠ ['.'] ∧ piece ≠ ['.', '.']

/-- A name leads to what stands under it, if that is no link. -/
theorem step_of_isNamePiece {piece : Chars} (isDirectory : files.standing? place = some .directory)
    (searchable : files.refusal? .search place = none) (isName : IsNamePiece piece)
    (noLink : files.linkAt? (place ++ [String.ofList piece]) = none) :
    files.step place piece = .ok (.to (place ++ [String.ofList piece])) := by
  obtain ⟨notEmpty, notHere, notUp⟩ := isName
  rw [step_of_isDirectory isDirectory, if_neg notEmpty, searchable]
  dsimp only
  rw [if_neg notHere, if_neg notUp, noLink]

/-- The ways in which a piece of a path leads on from a directory: it stays there, goes up, follows
the link that has that name, or goes down to what has that name and is no link. -/
theorem step_cases {piece : Chars} {taken : Step} (stepped : files.step place piece = .ok taken) :
    (piece = [] ∨ piece = ['.']) ∧ taken = .to place ∨
      piece = ['.', '.'] ∧ taken = .to place.dropLast ∨
      IsNamePiece piece ∧
        ((∃ target, files.linkAt? (place ++ [String.ofList piece]) = some target ∧
            taken = .along (base place target) target) ∨
          files.linkAt? (place ++ [String.ofList piece]) = none ∧
            taken = .to (place ++ [String.ofList piece])) := by
  rw [step_of_isDirectory (isDirectory_of_step stepped)] at stepped
  by_cases empty : piece = []
  · rw [if_pos empty] at stepped
    exact .inl ⟨.inl empty, (Except.ok.inj stepped).symm⟩
  rw [if_neg empty] at stepped
  cases searched : files.refusal? .search place with
  | some error =>
    rw [searched] at stepped
    cases stepped
  | none =>
    rw [searched] at stepped
    dsimp only at stepped
    by_cases here : piece = ['.']
    · rw [if_pos here] at stepped
      exact .inl ⟨.inr here, (Except.ok.inj stepped).symm⟩
    by_cases up : piece = ['.', '.']
    · rw [if_neg here, if_pos up] at stepped
      exact .inr (.inl ⟨up, (Except.ok.inj stepped).symm⟩)
    rw [if_neg here, if_neg up] at stepped
    refine .inr (.inr ⟨⟨empty, here, up⟩, ?_⟩)
    cases held : files.linkAt? (place ++ [String.ofList piece]) with
    | some target =>
      rw [held] at stepped
      exact .inl ⟨target, rfl, (Except.ok.inj stepped).symm⟩
    | none =>
      rw [held] at stepped
      exact .inr ⟨rfl, (Except.ok.inj stepped).symm⟩

/-- A step to a place follows no link. -/
theorem step_to_cases {piece : Chars} {next : Place}
    (stepped : files.step place piece = .ok (.to next)) :
    (piece = [] ∨ piece = ['.']) ∧ next = place ∨ piece = ['.', '.'] ∧ next = place.dropLast ∨
      IsNamePiece piece ∧ next = place ++ [String.ofList piece] ∧
        files.linkAt? next = none := by
  rcases step_cases stepped with ⟨stays, same⟩ | ⟨up, same⟩ | ⟨isName, ⟨_, _, same⟩ | ⟨noLink, same⟩⟩
  · exact .inl ⟨stays, Step.to.inj same⟩
  · exact .inr (.inl ⟨up, Step.to.inj same⟩)
  · cases same
  · obtain rfl := Step.to.inj same
    exact .inr (.inr ⟨isName, rfl, noLink⟩)

/-- A step that follows a link comes from a name under which the link stands. -/
theorem of_step_along {piece : Chars} {start : Place} {target : String}
    (stepped : files.step place piece = .ok (.along start target)) :
    IsNamePiece piece ∧ files.linkAt? (place ++ [String.ofList piece]) = some target := by
  rcases step_cases stepped with ⟨_, same⟩ | ⟨_, same⟩ | ⟨isName, ⟨_, isLink, same⟩ | ⟨_, same⟩⟩
  · cases same
  · cases same
  · obtain ⟨_, rfl⟩ := Step.along.inj same
    exact ⟨isName, isLink⟩
  · cases same

end FileSystem

end CodeAtlas
