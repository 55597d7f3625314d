/-
This file says how what stands below a directory is named. A name in a directory is neither empty
nor made of dots alone as the name of a directory above, and no slash stands in it. So the path of a
directory and the names on the way from it, with slashes between them, are taken apart into the same
names again.
-/

import CodeAtlas.Files.Tree
import CodeAtlas.Proofs.Text.Division
import Mathlib.Data.List.Induction

namespace CodeAtlas

open Text

/-! ### Names -/

/-- Whether a text can be the name of something in a directory. -/
def IsName (name : String) : Prop :=
  name.toList ≠ [] ∧ name.toList ≠ ['.'] ∧ name.toList ≠ ['.', '.'] ∧ '/' ∉ name.toList

namespace Entry

/-- What holds of an entry if it holds of every entry in it holds of all. -/
@[elab_as_elim]
theorem inductionOn {motive : Entry → Prop} (file : ∀ content, motive (.file content))
    (directory : ∀ entries : List (String × Entry),
      (∀ named ∈ entries, motive named.2) → motive (.directory entries))
    (link : ∀ target, motive (.link target)) (entry : Entry) : motive entry := by
  refine @Entry.rec motive (fun entries => ∀ named ∈ entries, motive named.2)
    (fun named => motive named.2) file directory link ?_ ?_ ?_ entry
  · intro named member
    cases member
  · intro head tail holdsHead holdsTail
    exact List.forall_mem_cons.mpr ⟨holdsHead, holdsTail⟩
  · intro name entry holds
    exact holds

mutual

/-- Whether everything in an entry has a name, and within each directory a name of its own, as in
a file system that is kept on a disk. -/
def WellNamed : Entry → Prop
  | file _ | link _ => True
  | directory entries => (entries.map Prod.fst).Nodup ∧ AllWellNamed entries

/-- Whether some entries have names, and so has everything in them. -/
def AllWellNamed : List (String × Entry) → Prop
  | [] => True
  | (name, entry) :: entries => IsName name ∧ WellNamed entry ∧ AllWellNamed entries

end

theorem allWellNamed_iff {entries : List (String × Entry)} :
    AllWellNamed entries ↔ ∀ named ∈ entries, IsName named.1 ∧ WellNamed named.2 := by
  induction entries with
  | nil => simp [AllWellNamed]
  | cons named entries inductionHypothesis =>
    obtain ⟨name, entry⟩ := named
    rw [AllWellNamed, List.forall_mem_cons, inductionHypothesis, and_assoc]

theorem named?_of_mem {entries : List (String × Entry)} (once : (entries.map Prod.fst).Nodup)
    {named : String × Entry} (member : named ∈ entries) :
    named? named.1 entries = some named.2 := by
  induction entries with
  | nil => cases member
  | cons head entries inductionHypothesis =>
    obtain ⟨held, entry⟩ := head
    obtain ⟨fresh, once⟩ := List.nodup_cons.mp once
    rw [named?]
    rcases List.mem_cons.mp member with rfl | member
    · rw [if_pos rfl]
    · have other : held ≠ named.1 := fun same =>
        fresh (List.mem_map.mpr ⟨named, member, same.symm⟩)
      rw [if_neg other]
      exact inductionHypothesis once member

theorem mem_of_named? {entries : List (String × Entry)} {name : String} {entry : Entry}
    (found : named? name entries = some entry) : (name, entry) ∈ entries := by
  induction entries with
  | nil => cases found
  | cons head entries inductionHypothesis =>
    obtain ⟨held, first⟩ := head
    rw [named?] at found
    split at found
    · next same =>
      rw [same, Option.some.inj found]
      exact List.mem_cons_self
    · exact List.mem_cons_of_mem _ (inductionHypothesis found)

theorem at?_append (entry : Entry) (front back : Place) :
    entry.at? (front ++ back) = (entry.at? front).bind fun inside => inside.at? back := by
  induction front generalizing entry with
  | nil => rw [List.nil_append, at?, Option.bind_some]
  | cons name front inductionHypothesis =>
    rw [List.cons_append, at?, at?, Option.bind_assoc]
    exact congrArg _ (funext inductionHypothesis)

theorem WellNamed.child {entry child : Entry} (wellNamed : entry.WellNamed) {name : String}
    (isChild : entry.child? name = some child) : IsName name ∧ child.WellNamed := by
  cases entry with
  | file content => cases isChild
  | link target => cases isChild
  | directory entries => exact allWellNamed_iff.mp wellNamed.2 _ (mem_of_named? isChild)

/-- What stands in a well-named entry is well-named. -/
theorem WellNamed.at? {entry inside : Entry} (wellNamed : entry.WellNamed) {place : Place}
    (stands : entry.at? place = some inside) : inside.WellNamed := by
  induction place generalizing entry with
  | nil => exact Option.some.inj stands ▸ wellNamed
  | cons name place inductionHypothesis =>
    rw [Entry.at?] at stands
    obtain ⟨child, isChild, standsBelow⟩ := Option.bind_eq_some_iff.mp stands
    exact inductionHypothesis (wellNamed.child isChild).2 standsBelow

/-- The names on the way through a well-named entry can be names. -/
theorem WellNamed.isName_of_at? {entry inside : Entry} (wellNamed : entry.WellNamed)
    {place : Place} (stands : entry.at? place = some inside) : ∀ name ∈ place, IsName name := by
  induction place generalizing entry with
  | nil => simp
  | cons name place inductionHypothesis =>
    rw [Entry.at?] at stands
    obtain ⟨child, isChild, standsBelow⟩ := Option.bind_eq_some_iff.mp stands
    obtain ⟨isName, childWellNamed⟩ := wellNamed.child isChild
    exact List.forall_mem_cons.mpr ⟨isName, inductionHypothesis childWellNamed standsBelow⟩

end Entry

/-! ### Paths below a directory -/

namespace Path

/-- The pieces of a path are those of its text behind the slash at its beginning. -/
theorem pieces_of_cons {path : String} {first : Char} {rest : Chars}
    (begins : path.toList = first :: rest) :
    isAbsolute path = decide (first = '/') ∧
      pieces path = splitWhere (· = '/') (if first = '/' then rest else first :: rest) := by
  have absolute : isAbsolute path = decide (first = '/') := by simp [isAbsolute, begins]
  rw [pieces, absolute, begins, List.tail_cons]
  exact ⟨rfl, by simp only [decide_eq_true_eq]⟩

theorem splitWhere_slash (front back : Chars) : splitWhere (· = '/') (front ++ '/' :: back) =
    splitWhere (· = '/') front ++ splitWhere (· = '/') back :=
  @splitWhere_append_cons (· = '/') '/' rfl front back

/-- How a relative path is joined to a path that ends with a slash and to one that does not. -/
theorem toList_join {root relative : String} (named : root.isEmpty = false)
    (isRelative : isAbsolute relative = false) : (join root relative).toList =
      if root.toList.getLast? = some '/' then root.toList ++ relative.toList
      else root.toList ++ '/' :: relative.toList := by
  rw [join, isRelative, if_neg Bool.false_ne_true, named, Bool.false_or]
  simp only [decide_eq_true_eq]
  split <;> simp

/-- The pieces of a path below a directory are those of the directory and those of the way from
it. A slash at the end of the directory's path makes no piece then. -/
theorem pieces_join {root relative : String} (named : root.isEmpty = false)
    (isRelative : isAbsolute relative = false) :
    isAbsolute (join root relative) = isAbsolute root ∧
      ∃ front, pieces (join root relative) = front ++ pieces relative ∧
        (pieces root = front ∨ pieces root = front ++ [[]]) := by
  have relativePieces : pieces relative = splitWhere (· = '/') relative.toList := by
    rw [pieces, isRelative, if_neg Bool.false_ne_true]
  have joined := toList_join named isRelative
  obtain ⟨first, body, whole⟩ := List.exists_cons_of_ne_nil
    (show root.toList ≠ [] by simpa using named)
  rw [relativePieces, (pieces_of_cons whole).1, (pieces_of_cons whole).2]
  split at joined
  · next ends =>
    rw [whole, List.cons_append] at joined
    rw [(pieces_of_cons joined).1, (pieces_of_cons joined).2]
    refine ⟨rfl, ?_⟩
    cases body using List.reverseRecOn with
    | nil =>
      have slash : first = '/' := by simpa [whole] using ends
      rw [if_pos slash, if_pos slash]
      exact ⟨[], rfl, .inr rfl⟩
    | append_singleton body last =>
      obtain rfl : last = '/' := by
        rw [whole, ← List.cons_append, List.getLast?_concat] at ends
        exact Option.some.inj ends
      refine ⟨splitWhere (· = '/') (if first = '/' then body else first :: body), ?_, .inr ?_⟩
      · rw [← splitWhere_slash, List.append_assoc, List.singleton_append]
        split <;> rfl
      · rw [show [[]] = splitWhere (· = '/') [] from rfl, ← splitWhere_slash]
        split <;> rfl
  · rw [whole, List.cons_append] at joined
    rw [(pieces_of_cons joined).1, (pieces_of_cons joined).2]
    refine ⟨rfl, _, ?_, .inl rfl⟩
    rw [← splitWhere_slash]
    split <;> rfl

theorem isEmpty_join {root relative : String} (named : root.isEmpty = false)
    (isRelative : isAbsolute relative = false) : (join root relative).isEmpty = false := by
  have joined := toList_join named isRelative
  have notEmpty : root.toList ≠ [] := by simpa using named
  have joinedNotEmpty : (join root relative).toList ≠ [] := by
    rw [joined]
    split <;> simp [notEmpty]
  simpa using joinedNotEmpty

/-- Names with slashes between them begin with no slash, and their pieces are the names. -/
theorem pieces_intercalate {way : Place} (begun : way ≠ []) (names : ∀ name ∈ way, IsName name) :
    isAbsolute ("/".intercalate way) = false ∧
      pieces ("/".intercalate way) = way.map String.toList := by
  have notAbsolute : isAbsolute ("/".intercalate way) = false := by
    obtain ⟨name, rest, rfl⟩ := List.exists_cons_of_ne_nil begun
    obtain ⟨notEmpty, _, _, noSlash⟩ := names name List.mem_cons_self
    obtain ⟨first, more, whole⟩ := List.exists_cons_of_ne_nil notEmpty
    have notSlash : first ≠ '/' := by
      rintro rfl
      exact noSlash (whole ▸ List.mem_cons_self)
    refine decide_eq_false fun isSlash => notSlash ?_
    cases rest <;> simpa [String.toList_intercalate, whole] using isSlash
  refine ⟨notAbsolute, ?_⟩
  rw [pieces, notAbsolute, if_neg Bool.false_ne_true, String.toList_intercalate]
  refine @splitWhere_intercalate (· = '/') '/' rfl _ (by simpa using begun) ?_
  intro piece member character inPiece
  obtain ⟨name, isName, rfl⟩ := List.mem_map.mp member
  exact decide_eq_false (ne_of_mem_of_not_mem inPiece (names name isName).2.2.2)

end Path

end CodeAtlas
