/-
This file says which comments without words leave nothing. Of a line one opening mark is taken
away, one closing mark and the stars it then begins with. So what stands between the marks of a
block leaves nothing as long as the stars of each row stand together, those of the first row right
behind the opening; and of a line drawn with slashes or with hashes all is left that is longer than
the longest opening mark.
-/

import CodeAtlas.Extraction.Docs
import CodeAtlas.Proofs.Text.Lines

namespace CodeAtlas.Docs

open Text

/-! ### One line -/

/-- What is left of a line behind its opening mark. -/
def closed (opened : Chars) : Chars :=
  trim (((stripBack? ['*', '/'] opened).getD opened).dropWhile (· = '*'))

theorem cleanLine_eq (line : Chars) :
    cleanLine line = closed (withoutFirst lineMarks (trim line)) :=
  rfl

theorem closed_append_mark (opened : Chars) :
    closed (opened ++ ['*', '/']) = trim (opened.dropWhile (· = '*')) := by
  rw [closed, stripBack?_eq_some_iff.mpr rfl, Option.getD_some]

theorem closed_of_unclosed {opened : Chars} (unclosed : ¬ ['*', '/'] <:+ opened) :
    closed opened = trim (opened.dropWhile (· = '*')) := by
  have whole : stripBack? ['*', '/'] opened = none :=
    Option.eq_none_iff_forall_ne_some.mpr fun rest found =>
      unclosed ⟨rest, (stripBack?_eq_some_iff.mp found).symm⟩
  rw [closed, whole, Option.getD_none]

/-- Only slashes and hashes begin an opening mark. -/
theorem withoutFirst_eq_self {text : Chars}
    (begins : ∀ character ∈ text.head?, character ∉ ['/', '#']) :
    withoutFirst lineMarks text = text := by
  have heads : ∀ mark ∈ lineMarks, mark.head? = some '/' ∨ mark.head? = some '#' := by decide
  have none : lineMarks.findSome? (fun mark => stripFront? mark text) = none := by
    refine List.findSome?_eq_none_iff.mpr fun mark isMark => ?_
    refine stripFront?_eq_none_iff.mpr ?_
    rintro ⟨rest, rfl⟩
    rw [List.head?_append] at begins
    rcases heads mark isMark with slash | hash
    · exact begins '/' (by rw [slash]; rfl) (by decide)
    · exact begins '#' (by rw [hash]; rfl) (by decide)
  rw [withoutFirst, none, Option.getD_none]

/-- The opening mark of a block is taken away with the star behind it, if one stands there. -/
theorem withoutFirst_block {character : Char} (other : character ≠ '!') (rest : Chars) :
    withoutFirst lineMarks ('/' :: '*' :: character :: rest) =
      if character = '*' then rest else character :: rest := by
  split
  · next isStar =>
    subst isStar
    rfl
  · next notStar =>
    have noStar : ('*' = character) = False := eq_false (Ne.symm notStar)
    have noBang : ('!' = character) = False := eq_false (Ne.symm other)
    simp [withoutFirst, lineMarks, stripFront?, noStar, noBang]

/-! ### Stars and blanks -/

/-- Whether nothing but stars and blanks stands in a text. -/
def IsStarry (text : Chars) : Prop :=
  ∀ character ∈ text, character = '*' ∨ isBlank character = true

/-- Whether nothing but stars stands between the blanks around a text. -/
def StarsTogether (text : Chars) : Prop :=
  ∀ character ∈ trim text, character = '*'

theorem isStarry_iff_all {text : Chars} :
    IsStarry text ↔ text.all (fun character => character = '*' || isBlank character) = true := by
  simp [IsStarry]

instance : DecidablePred IsStarry :=
  fun _ => decidable_of_iff _ isStarry_iff_all.symm

theorem IsStarry.mono {text part : Chars} (starry : IsStarry text) (sub : part ⊆ text) :
    IsStarry part :=
  fun character member => starry character (sub member)

theorem IsStarry.unmarked {text : Chars} (starry : IsStarry text) {character : Char}
    (member : character ∈ text) : character ∉ ['/', '#'] := by
  intro isMark
  have other := starry character member
  rcases List.mem_pair.mp isMark with rfl | rfl <;> exact absurd other (by decide)

theorem IsStarry.unclosed {text : Chars} (starry : IsStarry text) : ¬ ['*', '/'] <:+ text :=
  fun ends => starry.unmarked (ends.subset (by decide)) (List.mem_cons_self (a := '/'))

/-- Behind the first stars of a text nothing but blanks follows exactly if the text is stars, but
for the blanks at its end. -/
theorem trim_dropStars_eq_nil_iff {text : Chars} :
    trim (text.dropWhile (· = '*')) = [] ↔
      ∀ character ∈ dropEnd isBlank text, character = '*' := by
  rw [trim_eq_nil_iff]
  constructor
  · intro blank character member
    rw [← List.takeWhile_append_dropWhile (p := (· = '*')) (l := text),
      dropEnd_append_of_pos blank] at member
    obtain ⟨dropped, divided, _⟩ := exists_dropEnd_append isBlank (text.takeWhile (· = '*'))
    have inStars : character ∈ text.takeWhile (· = '*') :=
      divided.symm ▸ List.mem_append_left dropped member
    exact of_decide_eq_true (List.mem_takeWhile_imp (p := (· = '*')) inStars)
  · intro stars character member
    obtain ⟨dropped, divided, blank⟩ := exists_dropEnd_append isBlank text
    rw [divided, List.dropWhile_append_of_pos fun _ inStars => decide_eq_true (stars _ inStars)]
      at member
    exact blank character ((List.dropWhile_sublist _).subset member)

theorem starsTogether_iff {row : Chars} :
    StarsTogether row ↔ trim ((row.dropWhile isBlank).dropWhile (· = '*')) = [] :=
  trim_dropStars_eq_nil_iff.symm

/-- Behind a first star the stars stand together if nothing but stars follows, but for the blanks
at the end. -/
theorem starsTogether_cons_star {row : Chars} :
    StarsTogether ('*' :: row) ↔ trim (row.dropWhile (· = '*')) = [] :=
  starsTogether_iff

/-! ### Rows of stars -/

section

variable {row : Chars} (starry : IsStarry row)

include starry

theorem cleanLine_eq_nil_iff : cleanLine row = [] ↔ StarsTogether row := by
  have starryTrimmed : IsStarry (trim row) := starry.mono (dropAround_isInfix isBlank row).subset
  have unmarked : withoutFirst lineMarks (trim row) = trim row :=
    withoutFirst_eq_self fun _ begins => starryTrimmed.unmarked (List.mem_of_mem_head? begins)
  rw [cleanLine_eq, unmarked, closed_of_unclosed starryTrimmed.unclosed, trim_dropStars_eq_nil_iff,
    StarsTogether, trim, dropAround, dropEnd_dropEnd]

theorem cleanLine_close_eq_nil_iff : cleanLine (row ++ ['*', '/']) = [] ↔ StarsTogether row := by
  have starryBehind : IsStarry (row.dropWhile isBlank) :=
    starry.mono (List.dropWhile_sublist isBlank).subset
  have unmarked : withoutFirst lineMarks (row.dropWhile isBlank ++ ['*', '/']) =
      row.dropWhile isBlank ++ ['*', '/'] := by
    refine withoutFirst_eq_self fun character begins => ?_
    rw [List.head?_append] at begins
    rcases Option.or_eq_some_iff.mp begins with inRow | ⟨_, isStar⟩
    · exact starryBehind.unmarked (List.mem_of_mem_head? inRow)
    · exact Option.some.inj isStar ▸ by decide
  rw [cleanLine_eq, trim_append_eq (List.cons_ne_nil _ _) (by decide), unmarked,
    closed_append_mark, starsTogether_iff]

/-- Of a block's opening mark and what follows, the mark is taken away and perhaps a star. -/
theorem exists_withoutFirst_block (some : row ≠ []) (back : Chars) :
    ∃ opened, withoutFirst lineMarks ('/' :: '*' :: (row ++ back)) = opened ++ back ∧
      opened ⊆ row ∧ opened.dropWhile (· = '*') = row.dropWhile (· = '*') := by
  obtain ⟨character, row, rfl⟩ := List.exists_cons_of_ne_nil some
  have notBang : character ≠ '!' := by
    rintro rfl
    exact absurd (starry '!' List.mem_cons_self) (by decide)
  rw [List.cons_append, withoutFirst_block notBang]
  split
  · next isStar =>
    refine ⟨row, rfl, List.subset_cons_self character row, ?_⟩
    rw [isStar]
    rfl
  · exact ⟨character :: row, rfl, fun _ => id, rfl⟩

theorem cleanLine_open_eq_nil_iff :
    cleanLine (['/', '*'] ++ row) = [] ↔ StarsTogether ('*' :: row) := by
  have starryFront : IsStarry (dropEnd isBlank row) := by
    obtain ⟨dropped, divided, _⟩ := exists_dropEnd_append isBlank row
    exact starry.mono (List.IsPrefix.subset ⟨dropped, divided.symm⟩)
  have left : cleanLine (['/', '*'] ++ row) = trim ((dropEnd isBlank row).dropWhile (· = '*')) := by
    rw [cleanLine_eq, append_trim_eq (List.cons_ne_nil _ _) (by decide)]
    by_cases empty : dropEnd isBlank row = []
    · rw [empty]
      rfl
    · obtain ⟨opened, taken, sub, stars⟩ := exists_withoutFirst_block starryFront empty []
      rw [List.append_nil, List.append_nil] at taken
      have unmarked : withoutFirst lineMarks (['/', '*'] ++ dropEnd isBlank row) = opened := taken
      rw [unmarked, closed_of_unclosed (starryFront.mono sub).unclosed, stars]
  rw [left, starsTogether_cons_star, trim_dropStars_eq_nil_iff, trim_dropStars_eq_nil_iff,
    dropEnd_dropEnd]

theorem cleanLine_block_eq_nil_iff (some : row ≠ []) :
    cleanLine (['/', '*'] ++ row ++ ['*', '/']) = [] ↔ StarsTogether ('*' :: row) := by
  have trimmed : trim (['/', '*'] ++ row ++ ['*', '/']) = ['/', '*'] ++ row ++ ['*', '/'] :=
    trim_append_of_trimmed (List.cons_ne_nil _ _) (by decide) fun character begins =>
      Option.some.inj begins ▸ by decide
  obtain ⟨opened, taken, _, stars⟩ := exists_withoutFirst_block starry some ['*', '/']
  have unmarked : withoutFirst lineMarks (['/', '*'] ++ row ++ ['*', '/']) =
    opened ++ ['*', '/'] := taken
  rw [cleanLine_eq, trimmed, unmarked, closed_append_mark, stars, starsTogether_cons_star]

end

/-! ### Whole comments -/

theorem cleanLine_trim (line : Chars) : cleanLine line = cleanLine (trim line) := by
  rw [cleanLine_eq, cleanLine_eq, trim_trim]

/-- Of a comment all is left that is left of its rows. -/
theorem cleanComment_eq (text : Chars) :
    cleanComment text =
      unlines (((rows text).map cleanLine).filter fun line => !line.isEmpty) := by
  rw [cleanComment, filter_map_lines cleanLine_trim rfl]

theorem cleanComment_eq_nil_iff {text : Chars} :
    cleanComment text = [] ↔ ∀ row ∈ rows text, cleanLine row = [] := by
  have named : ∀ piece ∈ ((rows text).map cleanLine).filter (fun line => !line.isEmpty),
      piece ≠ [] := by
    simp
  rw [cleanComment_eq, unlines_eq_nil_iff named]
  simp

theorem cleanComment_of_unbroken {text : Chars} (unbroken : '\n' ∉ text) :
    cleanComment text = cleanLine text := by
  rw [cleanComment_eq, rows_of_unbroken unbroken, List.map_singleton, List.filter_singleton]
  cases empty : (cleanLine text).isEmpty with
  | true => exact (List.isEmpty_iff.mp empty).symm
  | false => rfl

/-- Of a line drawn with one mark all is left that is behind the mark that opens a comment. -/
theorem cleanComment_replicate {mark : Char} (unblank : isBlank mark = false) (notStar : mark ≠ '*')
    {count kept : Nat}
    (opened : withoutFirst lineMarks (List.replicate count mark) = List.replicate kept mark) :
    cleanComment (List.replicate count mark) = List.replicate kept mark := by
  have trimmed (length : Nat) : trim (List.replicate length mark) = List.replicate length mark :=
    trim_eq_self fun character member => List.eq_of_mem_replicate member ▸ unblank
  have unbroken : '\n' ∉ List.replicate count mark := by
    intro member
    rw [← List.eq_of_mem_replicate member] at unblank
    exact absurd unblank (by decide)
  have noStar : '*' ∉ List.replicate kept mark := fun member =>
    notStar (List.eq_of_mem_replicate member).symm
  have begins : ∀ character ∈ (List.replicate kept mark).head?, decide (character = '*') = false :=
    fun character begins => decide_eq_false <| by
      rintro rfl
      exact noStar (List.mem_of_mem_head? begins)
  rw [cleanComment_of_unbroken unbroken, cleanLine_eq, trimmed, opened,
    closed_of_unclosed fun ends => noStar (ends.subset List.mem_cons_self),
    dropWhile_eq_self begins, trimmed]

/-- Of a block with nothing but stars and blanks between its marks nothing is left exactly if there
is something between them and the stars of each row stand together, in the first row with the one
of the opening mark. -/
theorem cleanComment_block_eq_nil_iff {body : Chars} (starry : IsStarry body) :
    cleanComment (['/', '*'] ++ body ++ ['*', '/']) = [] ↔
      body ≠ [] ∧ ∀ row ∈ rows ('*' :: body), StarsTogether row := by
  by_cases empty : body = []
  · subst empty
    exact iff_of_false (by decide) fun something => something.1 rfl
  obtain ⟨first, others, divided⟩ := List.exists_cons_of_ne_nil (rows_ne_nil body)
  have starryRow (row : Chars) (isRow : row ∈ first :: others) : IsStarry row :=
    starry.mono (subset_of_mem_rows (divided ▸ isRow))
  have starred : rows (['*'] ++ body) = (['*'] ++ first) :: others :=
    rows_append divided (by decide)
  have opened : rows (['/', '*'] ++ body) = (['/', '*'] ++ first) :: others :=
    rows_append divided (by decide)
  have unbroken : '\n' ∉ ['*', '/'] := by decide
  rw [List.singleton_append, List.singleton_append] at starred
  rw [cleanComment_eq_nil_iff, and_iff_right empty, starred]
  rcases List.eq_nil_or_concat' others with rfl | ⟨middle, last, rfl⟩
  · have alone : body = first := by
      rw [← unlines_rows body, divided, unlines_singleton]
    have openedLast : rows (['/', '*'] ++ body) = [] ++ [['/', '*'] ++ first] := opened
    have closed := append_rows openedLast unbroken
    rw [closed, List.nil_append, List.forall_mem_singleton, List.forall_mem_singleton]
    exact cleanLine_block_eq_nil_iff (starryRow first List.mem_cons_self) (alone ▸ empty)
  · have openedLast : rows (['/', '*'] ++ body) = ((['/', '*'] ++ first) :: middle) ++ [last] :=
      opened
    have closed := append_rows openedLast unbroken
    obtain ⟨starryFirst, starryOthers⟩ := List.forall_mem_cons.mp starryRow
    obtain ⟨starryMiddle, starryLast⟩ := List.forall_mem_append.mp starryOthers
    rw [closed, List.cons_append, List.forall_mem_cons, List.forall_mem_cons,
      List.forall_mem_append, List.forall_mem_append, List.forall_mem_singleton,
      List.forall_mem_singleton]
    refine and_congr (cleanLine_open_eq_nil_iff starryFirst) (and_congr ?_ ?_)
    · exact forall₂_congr fun row isRow => cleanLine_eq_nil_iff (starryMiddle row isRow)
    · exact cleanLine_close_eq_nil_iff (starryLast last List.mem_cons_self)

/-! ### Comments of marks alone -/

/-- A comment without words: a line drawn with slashes or with hashes, or a block with nothing but
stars and blanks between its marks. -/
inductive BareComment where
  | slashes (count : Nat) (atLeast : 2 ≤ count)
  | hashes (count : Nat) (atLeast : 1 ≤ count)
  | block (body : Chars) (starry : IsStarry body)

namespace BareComment

/-- The text of a comment. -/
def written : BareComment → Chars
  | slashes count _ => List.replicate count '/'
  | hashes count _ => List.replicate count '#'
  | block body _ => ['/', '*'] ++ body ++ ['*', '/']

/-- Whether a comment is not longer than the marks that are taken away: three slashes at most or a
single hash, or a block with something in it whose stars stand together in each row. -/
def Vanishes : BareComment → Prop
  | slashes count _ => count ≤ 3
  | hashes count _ => count ≤ 1
  | block body _ => body ≠ [] ∧ ∀ row ∈ rows ('*' :: body), StarsTogether row

end BareComment

/-- Of slashes all are left that are more than three. -/
theorem cleanComment_slashes {count : Nat} (atLeast : 2 ≤ count) :
    cleanComment (List.replicate count '/') = List.replicate (count - 3) '/' := by
  refine cleanComment_replicate (by decide) (by decide) ?_
  match count, atLeast with
  | 2, _ => rfl
  | count + 3, _ => rfl

/-- Of hashes all are left but one. -/
theorem cleanComment_hashes {count : Nat} (atLeast : 1 ≤ count) :
    cleanComment (List.replicate count '#') = List.replicate (count - 1) '#' := by
  refine cleanComment_replicate (by decide) (by decide) ?_
  match count, atLeast with
  | count + 1, _ => rfl

/-- Nothing is left of a comment of marks alone exactly if it is not longer than the marks that are
taken away. -/
theorem cleanComment_written_eq_nil_iff (comment : BareComment) :
    cleanComment comment.written = [] ↔ comment.Vanishes := by
  cases comment with
  | slashes count atLeast =>
    rw [BareComment.written, cleanComment_slashes atLeast, List.replicate_eq_nil_iff]
    exact Nat.sub_eq_zero_iff_le
  | hashes count atLeast =>
    rw [BareComment.written, cleanComment_hashes atLeast, List.replicate_eq_nil_iff]
    exact Nat.sub_eq_zero_iff_le
  | block body starry => exact cleanComment_block_eq_nil_iff starry

/-- The stars of a drawn box stand together in each row. -/
example : cleanComment "/****\n ** \n ****/".toList = [] := by
  decide +kernel

/-- A fourth slash, a second hash, the slash of an empty block and a star apart from others stay. -/
theorem exists_cleanComment_written_ne_nil :
    (∃ count atLeast, cleanComment (BareComment.slashes count atLeast).written = ['/']) ∧
    (∃ count atLeast, cleanComment (BareComment.hashes count atLeast).written = ['#']) ∧
    (∃ starry, cleanComment (BareComment.block [] starry).written = ['/']) ∧
    ∃ starry, cleanComment (BareComment.block [' ', '*', ' '] starry).written = ['*'] :=
  ⟨⟨4, by decide, by decide +kernel⟩, ⟨2, by decide, by decide +kernel⟩,
    ⟨by decide, by decide +kernel⟩, by decide, by decide +kernel⟩

end CodeAtlas.Docs
