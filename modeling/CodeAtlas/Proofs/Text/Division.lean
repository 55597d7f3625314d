/-
This file says where a text can be divided again after its pieces have been put together. A
piece ends where the first character stands that is not of its kind, and a list of pieces can
be read off if the end of each can be told from what follows it.
-/

import CodeAtlas.Text.Chars

namespace CodeAtlas.Text

/-! ### Runs of one kind -/

/-- Where values of one kind stand before a value that is not of it, they can be told from what
follows them. -/
theorem append_inj_of_heads {α : Type} {p : α → Prop}
    {front back otherFront otherBack : List α}
    (inFront : ∀ value ∈ front, p value) (inOtherFront : ∀ value ∈ otherFront, p value)
    (atBack : ∀ value ∈ back.head?, ¬ p value)
    (atOtherBack : ∀ value ∈ otherBack.head?, ¬ p value)
    (same : front ++ back = otherFront ++ otherBack) : front = otherFront ∧ back = otherBack := by
  rcases List.append_eq_append_iff.mp same with ⟨more, rfl, rfl⟩ | ⟨more, rfl, rfl⟩
  · cases more with
    | nil => simp
    | cons value more => exact absurd (inOtherFront value (by simp)) (atBack value (by simp))
  · cases more with
    | nil => simp
    | cons value more => exact absurd (inFront value (by simp)) (atOtherBack value (by simp))

/-- The value that follows some front in a list is the only one that does. -/
theorem eq_of_concat_isPrefix {α : Type} {front whole : List α} {first second : α}
    (isFirst : front ++ [first] <+: whole) (isSecond : front ++ [second] <+: whole) :
    first = second := by
  have same := List.prefix_of_prefix_length_le isFirst isSecond (by simp)
  simpa using same.eq_of_length (by simp)

/-! ### Pieces -/

/-- No character at which a text is cut is left in its pieces. -/
theorem eq_false_of_mem_splitWhere {cut : Char → Bool} {text piece : Chars}
    (member : piece ∈ splitWhere cut text) {character : Char} (inPiece : character ∈ piece) :
    cut character = false := by
  fun_induction splitWhere cut text generalizing piece with
  | case1 => simp_all
  | case2 first text isCut inductionHypothesis =>
    rcases List.mem_cons.mp member with rfl | member
    · cases inPiece
    · exact inductionHypothesis member inPiece
  | case3 first text notCut none inductionHypothesis => simp_all
  | case4 first text notCut head pieces whole inductionHypothesis =>
    rw [whole] at inductionHypothesis
    rcases List.mem_cons.mp member with rfl | member
    · rcases List.mem_cons.mp inPiece with rfl | inPiece
      · simpa using notCut
      · exact inductionHypothesis List.mem_cons_self inPiece
    · exact inductionHypothesis (List.mem_cons_of_mem _ member) inPiece

/-- Nothing stands in the pieces of a text that does not stand in the text. -/
theorem subset_of_mem_splitWhere {cut : Char → Bool} {text piece : Chars}
    (member : piece ∈ splitWhere cut text) : piece ⊆ text := by
  fun_induction splitWhere cut text generalizing piece with
  | case1 =>
    rw [List.mem_singleton.mp member]
    exact List.nil_subset []
  | case2 first text isCut inductionHypothesis =>
    rcases List.mem_cons.mp member with rfl | member
    · exact List.nil_subset _
    · exact List.subset_cons_of_subset first (inductionHypothesis member)
  | case3 first text notCut none inductionHypothesis =>
    rw [List.mem_singleton.mp member]
    exact List.cons_subset_cons first (List.nil_subset text)
  | case4 first text notCut head pieces whole inductionHypothesis =>
    rw [whole] at inductionHypothesis
    rcases List.mem_cons.mp member with rfl | member
    · exact List.cons_subset_cons first (inductionHypothesis List.mem_cons_self)
    · exact List.subset_cons_of_subset first
        (inductionHypothesis (List.mem_cons_of_mem head member))

theorem splitWhere_ne_nil (cut : Char → Bool) (text : Chars) : splitWhere cut text ≠ [] := by
  fun_induction splitWhere cut text <;> simp_all

/-- A text is cut at a mark by cutting what stands before and after it. -/
theorem splitWhere_append_cons {cut : Char → Bool} {mark : Char} (cuts : cut mark = true)
    (front back : Chars) :
    splitWhere cut (front ++ mark :: back) = splitWhere cut front ++ splitWhere cut back := by
  induction front with
  | nil => simp [splitWhere, cuts]
  | cons character front inductionHypothesis =>
    rw [List.cons_append, splitWhere, splitWhere, inductionHypothesis]
    cases pieces : splitWhere cut front with
    | nil => exact absurd pieces (splitWhere_ne_nil cut front)
    | cons piece pieces => split <;> rfl

theorem splitWhere_eq_singleton {cut : Char → Bool} {piece : Chars}
    (free : ∀ character ∈ piece, cut character = false) : splitWhere cut piece = [piece] := by
  induction piece with
  | nil => rfl
  | cons character piece inductionHypothesis =>
    obtain ⟨notCut, free⟩ := List.forall_mem_cons.mp free
    rw [splitWhere, inductionHypothesis free, notCut]
    rfl

/-- Pieces with marks between them are found again at the marks. -/
theorem splitWhere_intercalate {cut : Char → Bool} {mark : Char} (cuts : cut mark = true)
    {pieces : List Chars} (some : pieces ≠ [])
    (free : ∀ piece ∈ pieces, ∀ character ∈ piece, cut character = false) :
    splitWhere cut ([mark].intercalate pieces) = pieces := by
  induction pieces with
  | nil => exact absurd rfl some
  | cons piece pieces inductionHypothesis =>
    obtain ⟨freeFirst, free⟩ := List.forall_mem_cons.mp free
    cases pieces with
    | nil => simpa using splitWhere_eq_singleton freeFirst
    | cons next pieces =>
      rw [List.intercalate_cons_cons, List.append_assoc, List.singleton_append,
        splitWhere_append_cons cuts, splitWhere_eq_singleton freeFirst,
        inductionHypothesis (List.cons_ne_nil next pieces) free]
      rfl

/-! ### Values written one after another -/

section

variable {α : Type}

/-- Whether a value can be read off the text that `write` gives for it, wherever what follows
begins in one of the ways `ends` allows. -/
def Legible (ends : Chars → Prop) (write : α → Chars) (value : α) : Prop :=
  ∀ other rest tail, ends rest → ends tail → write value ++ rest = write other ++ tail →
    value = other ∧ rest = tail

theorem ends_flatMap_append {ends : Chars → Prop} {write : α → Chars} {mark : Char} {lead : Chars}
    (marked : ∀ rest, ends (mark :: rest)) (values : List α) {rest : Chars} (restEnds : ends rest) :
    ends (values.flatMap (fun value => mark :: lead ++ write value) ++ rest) := by
  cases values with
  | nil => exact restEnds
  | cons value values => exact marked _

/-- A list of legible values with a mark before each is legible if what follows it does not begin
with the mark. -/
theorem flatMap_append_inj {ends : Chars → Prop} {write : α → Chars} {mark : Char}
    {lead : Chars} {values others : List α} {rest tail : Chars}
    (legible : ∀ value ∈ values, Legible ends write value) (marked : ∀ rest, ends (mark :: rest))
    (restEnds : ends rest) (tailEnds : ends tail) (restUnmarked : mark ∉ rest.head?)
    (tailUnmarked : mark ∉ tail.head?)
    (same : values.flatMap (fun value => mark :: lead ++ write value) ++ rest =
      others.flatMap (fun value => mark :: lead ++ write value) ++ tail) :
    values = others ∧ rest = tail := by
  induction values generalizing others with
  | nil =>
    cases others with
    | nil => exact ⟨rfl, same⟩
    | cons other others =>
      have begun : rest.head? = some mark := congrArg List.head? same
      exact absurd begun restUnmarked
  | cons value values inductionHypothesis =>
    cases others with
    | nil =>
      have begun : tail.head? = some mark := (congrArg List.head? same).symm
      exact absurd begun tailUnmarked
    | cons other others =>
      obtain ⟨legibleFirst, legible⟩ := List.forall_mem_cons.mp legible
      simp only [List.flatMap_cons, List.append_assoc, List.cons_append, List.cons.injEq,
        List.append_cancel_left_eq, true_and] at same
      obtain ⟨rfl, sameRest⟩ := legibleFirst other _ _
        (ends_flatMap_append marked values restEnds) (ends_flatMap_append marked others tailEnds)
        same
      obtain ⟨rfl, sameTail⟩ := inductionHypothesis legible sameRest
      exact ⟨rfl, sameTail⟩

end

end CodeAtlas.Text
