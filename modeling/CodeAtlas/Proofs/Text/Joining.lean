/-
This file says what becomes of pieces that are joined by a separator. As long as the separator does
not stand in any of them, putting another one in its place joins the same pieces by that one, and
what stands at the ends of the whole is what stands at the ends of the first and the last piece.
-/

import CodeAtlas.Proofs.Text.Blank
import Mathlib.Data.List.Basic

namespace CodeAtlas.Text

variable {text : Chars} {pieces : List Chars}

/-! ### Joined pieces -/

theorem join_eq_intercalate (separator : Chars) (pieces : List Chars) :
    join separator pieces = separator.intercalate pieces := by
  induction pieces with
  | nil => rfl
  | cons piece pieces inductionHypothesis =>
    cases pieces with
    | nil => simp [join]
    | cons next pieces => rw [join, inductionHypothesis, List.intercalate_cons_cons]

/-- Behind the first piece stand all others, each with the separator before it. -/
theorem intercalate_cons_eq (separator piece : Chars) (pieces : List Chars) :
    separator.intercalate (piece :: pieces) = piece ++ pieces.flatMap (separator ++ ·) := by
  induction pieces generalizing piece with
  | nil => simp
  | cons next pieces inductionHypothesis =>
    rw [List.intercalate_cons_cons, inductionHypothesis, List.flatMap_cons]
    simp only [List.append_assoc]

/-- Before the last piece stands the separator, if there are further pieces. -/
theorem intercalate_concat (separator : Chars) {pieces : List Chars} (some : pieces ≠ [])
    (last : Chars) :
    separator.intercalate (pieces ++ [last]) =
      separator.intercalate pieces ++ separator ++ last := by
  obtain ⟨piece, rest, rfl⟩ := List.exists_cons_of_ne_nil some
  rw [List.cons_append, intercalate_cons_eq, intercalate_cons_eq, List.flatMap_append]
  simp

theorem of_mem_intercalate {separator : Chars} {character : Char}
    (member : character ∈ separator.intercalate pieces) :
    character ∈ separator ∨ ∃ piece ∈ pieces, character ∈ piece := by
  cases pieces with
  | nil => cases member
  | cons piece pieces =>
    rw [intercalate_cons_eq, List.mem_append, List.mem_flatMap] at member
    rcases member with first | ⟨later, isPiece, member⟩
    · exact .inr ⟨piece, List.mem_cons_self, first⟩
    · rcases List.mem_append.mp member with between | inPiece
      · exact .inl between
      · exact .inr ⟨later, List.mem_cons_of_mem _ isPiece, inPiece⟩

/-! ### Putting one separator in the place of another -/

theorem replaceChar_of_notMem {old : Char} (new : Char) (free : old ∉ text) :
    replaceChar old new text = text := by
  refine (List.map_congr_left fun character member => if_neg ?_).trans (List.map_id text)
  rintro rfl
  exact free member

theorem replaceChar_append (old new : Char) (front back : Chars) :
    replaceChar old new (front ++ back) = replaceChar old new front ++ replaceChar old new back :=
  List.map_append

theorem replaceChar_intercalate (old new : Char) (free : ∀ piece ∈ pieces, old ∉ piece) :
    replaceChar old new ([old].intercalate pieces) = [new].intercalate pieces := by
  induction pieces with
  | nil => rfl
  | cons piece pieces inductionHypothesis =>
    obtain ⟨freeFirst, free⟩ := List.forall_mem_cons.mp free
    cases pieces with
    | nil => simpa using replaceChar_of_notMem new freeFirst
    | cons next pieces =>
      have separator : replaceChar old new [old] = [new] := congrArg ([·]) (if_pos rfl)
      rw [List.intercalate_cons_cons, List.intercalate_cons_cons, replaceChar_append,
        replaceChar_append, replaceChar_of_notMem new freeFirst, separator,
        inductionHypothesis free]

theorem replacePair_cons_of_ne {old character : Char} (new : Char) (other : character ≠ old)
    (text : Chars) :
    replacePair old new (character :: text) = character :: replacePair old new text := by
  cases text with
  | nil => rfl
  | cons next text => rw [replacePair, if_neg fun isPair => other isPair.1]

theorem replacePair_append {old : Char} (new : Char) {front : Chars} (free : old ∉ front)
    (back : Chars) :
    replacePair old new (front ++ back) = front ++ replacePair old new back := by
  induction front with
  | nil => rfl
  | cons character front inductionHypothesis =>
    rw [List.mem_cons, not_or] at free
    rw [List.cons_append, replacePair_cons_of_ne new (Ne.symm free.1), inductionHypothesis free.2]
    rfl

theorem replacePair_of_notMem {old : Char} (new : Char) (free : old ∉ text) :
    replacePair old new text = text := by
  simpa [replacePair] using replacePair_append new free []

theorem replacePair_intercalate (old new : Char) (free : ∀ piece ∈ pieces, old ∉ piece) :
    replacePair old new ([old, old].intercalate pieces) = [new].intercalate pieces := by
  induction pieces with
  | nil => rfl
  | cons piece pieces inductionHypothesis =>
    obtain ⟨freeFirst, free⟩ := List.forall_mem_cons.mp free
    cases pieces with
    | nil => simpa using replacePair_of_notMem new freeFirst
    | cons next pieces =>
      have separator (rest : Chars) :
          replacePair old new ([old, old] ++ rest) = [new] ++ replacePair old new rest :=
        if_pos ⟨rfl, rfl⟩
      rw [List.intercalate_cons_cons, List.intercalate_cons_cons, List.append_assoc,
        List.append_assoc, replacePair_append new freeFirst, separator, inductionHypothesis free]

/-! ### Ends -/

/-- Joined pieces begin and end as the first and the last of them do, so that nothing is dropped
around them if nothing at the ends of the pieces is to be dropped. -/
theorem dropAround_intercalate_of_ends {drop : Char → Bool} (separator : Chars)
    (some : pieces ≠ []) (named : ∀ piece ∈ pieces, piece ≠ [])
    (begins : ∀ piece ∈ pieces, ∀ character ∈ piece.head?, drop character = false)
    (ends : ∀ piece ∈ pieces, ∀ character ∈ piece.getLast?, drop character = false) :
    dropAround drop (separator.intercalate pieces) = separator.intercalate pieces := by
  refine dropAround_eq_self (fun character isFirst => ?_) fun character isLast => ?_
  · obtain ⟨piece, rest, rfl⟩ := List.exists_cons_of_ne_nil some
    have begun := named piece List.mem_cons_self
    rw [intercalate_cons_eq, List.head?_append_of_ne_nil _ begun] at isFirst
    exact begins piece List.mem_cons_self character isFirst
  · obtain ⟨front, last, rfl⟩ := List.eq_nil_or_concat' pieces |>.resolve_left some
    have isPiece : last ∈ front ++ [last] := List.mem_append_right front List.mem_cons_self
    refine ends last isPiece character ?_
    have lastEnds : ∃ before, separator.intercalate (front ++ [last]) = before ++ last := by
      by_cases alone : front = []
      · exact ⟨[], by simp [alone]⟩
      · exact ⟨_, intercalate_concat separator alone last⟩
    obtain ⟨before, divided⟩ := lastEnds
    rwa [divided, List.getLast?_append_of_ne_nil _ (named last isPiece)] at isLast

theorem dropAround_intercalate {drop : Char → Bool} (separator : Chars) (some : pieces ≠ [])
    (named : ∀ piece ∈ pieces, piece ≠ [])
    (kept : ∀ piece ∈ pieces, ∀ character ∈ piece, drop character = false) :
    dropAround drop (separator.intercalate pieces) = separator.intercalate pieces :=
  dropAround_intercalate_of_ends separator some named
    (fun piece isPiece character begins =>
      kept piece isPiece character (List.mem_of_mem_head? begins))
    fun piece isPiece character ends =>
      kept piece isPiece character (List.mem_of_mem_getLast? ends)

end CodeAtlas.Text
