/-
This file says where a text is cut at a separator. The first separator is the one before which the
least of the text stands, and the last one is the one behind which the least stands; a text that
is not cut has no separator in it. So what is left behind the last separator is the end of what
stands behind any other.
-/

import CodeAtlas.Proofs.Text.Search
import Mathlib.Data.List.Basic

namespace CodeAtlas.Text

variable {separator text : Chars}

theorem splitFirst?_eq_none (whole : splitFirst? separator text = none) :
    ¬ separator <:+: text := by
  fun_induction splitFirst? separator text with
  | case1 empty => cases whole
  | case2 something =>
    rw [List.infix_nil]
    exact mt List.isEmpty_iff.mpr something
  | case3 character text rest begins => cases whole
  | case4 character text notBegun inductionHypothesis =>
    rw [List.infix_cons_iff]
    rintro (begins | later)
    · obtain ⟨rest, same⟩ := begins
      rw [← same, stripFront?_append] at notBegun
      cases notBegun
    · exact inductionHypothesis (Option.map_eq_none_iff.mp whole) later

/-- Before the first separator stands what stands before every one. -/
theorem splitFirst?_eq_some {before after : Chars}
    (cut : splitFirst? separator text = some (before, after)) :
    text = before ++ separator ++ after ∧
      ∀ front back, text = front ++ separator ++ back → before <+: front := by
  fun_induction splitFirst? separator text generalizing before with
  | case1 empty =>
    obtain ⟨rfl, rfl⟩ := Prod.mk.inj (Option.some.inj cut)
    exact ⟨by simp [List.isEmpty_iff.mp empty], fun front back _ => List.nil_prefix⟩
  | case2 something => cases cut
  | case3 character text rest begins =>
    obtain ⟨rfl, rfl⟩ := Prod.mk.inj (Option.some.inj cut)
    exact ⟨eq_append_of_stripFront? begins, fun front back _ => List.nil_prefix⟩
  | case4 character text notBegun inductionHypothesis =>
    obtain ⟨⟨earlier, rest⟩, cutBelow, same⟩ := Option.map_eq_some_iff.mp cut
    obtain ⟨rfl, rfl⟩ := Prod.mk.inj same
    obtain ⟨divided, first⟩ := inductionHypothesis cutBelow
    refine ⟨by rw [divided]; rfl, fun front back otherwise => ?_⟩
    cases front with
    | nil =>
      rw [List.nil_append] at otherwise
      rw [otherwise, stripFront?_append] at notBegun
      cases notBegun
    | cons head front =>
      obtain ⟨rfl, below⟩ := List.cons.inj otherwise
      exact (List.cons_prefix_cons).mpr ⟨rfl, first front back below⟩

/-- What stands behind the last separator of a text is the end of it, and the end of what stands
behind every separator; without a separator it is all of the text. -/
theorem afterLast_spec (separator text : Chars) :
    (afterLast separator text = text ∨
      ∃ front, text = front ++ separator ++ afterLast separator text) ∧
    ∀ front back, text = front ++ separator ++ back → afterLast separator text <:+ back := by
  have mirrored {front back : Chars} (divided : text = front ++ separator ++ back) :
      text.reverse = back.reverse ++ separator.reverse ++ front.reverse := by
    rw [divided, List.reverse_append, List.reverse_append, List.append_assoc]
  rw [afterLast, splitLast?]
  cases cut : splitFirst? separator.reverse text.reverse with
  | none =>
    refine ⟨.inl rfl, fun front back divided => ?_⟩
    exact absurd ⟨_, _, (mirrored divided).symm⟩ (splitFirst?_eq_none cut)
  | some parts =>
    obtain ⟨behind, ahead⟩ := parts
    obtain ⟨divided, first⟩ := splitFirst?_eq_some cut
    dsimp only [Option.map_some]
    refine ⟨.inr ⟨ahead.reverse, ?_⟩, fun front back divided => ?_⟩
    · rw [← List.reverse_inj, divided]
      simp
    · rw [← List.reverse_prefix, List.reverse_reverse]
      exact first _ _ (mirrored divided)

/-! ### One mark as the separator -/

variable {mark : Char} {front back : Chars}

theorem splitFirst?_append_cons (free : mark ∉ front) (back : Chars) :
    splitFirst? [mark] (front ++ mark :: back) = some (front, back) := by
  induction front with
  | nil => simp [splitFirst?, stripFront?]
  | cons character front inductionHypothesis =>
    rw [List.mem_cons, not_or] at free
    rw [List.cons_append, splitFirst?, stripFront?, if_neg free.1]
    exact congrArg (Option.map _) (inductionHypothesis free.2)

/-- A text is cut at the mark behind which no further one stands. -/
theorem splitLast?_append_cons (front : Chars) (free : mark ∉ back) :
    splitLast? [mark] (front ++ mark :: back) = some (front, back) := by
  have mirrored : (front ++ mark :: back).reverse = back.reverse ++ mark :: front.reverse := by
    simp
  have freeMirrored : mark ∉ back.reverse := fun member => free (List.mem_reverse.mp member)
  rw [splitLast?, mirrored, List.reverse_singleton, splitFirst?_append_cons freeMirrored]
  simp

theorem splitLast?_of_notMem (free : mark ∉ text) : splitLast? [mark] text = none := by
  rw [splitLast?, Option.map_eq_none_iff, List.reverse_singleton]
  cases cut : splitFirst? [mark] text.reverse with
  | none => rfl
  | some parts =>
    have divided := (splitFirst?_eq_some cut).1
    refine absurd (List.mem_reverse.mp ?_) free
    rw [divided]
    simp

theorem beforeFirst_append_cons (free : mark ∉ front) (back : Chars) :
    beforeFirst [mark] (front ++ mark :: back) = front := by
  rw [beforeFirst, splitFirst?_append_cons free]

theorem beforeFirst_of_notMem (free : mark ∉ text) : beforeFirst [mark] text = text := by
  rw [beforeFirst]
  cases cut : splitFirst? [mark] text with
  | none => rfl
  | some parts =>
    refine absurd ?_ free
    rw [(splitFirst?_eq_some cut).1]
    simp

theorem afterLast_of_notMem (inSeparator : mark ∈ separator) (free : mark ∉ text) :
    afterLast separator text = text := by
  refine (afterLast_spec separator text).1.resolve_right ?_
  rintro ⟨front, divided⟩
  refine free ?_
  rw [divided]
  simp [inSeparator]

/-- What stands behind a separator whose last mark does not follow again is left. -/
theorem afterLast_append (lead front : Chars) (free : mark ∉ back) :
    afterLast (lead ++ [mark]) (front ++ (lead ++ [mark]) ++ back) = back := by
  obtain ⟨all | ⟨before, divided⟩, last⟩ :=
    afterLast_spec (lead ++ [mark]) (front ++ (lead ++ [mark]) ++ back)
  · have shorter := (last front back rfl).length_le
    rw [all] at shorter
    simp only [List.length_append, List.length_singleton] at shorter
    omega
  · obtain ⟨more, rest⟩ := last front back rfl
    generalize afterLast (lead ++ [mark]) (front ++ (lead ++ [mark]) ++ back) = left
      at divided rest
    subst rest
    rcases List.eq_nil_or_concat' more with rfl | ⟨more, other, rfl⟩
    · rfl
    -- Anything more than what is left would end as the separator does.
    · rw [← List.append_assoc, List.append_cancel_right_eq] at divided
      have ends : front ++ (lead ++ [mark]) ++ more ++ [other] = before ++ lead ++ [mark] := by
        simpa using divided
      have isMark : other = mark := List.singleton_inj.mp (List.append_inj_right' ends rfl)
      simp [isMark] at free

theorem afterLast_isSuffix (separator text : Chars) : afterLast separator text <:+ text := by
  rcases (afterLast_spec separator text).1 with all | ⟨front, divided⟩
  · exact all.symm ▸ List.suffix_rfl
  · exact ⟨front ++ separator, divided.symm⟩

end CodeAtlas.Text
