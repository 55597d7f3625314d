/-
This file says what searching a text finds. Beginnings, ends and parts of a text are computed
by walks over its characters; here each walk is tied to the relation between lists that it
decides, so that no later proof has to follow the walk.
-/

import CodeAtlas.Text.Chars

namespace CodeAtlas.Text

/-! ### Beginnings -/

theorem stripFront?_eq_some_iff {front text rest : Chars} :
    stripFront? front text = some rest ↔ text = front ++ rest := by
  constructor
  · exact eq_append_of_stripFront?
  · rintro rfl
    exact stripFront?_append front rest

theorem stripFront?_eq_none_iff {front text : Chars} :
    stripFront? front text = none ↔ ¬ front <+: text := by
  rw [Option.eq_none_iff_forall_ne_some]
  constructor
  · rintro absent ⟨rest, rfl⟩
    exact absent rest (stripFront?_append front rest)
  · intro other rest found
    exact other ⟨rest, (stripFront?_eq_some_iff.mp found).symm⟩

theorem startsWith_iff {front text : Chars} : startsWith front text = true ↔ front <+: text := by
  unfold startsWith
  rw [Option.isSome_iff_exists]
  constructor
  · rintro ⟨rest, found⟩
    exact ⟨rest, (stripFront?_eq_some_iff.mp found).symm⟩
  · rintro ⟨rest, rfl⟩
    exact ⟨rest, stripFront?_append front rest⟩

/-! ### Parts -/

/-- The search for a part finds it exactly if the text is the part with something before and
something after it. -/
theorem occursIn_iff {part text : Chars} : occursIn part text = true ↔ part <:+: text := by
  induction text with
  | nil =>
    rw [List.infix_nil]
    exact List.isEmpty_iff
  | cons character text inductionHypothesis =>
    rw [occursIn, Bool.or_eq_true, startsWith_iff, inductionHypothesis, List.infix_cons_iff]

/-- A part in which a character does not occur stands in a text on one side of that character. -/
theorem infix_append_cons_iff {part before after : Chars} {separator : Char}
    (free : separator ∉ part) :
    part <:+: before ++ separator :: after ↔ part <:+: before ∨ part <:+: after := by
  constructor
  · rintro ⟨front, back, equal⟩
    rcases List.append_eq_append_iff.mp equal with ⟨rest, rfl, _⟩ | ⟨rest, around, behind⟩
    · exact .inl ⟨front, rest, rfl⟩
    · rcases List.cons_eq_append_iff.mp behind with ⟨rfl, _⟩ | ⟨rest, rfl, rfl⟩
      · rw [List.append_nil] at around
        exact .inl ⟨front, [], by rw [List.append_nil, around]⟩
      -- The part begins before the separator, where it would hold it, or behind it.
      · rcases List.append_eq_append_iff.mp around with ⟨held, _, rfl⟩ | ⟨held, _, later⟩
        · exact absurd (List.mem_append_right held List.mem_cons_self) free
        · rcases List.cons_eq_append_iff.mp later with ⟨_, rfl⟩ | ⟨gap, _, rfl⟩
          · exact absurd List.mem_cons_self free
          · exact .inr ⟨gap, back, rfl⟩
  · rintro (inBefore | inAfter)
    · exact inBefore.trans (List.prefix_append before _).isInfix
    · exact inAfter.trans ((List.suffix_cons separator after).trans
        (List.suffix_append before _)).isInfix

end CodeAtlas.Text
