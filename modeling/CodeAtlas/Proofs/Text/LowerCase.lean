/-
This file compares two ways to overlook the case of letters. One takes the lower-case form of a
text by the rules of the Unicode standard, the other moves the letters A to Z alone. Few
characters outside ASCII have a lower-case form with an ASCII letter in it: the Kelvin sign, whose
small letter is a k, and the capital I with a dot, behind whose small letter a mark outside ASCII
follows. So a word of ASCII characters without a k is found by one way exactly if it is found by
the other.
-/

import CodeAtlas.Text.LowerCase

namespace CodeAtlas.Text

/-! ### Characters -/

/-- Whether a character stands in ASCII. -/
abbrev IsAscii (character : Char) : Prop :=
  character.toNat < 0x80

/-- Outside ASCII the runs of capitals lead to characters outside ASCII, all of them valid, but
for the Kelvin sign. -/
theorem shift_caseRuns : ∀ run ∈ caseRuns,
    run.last < 0x80 ∨ (run.first = 0x212A ∧ run.last = 0x212A ∧ run.shift = -8383) ∨
      (0x80 ≤ run.first + run.shift ∧ run.last + run.shift < 0x110000 ∧
        (run.last + run.shift < 0xD800 ∨ 0xDFFF < run.first + run.shift)) := by
  decide +kernel

/-- The letter k is the only ASCII character that is the small letter of one outside ASCII. -/
theorem lowerChar_eq_k_of_isAscii {character : Char} (outside : ¬ IsAscii character)
    (ascii : IsAscii (lowerChar character)) : lowerChar character = 'k' := by
  rw [lowerChar, if_neg outside] at ascii ⊢
  split at ascii
  · next run found =>
    have member := List.mem_of_find?_eq_some found
    have holds := List.find?_some found
    rw [CaseRun.holds, Bool.and_eq_true, Bool.and_eq_true, decide_eq_true_eq,
      decide_eq_true_eq] at holds
    obtain ⟨⟨first, last⟩, _⟩ := holds
    rcases shift_caseRuns run member with early | ⟨isFirst, isLast, shift⟩ | ⟨least, most, gap⟩
    · omega
    · have code : character.toNat = 0x212A := by omega
      rw [code, shift]
      rfl
    · have valid : Nat.isValidChar (character.toNat + run.shift).toNat := by
        unfold Nat.isValidChar
        omega
      rw [IsAscii, Char.ofNat, dif_pos valid] at ascii
      have code : (Char.ofNatAux _ valid).toNat = (character.toNat + run.shift).toNat := rfl
      omega
  · exact absurd ascii outside

theorem toLower_of_not_isAscii {character : Char} (outside : ¬ IsAscii character) :
    character.toLower = character := by
  unfold Char.toLower
  split
  · next capital =>
    have last : character.toNat ≤ 90 := UInt32.le_iff_toNat_le.mp capital.2
    omega
  · rfl

/-- Taking the small letter of a character changes nothing or leads to the small letters. -/
theorem toLower_eq_self_or (character : Char) :
    character.toLower = character ∨ 97 ≤ character.toLower.toNat := by
  unfold Char.toLower
  split
  · next capital =>
    have first : 65 ≤ character.val.toNat := UInt32.le_iff_toNat_le.mp capital.1
    have last : character.val.toNat ≤ 90 := UInt32.le_iff_toNat_le.mp capital.2
    refine .inr ?_
    show 97 ≤ (character.val + ('a'.val - 'A'.val)).toNat
    rw [UInt32.toNat_add, show ('a'.val - 'A'.val).toNat = 32 from rfl]
    omega
  · exact .inl rfl

/-- An ASCII character other than k has the same capitals by either way. -/
theorem lowerChar_eq_iff {character small : Char} (ascii : IsAscii small) (other : small ≠ 'k') :
    lowerChar character = small ↔ character.toLower = small := by
  by_cases inside : IsAscii character
  · rw [lowerChar, if_pos inside]
  · rw [toLower_of_not_isAscii inside]
    constructor
    · rintro rfl
      exact absurd (lowerChar_eq_k_of_isAscii inside ascii) other
    · rintro rfl
      exact absurd ascii inside

/-! ### Texts -/

/-- Whether a word is made of ASCII characters other than k. -/
def IsPlainWord (word : Chars) : Prop :=
  ∀ character ∈ word, IsAscii character ∧ character ≠ 'k'

theorem lowerAfter_eq_iff {before text word : Chars} (plain : IsPlainWord word) :
    lowerAfter before text = word ↔ text.map Char.toLower = word := by
  induction text generalizing before word with
  | nil => rw [lowerAfter, List.map_nil]
  | cons character text inductionHypothesis =>
    rw [lowerAfter, List.map_cons]
    cases word with
    | nil => split <;> (try split) <;> simp
    | cons small word =>
      obtain ⟨⟨ascii, other⟩, plain⟩ := List.forall_mem_cons.mp plain
      -- The two capitals with rules of their own leave a character outside ASCII.
      split
      · next isSigma =>
        rw [isSigma, toLower_of_not_isAscii (by decide)]
        refine iff_of_false (fun same => ?_) fun same => ?_
        · split at same <;> (obtain ⟨rfl, _⟩ := List.cons.inj same; exact absurd ascii (by decide))
        · obtain ⟨rfl, _⟩ := List.cons.inj same
          exact absurd ascii (by decide)
      split
      · next isDotted =>
        rw [isDotted, toLower_of_not_isAscii (by decide)]
        refine iff_of_false (fun same => ?_) fun same => ?_
        · obtain ⟨_, rest⟩ := List.cons.inj same
          have mark : Char.ofNat 0x307 ∈ word := rest ▸ List.mem_cons_self
          exact absurd (plain _ mark).1 (by decide)
        · obtain ⟨rfl, _⟩ := List.cons.inj same
          exact absurd ascii (by decide)
      · rw [List.singleton_append, List.cons.injEq, List.cons.injEq, lowerChar_eq_iff ascii other,
          inductionHypothesis plain]

/-- The lower-case form of a text is a plain word exactly if the text is that word once its
letters A to Z are small. -/
theorem lower_eq_iff {text word : Chars} (plain : IsPlainWord word) :
    lower text = word ↔ text.map Char.toLower = word :=
  lowerAfter_eq_iff plain

theorem eq_of_lowerChar_eq {character mark : Char} (early : mark.toNat < 97)
    (same : lowerChar character = mark) : character = mark := by
  have other : mark ≠ 'k' := by
    rintro rfl
    exact absurd early (by decide)
  have moved : character.toLower = mark :=
    (lowerChar_eq_iff (by unfold IsAscii; omega) other).mp same
  rcases toLower_eq_self_or character with unmoved | late
  · exact unmoved.symm.trans moved
  · rw [moved] at late
    omega

theorem mem_of_mem_lowerAfter {mark : Char} (early : mark.toNat < 97) {before text : Chars}
    (member : mark ∈ lowerAfter before text) : mark ∈ text := by
  induction text generalizing before with
  | nil => exact member
  | cons character text inductionHypothesis =>
    have late : ∀ small : Char, 97 ≤ small.toNat → mark ≠ small := by
      rintro small late rfl
      omega
    rw [lowerAfter, List.mem_append] at member
    rcases member with here | further
    · -- The letters with rules of their own have only letters and marks of letters in their place.
      split at here
      · split at here
        · exact absurd (List.mem_singleton.mp here) (late _ (by decide))
        · exact absurd (List.mem_singleton.mp here) (late _ (by decide))
      split at here
      · rcases List.mem_cons.mp here with isLetter | isMark
        · exact absurd isLetter (late _ (by decide))
        · exact absurd (List.mem_singleton.mp isMark) (late _ (by decide))
      · have same := (List.mem_singleton.mp here).symm
        exact List.mem_cons.mpr (.inl (eq_of_lowerChar_eq early same).symm)
    · exact List.mem_cons_of_mem _ (inductionHypothesis further)

/-- The lower-case form of a text has no line break, digit or mark of ASCII, up to the first of the
small letters, but those of the text. -/
theorem mem_of_mem_lower {mark : Char} (early : mark.toNat < 97) {text : Chars}
    (member : mark ∈ lower text) : mark ∈ text :=
  mem_of_mem_lowerAfter early member

end CodeAtlas.Text
