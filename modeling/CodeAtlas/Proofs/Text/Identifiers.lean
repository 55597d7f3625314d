/-
This file says what is not in an identifier. No letter, digit or underscore is blank, and none is a
mark that joins names or stands around them, so that an identifier stays whole wherever texts are
trimmed, cut or replaced.
-/

import CodeAtlas.Proofs.Text.Blank
import CodeAtlas.Text.Letters

namespace CodeAtlas.Text

/-- Whether a text can be an identifier, in whatever language. -/
structure IsIdentifier (text : Chars) : Prop where
  named : text ≠ []
  spelled : ∀ character ∈ text, isIdentifierChar character = true

theorem isIdentifier_of_all {text : Chars} (named : text ≠ [])
    (spelled : text.all isIdentifierChar = true) : IsIdentifier text :=
  ⟨named, List.all_eq_true.mp spelled⟩

theorem unspelled_of_all {marks : Chars}
    (unspelled : marks.all (fun mark => !isIdentifierChar mark) = true) :
    ∀ mark ∈ marks, isIdentifierChar mark = false := by
  simpa using unspelled

/-- The codes of the characters that are blank. -/
def blankCodes : List Nat :=
  List.range' 0x9 5 ++ [0x20, 0x85, 0xA0, 0x1680] ++ List.range' 0x2000 11 ++
    [0x2028, 0x2029, 0x202F, 0x205F, 0x3000]

theorem mem_blankCodes {character : Char} (blank : isBlank character = true) :
    character.toNat ∈ blankCodes := by
  simp only [isBlank, Bool.or_eq_true, Bool.and_eq_true, decide_eq_true_eq, beq_iff_eq] at blank
  simp only [blankCodes, List.mem_append, List.mem_range'_1, List.mem_cons, List.not_mem_nil,
    or_false]
  omega

/-- The code of a blank character is in no range of letters and digits. -/
theorem inRanges_eq_false_of_mem_blankCodes {code : Nat} (blank : code ∈ blankCodes) :
    inRanges alphanumericRanges code = false := by
  -- A range behind the last blank character is apart from all of them.
  have apart : (alphanumericRanges.all fun range => Nat.blt 0x3000 range.1 ||
      blankCodes.all fun code => Nat.blt code range.1 || Nat.blt range.2 code) = true := by
    decide +kernel
  have early : ∀ code ∈ blankCodes, code ≤ 0x3000 := by decide
  have bound := early code blank
  refine List.any_eq_false.mpr fun range isRange => ?_
  have gap := List.all_eq_true.mp apart range isRange
  simp only [Bool.or_eq_true, List.all_eq_true, Nat.blt_eq] at gap
  simp only [Bool.and_eq_true, decide_eq_true_eq]
  rcases gap with behind | gap
  · omega
  · have := gap code blank
    omega

/-- No character that may stand in an identifier is blank. -/
theorem isBlank_eq_false_of_isIdentifierChar {character : Char}
    (spelled : isIdentifierChar character = true) : isBlank character = false := by
  have ascii : ∀ code ∈ blankCodes, code < 0x80 → isIdentifierChar (Char.ofNat code) = false := by
    decide
  have noUnderscore : '_'.toNat ∉ blankCodes := by decide
  refine Bool.eq_false_iff.mpr fun blank => Bool.eq_false_iff.mp ?_ spelled
  have isCode := mem_blankCodes blank
  by_cases inside : character.toNat < 0x80
  · have unspelled := ascii _ isCode inside
    rwa [Char.ofNat_toNat] at unspelled
  · rw [isIdentifierChar, isAlphanumeric, if_neg inside,
      inRanges_eq_false_of_mem_blankCodes isCode, Bool.false_or]
    refine beq_false_of_ne ?_
    rintro rfl
    exact noUnderscore isCode

section

variable {text : Chars} (identifier : IsIdentifier text)

include identifier

theorem IsIdentifier.unblank : ∀ character ∈ text, isBlank character = false :=
  fun character member => isBlank_eq_false_of_isIdentifierChar (identifier.spelled character member)

theorem IsIdentifier.notMem {mark : Char} (unspelled : isIdentifierChar mark = false) :
    mark ∉ text := by
  intro member
  rw [identifier.spelled mark member] at unspelled
  cases unspelled

end

end CodeAtlas.Text
