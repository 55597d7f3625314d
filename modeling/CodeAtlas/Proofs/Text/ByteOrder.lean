/-
This file compares the order of texts with the order of their bytes. Texts are ordered by their
characters, the first that differs deciding. In UTF-8 a greater character has the greater byte
where the two first differ, so that the order of the bytes is the same.
-/

import Mathlib.Data.List.Lex
import Mathlib.Data.String.Basic

namespace CodeAtlas.Text

/-- The bytes of a text in UTF-8. -/
def utf8Bytes (text : String) : List UInt8 :=
  text.toUTF8.data.toList

theorem utf8Bytes_eq (text : String) :
    utf8Bytes text = text.toList.flatMap String.utf8EncodeChar := by
  have bytes : text.toByteArray = text.toList.utf8Encode := String.utf8Encode_toList.symm
  rw [utf8Bytes, String.toUTF8_eq_toByteArray, bytes, List.utf8Encode]
  simp

/-! ### Characters -/

theorem ofNat_lt_iff {first second : Nat} (firstIsByte : first < 256)
    (secondIsByte : second < 256) : UInt8.ofNat first < UInt8.ofNat second ↔ first < second := by
  rw [UInt8.lt_iff_toNat_lt, UInt8.toNat_ofNat', UInt8.toNat_ofNat', Nat.mod_eq_of_lt firstIsByte,
    Nat.mod_eq_of_lt secondIsByte]

theorem ofNat_eq_iff {first second : Nat} (firstIsByte : first < 256)
    (secondIsByte : second < 256) : UInt8.ofNat first = UInt8.ofNat second ↔ first = second := by
  rw [← UInt8.toNat_inj, UInt8.toNat_ofNat', UInt8.toNat_ofNat', Nat.mod_eq_of_lt firstIsByte,
    Nat.mod_eq_of_lt secondIsByte]

/-- The bytes of a lesser character come before those of a greater one, whatever follows. -/
theorem utf8EncodeChar_append_lt {first second : Char} (before : first < second)
    (rest tail : List UInt8) :
    String.utf8EncodeChar first ++ rest < String.utf8EncodeChar second ++ tail := by
  have less : first.val.toNat < second.val.toNat := before
  have limit : second.val.toNat < 0x110000 := by
    rcases second.valid with small | ⟨_, small⟩
    · omega
    · exact small
  unfold String.utf8EncodeChar
  dsimp only
  generalize first.val.toNat = one at less
  generalize second.val.toNat = two at less limit
  -- The digits of a number to the base 64 are its bytes, apart from the marks of their places.
  have digits (value : Nat) : value / 4096 = value / 64 / 64 ∧
      value / 262144 = value / 64 / 64 / 64 := by omega
  rw [(digits one).1, (digits one).2, (digits two).1, (digits two).2]
  repeat' split
  all_goals
    simp (disch := omega) only [List.cons_append, List.nil_append, List.cons_lt_cons_iff,
      ofNat_lt_iff, ofNat_eq_iff]
    omega

/-! ### Texts -/

theorem flatMap_utf8EncodeChar_lt {first second : List Char} (before : first < second) :
    first.flatMap String.utf8EncodeChar < second.flatMap String.utf8EncodeChar := by
  induction first generalizing second with
  | nil =>
    cases second with
    | nil => exact absurd before (List.lt_irrefl [])
    | cons character second =>
      obtain ⟨byte, bytes, encoded⟩ :=
        List.exists_cons_of_ne_nil (String.utf8EncodeChar_ne_nil (c := character))
      rw [List.flatMap_nil, List.flatMap_cons, encoded]
      exact List.nil_lt_cons byte _
  | cons character first inductionHypothesis =>
    cases second with
    | nil => exact absurd before (List.not_lt_nil _)
    | cons other second =>
      rw [List.flatMap_cons, List.flatMap_cons]
      rcases List.cons_lt_cons_iff.mp before with less | ⟨rfl, rest⟩
      · exact utf8EncodeChar_append_lt less _ _
      · exact List.append_left_lt (inductionHypothesis rest)

/-- Texts are ordered as their bytes are. -/
theorem lt_iff_utf8Bytes_lt (first second : String) :
    first < second ↔ utf8Bytes first < utf8Bytes second := by
  have forward {first second : String} (before : first < second) :
      utf8Bytes first < utf8Bytes second := by
    rw [utf8Bytes_eq, utf8Bytes_eq]
    exact flatMap_utf8EncodeChar_lt (String.lt_iff.mp before)
  refine ⟨forward, fun before => ?_⟩
  rcases Std.lt_trichotomy first second with less | equal | greater
  · exact less
  · exact absurd (equal ▸ before) (List.lt_irrefl _)
  · exact absurd (List.lt_trans before (forward greater)) (List.lt_irrefl _)

end CodeAtlas.Text
