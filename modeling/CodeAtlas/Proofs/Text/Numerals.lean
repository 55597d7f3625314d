/-
This file says how numbers are written. A natural number is written in digits alone, an integer below
zero with a minus before them, and different numbers are written differently.
-/

import CodeAtlas.Text.Chars

namespace CodeAtlas.Text

theorem isDigit_of_mem_toString {value : Nat} {character : Char}
    (member : character ∈ (toString value).toList) : character.isDigit = true := by
  rw [Nat.toString_eq_repr, Nat.toList_repr] at member
  exact Nat.isDigit_of_mem_toDigits (by decide) (by decide) member

theorem toString_nat_inj {value other : Nat} (same : toString value = toString other) :
    value = other := by
  have sameValue := congrArg (fun digits : String => Nat.ofDigitChars 10 digits.toList 0) same
  simpa using sameValue

/-- Below zero the digits stand behind a minus. -/
theorem toString_negSucc (value : Nat) :
    (toString (Int.negSucc value)).toList = '-' :: (toString (value + 1)).toList := by
  have whole : toString (Int.negSucc value) = "-" ++ toString (value + 1) := rfl
  rw [whole, String.toList_append]
  rfl

theorem toString_ofNat_ne_negSucc (value other : Nat) :
    toString (Int.ofNat value) ≠ toString (Int.negSucc other) := by
  intro same
  have minus : '-' ∈ (toString value).toList := by
    rw [show toString value = toString (Int.ofNat value) from rfl, same, toString_negSucc]
    exact List.mem_cons_self
  cases isDigit_of_mem_toString minus

theorem toString_int_inj {value other : Int} (same : toString value = toString other) :
    value = other := by
  rcases value with value | value <;> rcases other with other | other
  · exact congrArg Int.ofNat (toString_nat_inj same)
  · exact absurd same (toString_ofNat_ne_negSucc value other)
  · exact absurd same.symm (toString_ofNat_ne_negSucc other value)
  · have sameDigits := congrArg String.toList same
    rw [toString_negSucc, toString_negSucc, List.cons.injEq, String.toList_inj] at sameDigits
    exact congrArg Int.negSucc (Nat.succ.inj (toString_nat_inj sameDigits.2))

theorem of_mem_toString {value : Int} {character : Char}
    (member : character ∈ (toString value).toList) :
    character.isDigit = true ∨ character = '-' := by
  rcases value with value | value
  · exact .inl (isDigit_of_mem_toString member)
  · rw [toString_negSucc] at member
    rcases List.mem_cons.mp member with rfl | member
    · exact .inr rfl
    · exact .inl (isDigit_of_mem_toString member)

theorem toList_toString_ne_nil (value : Int) : (toString value).toList ≠ [] := by
  rcases value with value | value
  · rw [show toString (Int.ofNat value) = toString value from rfl, Nat.toString_eq_repr,
      Nat.toList_repr]
    exact Nat.toDigits_ne_nil
  · rw [toString_negSucc]
    exact List.cons_ne_nil _ _

end CodeAtlas.Text
