/-
This file says what is left of a return type behind the mark that introduces it. First an arrow is
stripped and then a colon, whether or not there was an arrow. So behind a colon the type is found
whole. Behind an arrow, and where there is no mark at all, it is found whole unless it is named
from the root: then the first colon of the root is stripped as if it were a mark.
-/

import CodeAtlas.Extraction.Names
import CodeAtlas.Proofs.Text.Blank
import CodeAtlas.Proofs.Text.Search

namespace CodeAtlas.Names

open Text

/-! ### Return types as they are written -/

/-- What introduces a return type: nothing, an arrow or a colon. -/
inductive ReturnMark where
  | bare
  | arrow
  | colon
deriving DecidableEq

/-- The text of a return type behind its mark. -/
def ReturnMark.before (mark : ReturnMark) (type : Chars) : Chars :=
  match mark with
  | bare => type
  | arrow => "-> ".toList ++ type
  | colon => ": ".toList ++ type

/-- Whether a type is named from the root of all modules. -/
def IsRooted (type : Chars) : Prop :=
  [':', ':'] <+: type

instance (type : Chars) : Decidable (IsRooted type) :=
  inferInstanceAs (Decidable ([':', ':'] <+: type))

/-- Whether a text can be that of a type: no blanks are around it and it does not begin with a
mark. A colon at its beginning is one of the two that stand for the root. -/
structure IsReturnType (type : Chars) : Prop where
  named : type ≠ []
  trimmed : trim type = type
  noArrow : ¬ ['-', '>'] <+: type
  noColon : [':'] <+: type → IsRooted type

/-! ### Stripping marks -/

theorem without_append (front text : Chars) : without front (front ++ text) = text := by
  rw [without, stripFront?_append, Option.getD_some]

theorem without_eq_self {front text : Chars} (other : ¬ front <+: text) :
    without front text = text := by
  rw [without, stripFront?_eq_none_iff.mpr other, Option.getD_none]

/-- A return type behind its arrow. -/
def withoutArrow (text : Chars) : Chars :=
  trimFront (without ['-', '>'] (trim text))

theorem returnType_eq (text : Chars) : returnType text = trim (without [':'] (withoutArrow text)) :=
  rfl

section

variable {type : Chars} (isType : IsReturnType type)

include isType

theorem IsReturnType.trimFront_eq : trimFront type = type :=
  dropWhile_eq_self (ends_of_trimmed isType.trimmed).1

/-- A mark before a type is not blank, and so is not trimmed. -/
theorem IsReturnType.trim_append {front : Chars}
    (begins : ∀ character ∈ front.head?, isBlank character = false) :
    trim (front ++ type) = front ++ type :=
  trim_append_of_trimmed isType.named isType.trimmed begins

theorem IsReturnType.withoutArrow_bare : withoutArrow type = type := by
  rw [withoutArrow, isType.trimmed, without_eq_self isType.noArrow, isType.trimFront_eq]

theorem IsReturnType.withoutArrow_arrow : withoutArrow ("-> ".toList ++ type) = type := by
  have trimmed : trim ("-> ".toList ++ type) = ['-', '>'] ++ (' ' :: type) :=
    isType.trim_append fun character begins => Option.some.inj begins ▸ rfl
  have space : trimFront (' ' :: type) = trimFront type := rfl
  rw [withoutArrow, trimmed, without_append, space, isType.trimFront_eq]

theorem IsReturnType.withoutArrow_colon :
    withoutArrow (": ".toList ++ type) = ": ".toList ++ type := by
  have trimmed : trim (": ".toList ++ type) = ": ".toList ++ type :=
    isType.trim_append fun character begins => Option.some.inj begins ▸ rfl
  have noArrow : ¬ ['-', '>'] <+: ": ".toList ++ type := by
    rintro ⟨rest, same⟩
    cases List.cons.inj same |>.1
  rw [withoutArrow, trimmed, without_eq_self noArrow]
  rfl

/-- Behind a colon that is stripped the type stands, with a space before it. -/
theorem IsReturnType.returnType_colon : returnType (": ".toList ++ type) = type := by
  have divided : ": ".toList ++ type = [':'] ++ ([' '] ++ type) := rfl
  rw [returnType_eq, isType.withoutArrow_colon, divided, without_append,
    trim_append_of_blank (List.forall_mem_singleton.mpr rfl), isType.trimmed]

/-- If no colon was the mark, one is stripped from a type that is named from the root. -/
theorem IsReturnType.trim_without_colon :
    trim (without [':'] type) = if IsRooted type then type.tail else type := by
  split
  · next rooted =>
    obtain ⟨rest, rfl⟩ := rooted
    have trimmed : trim ([':'] ++ (':' :: rest)) = [':'] ++ (':' :: rest) := isType.trimmed
    have ends := (ends_of_trimmed trimmed).2
    rw [List.getLast?_append_of_ne_nil _ (List.cons_ne_nil _ _)] at ends
    have divided : [':', ':'] ++ rest = [':'] ++ (':' :: rest) := rfl
    rw [divided, without_append]
    exact dropAround_eq_self (fun character begins => Option.some.inj begins ▸ rfl) ends
  · next notRooted => rw [without_eq_self (mt isType.noColon notRooted), isType.trimmed]

theorem IsReturnType.returnType_before (mark : ReturnMark) :
    returnType (mark.before type) =
      if mark ≠ .colon ∧ IsRooted type then type.tail else type := by
  cases mark with
  | bare =>
    have left : withoutArrow (ReturnMark.bare.before type) = type := isType.withoutArrow_bare
    simpa [returnType_eq, left] using isType.trim_without_colon
  | arrow =>
    have left : withoutArrow (ReturnMark.arrow.before type) = type := isType.withoutArrow_arrow
    simpa [returnType_eq, left] using isType.trim_without_colon
  | colon => exact isType.returnType_colon

/-- Behind each mark the type itself is found exactly if the mark is a colon or the type is not
named from the root; and nothing is ever lost but the first colon of the root. -/
theorem returnType_before_iff (mark : ReturnMark) :
    (returnType (mark.before type) = type ↔ mark = .colon ∨ ¬ IsRooted type) ∧
      (returnType (mark.before type) = type ∨ ':' :: returnType (mark.before type) = type) := by
  rw [isType.returnType_before mark]
  split
  · next lost =>
    obtain ⟨notColon, rest, rfl⟩ := lost
    have shorter : (':' :: rest) ≠ ':' :: ':' :: rest := by simp
    refine ⟨iff_of_false shorter fun kept => ?_, .inr rfl⟩
    exact kept.elim notColon fun notRooted => notRooted ⟨rest, rfl⟩
  · next whole => exact ⟨iff_of_true rfl (by tauto), .inl rfl⟩

end

/-- Where a type is not named from the root or is behind a colon, it is found whole. -/
theorem returnType_before_iff_string :
    returnType "-> std::String".toList = "std::String".toList ∧
      returnType ": ::std::String".toList = "::std::String".toList := by
  have isType : IsReturnType "std::String".toList :=
    ⟨by decide, by decide +kernel, by decide, by decide⟩
  have isRooted : IsReturnType "::std::String".toList :=
    ⟨by decide, by decide +kernel, by decide, by decide⟩
  exact ⟨(returnType_before_iff isType .arrow).1.mpr (.inr (by decide)),
    (returnType_before_iff isRooted .colon).1.mpr (.inl rfl)⟩

/-- A type that is named from the root loses a colon where there is no mark and behind an arrow. -/
theorem exists_returnType_before_ne :
    ∃ type, IsReturnType type ∧ type = "::std::String".toList ∧
      returnType (ReturnMark.bare.before type) = ":std::String".toList ∧
      returnType (ReturnMark.arrow.before type) = ":std::String".toList :=
  ⟨_, ⟨by decide, by decide +kernel, by decide, by decide⟩, rfl, by decide +kernel,
    by decide +kernel⟩

end CodeAtlas.Names
