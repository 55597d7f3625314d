/-
This file shows that a printed value can be read in one way only. The first character tells
what kind of value it is; a number ends before the first character that no number has, a string
before the first quote that is not escaped, and after a value in brackets comes a comma or a
line break. So two values that are printed the same are the same.
-/

import CodeAtlas.Json.Basic
import CodeAtlas.Proofs.Text.Division
import CodeAtlas.Proofs.Text.Numerals
import Mathlib.Tactic.SplitIfs

namespace CodeAtlas.Json

open Text

/-- What holds of a value if it holds of every value in it holds of all. -/
@[elab_as_elim]
theorem inductionOn {motive : Json → Prop} (null : motive .null)
    (bool : ∀ value, motive (.bool value))
    (number : ∀ mantissa exponent, motive (.number mantissa exponent))
    (string : ∀ text, motive (.string text))
    (array : ∀ elements, (∀ element ∈ elements, motive element) → motive (.array elements))
    (object : ∀ members, (∀ entry ∈ members, motive entry.2) → motive (.object members))
    (value : Json) : motive value := by
  refine @Json.rec motive (fun elements => ∀ element ∈ elements, motive element)
    (fun members => ∀ entry ∈ members, motive entry.2) (fun entry => motive entry.2)
    null bool number string array object ?_ ?_ ?_ ?_ ?_ value
  · intro element member
    cases member
  · intro head tail holdsHead holdsTail
    exact List.forall_mem_cons.mpr ⟨holdsHead, holdsTail⟩
  · intro entry member
    cases member
  · intro head tail holdsHead holdsTail
    exact List.forall_mem_cons.mpr ⟨holdsHead, holdsTail⟩
  · intro key value holds
    exact holds

/-! ### Strings -/

/-- The value of a digit to the base sixteen. -/
def hexValue (digit : Char) : Nat :=
  if digit.isDigit then digit.toNat - 48 else digit.toNat - 87

/-- What a character stands for after a backslash. -/
def meaning (mark : Char) : Char :=
  if mark = 'n' then '\n' else if mark = 'r' then '\r' else if mark = 't' then '\t'
  else if mark = 'b' then Char.ofNat 0x8 else if mark = 'f' then Char.ofNat 0xC else mark

/-- The first character of an escaped text and the text after it. -/
def unescape? : Chars → Option (Char × Chars)
  | [] => none
  | first :: text =>
    if first = '\\' then
      match text with
      | 'u' :: _ :: _ :: high :: low :: rest =>
        some (Char.ofNat (16 * hexValue high + hexValue low), rest)
      | mark :: rest => some (meaning mark, rest)
      | [] => none
    else some (first, text)

theorem hexValue_hexDigit (value : Nat) : hexValue (hexDigit value) = value % 16 := by
  have digits : ∀ digit < 16, hexValue ((Nat.toDigits 16 digit).headD '0') = digit := by decide
  exact digits (value % 16) (Nat.mod_lt _ (by decide))

/-- Every character can be read from the way in which it is escaped. -/
theorem unescape?_escape_append (character : Char) (rest : Chars) :
    unescape? (escape character ++ rest) = some (character, rest) := by
  have ofToNat {code : Nat} (same : character.toNat = code) : Char.ofNat code = character := by
    rw [← same, Char.ofNat_toNat]
  unfold escape
  split_ifs with quotes backslash newline carriage tab backspace feed control
  · rw [quotes]; rfl
  · rw [backslash]; rfl
  · rw [newline]; rfl
  · rw [carriage]; rfl
  · rw [tab]; rfl
  · rw [← ofToNat backspace]; rfl
  · rw [← ofToNat feed]; rfl
  · have whole : 16 * (character.toNat / 16 % 16) + character.toNat % 16 = character.toNat := by
      omega
    simp [unescape?, hexValue_hexDigit, whole, Char.ofNat_toNat]
  · simp [unescape?, backslash]

theorem head?_escape_append (character : Char) (rest : Chars) :
    (escape character ++ rest).head? ≠ some '"' := by
  unfold escape
  split_ifs <;> simp_all

theorem escaped_inj {text other rest tail : Chars}
    (same : text.flatMap escape ++ '"' :: rest = other.flatMap escape ++ '"' :: tail) :
    text = other ∧ rest = tail := by
  induction text generalizing other with
  | nil =>
    cases other with
    | nil => exact ⟨rfl, (List.cons.inj same).2⟩
    | cons second other =>
      rw [List.flatMap_cons, List.append_assoc] at same
      exact absurd (congrArg List.head? same).symm (head?_escape_append second _)
  | cons first text inductionHypothesis =>
    cases other with
    | nil =>
      rw [List.flatMap_cons, List.append_assoc] at same
      exact absurd (congrArg List.head? same) (head?_escape_append first _)
    | cons second other =>
      rw [List.flatMap_cons, List.flatMap_cons, List.append_assoc, List.append_assoc] at same
      have sameRead := congrArg unescape? same
      rw [unescape?_escape_append, unescape?_escape_append, Option.some.injEq,
        Prod.mk.injEq] at sameRead
      obtain ⟨rfl, sameRest⟩ := sameRead
      obtain ⟨rfl, sameTail⟩ := inductionHypothesis sameRest
      exact ⟨rfl, sameTail⟩

theorem toList_quote (text : String) :
    (quote text).toList = '"' :: (text.toList.flatMap escape ++ ['"']) := by
  simp [quote]

/-- A string is legible whatever follows it. -/
theorem legible_quote (ends : Chars → Prop) (text : String) :
    Legible ends (fun text => (quote text).toList) text := by
  intro other rest tail _ _ same
  simp only [toList_quote, List.cons_append, List.cons.injEq, true_and, List.append_assoc,
    List.nil_append] at same
  obtain ⟨sameText, sameRest⟩ := escaped_inj same
  exact ⟨String.toList_inj.mp sameText, sameRest⟩

/-! ### Numbers -/

/-- Whether what follows a value begins as it does after a printed value. -/
def Ends (rest : Chars) : Prop :=
  ∀ character ∈ rest.head?, character = ',' ∨ character = '\n'

/-- Whether a character may stand in a number. -/
def InNumber (character : Char) : Prop :=
  character.isDigit = true ∨ character = '-' ∨ character = 'e'

theorem toList_printNumber (mantissa : Int) (exponent : Nat) :
    (printNumber mantissa exponent).toList = (toString mantissa).toList ++
      if exponent = 0 then [] else 'e' :: '-' :: (toString exponent).toList := by
  unfold printNumber
  split <;> simp

theorem inNumber_of_mem_printNumber {mantissa : Int} {exponent : Nat} {character : Char}
    (member : character ∈ (printNumber mantissa exponent).toList) : InNumber character := by
  have digits {value : Int} (member : character ∈ (toString value).toList) : InNumber character :=
    (of_mem_toString member).imp_right .inl
  rw [toList_printNumber] at member
  rcases List.mem_append.mp member with member | member
  · exact digits member
  · split at member
    · cases member
    · rcases List.mem_cons.mp member with rfl | member
      · exact .inr (.inr rfl)
      · rcases List.mem_cons.mp member with rfl | member
        · exact .inr (.inl rfl)
        · exact .inl (isDigit_of_mem_toString member)

/-- A number tells its mantissa and its exponent. -/
theorem printNumber_inj {mantissa otherMantissa : Int} {exponent otherExponent : Nat}
    (same : printNumber mantissa exponent = printNumber otherMantissa otherExponent) :
    mantissa = otherMantissa ∧ exponent = otherExponent := by
  rw [← String.toList_inj, toList_printNumber, toList_printNumber] at same
  have noMark (mantissa : Int) : ∀ character ∈ (toString mantissa).toList, character ≠ 'e' := by
    rintro _ member rfl
    rcases of_mem_toString member with isDigit | isMinus
    · cases isDigit
    · cases isMinus
  have marked (exponent : Nat) : ∀ character ∈
      (if exponent = 0 then [] else 'e' :: '-' :: (toString exponent).toList).head?,
      ¬ character ≠ 'e' := by
    split <;> simp
  obtain ⟨sameMantissa, sameExponent⟩ := append_inj_of_heads (noMark mantissa)
    (noMark otherMantissa) (marked exponent) (marked otherExponent) same
  refine ⟨toString_int_inj (String.toList_inj.mp sameMantissa), ?_⟩
  split at sameExponent <;> split at sameExponent
  · simp_all
  · cases sameExponent
  · cases sameExponent
  · simp only [List.cons.injEq, true_and] at sameExponent
    exact toString_nat_inj (String.toList_inj.mp sameExponent)

theorem printNumber_append_inj {mantissa otherMantissa : Int} {exponent otherExponent : Nat}
    {rest tail : Chars} (restEnds : Ends rest) (tailEnds : Ends tail)
    (same : (printNumber mantissa exponent).toList ++ rest =
      (printNumber otherMantissa otherExponent).toList ++ tail) :
    mantissa = otherMantissa ∧ exponent = otherExponent ∧ rest = tail := by
  have outside {rest : Chars} (ends : Ends rest) : ∀ character ∈ rest.head?,
      ¬ InNumber character := by
    intro character isHead
    rcases ends character isHead with rfl | rfl <;> simp [InNumber]
  obtain ⟨sameNumber, sameRest⟩ := append_inj_of_heads
    (fun _ => inNumber_of_mem_printNumber) (fun _ => inNumber_of_mem_printNumber)
    (outside restEnds) (outside tailEnds) same
  obtain ⟨sameMantissa, sameExponent⟩ := printNumber_inj (String.toList_inj.mp sameNumber)
  exact ⟨sameMantissa, sameExponent, sameRest⟩

/-! ### Brackets -/

/-- What begins a line at some level. -/
def lead (level : Nat) : Chars :=
  '\n' :: List.replicate (2 * level) ' '

theorem toList_lineStart (level : Nat) : (lineStart level).toList = lead level := by
  simp [lineStart, lead]

/-- Some items in brackets, each on a line of its own. -/
def bracketed {α : Type} (level : Nat) (opening closing : Char) (write : α → Chars) :
    List α → Chars
  | [] => [opening, closing]
  | item :: items =>
    opening :: (lead (level + 1) ++ (write item ++
      (items.flatMap (fun item => ',' :: lead (level + 1) ++ write item) ++
        (lead level ++ [closing]))))

theorem toList_printAt_array (level : Nat) (elements : List Json) :
    (printAt level (.array elements)).toList =
      bracketed level '[' ']' (fun element => (printAt (level + 1) element).toList) elements := by
  have later (elements : List Json) : (printElements (level + 1) false elements).toList =
      elements.flatMap fun element =>
        ',' :: lead (level + 1) ++ (printAt (level + 1) element).toList := by
    induction elements with
    | nil => rfl
    | cons element elements inductionHypothesis =>
      simp [printElements, before, toList_lineStart, inductionHypothesis]
  cases elements with
  | nil => simp [printAt, bracketed]
  | cons element elements =>
    simp [printAt, printElements, before, bracketed, toList_lineStart, later]

/-- How a member of an object is written at some level. -/
def writeMember (level : Nat) (entry : String × Json) : Chars :=
  (quote entry.1).toList ++ (':' :: ' ' :: (printAt level entry.2).toList)

theorem toList_printAt_object (level : Nat) (members : List (String × Json)) :
    (printAt level (.object members)).toList =
      bracketed level '\x7b' '\x7d' (writeMember (level + 1)) members := by
  have later (members : List (String × Json)) :
      (printMembers (level + 1) false members).toList =
        members.flatMap fun entry => ',' :: lead (level + 1) ++ writeMember (level + 1) entry := by
    induction members with
    | nil => rfl
    | cons entry members inductionHypothesis =>
      simp [printMembers, before, toList_lineStart, writeMember, inductionHypothesis]
  cases members with
  | nil => simp [printAt, bracketed]
  | cons entry members =>
    simp [printAt, printMembers, before, bracketed, toList_lineStart, writeMember, later]

theorem ends_lead_append (level : Nat) (rest : Chars) : Ends (lead level ++ rest) := by
  intro character isHead
  exact .inr (Option.some.inj isHead).symm

theorem ends_comma (rest : Chars) : Ends (',' :: rest) := by
  intro character isHead
  exact .inl (Option.some.inj isHead).symm

/-- Items in brackets are legible if each of them is. -/
theorem legible_bracketed {α : Type} {write : α → Chars} {items : List α}
    (legible : ∀ item ∈ items, Legible Ends write item) (level : Nat) (opening : Char)
    {closing : Char} (closes : closing ≠ '\n') :
    Legible Ends (bracketed level opening closing write) items := by
  intro others rest tail _ _ same
  cases items with
  | nil =>
    cases others with
    | nil => exact ⟨rfl, List.append_cancel_left same⟩
    | cons other others => exact absurd (List.cons.inj (List.cons.inj same).2).1 closes
  | cons item items =>
    cases others with
    | nil => exact absurd (List.cons.inj (List.cons.inj same).2).1.symm closes
    | cons other others =>
      obtain ⟨legibleFirst, legible⟩ := List.forall_mem_cons.mp legible
      simp only [bracketed, List.cons_append, List.append_assoc, List.cons.injEq, true_and,
        List.append_cancel_left_eq] at same
      obtain ⟨rfl, sameItems⟩ := legibleFirst other _ _
        (ends_flatMap_append ends_comma items (ends_lead_append level _))
        (ends_flatMap_append ends_comma others (ends_lead_append level _)) same
      obtain ⟨rfl, sameEnd⟩ := flatMap_append_inj legible ends_comma (ends_lead_append level _)
        (ends_lead_append level _) (by simp [lead]) (by simp [lead]) sameItems
      rw [List.append_cancel_left_eq] at sameEnd
      exact ⟨rfl, (List.cons.inj sameEnd).2⟩

theorem legible_writeMember {entry : String × Json} {level : Nat}
    (legible : Legible Ends (fun value => (printAt level value).toList) entry.2) :
    Legible Ends (writeMember level) entry := by
  intro other rest tail restEnds tailEnds same
  simp only [writeMember, List.append_assoc, List.cons_append] at same
  obtain ⟨sameKey, sameValue⟩ := legible_quote (fun _ => True) entry.1 other.1 _ _ trivial trivial
    same
  simp only [List.cons.injEq, true_and] at sameValue
  obtain ⟨sameValue, sameRest⟩ := legible other.2 rest tail restEnds tailEnds sameValue
  exact ⟨Prod.ext sameKey sameValue, sameRest⟩

/-! ### Values -/

/-- The kinds of values. -/
inductive Kind where
  | null
  | bool
  | number
  | string
  | array
  | object

/-- The kind of a value. -/
def kind : Json → Kind
  | null => .null
  | bool _ => .bool
  | number _ _ => .number
  | string _ => .string
  | array _ => .array
  | object _ => .object

/-- The kind of the values whose text begins with a character. -/
def kindOf (character : Char) : Kind :=
  if character = 'n' then .null
  else if character = 't' ∨ character = 'f' then .bool
  else if character = '"' then .string
  else if character = '[' then .array
  else if character = '\x7b' then .object
  else .number

theorem kindOf_number {character : Char}
    (inNumber : character.isDigit = true ∨ character = '-') : kindOf character = .number := by
  have isNot (other : Char) (notDigit : other.isDigit = false) (notMinus : other ≠ '-') :
      character ≠ other := by
    rintro rfl
    rcases inNumber with isDigit | isMinus
    · rw [isDigit] at notDigit
      cases notDigit
    · exact notMinus isMinus
  simp [kindOf, isNot 'n', isNot 't', isNot 'f', isNot '"', isNot '[', isNot '\x7b']

/-- The text of a value begins with a character that tells the kind of the value. -/
theorem exists_head_printAt (level : Nat) (value : Json) :
    ∃ first, (printAt level value).toList.head? = some first ∧ kindOf first = value.kind := by
  cases value with
  | null => exact ⟨'n', by simp [printAt], rfl⟩
  | bool value => cases value <;> exact ⟨_, by simp [printAt]; rfl, rfl⟩
  | number mantissa exponent =>
    obtain ⟨first, more, whole⟩ := List.exists_cons_of_ne_nil (toList_toString_ne_nil mantissa)
    refine ⟨first, ?_, kindOf_number (@of_mem_toString mantissa first ?_)⟩
    · rw [printAt, toList_printNumber, whole]
      rfl
    · rw [whole]
      exact List.mem_cons_self
  | string text => exact ⟨'"', by simp [printAt, quote], rfl⟩
  | array elements =>
    refine ⟨'[', ?_, rfl⟩
    rw [toList_printAt_array]
    cases elements <;> rfl
  | object members =>
    refine ⟨'\x7b', ?_, rfl⟩
    rw [toList_printAt_object]
    cases members <;> rfl

theorem kind_eq {level : Nat} {first second : Json} {rest tail : Chars}
    (same : (printAt level first).toList ++ rest = (printAt level second).toList ++ tail) :
    first.kind = second.kind := by
  obtain ⟨head, isHead, isKind⟩ := exists_head_printAt level first
  obtain ⟨otherHead, isOtherHead, isOtherKind⟩ := exists_head_printAt level second
  have sameHead := congrArg List.head? same
  rw [List.head?_append, List.head?_append, isHead, isOtherHead] at sameHead
  obtain rfl : head = otherHead := by simpa using sameHead
  rw [← isKind, isOtherKind]

/-- Every value is legible at every level. -/
theorem legible_printAt (value : Json) (level : Nat) :
    Legible Ends (fun value => (printAt level value).toList) value := by
  -- The induction is on one value; a value of another kind begins with another character.
  induction value using inductionOn generalizing level with
  | null =>
    intro other rest tail _ _ same
    cases other with
    | null => exact ⟨rfl, List.append_cancel_left same⟩
    | _ => cases kind_eq same
  | bool value =>
    intro other rest tail _ _ same
    cases other with
    | bool other =>
      cases value <;> cases other <;> simp [printAt] at same ⊢
      · exact same
      · exact same
    | _ => cases kind_eq same
  | number mantissa exponent =>
    intro other rest tail restEnds tailEnds same
    cases other with
    | number otherMantissa otherExponent =>
      obtain ⟨rfl, rfl, sameRest⟩ := printNumber_append_inj restEnds tailEnds same
      exact ⟨rfl, sameRest⟩
    | _ => cases kind_eq same
  | string text =>
    intro other rest tail restEnds tailEnds same
    cases other with
    | string other =>
      obtain ⟨rfl, sameRest⟩ := legible_quote Ends text other rest tail restEnds tailEnds same
      exact ⟨rfl, sameRest⟩
    | _ => cases kind_eq same
  | array elements inductionHypothesis =>
    intro other rest tail restEnds tailEnds same
    cases other with
    | array others =>
      simp only [toList_printAt_array] at same
      obtain ⟨rfl, sameRest⟩ := legible_bracketed (fun element member =>
        inductionHypothesis element member (level + 1)) level '[' (by decide) others rest tail
        restEnds tailEnds same
      exact ⟨rfl, sameRest⟩
    | _ => cases kind_eq same
  | object members inductionHypothesis =>
    intro other rest tail restEnds tailEnds same
    cases other with
    | object others =>
      simp only [toList_printAt_object] at same
      obtain ⟨rfl, sameRest⟩ := legible_bracketed (fun entry member =>
        legible_writeMember (inductionHypothesis entry member (level + 1))) level '\x7b' (by decide)
        others rest tail restEnds tailEnds same
      exact ⟨rfl, sameRest⟩
    | _ => cases kind_eq same

/-- Values that are printed the same are the same. -/
theorem print_inj {first second : Json} (same : print first = print second) : first = second := by
  have nothing : Ends [] := by
    intro character isHead
    cases isHead
  exact (legible_printAt first 0 second [] [] nothing nothing (by
    rw [List.append_nil, List.append_nil]
    exact congrArg String.toList same)).1

end CodeAtlas.Json
