/-
This file says what trimming leaves. A trimmed text is empty exactly if nothing but dropped
characters stood in it, and none of these stands at either end of it.
-/

import CodeAtlas.Text.Blank
import Mathlib.Data.List.Basic
import Mathlib.Data.List.TakeWhile

namespace CodeAtlas.Text

theorem exists_dropEnd_append (drop : Char → Bool) (text : Chars) :
    ∃ dropped, text = dropEnd drop text ++ dropped ∧
      ∀ character ∈ dropped, drop character = true := by
  refine ⟨(text.reverse.takeWhile drop).reverse, ?_, fun character member => ?_⟩
  · rw [dropEnd, ← List.reverse_append, List.takeWhile_append_dropWhile, List.reverse_reverse]
  · exact List.mem_takeWhile_imp (List.mem_reverse.mp member)

theorem dropEnd_eq_nil_iff {drop : Char → Bool} {text : Chars} :
    dropEnd drop text = [] ↔ ∀ character ∈ text, drop character = true := by
  unfold dropEnd
  rw [List.reverse_eq_nil_iff, List.dropWhile_eq_nil_iff]
  simp only [List.mem_reverse]

/-- Nothing is left between the ends of a text exactly if all of it is dropped. -/
theorem dropAround_eq_nil_iff {drop : Char → Bool} {text : Chars} :
    dropAround drop text = [] ↔ ∀ character ∈ text, drop character = true := by
  unfold dropAround
  rw [dropEnd_eq_nil_iff]
  constructor
  · intro dropped character member
    rw [← List.takeWhile_append_dropWhile (p := drop) (l := text), List.mem_append] at member
    rcases member with front | back
    · exact List.mem_takeWhile_imp front
    · exact dropped character back
  · intro dropped character member
    exact dropped character ((List.dropWhile_sublist drop).subset member)

/-- No dropped character stands at the end. -/
theorem eq_false_of_mem_getLast?_dropEnd {drop : Char → Bool} {text : Chars} {character : Char}
    (ends : character ∈ (dropEnd drop text).getLast?) : drop character = false := by
  rw [dropEnd, List.getLast?_reverse, Option.mem_def] at ends
  have first := List.head?_dropWhile_not drop text.reverse
  rwa [ends] at first

/-- No dropped character stands at the beginning. -/
theorem eq_false_of_mem_head?_dropAround {drop : Char → Bool} {text : Chars} {character : Char}
    (begins : character ∈ (dropAround drop text).head?) : drop character = false := by
  obtain ⟨dropped, divided, _⟩ := exists_dropEnd_append drop (text.dropWhile drop)
  have beginsBefore : (text.dropWhile drop).head? = some character := by
    rw [divided, List.head?_append]
    exact Option.or_eq_some_iff.mpr (.inl begins)
  have first := List.head?_dropWhile_not drop text
  rwa [beginsBefore] at first

theorem dropWhile_eq_self {drop : Char → Bool} {text : Chars}
    (begins : ∀ character ∈ text.head?, drop character = false) : text.dropWhile drop = text := by
  cases text with
  | nil => rfl
  | cons character text =>
    exact List.dropWhile_cons_of_neg (Bool.eq_false_iff.mp (begins character rfl))

theorem dropEnd_eq_self {drop : Char → Bool} {text : Chars}
    (ends : ∀ character ∈ text.getLast?, drop character = false) : dropEnd drop text = text := by
  have begunBehind : ∀ character ∈ text.reverse.head?, drop character = false := by
    rwa [List.head?_reverse]
  rw [dropEnd, dropWhile_eq_self begunBehind, List.reverse_reverse]

theorem dropEnd_dropEnd (drop : Char → Bool) (text : Chars) :
    dropEnd drop (dropEnd drop text) = dropEnd drop text :=
  dropEnd_eq_self fun _ ends => eq_false_of_mem_getLast?_dropEnd ends

/-- Nothing is dropped from a text with nothing at either end that is to be dropped. -/
theorem dropAround_eq_self {drop : Char → Bool} {text : Chars}
    (begins : ∀ character ∈ text.head?, drop character = false)
    (ends : ∀ character ∈ text.getLast?, drop character = false) : dropAround drop text = text := by
  rw [dropAround, dropWhile_eq_self begins, dropEnd_eq_self ends]

/-- What is left between the ends is a part of the text. -/
theorem dropAround_isInfix (drop : Char → Bool) (text : Chars) :
    dropAround drop text <:+: text := by
  obtain ⟨dropped, divided, _⟩ := exists_dropEnd_append drop (text.dropWhile drop)
  refine List.IsInfix.trans ?_ (List.dropWhile_suffix drop).isInfix
  exact ⟨[], dropped, divided.symm⟩

theorem unblank_of_any {text : Chars} (unblank : text.any isBlank = false) :
    ∀ character ∈ text, isBlank character = false := by
  simpa using unblank

theorem trim_eq_self {text : Chars} (unblank : ∀ character ∈ text, isBlank character = false) :
    trim text = text :=
  dropAround_eq_self (fun character begins => unblank character (List.mem_of_mem_head? begins))
    fun character ends => unblank character (List.mem_of_mem_getLast? ends)

theorem trim_trim (text : Chars) : trim (trim text) = trim text :=
  dropAround_eq_self (fun _ begins => eq_false_of_mem_head?_dropAround begins)
    fun _ ends => eq_false_of_mem_getLast?_dropEnd ends

theorem trim_eq_nil_iff {text : Chars} :
    trim text = [] ↔ ∀ character ∈ text, isBlank character = true :=
  dropAround_eq_nil_iff

/-! ### Blanks around a text -/

theorem dropEnd_append_of_pos {drop : Char → Bool} {back : Chars}
    (dropped : ∀ character ∈ back, drop character = true) (text : Chars) :
    dropEnd drop (text ++ back) = dropEnd drop text := by
  rw [dropEnd, dropEnd, List.reverse_append, List.dropWhile_append_of_pos]
  exact fun character member => dropped character (List.mem_reverse.mp member)

theorem trim_append_of_blank {front : Chars}
    (blank : ∀ character ∈ front, isBlank character = true) (text : Chars) :
    trim (front ++ text) = trim text :=
  congrArg (dropEnd isBlank) (List.dropWhile_append_of_pos blank)

theorem trim_append_blank {back : Chars} (blank : ∀ character ∈ back, isBlank character = true)
    (text : Chars) : trim (text ++ back) = trim text := by
  rw [trim, trim, dropAround, dropAround]
  rcases List.eq_nil_or_concat' (text.dropWhile isBlank) with allBlank | ⟨kept, last, divided⟩
  · rw [List.dropWhile_append, allBlank]
    exact dropEnd_eq_nil_iff.mpr fun character member =>
      blank character ((List.dropWhile_sublist isBlank).subset member)
  · rw [List.dropWhile_append, divided, if_neg (by simp), dropEnd_append_of_pos blank]

/-- Of a trimmed text neither the first character nor the last one is blank. -/
theorem ends_of_trimmed {text : Chars} (trimmed : trim text = text) :
    (∀ character ∈ text.head?, isBlank character = false) ∧
      ∀ character ∈ text.getLast?, isBlank character = false := by
  constructor
  · intro character begins
    exact eq_false_of_mem_head?_dropAround (trimmed.symm ▸ begins)
  · intro character ends
    rw [← trimmed] at ends
    exact eq_false_of_mem_getLast?_dropEnd ends

/-- A text that begins with no blank and ends with a trimmed one has no blanks around it. -/
theorem trim_append_of_trimmed {front back : Chars} (some : back ≠ []) (trimmed : trim back = back)
    (begins : ∀ character ∈ front.head?, isBlank character = false) :
    trim (front ++ back) = front ++ back := by
  obtain ⟨backBegins, backEnds⟩ := ends_of_trimmed trimmed
  refine dropAround_eq_self (fun character begun => ?_) fun character ends => ?_
  · cases front with
    | nil => exact backBegins character begun
    | cons first front => exact begins character begun
  · rw [List.getLast?_append_of_ne_nil _ some] at ends
    exact backEnds character ends

theorem trim_append_eq {back : Chars} (some : back ≠ []) (trimmed : trim back = back)
    (front : Chars) : trim (front ++ back) = front.dropWhile isBlank ++ back := by
  have blank : ∀ character ∈ front.takeWhile isBlank, isBlank character = true :=
    fun _ => List.mem_takeWhile_imp
  have begins : ∀ character ∈ (front.dropWhile isBlank).head?, isBlank character = false := by
    intro character begins
    have first := List.head?_dropWhile_not isBlank front
    rwa [begins] at first
  calc trim (front ++ back)
    _ = trim (front.takeWhile isBlank ++ (front.dropWhile isBlank ++ back)) := by
      rw [← List.append_assoc, List.takeWhile_append_dropWhile]
    _ = trim (front.dropWhile isBlank ++ back) := trim_append_of_blank blank _
    _ = front.dropWhile isBlank ++ back := trim_append_of_trimmed some trimmed begins

theorem append_trim_eq {front : Chars} (some : front ≠ []) (trimmed : trim front = front)
    (back : Chars) : trim (front ++ back) = front ++ dropEnd isBlank back := by
  obtain ⟨frontBegins, frontEnds⟩ := ends_of_trimmed trimmed
  obtain ⟨dropped, divided, blank⟩ := exists_dropEnd_append isBlank back
  conv_lhs => rw [divided, ← List.append_assoc, trim_append_blank blank]
  refine dropAround_eq_self (fun character begins => ?_) fun character ends => ?_
  · rw [List.head?_append_of_ne_nil _ some] at begins
    exact frontBegins character begins
  · rw [List.getLast?_append] at ends
    rcases Option.or_eq_some_iff.mp ends with inBack | ⟨_, inFront⟩
    · exact eq_false_of_mem_getLast?_dropEnd inBack
    · exact frontEnds character inFront

end CodeAtlas.Text
