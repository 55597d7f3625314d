/-
This file compares positions in a source text. A later byte offset never lies in an earlier
row, which is what turns the order of nodes by their offsets into the order of their lines. And
when whole rows are put before a text, every position in it moves by their bytes and rows, and
what stands there stays the same.
-/

import CodeAtlas.Text.Bytes

namespace CodeAtlas.Text

theorem rowAt_zero (source : Chars) : rowAt source 0 = 0 := by
  cases source with
  | nil => rfl
  | cons character source => rw [rowAt, if_pos rfl]

/-- Rows only grow with the offset. -/
theorem rowAt_mono (source : Chars) {first second : Nat} (le : first ≤ second) :
    rowAt source first ≤ rowAt source second := by
  induction source generalizing first second with
  | nil => exact Nat.le_refl 0
  | cons character source inductionHypothesis =>
    by_cases zero : first = 0
    · rw [zero, rowAt_zero]
      exact Nat.zero_le _
    · have later : second ≠ 0 := by omega
      rw [rowAt, rowAt, if_neg zero, if_neg later]
      exact Nat.add_le_add_left (inductionHypothesis (by omega)) _

/-! ### Rows before a text -/

/-- Whether a text is made of whole rows: it is empty or ends with a newline. -/
def EndsRow (text : Chars) : Prop :=
  text = [] ∨ text.getLast? = some '\n'

/-- The number of rows that a text ends. -/
def rowCount (text : Chars) : Nat :=
  text.count '\n'

section

variable (front source : Chars)

theorem dropBytes?_append (count : Nat) :
    dropBytes? (count + byteLength front) (front ++ source) = dropBytes? count source := by
  induction front with
  | nil => rfl
  | cons character front inductionHypothesis =>
    have size := character.utf8Size_pos
    rw [List.cons_append, byteLength, dropBytes?, if_neg (by omega), if_neg (by omega),
      ← inductionHypothesis]
    exact congrArg (dropBytes? · (front ++ source)) (by omega)

/-- What stands between two offsets still stands there when both have moved. -/
theorem slice_append (start stop : Nat) :
    slice (front ++ source) (start + byteLength front) (stop + byteLength front) =
      slice source start stop := by
  rw [slice, slice, dropBytes?_append, Nat.add_sub_add_right]

theorem rowAt_append (offset : Nat) :
    rowAt (front ++ source) (offset + byteLength front) =
      rowAt source offset + rowCount front := by
  induction front with
  | nil => rfl
  | cons character front inductionHypothesis =>
    have size := character.utf8Size_pos
    have rest : offset + (character.utf8Size + byteLength front) - character.utf8Size =
        offset + byteLength front := by omega
    rw [List.cons_append, byteLength, rowAt, if_neg (by omega), rest, inductionHypothesis,
      rowCount, rowCount, List.count_cons]
    simp only [beq_iff_eq]
    omega

theorem charBefore?_append {offset : Nat} (later : 0 < offset) :
    charBefore? (front ++ source) (offset + byteLength front) = charBefore? source offset := by
  induction front with
  | nil => rfl
  | cons character front inductionHypothesis =>
    rw [List.cons_append, byteLength, charBefore?, if_neg (by omega), if_neg (by omega),
      ← inductionHypothesis]
    exact congrArg (charBefore? (front ++ source)) (by omega)

theorem charBefore?_byteLength :
    charBefore? (front ++ source) (byteLength front) = front.getLast? := by
  induction front with
  | nil => cases source <;> rfl
  | cons character front inductionHypothesis =>
    have size := character.utf8Size_pos
    rw [List.cons_append, byteLength, charBefore?, if_neg (by omega)]
    cases front with
    | nil => exact if_pos (Nat.le_refl _)
    | cons next front =>
      have nextSize := next.utf8Size_pos
      rw [byteLength] at inductionHypothesis ⊢
      rw [if_neg (by omega), Nat.add_sub_cancel_left, inductionHypothesis,
        List.getLast?_cons_cons]

variable {front}

/-- Behind whole rows a row begins where one began. -/
theorem atRowStart_append (rows : EndsRow front) (offset : Nat) :
    atRowStart (front ++ source) (offset + byteLength front) = atRowStart source offset := by
  rcases rows with rfl | ends
  · rfl
  rcases Nat.eq_zero_or_pos offset with rfl | later
  · rw [Nat.zero_add, atRowStart, atRowStart, charBefore?_byteLength, ends]
    simp
  · rw [atRowStart, atRowStart, charBefore?_append front source later]
    have moved : offset + byteLength front ≠ 0 := by omega
    have stays : offset ≠ 0 := by omega
    rw [decide_eq_false moved, decide_eq_false stays]

end

/-! ### What stands between two offsets -/

theorem byteLength_append (front back : Chars) :
    byteLength (front ++ back) = byteLength front + byteLength back := by
  induction front with
  | nil => exact (Nat.zero_add _).symm
  | cons character front inductionHypothesis =>
    rw [List.cons_append, byteLength, byteLength, inductionHypothesis, Nat.add_assoc]

theorem byteLength_pos {text : Chars} (named : text ≠ []) : 0 < byteLength text := by
  obtain ⟨character, rest, rfl⟩ := List.exists_cons_of_ne_nil named
  exact Nat.add_pos_left character.utf8Size_pos _

theorem exists_of_dropBytes? {count : Nat} {text back : Chars}
    (found : dropBytes? count text = some back) :
    ∃ front, text = front ++ back ∧ byteLength front = count := by
  fun_induction dropBytes? count text with
  | case1 => exact ⟨[], Option.some.inj found, rfl⟩
  | case2 => cases found
  | case3 => exact ⟨[], Option.some.inj found, rfl⟩
  | case4 => cases found
  | case5 count character text _ whole inductionHypothesis =>
    obtain ⟨front, rfl, length⟩ := inductionHypothesis found
    exact ⟨character :: front, rfl, by rw [byteLength, length]; omega⟩

theorem exists_of_takeBytes? {count : Nat} {text front : Chars}
    (found : takeBytes? count text = some front) :
    ∃ back, text = front ++ back ∧ byteLength front = count := by
  fun_induction takeBytes? count text generalizing front with
  | case1 =>
    obtain rfl := Option.some.inj found
    exact ⟨[], rfl, rfl⟩
  | case2 => cases found
  | case3 character text =>
    obtain rfl := Option.some.inj found
    exact ⟨character :: text, rfl, rfl⟩
  | case4 => cases found
  | case5 count character text _ whole inductionHypothesis =>
    obtain ⟨front, foundBehind, rfl⟩ := Option.map_eq_some_iff.mp found
    obtain ⟨back, rfl, length⟩ := inductionHypothesis foundBehind
    exact ⟨back, rfl, by rw [byteLength, length]; omega⟩

/-- A text that stands between two offsets stands there behind some text and before some. -/
theorem exists_of_slice {source text : Chars} {start stop : Nat} (named : text ≠ [])
    (found : slice source start stop = text) :
    ∃ front back, source = front ++ text ++ back ∧ start = byteLength front ∧
      stop = byteLength (front ++ text) := by
  rw [slice] at found
  cases between : (dropBytes? start source).bind (takeBytes? (stop - start)) with
  | none =>
    rw [between] at found
    exact absurd found.symm named
  | some part =>
    rw [between, Option.getD_some] at found
    subst found
    obtain ⟨rest, dropped, taken⟩ := Option.bind_eq_some_iff.mp between
    obtain ⟨front, rfl, frontLength⟩ := exists_of_dropBytes? dropped
    obtain ⟨back, rfl, length⟩ := exists_of_takeBytes? taken
    have pos := byteLength_pos named
    refine ⟨front, back, (List.append_assoc front part back).symm, frontLength.symm, ?_⟩
    rw [byteLength_append]
    omega

theorem rowAt_byteLength (front back : Chars) :
    rowAt (front ++ back) (byteLength front) = rowCount front := by
  have moved := rowAt_append front back 0
  rwa [Nat.zero_add, rowAt_zero, Nat.zero_add] at moved

end CodeAtlas.Text
