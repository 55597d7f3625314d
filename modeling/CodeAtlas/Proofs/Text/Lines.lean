/-
This file says what the lines of a text are. Rows without newlines that are put together with
newlines between them are found again where the text is cut, and every text is made of such rows.
Its lines are its rows, but for a carriage return at the end of a row and for an empty last row,
and neither matters where rows are trimmed and empty ones are left out.
-/

import CodeAtlas.Proofs.Text.Division
import CodeAtlas.Proofs.Text.Joining
import CodeAtlas.Proofs.Text.Search
import Mathlib.Data.List.Induction

namespace CodeAtlas.Text

/-! ### Rows -/

/-- The rows of a text: what stands between its newlines, the last row even if it is empty. -/
def rows (text : Chars) : List Chars :=
  splitWhere (· = '\n') text

theorem intercalate_splitWhere (mark : Char) (text : Chars) :
    [mark].intercalate (splitWhere (· = mark) text) = text := by
  induction text with
  | nil => rfl
  | cons character text inductionHypothesis =>
    obtain ⟨piece, pieces, divided⟩ :=
      List.exists_cons_of_ne_nil (splitWhere_ne_nil (· = mark) text)
    rw [divided] at inductionHypothesis
    rw [splitWhere, divided]
    split
    · next isMark =>
      rw [List.intercalate_cons_cons, inductionHypothesis, of_decide_eq_true isMark]
      rfl
    · rw [intercalate_cons_eq, List.cons_append, ← intercalate_cons_eq, inductionHypothesis]

theorem rows_unlines {pieces : List Chars} (some : pieces ≠ [])
    (unbroken : ∀ piece ∈ pieces, '\n' ∉ piece) : rows (unlines pieces) = pieces := by
  rw [unlines, join_eq_intercalate]
  refine @splitWhere_intercalate (· = '\n') '\n' rfl _ some fun piece member character inPiece => ?_
  exact decide_eq_false (ne_of_mem_of_not_mem inPiece (unbroken piece member))

theorem unlines_rows (text : Chars) : unlines (rows text) = text := by
  rw [unlines, join_eq_intercalate]
  exact intercalate_splitWhere '\n' text

theorem unbroken_of_mem_rows {text row : Chars} (member : row ∈ rows text) : '\n' ∉ row :=
  fun inRow => of_decide_eq_false (@eq_false_of_mem_splitWhere (· = '\n') _ _ member _ inRow) rfl

theorem subset_of_mem_rows {text row : Chars} (member : row ∈ rows text) : row ⊆ text :=
  subset_of_mem_splitWhere member

theorem rows_ne_nil (text : Chars) : rows text ≠ [] :=
  splitWhere_ne_nil _ text

theorem rows_of_unbroken {text : Chars} (unbroken : '\n' ∉ text) : rows text = [text] :=
  splitWhere_eq_singleton fun _ member => decide_eq_false (ne_of_mem_of_not_mem member unbroken)

theorem unlines_cons_append (front first : Chars) (others : List Chars) :
    unlines ((front ++ first) :: others) = front ++ unlines (first :: others) := by
  simp only [unlines, join_eq_intercalate, intercalate_cons_eq, List.append_assoc]

theorem unlines_concat_append (others : List Chars) (last back : Chars) :
    unlines (others ++ [last ++ back]) = unlines (others ++ [last]) ++ back := by
  simp only [unlines, join_eq_intercalate]
  by_cases alone : others = []
  · simp [alone]
  · rw [intercalate_concat _ alone, intercalate_concat _ alone]
    simp only [List.append_assoc]

section

variable {text : Chars} {pieces : List Chars}

/-- What is put before a text stands in its first row. -/
theorem rows_append {first : Chars} (divided : rows text = first :: pieces) {front : Chars}
    (unbroken : '\n' ∉ front) : rows (front ++ text) = (front ++ first) :: pieces := by
  have unbrokenRow (piece : Chars) (isRow : piece ∈ first :: pieces) : '\n' ∉ piece :=
    unbroken_of_mem_rows (divided ▸ isRow)
  obtain ⟨unbrokenFirst, unbrokenRest⟩ := List.forall_mem_cons.mp unbrokenRow
  rw [← unlines_rows text, divided, ← unlines_cons_append]
  refine rows_unlines (List.cons_ne_nil _ _) (List.forall_mem_cons.mpr ⟨?_, unbrokenRest⟩)
  exact List.not_mem_append unbroken unbrokenFirst

/-- What is put behind a text stands in its last row. -/
theorem append_rows {last : Chars} (divided : rows text = pieces ++ [last]) {back : Chars}
    (unbroken : '\n' ∉ back) : rows (text ++ back) = pieces ++ [last ++ back] := by
  have unbrokenRow (piece : Chars) (isRow : piece ∈ pieces ++ [last]) : '\n' ∉ piece :=
    unbroken_of_mem_rows (divided ▸ isRow)
  obtain ⟨unbrokenRest, unbrokenLast⟩ := List.forall_mem_append.mp unbrokenRow
  rw [← unlines_rows text, divided, ← unlines_concat_append]
  refine rows_unlines (by simp) (List.forall_mem_append.mpr ⟨unbrokenRest, ?_⟩)
  intro piece isLast
  rw [List.mem_singleton.mp isLast]
  exact List.not_mem_append (unbrokenLast last List.mem_cons_self) unbroken

end

/-- At a newline a row ends and the next one begins. -/
theorem rows_append_newline (front back : Chars) :
    rows (front ++ '\n' :: back) = rows front ++ rows back :=
  @splitWhere_append_cons (· = '\n') '\n' rfl front back

/-- Rows that are each ended by a newline are found again, with an empty row behind the last. -/
theorem rows_flatMap_newline {pieces : List Chars} (unbroken : ∀ piece ∈ pieces, '\n' ∉ piece) :
    rows (pieces.flatMap (· ++ ['\n'])) = pieces ++ [[]] := by
  induction pieces with
  | nil => rfl
  | cons piece pieces inductionHypothesis =>
    obtain ⟨first, others⟩ := List.forall_mem_cons.mp unbroken
    rw [List.flatMap_cons, List.append_assoc, List.singleton_append, rows_append_newline,
      rows_of_unbroken first, inductionHypothesis others]
    rfl

theorem unlines_singleton (piece : Chars) : unlines [piece] = piece :=
  rfl

theorem unlines_eq_nil_iff {pieces : List Chars} (named : ∀ piece ∈ pieces, piece ≠ []) :
    unlines pieces = [] ↔ pieces = [] := by
  cases pieces with
  | nil => exact iff_of_true rfl rfl
  | cons piece pieces =>
    rw [unlines, join_eq_intercalate, intercalate_cons_eq, List.append_eq_nil_iff]
    exact iff_of_false (fun empty => named piece List.mem_cons_self empty.1) (List.cons_ne_nil _ _)

/-! ### Lines that are trimmed -/

theorem stripBack?_eq_some_iff {back text rest : Chars} :
    stripBack? back text = some rest ↔ text = rest ++ back := by
  rw [stripBack?, Option.map_eq_some_iff]
  constructor
  · rintro ⟨reversed, found, rfl⟩
    rw [← List.reverse_inj, eq_append_of_stripFront? found]
    simp
  · rintro rfl
    exact ⟨rest.reverse, by rw [List.reverse_append, stripFront?_append], List.reverse_reverse rest⟩

theorem trim_dropReturn (line : Chars) : trim (dropReturn line) = trim line := by
  unfold dropReturn
  cases found : stripBack? ['\r'] line with
  | none => rfl
  | some rest =>
    rw [stripBack?_eq_some_iff.mp found]
    exact (trim_append_blank (List.forall_mem_singleton.mpr rfl) rest).symm

/-- If empty results are left out, it is the same to read the lines of a text or its rows in a way
that only looks at what stands between blanks. -/
theorem filter_map_lines {read : Chars → Chars} (trims : ∀ line, read line = read (trim line))
    (nothing : read [] = []) (text : Chars) :
    ((lines text).map read).filter (fun line => !line.isEmpty) =
      ((rows text).map read).filter fun line => !line.isEmpty := by
  rw [lines, rows]
  generalize splitWhere (· = '\n') text = pieces
  fun_induction linesOfPieces pieces with
  | case1 => rfl
  | case2 last empty =>
    rw [List.isEmpty_iff.mp empty, List.map_singleton, nothing]
    rfl
  | case3 => rfl
  | case4 piece next pieces inductionHypothesis =>
    rw [List.map_cons, List.map_cons, List.filter_cons, List.filter_cons, inductionHypothesis,
      trims (dropReturn piece), trim_dropReturn, ← trims piece]

/-! ### Empty rows around a text -/

/-- The trimmed rows of a text are its trimmed lines, and perhaps an empty row behind them. -/
theorem map_trim_rows (text : Chars) :
    (rows text).map trim = (lines text).map trim ∨
      (rows text).map trim = (lines text).map trim ++ [[]] := by
  rw [lines, rows]
  generalize splitWhere (· = '\n') text = pieces
  fun_induction linesOfPieces pieces with
  | case1 => exact .inl rfl
  | case2 last empty =>
    rw [List.isEmpty_iff.mp empty]
    exact .inr rfl
  | case3 => exact .inl rfl
  | case4 piece next pieces inductionHypothesis =>
    rw [@List.map_cons _ _ trim piece, @List.map_cons _ _ trim (dropReturn piece), trim_dropReturn]
    exact inductionHypothesis.imp (congrArg (List.cons (trim piece)))
      (congrArg (List.cons (trim piece)))

theorem trim_unlines_nil_cons (pieces : List Chars) :
    trim (unlines ([] :: pieces)) = trim (unlines pieces) := by
  cases pieces with
  | nil => rfl
  | cons next pieces =>
    exact trim_append_of_blank (List.forall_mem_singleton.mpr rfl) (unlines (next :: pieces))

theorem trim_unlines_concat_nil (pieces : List Chars) :
    trim (unlines (pieces ++ [[]])) = trim (unlines pieces) := by
  by_cases none : pieces = []
  · rw [none]
    rfl
  · rw [unlines, unlines, join_eq_intercalate, join_eq_intercalate,
      intercalate_concat ['\n'] none, List.append_nil]
    exact trim_append_blank (List.forall_mem_singleton.mpr rfl) _

/-- It is the same to trim the lines of a text and then the whole, or its rows. -/
theorem trim_unlines_lines (text : Chars) :
    trim (unlines ((lines text).map trim)) = trim (unlines ((rows text).map trim)) := by
  rcases map_trim_rows text with same | oneMore
  · rw [same]
  · rw [oneMore, trim_unlines_concat_nil]

theorem trim_unlines_around {front back : List Chars} (emptyFront : ∀ row ∈ front, row = [])
    (emptyBack : ∀ row ∈ back, row = []) (pieces : List Chars) :
    trim (unlines (front ++ pieces ++ back)) = trim (unlines pieces) := by
  induction front with
  | nil =>
    induction back using List.reverseRecOn with
    | nil => rw [List.nil_append, List.append_nil]
    | append_singleton back row inductionHypothesis =>
      obtain ⟨emptyRest, empty⟩ := List.forall_mem_append.mp emptyBack
      rw [empty row List.mem_cons_self, ← List.append_assoc, trim_unlines_concat_nil,
        inductionHypothesis emptyRest]
  | cons row front inductionHypothesis =>
    obtain ⟨rfl, emptyRest⟩ := List.forall_mem_cons.mp emptyFront
    rw [List.cons_append, List.cons_append, trim_unlines_nil_cons, inductionHypothesis emptyRest]

theorem trim_unlines_of_trimmed {pieces : List Chars} (some : pieces ≠ [])
    (named : ∀ piece ∈ pieces, piece ≠ []) (trimmed : ∀ piece ∈ pieces, trim piece = piece) :
    trim (unlines pieces) = unlines pieces := by
  rw [unlines, join_eq_intercalate]
  exact dropAround_intercalate_of_ends ['\n'] some named
    (fun piece isPiece => (ends_of_trimmed (trimmed piece isPiece)).1)
    fun piece isPiece => (ends_of_trimmed (trimmed piece isPiece)).2

end CodeAtlas.Text
