/-
This file holds the operations on character lists that the rest of the library is
written with: cutting at a separator, stripping a known beginning or end, searching
for a part, joining. A text is a `String` wherever it is stored and a `List Char`
wherever it is taken apart, so that every rule about text is a recursion on a list.
-/

namespace CodeAtlas.Text

/-- A text that is being taken apart. -/
abbrev Chars := List Char

/-! ### Beginnings and ends -/

/-- What follows `front` in a text that begins with it. -/
def stripFront? : Chars → Chars → Option Chars
  | [], text => some text
  | _ :: _, [] => none
  | mark :: front, character :: text =>
    if mark = character then stripFront? front text else none

/-- What precedes `back` in a text that ends with it. -/
def stripBack? (back text : Chars) : Option Chars :=
  (stripFront? back.reverse text.reverse).map List.reverse

/-- Whether a text begins with `front`. -/
def startsWith (front text : Chars) : Bool :=
  (stripFront? front text).isSome

/-- Whether a text ends with `back`. -/
def endsWith (back text : Chars) : Bool :=
  (stripBack? back text).isSome

/-- The text without its longest end of characters that satisfy `drop`. -/
def dropEnd (drop : Char → Bool) (text : Chars) : Chars :=
  (text.reverse.dropWhile drop).reverse

/-- The text without its longest beginning and end of characters that satisfy `drop`. -/
def dropAround (drop : Char → Bool) (text : Chars) : Chars :=
  dropEnd drop (text.dropWhile drop)

theorem stripFront?_append (front text : Chars) :
    stripFront? front (front ++ text) = some text := by
  induction front with
  | nil => rfl
  | cons mark front inductionHypothesis => simp [stripFront?, inductionHypothesis]

theorem eq_append_of_stripFront? {front text rest : Chars}
    (found : stripFront? front text = some rest) : text = front ++ rest := by
  fun_induction stripFront? front text with
  | case1 => simpa using found
  | case2 => simp at found
  | case3 mark front text inductionHypothesis => simp [inductionHypothesis found]
  | case4 => simp at found

/-! ### Searching -/

/-- The text before the first `separator` and the text after it. -/
def splitFirst? (separator : Chars) : Chars → Option (Chars × Chars)
  | [] => if separator.isEmpty then some ([], []) else none
  | character :: text =>
    match stripFront? separator (character :: text) with
    | some rest => some ([], rest)
    | none => (splitFirst? separator text).map fun (before, after) => (character :: before, after)

/-- The text before the last `separator` and the text after it. -/
def splitLast? (separator text : Chars) : Option (Chars × Chars) :=
  (splitFirst? separator.reverse text.reverse).map fun (after, before) =>
    (before.reverse, after.reverse)

/-- The text before the first `separator`, or all of it. -/
def beforeFirst (separator text : Chars) : Chars :=
  match splitFirst? separator text with
  | some (before, _) => before
  | none => text

/-- The text after the last `separator`, or all of it. -/
def afterLast (separator text : Chars) : Chars :=
  match splitLast? separator text with
  | some (_, after) => after
  | none => text

/-- Whether `part` stands somewhere in a text. -/
def occursIn (part : Chars) : Chars → Bool
  | [] => part.isEmpty
  | character :: text => startsWith part (character :: text) || occursIn part text

/-! ### Pieces -/

/-- The pieces between the characters that satisfy `cut`; there is always at least one. -/
def splitWhere (cut : Char → Bool) : Chars → List Chars
  | [] => [[]]
  | character :: text =>
    if cut character then [] :: splitWhere cut text
    else
      match splitWhere cut text with
      | [] => [[character]]
      | piece :: pieces => (character :: piece) :: pieces

/-- Puts `separator` between the pieces. -/
def join (separator : Chars) : List Chars → Chars
  | [] => []
  | [piece] => piece
  | piece :: next :: pieces => piece ++ separator ++ join separator (next :: pieces)

/-- Puts `new` in the place of every character equal to `old`. -/
def replaceChar (old new : Char) (text : Chars) : Chars :=
  text.map fun character => if character = old then new else character

/-- Puts `new` in the place of every pair `old old`, from the left. -/
def replacePair (old new : Char) : Chars → Chars
  | first :: second :: text =>
    if first = old ∧ second = old then new :: replacePair old new text
    else first :: replacePair old new (second :: text)
  | text => text

/-! ### Lists without repeats -/

/-- Appends a value that is not yet in the list. -/
def pushNew {α : Type} [DecidableEq α] (list : List α) (value : α) : List α :=
  if value ∈ list then list else list ++ [value]

/-- The values in the order of their first appearance, each once. -/
def distinct {α : Type} [DecidableEq α] (values : List α) : List α :=
  values.foldl pushNew []

theorem mem_pushNew {α : Type} [DecidableEq α] {list : List α} {value other : α} :
    other ∈ pushNew list value ↔ other ∈ list ∨ other = value := by
  unfold pushNew
  split
  · constructor
    · exact .inl
    · rintro (member | rfl) <;> assumption
  · simp

theorem nodup_pushNew {α : Type} [DecidableEq α] {list : List α} {value : α}
    (nodup : list.Nodup) : (pushNew list value).Nodup := by
  unfold pushNew
  split
  · exact nodup
  · next absent =>
    rw [List.nodup_append]
    refine ⟨nodup, by simp, ?_⟩
    intro first firstMember second secondMember equal
    simp only [List.mem_cons, List.not_mem_nil, or_false] at secondMember
    subst secondMember
    subst equal
    exact absent firstMember

theorem mem_foldl_pushNew {α : Type} [DecidableEq α] {values list : List α} {other : α} :
    other ∈ values.foldl pushNew list ↔ other ∈ list ∨ other ∈ values := by
  induction values generalizing list with
  | nil => simp
  | cons value values inductionHypothesis =>
    simp only [List.foldl_cons, inductionHypothesis, mem_pushNew, List.mem_cons]
    exact or_assoc

theorem nodup_foldl_pushNew {α : Type} [DecidableEq α] {values list : List α}
    (nodup : list.Nodup) : (values.foldl pushNew list).Nodup := by
  induction values generalizing list with
  | nil => exact nodup
  | cons value values inductionHypothesis => exact inductionHypothesis (nodup_pushNew nodup)

@[simp]
theorem mem_distinct {α : Type} [DecidableEq α] {values : List α} {value : α} :
    value ∈ distinct values ↔ value ∈ values := by
  simp [distinct, mem_foldl_pushNew]

theorem nodup_distinct {α : Type} [DecidableEq α] (values : List α) : (distinct values).Nodup :=
  nodup_foldl_pushNew List.nodup_nil

end CodeAtlas.Text
