/-
This file says which names the text of a base list gives. What stands in brackets is left out of
the text, and nothing else is. Of what is left, the leftmost pieces that begin with a capital and
are made of plain characters are taken, without those that follow an identifier character. Plain
characters are not all identifier characters, so a piece may begin where another one ended, within
one identifier; such a piece is always among those that are not taken, and so each run of identifier
characters gives the one name at its beginning, or none.
-/

import CodeAtlas.Proofs.Extraction.CapitalNames
import CodeAtlas.Proofs.Text.Distinct

namespace CodeAtlas.Names

open Text

/-! ### Brackets -/

/-- Whether an angle follows an identifier character. -/
def IsAngleBehind (before mark : Char) : Prop :=
  isIdentifierChar before = true ∧ mark = '<'

/-- Whether a character opens a bracket behind the character `previous`, if there is one. -/
def Opens (previous : Option Char) (character : Char) : Prop :=
  character = '[' ∨ ∃ before, previous = some before ∧ IsAngleBehind before character

theorem outsideBrackets_sublist (depth : Nat) (previous : Option Char) (text : Chars) :
    (outsideBrackets depth previous text).Sublist text := by
  induction text generalizing depth previous with
  | nil => exact List.Sublist.slnil
  | cons character text inductionHypothesis =>
    have leftOut (depth : Nat) :
        (outsideBrackets depth (some character) text).Sublist (character :: text) :=
      (inductionHypothesis depth _).cons character
    rw [outsideBrackets]
    split_ifs
    · exact leftOut _
    · exact leftOut _
    · exact leftOut _
    · exact (inductionHypothesis depth _).cons_cons character
    · exact leftOut _

theorem outsideBrackets_cons_of_opens {previous : Option Char} {character : Char}
    (opens : Opens previous character) (depth : Nat) (text : Chars) :
    outsideBrackets depth previous (character :: text) =
      outsideBrackets (depth + 1) (some character) text := by
  rcases opens with rfl | ⟨before, rfl, spelled, rfl⟩
  · simp [outsideBrackets]
  · simp [outsideBrackets, spelled]

theorem outsideBrackets_cons_of_not_opens {previous : Option Char} {character : Char}
    (opens : ¬ Opens previous character) (text : Chars) :
    outsideBrackets 0 previous (character :: text) =
      character :: outsideBrackets 0 (some character) text := by
  have noSquare : character ≠ '[' := fun square => opens (.inl square)
  have noAngle : ¬ (character = '<' ∧ previous.any isIdentifierChar = true) := by
    rintro ⟨angle, spelled⟩
    cases previous with
    | none => cases spelled
    | some before => exact opens (.inr ⟨before, rfl, spelled, angle⟩)
  have closesNothing : ¬ ((character = '>' ∨ character = ']') ∧ 0 < 0) :=
    fun closes => Nat.lt_irrefl 0 closes.2
  rw [outsideBrackets, if_neg noAngle, if_neg noSquare, if_neg closesNothing, if_pos rfl]

/-- Whether nothing in a text opens a bracket behind the character `previous`, if there is one. -/
def OpensNothing (previous : Option Char) (text : Chars) : Prop :=
  '[' ∉ text ∧
    List.IsChain (fun before mark => ¬ IsAngleBehind before mark) (previous.toList ++ text)

theorem opensNothing_cons_iff {previous : Option Char} {character : Char} {text : Chars} :
    OpensNothing previous (character :: text) ↔
      ¬ Opens previous character ∧ OpensNothing (some character) text := by
  have square : '[' ∉ character :: text ↔ character ≠ '[' ∧ '[' ∉ text := by
    rw [List.mem_cons, not_or, ne_comm]
  rw [OpensNothing, OpensNothing, Opens, square]
  cases previous with
  | none => simp [and_assoc]
  | some before =>
    simp only [Option.toList_some, List.singleton_append, List.isChain_cons_cons, Option.some.injEq,
      exists_eq_left', not_or]
    tauto

/-- Outside of brackets all of a text is left exactly if nothing in it opens a bracket. -/
theorem outsideBrackets_eq_self_iff (previous : Option Char) (text : Chars) :
    outsideBrackets 0 previous text = text ↔ OpensNothing previous text := by
  induction text generalizing previous with
  | nil => cases previous <;> simp [outsideBrackets, OpensNothing]
  | cons character text inductionHypothesis =>
    rw [opensNothing_cons_iff]
    by_cases opens : Opens previous character
    · refine iff_of_false ?_ fun nothing => nothing.1 opens
      intro same
      have shorter := (outsideBrackets_sublist 1 (some character) text).length_le
      rw [← outsideBrackets_cons_of_opens opens 0, same] at shorter
      exact Nat.not_succ_le_self _ shorter
    · rw [outsideBrackets_cons_of_not_opens opens, List.cons_inj_right, inductionHypothesis]
      exact (and_iff_right opens).symm

/-! ### Pieces that begin with a capital -/

/-- The leftmost pieces of a text that begin with a capital and go on as long as plain characters
do, each with the character before it. The character `previous` stands before the text. -/
def capitalPieces (previous : Option Char) : Chars → List (Option Char × Chars)
  | [] => []
  | character :: text =>
    if IsCapital character then
      let piece := character :: text.takeWhile isPlainIdentifierChar
      (previous, piece) :: capitalPieces piece.getLast? (text.dropWhile isPlainIdentifierChar)
    else capitalPieces (some character) text
termination_by text => text.length
decreasing_by
  · exact Nat.lt_succ_of_le (List.dropWhile_sublist _).length_le
  · exact Nat.lt_succ_self _

/-- Whether no identifier goes on in a piece. -/
def isFirstPiece (piece : Option Char × Chars) : Bool :=
  !piece.1.any isIdentifierChar

/-- What a scan for names stands in behind a character, if there is one. -/
def scanBehind (previous : Option Char) : Scan :=
  if previous.any isIdentifierChar then .passing else .outside

theorem scanBehind_some_of_spelled {before : Char} (spelled : isIdentifierChar before = true) :
    scanBehind (some before) = .passing := by
  rw [scanBehind, Option.any_some, if_pos spelled]

theorem capitalizedFrom_nil (previous : Option Char) :
    capitalizedFrom (scanBehind previous) [] = [] := by
  rw [scanBehind]
  split <;> rfl

/-- What is no capital begins no name. -/
theorem capitalizedFrom_cons_of_not_isCapital {character : Char}
    (notCapital : ¬ IsCapital character) (previous : Option Char) (text : Chars) :
    capitalizedFrom (scanBehind previous) (character :: text) =
      capitalizedFrom (scanBehind (some character)) text := by
  rw [scanBehind]
  split
  · rw [capitalizedFrom]
    rfl
  · rw [capitalizedFrom, if_neg notCapital]
    rfl

/-- The scan for names takes the pieces that begin with a capital and go on with no identifier. -/
theorem capitalizedFrom_eq_pieces (previous : Option Char) (text : Chars) :
    capitalizedFrom (scanBehind previous) text =
      ((capitalPieces previous text).filter isFirstPiece).map Prod.snd := by
  fun_induction capitalPieces previous text with
  | case1 previous => exact capitalizedFrom_nil previous
  | case2 previous character text capital piece inductionHypothesis =>
    have spelled (other : Char) (member : other ∈ piece) : isIdentifierChar other = true := by
      refine isIdentifierChar_of_plain ?_
      rcases List.mem_cons.mp member with rfl | member
      · exact isPlainIdentifierChar_of_isCapital capital
      · exact List.mem_takeWhile_imp member
    -- Whether or not the piece is taken, what follows it goes on with an identifier.
    have behind : scanBehind piece.getLast? = .passing := by
      rw [List.getLast?_eq_some_getLast (List.cons_ne_nil _ _)]
      exact scanBehind_some_of_spelled (spelled _ (List.getLast_mem _))
    rw [behind] at inductionHypothesis
    by_cases goesOn : previous.any isIdentifierChar = true
    · have isNotFirst : ¬ isFirstPiece (previous, piece) = true := by
        simpa [isFirstPiece] using goesOn
      have whole : character :: text = piece ++ text.dropWhile isPlainIdentifierChar := by
        rw [List.cons_append, List.takeWhile_append_dropWhile]
      rw [scanBehind, if_pos goesOn, whole, capitalizedFrom_passing_spelled spelled,
        inductionHypothesis, List.filter_cons_of_neg isNotFirst]
    · have isFirst : isFirstPiece (previous, piece) = true := by
        simpa [isFirstPiece] using goesOn
      rw [scanBehind, if_neg goesOn, capitalizedFrom, if_pos capital, capitalizedFrom_reading,
        inductionHypothesis, List.filter_cons_of_pos isFirst, List.map_cons]
      rfl
  | case3 previous character text notCapital inductionHypothesis =>
    rw [capitalizedFrom_cons_of_not_isCapital notCapital, inductionHypothesis]

/-! ### Names of bases -/

/-- The bases in a text that lists them are the names that its runs outside of brackets give, which
are the pieces outside of brackets that begin with a capital and go on with no identifier; each is
kept where it stands first. What stands outside of brackets is left in its order, and it is all of
the text exactly if nothing in the text opens a bracket. -/
theorem baseNames_eq_eraseDups (text : Chars) :
    baseNames text = ((runs (stripBrackets text)).filterMap capital?).eraseDups ∧
      (runs (stripBrackets text)).filterMap capital? =
        ((capitalPieces none (stripBrackets text)).filter isFirstPiece).map Prod.snd ∧
      (stripBrackets text).Sublist text ∧
      (stripBrackets text = text ↔
        '[' ∉ text ∧ text.IsChain fun before mark => ¬ IsAngleBehind before mark) := by
  refine ⟨?_, ?_, outsideBrackets_sublist 0 none text, outsideBrackets_eq_self_iff none text⟩
  · rw [baseNames_eq, distinct_eq_eraseDups]
    -- Texts are compared character by character on one side and decided equal on the other.
    exact congrArg (fun equality => @List.eraseDups Chars equality _) (lawful_beq_subsingleton _ _)
  · rw [← capitalizedFrom_outside]
    exact capitalizedFrom_eq_pieces none (stripBrackets text)

end CodeAtlas.Names
