/-
This file reads the capitalized names of a text off its runs: the longest pieces in which nothing
but identifier characters stands. A run that begins with a letter from A to Z gives one name, which
goes as far as plain letters, digits and underscores do, and every other run gives none.
-/

import CodeAtlas.Extraction.Names
import CodeAtlas.Proofs.Text.Division
import CodeAtlas.Proofs.Text.Identifiers

namespace CodeAtlas.Names

open Text

/-! ### Runs of identifier characters -/

/-- The longest pieces of a text in which nothing but identifier characters stands. -/
def runs (text : Chars) : List Chars :=
  (splitWhere (fun character => !isIdentifierChar character) text).filter fun run => !run.isEmpty

/-- Whether a text does not begin by going on with an identifier. -/
def Detached (text : Chars) : Prop :=
  ∀ character ∈ text.head?, isIdentifierChar character = false

theorem runs_cons_of_mark {mark : Char} (unspelled : isIdentifierChar mark = false)
    (text : Chars) : runs (mark :: text) = runs text := by
  rw [runs, splitWhere, unspelled]
  rfl

theorem runs_append_of_marks {marks : Chars}
    (unspelled : ∀ mark ∈ marks, isIdentifierChar mark = false) (text : Chars) :
    runs (marks ++ text) = runs text := by
  induction marks with
  | nil => rfl
  | cons mark marks inductionHypothesis =>
    obtain ⟨first, others⟩ := List.forall_mem_cons.mp unspelled
    rw [List.cons_append, runs_cons_of_mark first, inductionHypothesis others]

/-- An identifier is a run of its own if no identifier character follows it. -/
theorem runs_append_of_detached {name rest : Chars} (identifier : IsIdentifier name)
    (detached : Detached rest) : runs (name ++ rest) = name :: runs rest := by
  have whole : splitWhere (fun character => !isIdentifierChar character) name = [name] :=
    splitWhere_eq_singleton fun character member => by
      rw [identifier.spelled character member, Bool.not_true]
  have alone : [name].filter (fun run => !run.isEmpty) = [name] := by
    simpa using identifier.named
  cases rest with
  | nil => rw [List.append_nil, runs, whole, alone]; rfl
  | cons mark rest =>
    have unspelled : isIdentifierChar mark = false := detached mark rfl
    have cuts : (!isIdentifierChar mark) = true := by rw [unspelled, Bool.not_false]
    rw [runs_cons_of_mark unspelled, runs, splitWhere_append_cons cuts, whole, List.filter_append,
      alone]
    rfl

/-- What holds of the empty text, and of a text if it holds of what follows its first mark or its
first identifier, holds of all texts. -/
@[elab_as_elim]
theorem inductionOnRuns {motive : Chars → Prop} (nil : motive [])
    (mark : ∀ mark text, isIdentifierChar mark = false → motive text → motive (mark :: text))
    (name : ∀ name rest, IsIdentifier name → Detached rest → motive rest → motive (name ++ rest))
    (text : Chars) : motive text := by
  match text with
  | [] => exact nil
  | character :: text =>
    cases spelled : isIdentifierChar character with
    | false => exact mark character text spelled (inductionOnRuns nil mark name text)
    | true =>
      have shorter : (text.dropWhile isIdentifierChar).length < (character :: text).length :=
        Nat.lt_succ_of_le (List.dropWhile_sublist _).length_le
      have divided : character :: text =
          (character :: text.takeWhile isIdentifierChar) ++ text.dropWhile isIdentifierChar := by
        rw [List.cons_append, List.takeWhile_append_dropWhile]
      have identifier : IsIdentifier (character :: text.takeWhile isIdentifierChar) := by
        refine ⟨List.cons_ne_nil _ _, List.forall_mem_cons.mpr ⟨spelled, fun other member => ?_⟩⟩
        exact List.mem_takeWhile_imp (p := isIdentifierChar) member
      have detached : Detached (text.dropWhile isIdentifierChar) := by
        intro other begins
        have first := List.head?_dropWhile_not isIdentifierChar text
        rwa [begins] at first
      rw [divided]
      exact name _ _ identifier detached (inductionOnRuns nil mark name _)
termination_by text.length
decreasing_by
  · exact Nat.lt_succ_self _
  · exact shorter

/-! ### Names that begin with a capital -/

/-- Whether a character is a letter from A to Z. -/
abbrev IsCapital (character : Char) : Prop :=
  'A' ≤ character ∧ character ≤ 'Z'

/-- The name that a run of identifier characters gives: if it begins with a letter from A to Z, the
plain letters, digits and underscores at its beginning. -/
def capital? : Chars → Option Chars
  | [] => none
  | first :: rest =>
    if IsCapital first then some (first :: rest.takeWhile isPlainIdentifierChar) else none

theorem toNat_lt_of_isAlphanum {character : Char} (plain : character.isAlphanum = true) :
    character.toNat < 0x80 := by
  have ranges : ((decide ('A'.val ≤ character.val ∧ character.val ≤ 'Z'.val) ||
      (decide ('a'.val ≤ character.val) && decide (character.val ≤ 'z'.val))) ||
      (decide ('0'.val ≤ character.val) && decide (character.val ≤ '9'.val))) = true := plain
  simp only [Bool.or_eq_true, Bool.and_eq_true, decide_eq_true_eq,
    UInt32.le_iff_toNat_le] at ranges
  have lastUpper : 'Z'.val.toNat = 90 := rfl
  have lastLower : 'z'.val.toNat = 122 := rfl
  have lastDigit : '9'.val.toNat = 57 := rfl
  show character.val.toNat < 0x80
  omega

theorem isIdentifierChar_of_plain {character : Char}
    (plain : isPlainIdentifierChar character = true) : isIdentifierChar character = true := by
  rw [isPlainIdentifierChar, Bool.or_eq_true] at plain
  rw [isIdentifierChar, Bool.or_eq_true]
  refine plain.imp_left fun letter => ?_
  rwa [isAlphanumeric, if_pos (toNat_lt_of_isAlphanum letter)]

theorem isPlainIdentifierChar_of_isCapital {character : Char} (capital : IsCapital character) :
    isPlainIdentifierChar character = true := by
  have upper : character.isUpper = true := decide_eq_true capital
  have letter : character.isAlphanum =
      ((character.isUpper || character.isLower) || character.isDigit) := rfl
  rw [isPlainIdentifierChar, letter, upper]
  rfl

theorem not_isCapital {mark : Char} (unspelled : isIdentifierChar mark = false) :
    ¬ IsCapital mark := by
  intro capital
  rw [isIdentifierChar_of_plain (isPlainIdentifierChar_of_isCapital capital)] at unspelled
  cases unspelled

/-! ### The scan for names -/

theorem after_of_mark {mark : Char} (unspelled : isIdentifierChar mark = false) :
    Scan.after mark = .outside := by
  rw [Scan.after, unspelled]
  rfl

theorem after_of_spelled {character : Char} (spelled : isIdentifierChar character = true) :
    Scan.after character = .passing := by
  rw [Scan.after, spelled]
  rfl

theorem capitalizedFrom_outside_mark {mark : Char} (unspelled : isIdentifierChar mark = false)
    (text : Chars) : capitalizedFrom .outside (mark :: text) = capitalizedFrom .outside text := by
  rw [capitalizedFrom, if_neg (not_isCapital unspelled), after_of_mark unspelled]

theorem capitalizedFrom_passing_of_detached {rest : Chars} (detached : Detached rest) :
    capitalizedFrom .passing rest = capitalizedFrom .outside rest := by
  cases rest with
  | nil => rfl
  | cons mark rest =>
    have unspelled : isIdentifierChar mark = false := detached mark rfl
    rw [capitalizedFrom_outside_mark unspelled, capitalizedFrom, after_of_mark unspelled]

/-- The rest of an identifier is passed over. -/
theorem capitalizedFrom_passing_spelled {name : Chars}
    (spelled : ∀ character ∈ name, isIdentifierChar character = true) (rest : Chars) :
    capitalizedFrom .passing (name ++ rest) = capitalizedFrom .passing rest := by
  induction name with
  | nil => rfl
  | cons character name inductionHypothesis =>
    obtain ⟨first, others⟩ := List.forall_mem_cons.mp spelled
    rw [List.cons_append, capitalizedFrom, after_of_spelled first, inductionHypothesis others]

/-- A name goes on as long as plain characters do; the rest of its identifier is passed over. -/
theorem capitalizedFrom_reading (held text : Chars) :
    capitalizedFrom (.reading held) text =
      (held.reverse ++ text.takeWhile isPlainIdentifierChar) ::
        capitalizedFrom .passing (text.dropWhile isPlainIdentifierChar) := by
  induction text generalizing held with
  | nil => simp [capitalizedFrom]
  | cons character text inductionHypothesis =>
    rw [capitalizedFrom]
    by_cases plain : isPlainIdentifierChar character = true
    · rw [if_pos plain, inductionHypothesis, List.takeWhile_cons_of_pos plain,
        List.dropWhile_cons_of_pos plain, List.reverse_cons, List.append_assoc]
      rfl
    · rw [if_neg plain, List.takeWhile_cons_of_neg plain, List.dropWhile_cons_of_neg plain,
        List.append_nil, capitalizedFrom]

/-- What no identifier character follows goes on with no plain characters behind it either. -/
theorem span_append_of_detached {rest : Chars} (detached : Detached rest) (name : Chars) :
    (name ++ rest).takeWhile isPlainIdentifierChar = name.takeWhile isPlainIdentifierChar ∧
      (name ++ rest).dropWhile isPlainIdentifierChar =
        name.dropWhile isPlainIdentifierChar ++ rest := by
  induction name with
  | nil =>
    cases rest with
    | nil => exact ⟨rfl, rfl⟩
    | cons mark rest =>
      have notPlain : ¬ isPlainIdentifierChar mark = true := by
        intro plain
        exact Bool.false_ne_true ((detached mark rfl).symm.trans (isIdentifierChar_of_plain plain))
      exact ⟨List.takeWhile_cons_of_neg notPlain, List.dropWhile_cons_of_neg notPlain⟩
  | cons character name inductionHypothesis =>
    rw [List.cons_append]
    by_cases plain : isPlainIdentifierChar character = true
    · rw [List.takeWhile_cons_of_pos plain, List.takeWhile_cons_of_pos plain,
        List.dropWhile_cons_of_pos plain, List.dropWhile_cons_of_pos plain]
      exact inductionHypothesis.imp_left (congrArg (character :: ·))
    · rw [List.takeWhile_cons_of_neg plain, List.takeWhile_cons_of_neg plain,
        List.dropWhile_cons_of_neg plain, List.dropWhile_cons_of_neg plain]
      exact ⟨rfl, rfl⟩

theorem capitalizedFrom_outside_append {name rest : Chars} (identifier : IsIdentifier name)
    (detached : Detached rest) :
    capitalizedFrom .outside (name ++ rest) =
      (capital? name).toList ++ capitalizedFrom .outside rest := by
  obtain ⟨first, others, rfl⟩ := List.exists_cons_of_ne_nil identifier.named
  obtain ⟨spelled, othersSpelled⟩ := List.forall_mem_cons.mp identifier.spelled
  rw [← capitalizedFrom_passing_of_detached detached, List.cons_append, capitalizedFrom, capital?]
  split
  · obtain ⟨read, left⟩ := span_append_of_detached detached others
    have leftSpelled : ∀ character ∈ others.dropWhile isPlainIdentifierChar,
        isIdentifierChar character = true := fun character member =>
      othersSpelled character ((List.dropWhile_sublist _).subset member)
    rw [capitalizedFrom_reading, read, left, capitalizedFrom_passing_spelled leftSpelled]
    rfl
  · rw [after_of_spelled spelled, capitalizedFrom_passing_spelled othersSpelled]
    rfl

/-- The capitalized names of a text are those that its runs give, in order. -/
theorem capitalizedFrom_outside (text : Chars) :
    capitalizedFrom .outside text = (runs text).filterMap capital? := by
  induction text using inductionOnRuns with
  | nil => rfl
  | mark mark text unspelled inductionHypothesis =>
    rw [capitalizedFrom_outside_mark unspelled, runs_cons_of_mark unspelled, inductionHypothesis]
  | name name rest identifier detached inductionHypothesis =>
    rw [capitalizedFrom_outside_append identifier detached, runs_append_of_detached identifier
      detached, inductionHypothesis, List.filterMap_cons]
    cases capital? name <;> rfl

/-- The bases in a text that lists them are the names that are given by the runs of what stands
outside of brackets. -/
theorem baseNames_eq (text : Chars) :
    baseNames text = distinct ((runs (stripBrackets text)).filterMap capital?) := by
  rw [baseNames, capitalizedFrom_outside]

end CodeAtlas.Names
