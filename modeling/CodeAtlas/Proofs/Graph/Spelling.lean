/-
This file says that the spelling of a module does not matter. Its segments may be joined by dots
behind leading dots, by pairs of colons behind words for a place, by backslashes, or by slashes
behind steps. What stands before the segments is stripped, what stands between them becomes a slash,
and no spelling is taken for a file with an extension: so all of them mean the same files.
-/

import CodeAtlas.Proofs.Graph.Candidates
import CodeAtlas.Proofs.Text.Cutting
import CodeAtlas.Proofs.Text.Division
import CodeAtlas.Proofs.Text.Joining
import CodeAtlas.Proofs.Text.LowerCase

namespace CodeAtlas.Candidates

open Text

/-! ### Segments -/

/-- The marks that stand between the segments of a module. -/
def marks : Chars :=
  ['.', '/', '\\', ':']

/-- The steps from a directory to itself and to the one above it. -/
def stepWords : List Chars :=
  [['.', '/'], ['.', '.', '/']]

/-- Whether a text can be one segment of a module. -/
structure IsSegment (text : Chars) : Prop where
  named : text ≠ []
  unblank : ∀ character ∈ text, isBlank character = false
  unmarked : ∀ mark ∈ marks, mark ∉ text

/-- Whether texts can be the segments of a module, in this order. The first of them is no word for
a place, for such a word belongs to the spelling. -/
structure AreSegments (segments : List Chars) : Prop where
  some : segments ≠ []
  each : ∀ segment ∈ segments, IsSegment segment
  proper : ∀ first ∈ segments.head?, first ∉ placeWords

/-- The texts that spell the module with the given segments. -/
inductive Spells (segments : List Chars) : Chars → Prop
  | dotted (count : Nat) :
    Spells segments (List.replicate count '.' ++ ['.'].intercalate segments)
  | qualified {words : List Chars} (places : words ⊆ placeWords) :
    Spells segments (words.flatMap (· ++ [':', ':']) ++ [':', ':'].intercalate segments)
  | backslashed : Spells segments (['\\'].intercalate segments)
  | rooted : Spells segments ('\\' :: ['\\'].intercalate segments)
  | slashed {steps : List Chars} (relative : steps ⊆ stepWords) :
    Spells segments (steps.flatten ++ ['/'].intercalate segments)

/-- Whether no spelling of a module can be mistaken for a file: no extension has a slash in it, and
the last of several segments is none, whatever the case of its letters. -/
structure Unmistakable (extensions : List String) (segments : List Chars) : Prop where
  unslashed : ∀ extension ∈ extensions, '/' ∉ extension.toList
  last : 2 ≤ segments.length → ∀ segment ∈ segments.getLast?, ∀ extension ∈ extensions,
    sameIgnoringCase extension.toList segment = false

theorem isSegment_of_any {text : Chars} (named : text ≠ []) (unblank : text.any isBlank = false)
    (unmarked : text.any (· ∈ marks) = false) : IsSegment text where
  named := named
  unblank := unblank_of_any unblank
  unmarked mark marked member := List.any_eq_false.mp unmarked mark member (decide_eq_true marked)

theorem unmarked_placeWords {word : Chars} (isWord : word ∈ placeWords) {mark : Char}
    (marked : mark ∈ marks) : mark ∉ word := by
  have unmarked : ∀ word ∈ placeWords, word.any (· ∈ marks) = false := by decide
  exact fun member =>
    List.any_eq_false.mp (unmarked word isWord) mark member (decide_eq_true marked)

section

variable {segments : List Chars} (are : AreSegments segments)

include are

/-- No mark is in a segment. -/
theorem AreSegments.free {mark : Char} (marked : mark ∈ marks) :
    ∀ segment ∈ segments, mark ∉ segment :=
  fun segment member => (are.each segment member).unmarked mark marked

/-- Only what joins the segments is marked. -/
theorem AreSegments.notMem {separator : Chars} {mark : Char} (marked : mark ∈ marks)
    (other : mark ∉ separator) : mark ∉ separator.intercalate segments := by
  intro member
  rcases of_mem_intercalate member with between | ⟨segment, isSegment, inSegment⟩
  · exact other between
  · exact are.free marked segment isSegment inSegment

/-- Joined segments are blank nowhere if what joins them is not. -/
theorem AreSegments.unblank {separator : Chars} (between : separator.any isBlank = false) :
    ∀ character ∈ separator.intercalate segments, isBlank character = false := by
  intro character member
  rcases of_mem_intercalate member with isBetween | ⟨segment, isSegment, inSegment⟩
  · exact unblank_of_any between character isBetween
  · exact (are.each segment isSegment).unblank character inSegment

/-- Joined segments begin with the first one, and so with no mark. -/
theorem AreSegments.head?_notMem (separator : Chars) :
    ∀ character ∈ (separator.intercalate segments).head?, character ∉ marks := by
  intro character begins marked
  obtain ⟨first, rest, rfl⟩ := List.exists_cons_of_ne_nil are.some
  have isFirst := are.each first List.mem_cons_self
  rw [intercalate_cons_eq, List.head?_append_of_ne_nil _ isFirst.named] at begins
  exact isFirst.unmarked character marked (List.mem_of_mem_head? begins)

theorem AreSegments.intercalate_ne_nil (separator : Chars) :
    separator.intercalate segments ≠ [] := by
  obtain ⟨first, rest, rfl⟩ := List.exists_cons_of_ne_nil are.some
  rw [intercalate_cons_eq]
  exact List.append_ne_nil_of_left_ne_nil (are.each first List.mem_cons_self).named _

/-- Joined segments are no word for a place: one segment is none, and several have a mark between
them. -/
theorem AreSegments.notMem_placeWords {mark : Char} (marked : mark ∈ marks) (separator : Chars) :
    (mark :: separator).intercalate segments ∉ placeWords := by
  obtain ⟨first, rest, rfl⟩ := List.exists_cons_of_ne_nil are.some
  cases rest with
  | nil => simpa using are.proper first rfl
  | cons next rest =>
    intro isWord
    refine unmarked_placeWords isWord marked ?_
    rw [List.intercalate_cons_cons]
    simp

/-- Segments with slashes between them are a path with no slash around it. -/
theorem AreSegments.dropAround_slashed :
    dropAround isSlash (['/'].intercalate segments) = ['/'].intercalate segments := by
  have named : ∀ segment ∈ segments, segment ≠ [] := fun segment member =>
    (are.each segment member).named
  refine dropAround_intercalate ['/'] are.some named fun segment member character inSegment => ?_
  refine beq_eq_false_iff_ne.mpr ?_
  rintro rfl
  exact are.free (by decide) segment member inSegment

end

/-! ### What stands before the segments -/

theorem stripSteps_of_notMem {text : Chars} (free : '/' ∉ text) : stripSteps text = text := by
  unfold stripSteps
  split
  · simp at free
  · simp at free
  · rfl

theorem stripSteps_of_head? {text : Chars} (begins : '.' ∉ text.head?) :
    stripSteps text = text := by
  unfold stripSteps
  split
  · simp at begins
  · simp at begins
  · rfl

theorem stripSteps_flatten_append {steps : List Chars}
    (relative : steps ⊆ stepWords) (path : Chars) :
    stripSteps (steps.flatten ++ path) = stripSteps path := by
  induction steps with
  | nil => rfl
  | cons step steps inductionHypothesis =>
    obtain ⟨isStep, areSteps⟩ := List.cons_subset.mp relative
    rw [List.flatten_cons, List.append_assoc]
    simp only [stepWords, List.mem_cons, List.not_mem_nil, or_false] at isStep
    rcases isStep with rfl | rfl
    · exact inductionHypothesis areSteps
    · exact inductionHypothesis areSteps

theorem dropWhile_dots {text : Chars} (begins : '.' ∉ text.head?) (count : Nat) :
    (List.replicate count '.' ++ text).dropWhile (· = '.') = text := by
  rw [List.dropWhile_append_of_pos fun character member =>
    decide_eq_true (List.eq_of_mem_replicate member)]
  refine dropWhile_eq_self fun character first => decide_eq_false ?_
  rintro rfl
  exact begins first

theorem stripPlaceWords_of_some {text rest : Chars} (found : afterPlaceWord? text = some rest) :
    stripPlaceWords text = stripPlaceWords rest := by
  rw [stripPlaceWords]
  split
  · next other otherFound =>
    rw [found] at otherFound
    rw [Option.some.inj otherFound]
  · next notFound =>
    rw [found] at notFound
    cases notFound

theorem stripPlaceWords_of_none {text : Chars} (notFound : afterPlaceWord? text = none) :
    stripPlaceWords text = text := by
  rw [stripPlaceWords]
  split
  · next other otherFound =>
    rw [notFound] at otherFound
    cases otherFound
  · rfl

/-- A word for a place and the colons behind it are found at the beginning of a text. -/
theorem afterPlaceWord?_append {word : Chars} (isWord : word ∈ placeWords) (text : Chars) :
    afterPlaceWord? (word ++ [':', ':'] ++ text) = some text := by
  have spelled : placeWords =
      [['c', 'r', 'a', 't', 'e'], ['s', 'e', 'l', 'f'], ['s', 'u', 'p', 'e', 'r']] := by decide
  rw [afterPlaceWord?]
  rw [spelled] at isWord ⊢
  simp only [List.mem_cons, List.not_mem_nil, or_false] at isWord
  rcases isWord with rfl | rfl | rfl <;> rfl

theorem stripPlaceWords_flatMap_append {words : List Chars} (places : words ⊆ placeWords)
    (text : Chars) :
    stripPlaceWords (words.flatMap (· ++ [':', ':']) ++ text) = stripPlaceWords text := by
  induction words with
  | nil => rfl
  | cons word words inductionHypothesis =>
    obtain ⟨isWord, areWords⟩ := List.cons_subset.mp places
    rw [List.flatMap_cons, List.append_assoc,
      stripPlaceWords_of_some (afterPlaceWord?_append isWord _), inductionHypothesis areWords]

theorem exists_of_afterPlaceWord? {text rest : Chars} (found : afterPlaceWord? text = some rest) :
    ∃ word ∈ placeWords, text = word ++ ':' :: ':' :: rest := by
  obtain ⟨word, isWord, found⟩ := List.exists_of_findSome?_eq_some found
  exact ⟨word, isWord, by simpa using eq_append_of_stripFront? found⟩

theorem stripPlaceWords_of_notMem {text : Chars} (free : ':' ∉ text) :
    stripPlaceWords text = text := by
  refine stripPlaceWords_of_none (Option.eq_none_iff_forall_ne_some.mpr fun rest found => ?_)
  obtain ⟨word, _, rfl⟩ := exists_of_afterPlaceWord? found
  simp at free

/-- The first segment ends where the colons begin, so that it would be the word for a place that
is found. -/
theorem AreSegments.stripPlaceWords_qualified {segments : List Chars} (are : AreSegments segments) :
    stripPlaceWords ([':', ':'].intercalate segments) = [':', ':'].intercalate segments := by
  refine stripPlaceWords_of_none (Option.eq_none_iff_forall_ne_some.mpr fun rest found => ?_)
  obtain ⟨word, isWord, same⟩ := exists_of_afterPlaceWord? found
  obtain ⟨first, others, rfl⟩ := List.exists_cons_of_ne_nil are.some
  have inFirst : ∀ character ∈ first, character ≠ ':' := fun character member =>
    ne_of_mem_of_not_mem member (are.free (by decide) first List.mem_cons_self)
  have inWord : ∀ character ∈ word, character ≠ ':' := fun character member =>
    ne_of_mem_of_not_mem member (unmarked_placeWords isWord (by decide))
  have ends : ∀ character ∈ (others.flatMap ([':', ':'] ++ ·)).head?, ¬ character ≠ ':' := by
    cases others <;> simp
  rw [intercalate_cons_eq] at same
  have isFirst := (append_inj_of_heads inFirst inWord ends (by simp) same).1
  exact are.proper first rfl (isFirst ▸ isWord)

/-! ### The path -/

theorem Spells.unblank {segments : List Chars} (are : AreSegments segments) {text : Chars}
    (spells : Spells segments text) : ∀ character ∈ text, isBlank character = false := by
  cases spells with
  | dotted count =>
    refine List.forall_mem_append.mpr ⟨fun character member => ?_, are.unblank rfl⟩
    rw [List.eq_of_mem_replicate member]
    rfl
  | qualified places =>
    have unblankWords : ∀ word ∈ placeWords, (word ++ [':', ':']).any isBlank = false := by decide
    refine List.forall_mem_append.mpr ⟨fun character member => ?_, are.unblank rfl⟩
    obtain ⟨word, isWord, inWord⟩ := List.mem_flatMap.mp member
    exact unblank_of_any (unblankWords word (places isWord)) character inWord
  | backslashed => exact are.unblank rfl
  | rooted => exact List.forall_mem_cons.mpr ⟨rfl, are.unblank rfl⟩
  | slashed relative =>
    have unblankSteps : ∀ step ∈ stepWords, step.any isBlank = false := by decide
    refine List.forall_mem_append.mpr ⟨fun character member => ?_, are.unblank rfl⟩
    obtain ⟨step, isStep, inStep⟩ := List.mem_flatten.mp member
    exact unblank_of_any (unblankSteps step (relative isStep)) character inStep

/-- The path of a module is what the replacements make of it behind steps, leading dots and words
for a place, unless a slash is left there. -/
theorem modulePath_eq {text rest path : Chars}
    (unblank : ∀ character ∈ text, isBlank character = false)
    (stripped : stripPlaceWords ((stripSteps text).dropWhile (· = '.')) = rest)
    (proper : rest ∉ placeWords) (kept : '/' ∈ rest → rest = path)
    (replaced : replaceChar '.' '/' (replaceChar '\\' '/' (replacePair ':' '/' rest)) = path) :
    modulePath text = dropAround isSlash path := by
  rw [modulePath, trim_eq_self unblank, stripped]
  simp only [if_neg proper, replaced]
  -- With a slash left nothing is replaced, and what is left is the path already.
  split
  · next hasSlash =>
    obtain ⟨character, member, slash⟩ := List.any_eq_true.mp hasSlash
    rw [kept (eq_of_beq slash ▸ member)]
  · rfl

theorem dropWhile_stripSteps {text : Chars} (unslashed : '/' ∉ text) (undotted : '.' ∉ text) :
    (stripSteps text).dropWhile (· = '.') = text := by
  rw [stripSteps_of_notMem unslashed]
  exact dropWhile_dots (fun begins => undotted (List.mem_of_mem_head? begins)) 0

section

variable {segments : List Chars} (are : AreSegments segments)

include are

/-- Between slashes there is nothing left to replace. -/
theorem AreSegments.replaced_slashed :
    replaceChar '.' '/' (replaceChar '\\' '/' (['/'].intercalate segments)) =
      ['/'].intercalate segments := by
  have undotted : '.' ∉ ['/'].intercalate segments := are.notMem (by decide) (by decide)
  have noBackslash : '\\' ∉ ['/'].intercalate segments := are.notMem (by decide) (by decide)
  rw [replaceChar_of_notMem _ noBackslash, replaceChar_of_notMem _ undotted]

theorem AreSegments.modulePath_dotted (count : Nat) :
    modulePath (List.replicate count '.' ++ ['.'].intercalate segments) =
      dropAround isSlash (['/'].intercalate segments) := by
  have uncoloned : ':' ∉ ['.'].intercalate segments := are.notMem (by decide) (by decide)
  have unslashed : '/' ∉ ['.'].intercalate segments := are.notMem (by decide) (by decide)
  have noBackslash : '\\' ∉ ['.'].intercalate segments := are.notMem (by decide) (by decide)
  have undotted : '.' ∉ (['.'].intercalate segments).head? := fun begins =>
    are.head?_notMem ['.'] '.' begins (by decide)
  have noSteps : '/' ∉ List.replicate count '.' ++ ['.'].intercalate segments :=
    List.not_mem_append (by simp) unslashed
  refine modulePath_eq ((Spells.dotted count).unblank are) ?_ (are.notMem_placeWords (by decide) [])
    (fun hasSlash => absurd hasSlash unslashed) ?_
  · rw [stripSteps_of_notMem noSteps, dropWhile_dots undotted, stripPlaceWords_of_notMem uncoloned]
  · rw [replacePair_of_notMem _ uncoloned, replaceChar_of_notMem _ noBackslash,
      replaceChar_intercalate _ _ (are.free (by decide))]

theorem AreSegments.notMem_qualified {words : List Chars} (places : words ⊆ placeWords)
    {mark : Char} (marked : mark ∈ marks) (other : mark ∉ [':', ':']) :
    mark ∉ words.flatMap (· ++ [':', ':']) ++ [':', ':'].intercalate segments := by
  refine List.not_mem_append (fun member => ?_) (are.notMem marked other)
  obtain ⟨word, isWord, inWord⟩ := List.mem_flatMap.mp member
  exact List.not_mem_append (unmarked_placeWords (places isWord) marked) other inWord

theorem AreSegments.modulePath_qualified {words : List Chars} (places : words ⊆ placeWords) :
    modulePath (words.flatMap (· ++ [':', ':']) ++ [':', ':'].intercalate segments) =
      dropAround isSlash (['/'].intercalate segments) := by
  have unslashed : '/' ∉ [':', ':'].intercalate segments := are.notMem (by decide) (by decide)
  refine modulePath_eq ((Spells.qualified places).unblank are) ?_
    (are.notMem_placeWords (by decide) [':']) (fun hasSlash => absurd hasSlash unslashed) ?_
  · rw [dropWhile_stripSteps (are.notMem_qualified places (by decide) (by decide))
        (are.notMem_qualified places (by decide) (by decide)),
      stripPlaceWords_flatMap_append places, are.stripPlaceWords_qualified]
  · rw [replacePair_intercalate _ _ (are.free (by decide)), are.replaced_slashed]

theorem AreSegments.replaced_backslashed :
    replaceChar '.' '/' (replaceChar '\\' '/' (replacePair ':' '/' (['\\'].intercalate segments))) =
      ['/'].intercalate segments := by
  have uncoloned : ':' ∉ ['\\'].intercalate segments := are.notMem (by decide) (by decide)
  have undotted : '.' ∉ ['/'].intercalate segments := are.notMem (by decide) (by decide)
  rw [replacePair_of_notMem _ uncoloned, replaceChar_intercalate _ _ (are.free (by decide)),
    replaceChar_of_notMem _ undotted]

theorem AreSegments.modulePath_backslashed :
    modulePath (['\\'].intercalate segments) = dropAround isSlash (['/'].intercalate segments) := by
  have unslashed : '/' ∉ ['\\'].intercalate segments := are.notMem (by decide) (by decide)
  have undotted : '.' ∉ ['\\'].intercalate segments := are.notMem (by decide) (by decide)
  have uncoloned : ':' ∉ ['\\'].intercalate segments := are.notMem (by decide) (by decide)
  refine modulePath_eq (Spells.backslashed.unblank are) ?_ (are.notMem_placeWords (by decide) [])
    (fun hasSlash => absurd hasSlash unslashed) are.replaced_backslashed
  rw [dropWhile_stripSteps unslashed undotted, stripPlaceWords_of_notMem uncoloned]

/-- The slash that the first backslash becomes is dropped. -/
theorem AreSegments.modulePath_rooted :
    modulePath ('\\' :: ['\\'].intercalate segments) =
      dropAround isSlash (['/'].intercalate segments) := by
  have unmarked {mark : Char} (marked : mark ∈ marks) (other : mark ∉ ['\\']) :
      mark ∉ '\\' :: ['\\'].intercalate segments :=
    List.not_mem_append other (are.notMem marked other)
  have unslashed : '/' ∉ '\\' :: ['\\'].intercalate segments := unmarked (by decide) (by decide)
  have proper : '\\' :: ['\\'].intercalate segments ∉ placeWords := fun isWord =>
    unmarked_placeWords isWord (by decide) List.mem_cons_self
  have replaced : replaceChar '.' '/' (replaceChar '\\' '/'
      (replacePair ':' '/' ('\\' :: ['\\'].intercalate segments))) =
        '/' :: ['/'].intercalate segments := by
    rw [replacePair_cons_of_ne '/' (by decide)]
    exact congrArg ('/' :: ·) are.replaced_backslashed
  refine (modulePath_eq (Spells.rooted.unblank are) ?_ proper
    (fun hasSlash => absurd hasSlash unslashed) replaced).trans rfl
  rw [dropWhile_stripSteps unslashed (unmarked (by decide) (by decide)),
    stripPlaceWords_of_notMem (unmarked (by decide) (by decide))]

theorem AreSegments.modulePath_slashed {steps : List Chars}
    (relative : steps ⊆ stepWords) :
    modulePath (steps.flatten ++ ['/'].intercalate segments) =
      dropAround isSlash (['/'].intercalate segments) := by
  have uncoloned : ':' ∉ ['/'].intercalate segments := are.notMem (by decide) (by decide)
  have begins : '.' ∉ (['/'].intercalate segments).head? := fun begins =>
    are.head?_notMem ['/'] '.' begins (by decide)
  refine modulePath_eq ((Spells.slashed relative).unblank are) ?_
    (are.notMem_placeWords (by decide) []) (fun _ => rfl) ?_
  · rw [stripSteps_flatten_append relative, stripSteps_of_head? begins]
    exact (congrArg stripPlaceWords (dropWhile_dots begins 0)).trans
      (stripPlaceWords_of_notMem uncoloned)
  · rw [replacePair_of_notMem _ uncoloned, are.replaced_slashed]

/-- Every spelling becomes the path on which the segments stand between slashes. -/
theorem Spells.modulePath_eq {text : Chars} (spells : Spells segments text) :
    modulePath text = ['/'].intercalate segments := by
  refine Eq.trans ?_ are.dropAround_slashed
  cases spells with
  | dotted count => exact are.modulePath_dotted count
  | qualified places => exact are.modulePath_qualified places
  | backslashed => exact are.modulePath_backslashed
  | rooted => exact are.modulePath_rooted
  | slashed relative => exact are.modulePath_slashed relative

end

/-! ### Extensions -/

section

variable {extensions : List String}

theorem hasExtension_of_notMem {text : Chars} (undotted : '.' ∉ text) :
    hasExtension extensions text = false := by
  rw [hasExtension, splitLast?_of_notMem undotted]

theorem hasExtension_append_cons (front : Chars) {back : Chars} (undotted : '.' ∉ back) :
    hasExtension extensions (front ++ '.' :: back) =
      (!front.isEmpty && !endsWith ['.'] front &&
        extensions.any fun known => sameIgnoringCase known.toList back) := by
  rw [hasExtension, splitLast?_append_cons front undotted]

/-- A text with nothing but dots before it has no extension, for the last of them follows another
one or begins the text. -/
theorem hasExtension_dots {text : Chars} (undotted : '.' ∉ text) (count : Nat) :
    hasExtension extensions (List.replicate count '.' ++ text) = false := by
  cases count with
  | zero => exact hasExtension_of_notMem undotted
  | succ count =>
    rw [List.replicate_succ', List.append_assoc, List.singleton_append,
      hasExtension_append_cons _ undotted]
    cases count with
    | zero => rfl
    | succ count =>
      have endsInDot : endsWith ['.'] (List.replicate (count + 1) '.') = true := by
        rw [endsWith, stripBack?, List.reverse_replicate]
        rfl
      rw [endsInDot, Bool.not_true, Bool.and_false, Bool.false_and]

theorem slash_mem_of_sameIgnoringCase {known back : Chars}
    (same : sameIgnoringCase known ('/' :: back) = true) : '/' ∈ known := by
  cases known with
  | nil => cases same
  | cons first rest =>
    have small : first.toLower = '/' := (List.cons.inj (eq_of_beq same)).1
    rcases toLower_eq_self_or first with unchanged | letter
    · exact List.mem_cons.mpr (.inl (small.symm.trans unchanged))
    · rw [small] at letter
      exact absurd letter (by decide)

/-- No extension is found behind the dots of a step, for it would begin with a slash. -/
theorem hasExtension_steps (unslashed : ∀ extension ∈ extensions, '/' ∉ extension.toList)
    {steps : List Chars} (relative : steps ⊆ stepWords) {path : Chars}
    (undotted : '.' ∉ path) : hasExtension extensions (steps.flatten ++ path) = false := by
  rcases List.eq_nil_or_concat' steps with rfl | ⟨steps, step, rfl⟩
  · exact hasExtension_of_notMem undotted
  · have isStep : step = [] ++ ['.', '/'] ∨ step = ['.'] ++ ['.', '/'] := by
      simpa [stepWords] using relative (List.mem_append_right steps List.mem_cons_self)
    have divided : ∃ front, (steps ++ [step]).flatten ++ path = front ++ '.' :: '/' :: path := by
      rcases isStep with rfl | rfl
      · exact ⟨steps.flatten, by simp⟩
      · exact ⟨steps.flatten ++ ['.'], by simp⟩
    obtain ⟨front, divided⟩ := divided
    have unknown : (extensions.any fun known =>
        sameIgnoringCase known.toList ('/' :: path)) = false :=
      List.any_eq_false.mpr fun extension tried same =>
        unslashed extension tried (slash_mem_of_sameIgnoringCase same)
    have behind : '.' ∉ '/' :: path := List.not_mem_cons_of_ne_of_not_mem (by decide) undotted
    rw [divided, hasExtension_append_cons front behind, unknown, Bool.and_false]

variable {segments : List Chars} (are : AreSegments segments)

include are

/-- Behind the last dot stands the last segment, which is no extension if others stand before it. -/
theorem AreSegments.hasExtension_dotted
    (unmistakable : Unmistakable extensions segments) (count : Nat) :
    hasExtension extensions (List.replicate count '.' ++ ['.'].intercalate segments) = false := by
  obtain ⟨front, segment, rfl⟩ := (List.eq_nil_or_concat' segments).resolve_left are.some
  have undotted : '.' ∉ segment := are.free (by decide) segment (by simp)
  -- The last dot is a leading one if there is one segment, and a separator if there are several.
  by_cases alone : front = []
  · rw [alone, List.nil_append, List.intercalate_singleton]
    exact hasExtension_dots undotted count
  · have several : 2 ≤ (front ++ [segment]).length := by
      have := List.length_pos_of_ne_nil alone
      simp
      omega
    have unknown : (extensions.any fun known => sameIgnoringCase known.toList segment) = false :=
      List.any_eq_false.mpr fun extension tried =>
        Bool.eq_false_iff.mp (unmistakable.last several segment (by simp) extension tried)
    have divided : List.replicate count '.' ++ ['.'].intercalate (front ++ [segment]) =
        (List.replicate count '.' ++ ['.'].intercalate front) ++ '.' :: segment := by
      rw [intercalate_concat _ alone]
      simp
    rw [divided, hasExtension_append_cons _ undotted, unknown, Bool.and_false]

/-- No spelling of a module is taken for a file. -/
theorem Spells.hasExtension_eq_false {text : Chars} (spells : Spells segments text)
    (unmistakable : Unmistakable extensions segments) : hasExtension extensions text = false := by
  cases spells with
  | dotted count => exact are.hasExtension_dotted unmistakable count
  | qualified places =>
    exact hasExtension_of_notMem (are.notMem_qualified places (by decide) (by decide))
  | backslashed => exact hasExtension_of_notMem (are.notMem (by decide) (by decide))
  | rooted =>
    exact hasExtension_of_notMem (List.not_mem_cons_of_ne_of_not_mem (by decide)
      (are.notMem (by decide) (by decide)))
  | slashed relative =>
    exact hasExtension_steps unmistakable.unslashed relative (are.notMem (by decide) (by decide))

end

/-! ### The files of a module -/

variable {segments : List Chars}

theorem map_filesAt (path : Chars) (extension : String) :
    (filesAt path extension.toList).map String.ofList =
      [".", "/index.", "/__init__.", "/mod."].map (String.ofList path ++ · ++ extension) := by
  have dot : String.ofList ['.'] = "." := rfl
  simp only [filesAt, List.map_cons, List.map_nil, String.ofList_append, String.ofList_toList, dot]

/-- However a module is spelled, it means the files that can stand for it at the path on which its
segments stand between slashes, with one extension after the other. -/
theorem patterns_spelled (are : AreSegments segments) {extensions : List String}
    (unmistakable : Unmistakable extensions segments) {name : String}
    (spells : Spells segments name.toList) :
    patterns name extensions = extensions.flatMap fun extension =>
      [".", "/index.", "/__init__.", "/mod."].map
        (String.ofList (['/'].intercalate segments) ++ · ++ extension) := by
  have path := spells.modulePath_eq are
  have pathNamed := are.intercalate_ne_nil ['/']
  have named : name.toList ≠ [] := by
    intro empty
    rw [empty, modulePath_nil] at path
    exact pathNamed path.symm
  have notFile := spells.hasExtension_eq_false are unmistakable
  have meant : ofModule extensions name.toList = extensions.flatMap fun extension =>
      filesAt (['/'].intercalate segments) extension.toList := by
    rw [ofModule, trim_eq_self (spells.unblank are)]
    simp only [List.isEmpty_iff, named, notFile, path, ofPath, pathNamed, Bool.false_eq_true,
      if_false]
  rw [patterns, meant, List.map_flatMap]
  simp only [map_filesAt]

/-- A module of two segments, spelled in each of the five ways. -/
theorem patterns_spelled_package :
    ["..pkg.mod", "crate::self::pkg::mod", "pkg\\mod", "\\pkg\\mod", "./../pkg/mod"].map
        (patterns · ["py", "rs"]) =
      List.replicate 5 ["pkg/mod.py", "pkg/mod/index.py", "pkg/mod/__init__.py", "pkg/mod/mod.py",
        "pkg/mod.rs", "pkg/mod/index.rs", "pkg/mod/__init__.rs", "pkg/mod/mod.rs"] := by
  have are : AreSegments ["pkg".toList, "mod".toList] := {
    some := by decide
    each := List.forall_mem_cons.mpr ⟨isSegment_of_any (by decide) (by decide) (by decide),
      List.forall_mem_singleton.mpr (isSegment_of_any (by decide) (by decide) (by decide))⟩
    proper := by decide }
  refine List.map_eq_replicate_iff.mpr fun name member => ?_
  have spells : Spells ["pkg".toList, "mod".toList] name.toList := by
    simp only [List.mem_cons, List.not_mem_nil, or_false] at member
    rcases member with rfl | rfl | rfl | rfl | rfl
    · exact .dotted 2
    · have places : ["crate".toList, "self".toList] ⊆ placeWords := by decide
      exact .qualified places
    · exact .backslashed
    · exact .rooted
    · have relative : ["./".toList, "../".toList] ⊆ stepWords := by decide
      exact .slashed relative
  exact (patterns_spelled are ⟨by decide, by decide⟩ spells).trans (by decide)

end CodeAtlas.Candidates
