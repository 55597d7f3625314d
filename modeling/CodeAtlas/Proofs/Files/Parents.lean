/-
This file relates a path to its lexical parents. A parent is made of the first pieces of a path,
never of the last one, and begins where the path begins; the parents of the first parent are the
other parents. Slashes at the end of a path add nothing but empty pieces. So from a path upwards
each next path lacks one component more, down to a path from which none can be taken away.
-/

import CodeAtlas.Proofs.Files.Naming
import CodeAtlas.Proofs.Text.Joining

namespace CodeAtlas

open Text

namespace Path

/-! ### Pieces of composed texts -/

theorem slash_notMem_of_mem_pieces {path : String} {piece : Chars}
    (member : piece ∈ pieces path) : '/' ∉ piece := by
  intro inPiece
  exact of_decide_eq_false (@eq_false_of_mem_splitWhere (· = '/') _ _ member _ inPiece) rfl

/-- Only the empty path begins with an empty piece without beginning at the root. -/
theorem eq_empty_of_head?_pieces {path : String} (isRelative : isAbsolute path = false)
    (begins : (pieces path).head? = some []) : path = "" := by
  cases whole : path.toList with
  | nil => exact String.toList_eq_nil_iff.mp whole
  | cons first rest =>
    obtain ⟨absolute, split⟩ := pieces_of_cons whole
    have notSlash : first ≠ '/' := of_decide_eq_false (absolute.symm.trans isRelative)
    rw [split, if_neg notSlash, splitWhere, if_neg (by simpa using notSlash)] at begins
    split at begins <;> cases begins

/-- The path of some pieces has these pieces again, unless they would begin elsewhere. -/
theorem pieces_ofReversed {absolute : Bool} {reversed : List Chars} (begun : reversed ≠ [])
    (free : ∀ piece ∈ reversed, '/' ∉ piece)
    (beginsSo : absolute = false → reversed.getLast? ≠ some []) :
    isAbsolute (ofReversed absolute reversed) = absolute ∧
      pieces (ofReversed absolute reversed) = reversed.reverse := by
  have cutAgain : splitWhere (· = '/') (Text.join ['/'] reversed.reverse) = reversed.reverse := by
    rw [join_eq_intercalate]
    refine @splitWhere_intercalate (· = '/') '/' rfl _ (by simpa using begun) ?_
    intro piece member character inPiece
    exact decide_eq_false (ne_of_mem_of_not_mem inPiece (free piece (List.mem_reverse.mp member)))
  cases absolute with
  | true =>
    have isRooted : isAbsolute (ofReversed true reversed) = true := by simp [isAbsolute, ofReversed]
    refine ⟨isRooted, ?_⟩
    rw [pieces, isRooted, if_pos rfl, ofReversed, String.toList_ofList]
    exact cutAgain
  | false =>
    have isRelative : isAbsolute (ofReversed false reversed) = false := by
      cases begins : (Text.join ['/'] reversed.reverse).head? with
      | none => simp [isAbsolute, ofReversed, begins]
      | some first =>
        refine decide_eq_false fun isSlash => beginsSo rfl ?_
        have slashFirst : (Text.join ['/'] reversed.reverse).head? = some '/' := by
          simpa [ofReversed] using isSlash
        obtain ⟨rest, whole⟩ := List.head?_eq_some_iff.mp slashFirst
        rw [whole, splitWhere, if_pos (by simp)] at cutAgain
        rw [← List.head?_reverse, ← cutAgain, List.head?_cons]
    refine ⟨isRelative, ?_⟩
    rw [pieces, isRelative, if_neg Bool.false_ne_true, ofReversed, String.toList_ofList]
    exact cutAgain

/-- A slash at the end of a path adds an empty piece. -/
theorem pieces_concat_slash {body : Chars} (begun : body ≠ []) :
    isAbsolute (String.ofList (body ++ ['/'])) = isAbsolute (String.ofList body) ∧
      pieces (String.ofList (body ++ ['/'])) = pieces (String.ofList body) ++ [[]] := by
  obtain ⟨first, rest, rfl⟩ := List.exists_cons_of_ne_nil begun
  have whole : (String.ofList (first :: rest)).toList = first :: rest := String.toList_ofList
  have longer : (String.ofList (first :: rest ++ ['/'])).toList = first :: (rest ++ ['/']) :=
    String.toList_ofList
  rw [(pieces_of_cons whole).1, (pieces_of_cons whole).2, (pieces_of_cons longer).1,
    (pieces_of_cons longer).2]
  refine ⟨rfl, ?_⟩
  rw [show [[]] = splitWhere (· = '/') [] from rfl, ← splitWhere_slash]
  split <;> rfl

/-- Without the slashes at its end a path has the same pieces but for empty ones at the end. -/
theorem pieces_dropEnd_slash {path : String}
    (begun : dropEnd (· = '/') path.toList ≠ []) :
    isAbsolute path = isAbsolute (String.ofList (dropEnd (· = '/') path.toList)) ∧
      ∃ count, pieces path =
        pieces (String.ofList (dropEnd (· = '/') path.toList)) ++ List.replicate count [] := by
  obtain ⟨dropped, divided, areSlashes⟩ := exists_dropEnd_append (· = '/') path.toList
  have slashes : dropped = List.replicate dropped.length '/' :=
    List.eq_replicate_iff.mpr ⟨rfl, fun character member => by simpa using areSlashes _ member⟩
  have same : path = String.ofList
      (dropEnd (· = '/') path.toList ++ List.replicate dropped.length '/') := by
    rw [← slashes, ← divided, String.ofList_toList]
  clear divided slashes areSlashes
  generalize dropEnd (· = '/') path.toList = body at begun same ⊢
  generalize dropped.length = count at same
  subst same
  induction count with
  | zero =>
    rw [List.replicate_zero, List.append_nil]
    exact ⟨rfl, 0, (List.append_nil _).symm⟩
  | succ count inductionHypothesis =>
    obtain ⟨absolute, less, pieces⟩ := inductionHypothesis
    rw [List.replicate_succ', ← List.append_assoc]
    obtain ⟨sameStart, onePiece⟩ := pieces_concat_slash
      (List.append_ne_nil_of_left_ne_nil begun (List.replicate count '/'))
    refine ⟨sameStart.trans absolute, less + 1, ?_⟩
    rw [onePiece, pieces, List.replicate_succ', List.append_assoc]

/-! ### Parents -/

theorem dropNothings_isSuffix (absolute : Bool) (reversed : List Chars) :
    dropNothings absolute reversed <:+ reversed := by
  induction reversed with
  | nil => exact List.suffix_rfl
  | cons piece earlier inductionHypothesis =>
    rw [dropNothings]
    split
    · exact inductionHypothesis.trans (List.suffix_cons piece earlier)
    · exact List.suffix_rfl

theorem parentsOfReversed_dropNothings (absolute : Bool) (reversed : List Chars) :
    parentsOfReversed absolute (dropNothings absolute reversed) =
      parentsOfReversed absolute reversed := by
  induction reversed with
  | nil => rfl
  | cons piece earlier inductionHypothesis =>
    rw [dropNothings]
    split
    · next nothing =>
      rw [inductionHypothesis]
      conv => rhs; rw [parentsOfReversed, if_pos nothing]
    · rfl

theorem exists_of_mem_parentsOfReversed {absolute : Bool} {reversed : List Chars}
    {parent : String} (member : parent ∈ parentsOfReversed absolute reversed) :
    ∃ earlier, earlier <:+ reversed.tail ∧ parent = ofReversed absolute earlier := by
  induction reversed with
  | nil => cases member
  | cons piece earlier inductionHypothesis =>
    have below : parent ∈ parentsOfReversed absolute earlier →
        ∃ shorter, shorter <:+ earlier ∧ parent = ofReversed absolute shorter := by
      intro member
      obtain ⟨shorter, isSuffix, same⟩ := inductionHypothesis member
      exact ⟨shorter, isSuffix.trans (List.tail_suffix earlier), same⟩
    rw [parentsOfReversed] at member
    split at member
    · exact below member
    · rcases List.mem_cons.mp member with rfl | member
      · exact ⟨_, dropNothings_isSuffix absolute earlier, rfl⟩
      · exact below member

/-- The path of the first pieces of a path is empty, or begins as the path does and has these
pieces again; the root alone has an empty piece. -/
theorem pieces_ofReversed_of_isSuffix {path : String} {earlier : List Chars}
    (isSuffix : earlier <:+ (pieces path).reverse) (notEmpty : path ≠ "") :
    (ofReversed (isAbsolute path) earlier = "" ∧ earlier = []) ∨
      isAbsolute (ofReversed (isAbsolute path) earlier) = isAbsolute path ∧
        (earlier = [] ∧ pieces (ofReversed (isAbsolute path) earlier) = [[]] ∨
          pieces (ofReversed (isAbsolute path) earlier) = earlier.reverse) := by
  by_cases begun : earlier = []
  · subst begun
    cases isAbsolute path with
    | false => exact .inl ⟨rfl, rfl⟩
    | true => exact .inr ⟨rfl, .inl ⟨rfl, rfl⟩⟩
  · have free : ∀ piece ∈ earlier, '/' ∉ piece := fun piece member =>
      slash_notMem_of_mem_pieces (List.mem_reverse.mp (isSuffix.subset member))
    have beginsSo : isAbsolute path = false → earlier.getLast? ≠ some [] := by
      intro isRelative begins
      refine notEmpty (eq_empty_of_head?_pieces isRelative ?_)
      obtain ⟨later, whole⟩ := isSuffix
      rw [← List.getLast?_reverse, ← whole, List.getLast?_append, begins, Option.some_or]
    obtain ⟨absolute, same⟩ := pieces_ofReversed begun free beginsSo
    exact .inr ⟨absolute, .inr same⟩

/-- The pieces of a parent of a path are the path's pieces at its beginning, without its last
one. -/
theorem of_mem_parents {path parent : String} (member : parent ∈ parents path) :
    parent = "" ∨ isAbsolute parent = isAbsolute path ∧
      (pieces parent = [[]] ∨ pieces parent <+: (pieces path).dropLast) := by
  have notEmpty : path ≠ "" := by
    rintro rfl
    cases member
  obtain ⟨earlier, isSuffix, rfl⟩ := exists_of_mem_parentsOfReversed member
  have inPath := isSuffix.trans (List.tail_suffix _)
  rcases pieces_ofReversed_of_isSuffix inPath notEmpty with ⟨empty, _⟩ | ⟨absolute, pieces⟩
  · exact .inl empty
  · refine .inr ⟨absolute, pieces.imp And.right fun same => ?_⟩
    rw [same, ← List.reverse_suffix, List.reverse_reverse, ← List.tail_reverse]
    exact isSuffix

/-- The parents of the path of the first pieces of a path are the parents of these pieces. -/
theorem parents_ofReversed_of_isSuffix {path : String} {earlier : List Chars}
    (isSuffix : earlier <:+ (pieces path).reverse) (notEmpty : path ≠ "") :
    parents (ofReversed (isAbsolute path) earlier) =
      parentsOfReversed (isAbsolute path) earlier := by
  rw [parents]
  rcases pieces_ofReversed_of_isSuffix isSuffix notEmpty with
    ⟨empty, isNil⟩ | ⟨absolute, ⟨isNil, root⟩ | same⟩
  · rw [empty, isNil]
    rfl
  · rw [absolute, root, isNil]
    rfl
  · rw [absolute, same, List.reverse_reverse]

/-- The last piece that names something is taken away, with all that follows it. -/
theorem parentsOfReversed_eq_cons {path directory : String} {reversed : List Chars}
    (isSuffix : reversed <:+ (pieces path).reverse) (notEmpty : path ≠ "")
    (isParent : (parentsOfReversed (isAbsolute path) reversed).head? = some directory) :
    parentsOfReversed (isAbsolute path) reversed = directory :: parents directory := by
  induction reversed with
  | nil => cases isParent
  | cons piece earlier inductionHypothesis =>
    have isSuffixBelow := (List.suffix_cons piece earlier).trans isSuffix
    rw [parentsOfReversed] at isParent ⊢
    split at isParent
    · next nothing =>
      rw [if_pos nothing]
      exact inductionHypothesis isSuffixBelow isParent
    · next something =>
      rw [if_neg something]
      obtain rfl := Option.some.inj isParent
      have left := (dropNothings_isSuffix (isAbsolute path) earlier).trans isSuffixBelow
      rw [parents_ofReversed_of_isSuffix left notEmpty, parentsOfReversed_dropNothings]

/-- The other parents of a path are those of its first parent. -/
theorem parents_eq_cons {path directory : String} (isParent : parent? path = some directory) :
    parents path = directory :: parents directory := by
  have notEmpty : path ≠ "" := by
    rintro rfl
    cases isParent
  rw [parent?, parents] at isParent
  rw [parents]
  exact parentsOfReversed_eq_cons List.suffix_rfl notEmpty isParent

/-! ### Components of parents -/

/-- Whether a path is another one with one more component. The slash at the beginning of an
absolute path is no component that may be taken away. -/
def IsParent (path parent : String) : Prop :=
  ∃ last, last ≠ .root ∧ components path = components parent ++ [last]

/-- The component with which every absolute path begins. A relative path has no such one. -/
def lead (absolute : Bool) : List Component :=
  if absolute then [.root] else []

/-- The component that a piece names behind the pieces `earlier`, which are given in reverse. -/
def component? (absolute : Bool) (piece : Chars) (earlier : List Chars) : Option Component :=
  if namesNothing absolute piece earlier then none
  else if piece = ['.'] then some .here
  else innerComponent? piece

/-- The components that some pieces, given in reverse, name. -/
def componentsOfReversed (absolute : Bool) : List Chars → List Component
  | [] => []
  | piece :: earlier =>
    componentsOfReversed absolute earlier ++ (component? absolute piece earlier).toList

/-- Only a dot at the beginning of a relative path names what it does not name elsewhere. -/
theorem component?_eq_inner {absolute : Bool} {piece : Chars} {earlier : List Chars}
    (inside : absolute = true ∨ earlier ≠ [] ∨ piece ≠ ['.']) :
    component? absolute piece earlier = innerComponent? piece := by
  unfold component? innerComponent? namesNothing
  by_cases empty : piece = []
  · simp [empty]
  by_cases dot : piece = ['.']
  · have inner : absolute = true ∨ earlier ≠ [] := by simpa [dot] using inside
    have notFirst : absolute = false → earlier ≠ [] :=
      fun isRelative => inner.resolve_left (by simp [isRelative])
    simpa [dot] using notFirst
  · simp [empty, dot]

theorem componentsOfReversed_concat (absolute : Bool) (reversed : List Chars) (first : Chars) :
    componentsOfReversed absolute (reversed ++ [first]) =
      (component? absolute first []).toList ++ reversed.reverse.filterMap innerComponent? := by
  induction reversed with
  | nil => simp [componentsOfReversed]
  | cons piece earlier inductionHypothesis =>
    have inner : component? absolute piece (earlier ++ [first]) = innerComponent? piece :=
      component?_eq_inner (.inr (.inl (List.concat_ne_nil first earlier)))
    rw [List.cons_append, componentsOfReversed, inductionHypothesis, inner, List.reverse_cons,
      List.filterMap_append, List.filterMap_cons, List.filterMap_nil, List.append_assoc]
    cases innerComponent? piece <;> rfl

theorem components_eq (path : String) : components path =
    lead (isAbsolute path) ++ componentsOfReversed (isAbsolute path) (pieces path).reverse := by
  obtain ⟨first, rest, divided⟩ := List.exists_cons_of_ne_nil
    (splitWhere_ne_nil (· = '/') (if isAbsolute path then path.toList.tail else path.toList))
  have divided : pieces path = first :: rest := divided
  rw [components, divided, List.reverse_cons, componentsOfReversed_concat, List.reverse_reverse]
  cases isAbsolute path with
  | true =>
    rw [component?_eq_inner (.inl rfl), if_pos rfl, List.filterMap_cons]
    cases innerComponent? first <;> rfl
  | false =>
    rw [if_neg Bool.false_ne_true]
    split
    · next divided =>
      cases divided
      rfl
    · next notDot =>
      have inner : component? false first [] = innerComponent? first :=
        component?_eq_inner (.inr (.inr fun dot => notDot rest (congrArg (· :: rest) dot)))
      rw [inner, List.filterMap_cons]
      cases innerComponent? first <;> rfl

theorem ne_root_of_component?_eq_some {absolute : Bool} {piece : Chars} {earlier : List Chars}
    {component : Component} (names : component? absolute piece earlier = some component) :
    component ≠ .root := by
  rintro rfl
  unfold component? innerComponent? at names
  grind

theorem component?_eq_none_iff {absolute : Bool} {piece : Chars} {earlier : List Chars} :
    component? absolute piece earlier = none ↔ namesNothing absolute piece earlier = true := by
  unfold component? innerComponent? namesNothing
  grind

theorem componentsOfReversed_dropNothings (absolute : Bool) (reversed : List Chars) :
    componentsOfReversed absolute (dropNothings absolute reversed) =
      componentsOfReversed absolute reversed := by
  induction reversed with
  | nil => rfl
  | cons piece earlier inductionHypothesis =>
    rw [dropNothings]
    split
    · next nothing =>
      rw [inductionHypothesis, componentsOfReversed, component?_eq_none_iff.mpr nothing,
        Option.toList_none, List.append_nil]
    · rfl

/-- The path of the first pieces of a path has the components that these pieces name. -/
theorem components_ofReversed {path : String} {earlier : List Chars}
    (isSuffix : earlier <:+ (pieces path).reverse) (notEmpty : path ≠ "") :
    components (ofReversed (isAbsolute path) earlier) =
      lead (isAbsolute path) ++ componentsOfReversed (isAbsolute path) earlier := by
  rcases pieces_ofReversed_of_isSuffix isSuffix notEmpty with
    ⟨empty, isNil⟩ | ⟨absolute, ⟨isNil, root⟩ | same⟩
  · have isRelative : isAbsolute path = false := by
      cases begins : isAbsolute path with
      | false => rfl
      | true =>
        rw [begins, isNil] at empty
        exact absurd empty (by decide)
    rw [empty, isNil, isRelative]
    rfl
  · rw [components_eq, absolute, root, isNil]
    cases isAbsolute path <;> rfl
  · rw [components_eq, absolute, same, List.reverse_reverse]

theorem isParent_of_head? {path parent : String} {reversed : List Chars}
    (isSuffix : reversed <:+ (pieces path).reverse) (notEmpty : path ≠ "")
    (nearest : (parentsOfReversed (isAbsolute path) reversed).head? = some parent) :
    ∃ last, last ≠ .root ∧
      lead (isAbsolute path) ++ componentsOfReversed (isAbsolute path) reversed =
        components parent ++ [last] := by
  induction reversed with
  | nil => cases nearest
  | cons piece earlier inductionHypothesis =>
    have isSuffixBelow := (List.suffix_cons piece earlier).trans isSuffix
    rw [parentsOfReversed] at nearest
    rw [componentsOfReversed]
    split at nearest
    · next nothing =>
      rw [component?_eq_none_iff.mpr nothing, Option.toList_none, List.append_nil]
      exact inductionHypothesis isSuffixBelow nearest
    · next something =>
      obtain rfl := Option.some.inj nearest
      obtain ⟨last, names⟩ := Option.ne_none_iff_exists'.mp
        (mt component?_eq_none_iff.mp something)
      have left := (dropNothings_isSuffix (isAbsolute path) earlier).trans isSuffixBelow
      refine ⟨last, ne_root_of_component?_eq_some names, ?_⟩
      rw [components_ofReversed left notEmpty, componentsOfReversed_dropNothings, names,
        Option.toList_some, List.append_assoc]

/-- The first parent of a path is the path without its last component. -/
theorem isParent_of_parent? {path parent : String} (nearest : parent? path = some parent) :
    IsParent path parent := by
  have notEmpty : path ≠ "" := by
    rintro rfl
    cases nearest
  rw [IsParent, components_eq]
  exact isParent_of_head? List.suffix_rfl notEmpty nearest

theorem componentsOfReversed_eq_nil {absolute : Bool} {reversed : List Chars}
    (alone : parentsOfReversed absolute reversed = []) :
    componentsOfReversed absolute reversed = [] := by
  induction reversed with
  | nil => rfl
  | cons piece earlier inductionHypothesis =>
    rw [parentsOfReversed] at alone
    split at alone
    · next nothing =>
      rw [componentsOfReversed, component?_eq_none_iff.mpr nothing, inductionHypothesis alone]
      rfl
    · cases alone

/-- A path without parents is not another one with one more component. -/
theorem not_isParent_of_parents_eq_nil {path parent : String} (alone : parents path = []) :
    ¬ IsParent path parent := by
  rintro ⟨last, notRoot, whole⟩
  rw [components_eq, componentsOfReversed_eq_nil alone, List.append_nil] at whole
  cases absolute : isAbsolute path with
  | true =>
    rw [absolute] at whole
    have isLast : some Component.root = some last := by
      simpa [lead] using congrArg List.getLast? whole
    exact notRoot (Option.some.inj isLast).symm
  | false =>
    rw [absolute] at whole
    exact List.concat_ne_nil last _ whole.symm

/-- Whether each of some paths is the one before it without its last component, until there is no
component left that could be taken away. -/
def IsAscent (paths : List String) : Prop :=
  List.IsChain IsParent paths ∧
    ∀ top, paths.getLast? = some top → ∀ parent, ¬ IsParent top parent

/-- A path and its parents are all the paths upwards, none left out. -/
theorem isAscent_parents (path : String) : IsAscent (path :: parents path) := by
  induction above : parents path generalizing path with
  | nil =>
    refine ⟨List.IsChain.singleton path, ?_⟩
    intro top isTop parent
    obtain rfl : path = top := Option.some.inj isTop
    exact not_isParent_of_parents_eq_nil above
  | cons directory further inductionHypothesis =>
    have nearest : parent? path = some directory := by rw [parent?, above, List.head?_cons]
    have same : parents directory = further :=
      (List.cons.inj ((parents_eq_cons nearest).symm.trans above)).2
    obtain ⟨chain, ends⟩ := inductionHypothesis directory same
    refine ⟨List.isChain_cons_cons.mpr ⟨isParent_of_parent? nearest, chain⟩, ?_⟩
    rwa [List.getLast?_cons_cons]

end Path

end CodeAtlas
