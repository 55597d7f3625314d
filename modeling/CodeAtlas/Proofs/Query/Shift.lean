/-
This file says that a search does not look at positions. In a moved tree a query has the same
matches, in the same order, at the moved nodes: patterns ask for kinds and roles, tests read
texts, and the order of matches follows the shape of the tree.
-/

import CodeAtlas.Proofs.Tree.Shift
import CodeAtlas.Query.Match
import Mathlib.Data.List.Basic

namespace CodeAtlas

open Text

/-! ### Moved matches -/

/-- The capture in the tree with every offset moved by a number of bytes. -/
def Capture.shift (distance : Nat) (capture : Capture) : Capture :=
  ⟨capture.label, capture.site.shift distance⟩

/-- The choice in the tree with every offset moved by a number of bytes. -/
def Choice.shift (distance : Nat) (choice : Choice) : Choice :=
  ⟨choice.captures.map (Capture.shift distance), choice.last.map (Site.shift distance)⟩

/-- The match in the tree with every offset moved by a number of bytes. -/
def Match.shift (distance : Nat) (found : Match) : Match :=
  ⟨found.captures.map (Capture.shift distance), found.lastPath⟩

/-! ### Patterns -/

section

variable (distance : Nat) (node : Node)

theorem Node.fits_shift (kind : Option String) : (node.shift distance).fits kind = node.fits kind := by
  cases kind <;> simp [fits]

theorem Node.isInField_shift (field : Option String) :
    (node.shift distance).isInField field = node.isInField field := by
  cases field <;> simp [isInField]

theorem Node.lacksFields_shift (fields : List String) :
    (node.shift distance).lacksFields fields = node.lacksFields fields := by
  simp [lacksFields, List.all_map, Function.comp_def]

theorem Choice.andThen_shift (first second : Choice) :
    (first.andThen second).shift distance =
      (first.shift distance).andThen (second.shift distance) := by
  obtain ⟨captures, last⟩ := second
  rw [andThen, andThen, shift, List.map_append]
  cases last <;> rfl

end

theorem withFollowers_map {α β : Type} (change : α → β) (values : List α) :
    withFollowers (values.map change) =
      (withFollowers values).map fun pair => (change pair.1, pair.2.map change) := by
  induction values with
  | nil => rfl
  | cons value values inductionHypothesis =>
    rw [List.map_cons, withFollowers, withFollowers, inductionHypothesis, List.map_cons]

mutual

theorem Pattern.choicesAt_shift (distance : Nat) (pattern : Pattern) (site : Site) :
    pattern.choicesAt (site.shift distance) =
      (pattern.choicesAt site).map (Choice.shift distance) := by
  obtain ⟨field, kind, children, without, labels, inOneLine⟩ := pattern
  rw [Pattern.choicesAt, Pattern.choicesAt, Site.node_shift, Node.isInField_shift,
    Node.fits_shift, Node.lacksFields_shift, Site.children_shift,
    Pattern.choicesAmong_shift distance children site.children]
  split
  · have here : Choice.shift distance ⟨labels.map fun label => ⟨label, site⟩, some site⟩ =
        ⟨labels.map fun label => ⟨label, site.shift distance⟩, some (site.shift distance)⟩ := by
      rw [Choice.shift, List.map_map]
      rfl
    rw [List.map_map, List.map_map]
    refine List.map_congr_left fun choice _ => ?_
    rw [Function.comp_apply, Function.comp_apply, Choice.andThen_shift, here]
  · rfl

theorem Pattern.choicesAmong_shift (distance : Nat) (patterns : List Pattern)
    (sites : List Site) :
    Pattern.choicesAmong patterns (sites.map (Site.shift distance)) =
      (Pattern.choicesAmong patterns sites).map (Choice.shift distance) := by
  match patterns with
  | [] =>
    rw [Pattern.choicesAmong, Pattern.choicesAmong]
    rfl
  | pattern :: patterns =>
    rw [Pattern.choicesAmong, Pattern.choicesAmong, withFollowers_map, List.flatMap_map,
      List.map_flatMap]
    refine List.flatMap_congr fun pair _ => ?_
    obtain ⟨site, later⟩ := pair
    simp only [Pattern.choicesAt_shift distance pattern site,
      Pattern.choicesAmong_shift distance patterns later, List.flatMap_map, List.map_flatMap,
      List.map_map, Function.comp_def, Choice.andThen_shift]

end

/-! ### Queries -/

section

variable (front source : Chars) (captures : List Capture)

theorem textsOf_shift (label : String) :
    textsOf (front ++ source) label (captures.map (Capture.shift (byteLength front))) =
      textsOf source label captures := by
  rw [textsOf, textsOf, List.filter_map, List.map_map]
  refine List.map_congr_left fun capture _ => ?_
  rw [Function.comp_apply, Capture.shift, Site.node_shift, Node.text_shift]

theorem TextTest.passes_shift (test : TextTest) :
    test.passes (front ++ source) (captures.map (Capture.shift (byteLength front))) =
      test.passes source captures := by
  cases test <;> rw [passes, passes, textsOf_shift]

theorem Rule.matchesAt_shift (rule : Rule) (site : Site) :
    rule.matchesAt (front ++ source) (site.shift (byteLength front)) =
      (rule.matchesAt source site).map (Match.shift (byteLength front)) := by
  rw [matchesAt, matchesAt, Pattern.choicesAt_shift, List.filterMap_map, List.map_filterMap]
  refine List.filterMap_congr fun choice _ => ?_
  have path : ((choice.shift (byteLength front)).last.getD (site.shift (byteLength front))).path =
      (choice.last.getD site).path := by
    rw [Choice.shift]
    cases choice.last <;> exact Site.path_shift _ _
  simp only [Function.comp_apply, path]
  simp only [Choice.shift, TextTest.passes_shift]
  split <;> rfl

/-- In a moved tree, behind the rows that move it, a query has the moved matches. -/
theorem Query.matches_shift (query : Query) (scope : Site) :
    query.matches (front ++ source) (scope.shift (byteLength front)) =
      (query.matches source scope).map (Match.shift (byteLength front)) := by
  have byTop : query.matchesByTop (front ++ source) (scope.shift (byteLength front)) =
      (query.matchesByTop source scope).map (Match.shift (byteLength front)) := by
    rw [matchesByTop, matchesByTop, Site.withDescendants_shift, List.flatMap_map, List.map_flatMap]
    refine List.flatMap_congr fun site _ => ?_
    rw [List.map_flatMap]
    exact List.flatMap_congr fun rule _ => rule.matchesAt_shift front source site
  rw [Query.matches, Query.matches, byTop]
  refine (List.map_mergeSort ?_).symm
  intro first _ second _
  rfl

end

end CodeAtlas
