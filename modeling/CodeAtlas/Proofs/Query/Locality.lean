/-
This file says what a search captures. A capture stands where a pattern has led the search: at the
site of its topmost node, or at a site to which patterns for children lead, one child after the
other. So a search stays where it is asked to search, every capture has a label that is written in
the pattern, and a wider search finds what a narrower one does.
-/

import CodeAtlas.Proofs.Tree.Ancestry
import CodeAtlas.Query.Match

namespace CodeAtlas

open Site

/-! ### Matches of a pattern -/

/-- An element with its followers comes from the list, and so do the followers. -/
theorem mem_withFollowers {α : Type} {values later : List α} {value : α}
    (pair : (value, later) ∈ withFollowers values) :
    value ∈ values ∧ ∀ other ∈ later, other ∈ values := by
  induction values with
  | nil => cases pair
  | cons first rest inductionHypothesis =>
    rw [withFollowers, List.mem_cons] at pair
    rcases pair with equal | pair
    · cases equal
      exact ⟨List.mem_cons_self, fun other => List.mem_cons_of_mem _⟩
    · obtain ⟨member, followers⟩ := inductionHypothesis pair
      exact ⟨List.mem_cons_of_mem _ member,
        fun other otherMember => List.mem_cons_of_mem _ (followers other otherMember)⟩

/-- The captures to which a pattern can lead at a site: the site itself under a label of the
pattern, and those to which the pattern of a child leads at a child of the site. -/
inductive Pattern.Captures : Pattern → Site → Capture → Prop
  | here {pattern : Pattern} {site : Site} {label : String}
    (inField : site.node.isInField pattern.field = true)
    (fits : site.node.fits pattern.kind = true) (labelled : label ∈ pattern.labels) :
    Captures pattern site ⟨label, site⟩
  | inside {pattern part : Pattern} {site lower : Site} {capture : Capture}
    (inField : site.node.isInField pattern.field = true)
    (fits : site.node.fits pattern.kind = true) (isPart : part ∈ pattern.children)
    (isChild : lower ∈ site.children) (captures : Captures part lower capture) :
    Captures pattern site capture

mutual

/-- What a choice of nodes for a pattern captures is what the pattern leads to. -/
theorem captures_of_mem_choicesAt (pattern : Pattern) {site : Site} {choice : Choice}
    (chosen : choice ∈ pattern.choicesAt site) {capture : Capture}
    (member : capture ∈ choice.captures) : pattern.Captures site capture := by
  obtain ⟨field, kind, children, without, labels, inOneLine⟩ := pattern
  rw [Pattern.choicesAt] at chosen
  split at chosen
  · next asked =>
    rw [Bool.and_eq_true, Bool.and_eq_true] at asked
    obtain ⟨rest, restChosen, rfl⟩ := List.mem_map.mp chosen
    rcases List.mem_append.mp member with here | inRest
    · obtain ⟨label, labelled, rfl⟩ := List.mem_map.mp here
      exact .here asked.1.1 asked.1.2 labelled
    · obtain ⟨part, isPart, child, isChild, captures⟩ :=
        exists_captures_of_mem_choicesAmong children restChosen inRest
      exact .inside asked.1.1 asked.1.2 isPart isChild captures
  · cases chosen

/-- What a choice of nodes for some patterns captures is what one of them leads to at one of the
siblings. -/
theorem exists_captures_of_mem_choicesAmong (patterns : List Pattern) {sites : List Site}
    {choice : Choice} (chosen : choice ∈ Pattern.choicesAmong patterns sites)
    {capture : Capture} (member : capture ∈ choice.captures) :
    ∃ pattern ∈ patterns, ∃ site ∈ sites, pattern.Captures site capture := by
  match patterns with
  | [] =>
    rw [Pattern.choicesAmong, List.mem_singleton] at chosen
    subst chosen
    cases member
  | pattern :: patterns =>
    rw [Pattern.choicesAmong, List.mem_flatMap] at chosen
    obtain ⟨⟨site, later⟩, pair, chosen⟩ := chosen
    have parts := mem_withFollowers pair
    obtain ⟨first, firstChosen, chosen⟩ := List.mem_flatMap.mp chosen
    obtain ⟨rest, restChosen, rfl⟩ := List.mem_map.mp chosen
    rcases List.mem_append.mp member with inFirst | inRest
    · exact ⟨pattern, List.mem_cons_self, site, parts.1,
        captures_of_mem_choicesAt pattern firstChosen inFirst⟩
    · obtain ⟨part, isPart, other, otherMember, captures⟩ :=
        exists_captures_of_mem_choicesAmong patterns restChosen inRest
      exact ⟨part, List.mem_cons_of_mem _ isPart, other, parts.2 other otherMember, captures⟩

end

namespace Pattern.Captures

variable {pattern : Pattern} {site : Site} {capture : Capture}

/-- A pattern leads nowhere outside of the site of its topmost node. -/
theorem atOrBelow (captures : pattern.Captures site capture) : AtOrBelow site capture.site := by
  induction captures with
  | here _ _ _ => exact .self
  | inside _ _ _ isChild _ inductionHypothesis =>
    exact .trans (.child .self isChild) inductionHypothesis

/-- A capture has one of the labels that are written in the pattern. -/
theorem label_mem (captures : pattern.Captures site capture) :
    capture.label ∈ pattern.writtenLabels := by
  have ofPart {part : Pattern} {parts : List Pattern} (isPart : part ∈ parts) {label : String}
      (written : label ∈ part.writtenLabels) : label ∈ writtenLabelsOfAll parts := by
    induction parts with
    | nil => cases isPart
    | cons first rest inductionHypothesis =>
      rw [writtenLabelsOfAll, List.mem_append]
      rcases List.mem_cons.mp isPart with rfl | isPart
      · exact .inl written
      · exact .inr (inductionHypothesis isPart)
  induction captures with
  | @here pattern site label _ _ labelled =>
    obtain ⟨field, kind, children, without, labels, inOneLine⟩ := pattern
    rw [writtenLabels]
    exact List.mem_append_right _ labelled
  | @inside pattern part site lower capture _ _ isPart _ _ inductionHypothesis =>
    obtain ⟨field, kind, children, without, labels, inOneLine⟩ := pattern
    rw [writtenLabels]
    exact List.mem_append_left _ (ofPart isPart inductionHypothesis)

theorem fits (captures : pattern.Captures site capture) : site.node.fits pattern.kind = true := by
  cases captures with
  | here _ fits _ => exact fits
  | inside _ fits _ _ _ => exact fits

theorem isInField (captures : pattern.Captures site capture) :
    site.node.isInField pattern.field = true := by
  cases captures with
  | here inField _ _ => exact inField
  | inside inField _ _ _ _ => exact inField

/-- A pattern that asks for nothing below its children leads to its site and to the children. -/
theorem of_leaves (captures : pattern.Captures site capture)
    (leaves : ∀ part ∈ pattern.children, part.children = []) :
    (capture.site = site ∧ capture.label ∈ pattern.labels) ∨
      ∃ part ∈ pattern.children, capture.site ∈ site.children ∧
        part.Captures capture.site capture ∧ capture.label ∈ part.labels := by
  cases captures with
  | here _ _ labelled => exact .inl ⟨rfl, labelled⟩
  | @inside _ part _ lower _ _ _ isPart isChild captures =>
    refine .inr ⟨part, isPart, ?_⟩
    cases captures with
    | here inField fits labelled => exact ⟨isChild, .here inField fits labelled, labelled⟩
    | inside _ _ isPartBelow _ _ =>
      rw [leaves part isPart] at isPartBelow
      cases isPartBelow

end Pattern.Captures

theorem Node.fits_some_iff {node : Node} {kind : String} :
    node.fits (some kind) = true ↔ node.kind = kind := by
  rw [fits, decide_eq_true_eq]

/-! ### Matches of a query -/

theorem Rule.captures_of_mem_matchesAt {rule : Rule} {source : Text.Chars} {site : Site}
    {found : Match} (foundMember : found ∈ rule.matchesAt source site) {capture : Capture}
    (member : capture ∈ found.captures) : rule.pattern.Captures site capture := by
  obtain ⟨choice, chosen, passed⟩ := List.mem_filterMap.mp foundMember
  split at passed
  · cases passed
    exact captures_of_mem_choicesAt rule.pattern chosen member
  · cases passed

/-- Every capture of a search is one to which a rule leads at a site in the scope. -/
theorem Query.exists_captures_of_mem_matches {query : Query} {source : Text.Chars} {scope : Site}
    {found : Match} (foundMember : found ∈ query.matches source scope) {capture : Capture}
    (member : capture ∈ found.captures) :
    ∃ rule ∈ query, ∃ site, AtOrBelow scope site ∧ rule.pattern.Captures site capture := by
  rw [Query.matches, List.mem_mergeSort, Query.matchesByTop, List.mem_flatMap] at foundMember
  obtain ⟨site, inScope, foundMember⟩ := foundMember
  obtain ⟨rule, isRule, foundMember⟩ := List.mem_flatMap.mp foundMember
  exact ⟨rule, isRule, site, mem_withDescendants_iff.mp inScope,
    Rule.captures_of_mem_matchesAt foundMember member⟩

/-- Every capture of a search stands at or below the scope. -/
theorem Query.atOrBelow_of_mem_matches {query : Query} {source : Text.Chars} {scope : Site}
    {found : Match} (foundMember : found ∈ query.matches source scope) {capture : Capture}
    (member : capture ∈ found.captures) : AtOrBelow scope capture.site := by
  obtain ⟨_, _, site, inScope, captures⟩ :=
    Query.exists_captures_of_mem_matches foundMember member
  exact inScope.trans captures.atOrBelow

/-- What is found below a site is found by every wider search. -/
theorem Query.mem_matches_of_atOrBelow {query : Query} {source : Text.Chars}
    {scope narrower : Site} (inScope : AtOrBelow scope narrower) {found : Match}
    (member : found ∈ query.matches source narrower) : found ∈ query.matches source scope := by
  rw [Query.matches, List.mem_mergeSort, Query.matchesByTop, List.mem_flatMap] at member ⊢
  obtain ⟨site, siteMember, member⟩ := member
  have below := inScope.trans (mem_withDescendants_iff.mp siteMember)
  exact ⟨site, mem_withDescendants_iff.mpr below, member⟩

end CodeAtlas
