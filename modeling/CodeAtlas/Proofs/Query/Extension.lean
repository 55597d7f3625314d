/-
This file compares a query with one that has further rules behind its own. Their matches come
between those of the query, but sorting by place does not change the order of the matches that both
have, so all captures that the further rules never make are delivered as before.
-/

import CodeAtlas.Proofs.Query.Locality
import CodeAtlas.Proofs.Text.Sorting

namespace CodeAtlas

/-! ### The order of places -/

theorem notAfter_trans (first second third : List Nat) (before : notAfter first second = true)
    (after : notAfter second third = true) : notAfter first third = true := by
  induction first generalizing second third with
  | nil => rfl
  | cons one rest inductionHypothesis =>
    rcases second with _ | ⟨two, secondRest⟩
    · cases before
    · rcases third with _ | ⟨three, thirdRest⟩
      · cases after
      · simp only [notAfter, Bool.or_eq_true, Bool.and_eq_true, decide_eq_true_eq,
          beq_iff_eq] at before after ⊢
        rcases before with before | ⟨rfl, before⟩
        · refine .inl ?_
          rcases after with after | ⟨rfl, _⟩
          · exact Nat.lt_trans before after
          · exact before
        · exact after.imp_right (.imp_right (inductionHypothesis _ _ before))

theorem notAfter_total (first second : List Nat) :
    (notAfter first second || notAfter second first) = true := by
  induction first generalizing second with
  | nil => rfl
  | cons one rest inductionHypothesis =>
    rcases second with _ | ⟨two, secondRest⟩
    · rfl
    · simp only [notAfter, Bool.or_eq_true, Bool.and_eq_true, decide_eq_true_eq, beq_iff_eq]
      rcases Nat.lt_trichotomy one two with before | rfl | after
      · exact .inl (.inl before)
      · have rests := inductionHypothesis secondRest
        rw [Bool.or_eq_true] at rests
        exact rests.imp (fun before => .inr ⟨rfl, before⟩) fun before => .inr ⟨rfl, before⟩
      · exact .inr (.inl after)

/-! ### Further rules -/

/-- The captures to be kept stand in matches with captures to be kept. -/
theorem filter_flatMap_captures (keep : Capture → Bool) (matched : List Match) :
    (matched.flatMap Match.captures).filter keep =
      ((matched.filter fun found => found.captures.any keep).flatMap Match.captures).filter
        keep := by
  induction matched with
  | nil => rfl
  | cons found matched inductionHypothesis =>
    rw [List.flatMap_cons, List.filter_append, List.filter_cons, inductionHypothesis]
    split
    · rw [List.flatMap_cons, List.filter_append]
    · next silent =>
      have none : found.captures.filter keep = [] := by
        simpa [List.filter_eq_nil_iff] using silent
      rw [none, List.nil_append]

/-- Further rules that capture nothing to be kept change nothing about what is kept. -/
theorem Query.filter_captures_append (base further : Query) (source : Text.Chars) (scope : Site)
    (keep : Capture → Bool) (silent : ∀ rule ∈ further, ∀ site capture,
      rule.pattern.Captures site capture → keep capture = false) :
    (((base ++ further).matches source scope).flatMap Match.captures).filter keep =
      ((base.matches source scope).flatMap Match.captures).filter keep := by
  have nothing (site : Site) : (List.flatMap (fun rule => rule.matchesAt source site)
      further).filter (fun found => found.captures.any keep) = [] := by
    refine List.filter_eq_nil_iff.mpr fun found foundMember => ?_
    obtain ⟨rule, isRule, foundMember⟩ := List.mem_flatMap.mp foundMember
    rw [List.any_eq_true]
    rintro ⟨capture, member, kept⟩
    rw [silent rule isRule site capture (Rule.captures_of_mem_matchesAt foundMember member)] at kept
    cases kept
  have byTop : ((base ++ further).matchesByTop source scope).filter
      (fun found => found.captures.any keep) =
        (base.matchesByTop source scope).filter fun found => found.captures.any keep := by
    rw [matchesByTop, matchesByTop, List.filter_flatMap, List.filter_flatMap]
    refine congrArg (List.flatMap · _) (funext fun site => ?_)
    rw [List.flatMap_append, List.filter_append, nothing site, List.append_nil]
  have sorted (values : List Match) := Text.filter_mergeSort
    (fun first second third : Match => notAfter_trans first.lastPath second.lastPath third.lastPath)
    (fun first second : Match => notAfter_total first.lastPath second.lastPath)
    (fun found => found.captures.any keep) values
  rw [filter_flatMap_captures, filter_flatMap_captures keep (base.matches source scope),
    Query.matches, Query.matches, sorted, sorted, byTop]

/-! ### Owners of captures -/

/-- Children of kinds that define nothing belong to the owner of their parent. -/
theorem Site.owner?_of_mem_children {kinds : List String} {site lower : Site}
    (isChild : lower ∈ site.children) (other : lower.node.kind ∉ kinds) :
    lower.owner? kinds = site.owner? kinds := by
  obtain ⟨earlier, node, _, rfl⟩ := mem_children isChild
  exact if_neg other

/-- A site of a kind that defines something owns itself, unless it is the root. -/
theorem Site.eq_of_owner?_of_mem {kinds : List String} {site owner : Site}
    (isKind : site.node.kind ∈ kinds) (owns : site.owner? kinds = some owner) : owner = site := by
  cases site with
  | root node => cases owns
  | child parent earlier node =>
    have owned : (child parent earlier node).owner? kinds = some (child parent earlier node) :=
      if_pos isKind
    exact Option.some.inj (owns.symm.trans owned)

/-- Whether a pattern asks for children of definite kinds only, none of which is among `kinds`, and
for nothing below them. -/
def Pattern.isShallow (kinds : List String) (pattern : Pattern) : Bool :=
  pattern.children.all fun part => part.children.isEmpty && part.kind.any (· ∉ kinds)

/-- All captures of a shallow pattern belong to the owner of the topmost node. -/
theorem Pattern.Captures.owner?_eq {kinds : List String} {pattern : Pattern}
    (shallow : pattern.isShallow kinds = true) {site : Site} {capture : Capture}
    (captures : pattern.Captures site capture) :
    capture.site.owner? kinds = site.owner? kinds := by
  have asked : ∀ part ∈ pattern.children,
      part.children = [] ∧ ∃ kind, part.kind = some kind ∧ kind ∉ kinds := by
    simpa [isShallow, Option.any_eq_true] using shallow
  obtain ⟨equal, _⟩ | ⟨part, isPart, isChild, captures, _⟩ :=
    captures.of_leaves fun part isPart => (asked part isPart).1
  · rw [equal]
  · obtain ⟨_, kind, definite, other⟩ := asked part isPart
    have fits := captures.fits
    rw [definite, Node.fits_some_iff] at fits
    exact Site.owner?_of_mem_children isChild (fits ▸ other)

end CodeAtlas
