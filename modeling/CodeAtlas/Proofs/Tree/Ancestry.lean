/-
This file says how the sites of a tree lie above and below each other. Going down from a site
follows the children of its node; going up follows the way to the root. The owner of a site,
which the gathering of captures climbs to, is the nearest site above it that defines something.
-/

import CodeAtlas.Tree.Site

namespace CodeAtlas.Site

/-! ### Going down -/

/-- The sites at and below a site: those that are reached by going to a child, again and
again. -/
inductive AtOrBelow (top : Site) : Site → Prop
  | self : AtOrBelow top top
  | child {parent site : Site} (above : AtOrBelow top parent) (member : site ∈ parent.children) :
    AtOrBelow top site

theorem AtOrBelow.trans {top middle bottom : Site} (upper : AtOrBelow top middle)
    (lower : AtOrBelow middle bottom) : AtOrBelow top bottom := by
  induction lower with
  | self => exact upper
  | child _ member inductionHypothesis => exact .child inductionHypothesis member

theorem mem_siblingsAfter {parent site : Site} {earlier nodes : List Node}
    (member : site ∈ siblingsAfter parent earlier nodes) :
    ∃ nearer node, node ∈ nodes ∧ site = child parent nearer node := by
  induction nodes generalizing earlier with
  | nil => cases member
  | cons node later inductionHypothesis =>
    rw [siblingsAfter, List.mem_cons] at member
    rcases member with rfl | member
    · exact ⟨earlier, node, List.mem_cons_self, rfl⟩
    · obtain ⟨nearer, found, foundMember, equal⟩ := inductionHypothesis member
      exact ⟨nearer, found, List.mem_cons_of_mem node foundMember, equal⟩

/-- A child stands directly below its parent, and its node is one of the parent's children. -/
theorem mem_children {parent site : Site} (member : site ∈ parent.children) :
    ∃ earlier node, node ∈ parent.node.children ∧ site = child parent earlier node :=
  mem_siblingsAfter member

mutual

theorem atOrBelow_of_mem_sitesFrom {below : Site} (node : Node) (site : Site)
    (stands : site.node = node) (member : below ∈ node.sitesFrom site) : AtOrBelow site below := by
  obtain ⟨kind, field, start, stop, children⟩ := node
  rw [Node.sitesFrom, List.mem_cons] at member
  rcases member with rfl | member
  · exact .self
  · refine atOrBelow_of_mem_sitesOfChildren children site [] (fun child childMember => ?_) member
    rw [Site.children, stands]
    exact childMember

/-- The sites among some siblings are at or below the parent, as long as the siblings are
children of it. -/
theorem atOrBelow_of_mem_sitesOfChildren {below : Site} (nodes : List Node) (parent : Site)
    (earlier : List Node)
    (siblings : ∀ site ∈ siblingsAfter parent earlier nodes, site ∈ parent.children)
    (member : below ∈ Node.sitesOfChildren nodes parent earlier) : AtOrBelow parent below := by
  match nodes with
  | [] => cases member
  | node :: later =>
    rw [Node.sitesOfChildren, List.mem_append] at member
    rw [siblingsAfter] at siblings
    rcases member with first | rest
    · have below := atOrBelow_of_mem_sitesFrom node (.child parent earlier node) rfl first
      exact .trans (.child .self (siblings _ List.mem_cons_self)) below
    · exact atOrBelow_of_mem_sitesOfChildren later parent (node :: earlier)
        (fun site siteMember => siblings site (List.mem_cons_of_mem _ siteMember)) rest

end

/-- The walk over a part of the tree stays in it. -/
theorem atOrBelow_of_mem_withDescendants {site below : Site}
    (member : below ∈ site.withDescendants) : AtOrBelow site below :=
  atOrBelow_of_mem_sitesFrom site.node site rfl member

theorem self_mem_sitesFrom (node : Node) (site : Site) : site ∈ node.sitesFrom site := by
  obtain ⟨kind, field, start, stop, children⟩ := node
  exact List.mem_cons_self

theorem mem_sitesOfChildren_of_mem_siblingsAfter {nodes earlier : List Node} {parent site : Site}
    (member : site ∈ siblingsAfter parent earlier nodes) :
    site ∈ Node.sitesOfChildren nodes parent earlier := by
  induction nodes generalizing earlier with
  | nil => cases member
  | cons node later inductionHypothesis =>
    rw [siblingsAfter, List.mem_cons] at member
    rw [Node.sitesOfChildren, List.mem_append]
    rcases member with rfl | member
    · exact .inl (self_mem_sitesFrom node _)
    · exact .inr (inductionHypothesis member)

mutual

theorem mem_sitesFrom_of_mem_children {parent below : Site} (isChild : below ∈ parent.children)
    (node : Node) (site : Site) (stands : site.node = node)
    (member : parent ∈ node.sitesFrom site) : below ∈ node.sitesFrom site := by
  obtain ⟨kind, field, start, stop, children⟩ := node
  rw [Node.sitesFrom, List.mem_cons] at member ⊢
  rcases member with rfl | member
  · rw [Site.children, stands] at isChild
    exact .inr (mem_sitesOfChildren_of_mem_siblingsAfter isChild)
  · exact .inr (mem_sitesOfChildren_of_mem_children isChild children site [] member)

/-- A walk that visits a site visits its children. -/
theorem mem_sitesOfChildren_of_mem_children {parent below : Site}
    (isChild : below ∈ parent.children) (nodes : List Node) (top : Site) (earlier : List Node)
    (member : parent ∈ Node.sitesOfChildren nodes top earlier) :
    below ∈ Node.sitesOfChildren nodes top earlier := by
  match nodes with
  | [] => cases member
  | node :: later =>
    rw [Node.sitesOfChildren, List.mem_append] at member ⊢
    rcases member with first | rest
    · exact .inl (mem_sitesFrom_of_mem_children isChild node _ rfl first)
    · exact .inr (mem_sitesOfChildren_of_mem_children isChild later top (node :: earlier) rest)

end

/-- The walk over a part of the tree visits all of it and nothing else. -/
theorem mem_withDescendants_iff {site below : Site} :
    below ∈ site.withDescendants ↔ AtOrBelow site below := by
  refine ⟨atOrBelow_of_mem_withDescendants, fun atOrBelow => ?_⟩
  induction atOrBelow with
  | self => exact self_mem_sitesFrom site.node site
  | child _ isChild inductionHypothesis =>
    exact mem_sitesFrom_of_mem_children isChild site.node site rfl inductionHypothesis

/-! ### Going up -/

theorem self_mem_withAncestors (site : Site) : site ∈ site.withAncestors := by
  cases site <;> exact List.mem_cons_self

/-- Whether one site stands properly above another. -/
def IsAbove (upper lower : Site) : Prop :=
  ∃ parent, lower.parent? = some parent ∧ upper ∈ parent.withAncestors

theorem mem_withAncestors_iff {site upper : Site} :
    upper ∈ site.withAncestors ↔ upper = site ∨ IsAbove upper site := by
  cases site with
  | root node => simp [withAncestors, IsAbove, parent?]
  | child parent earlier node => simp [withAncestors, IsAbove, parent?]

/-- How far a site is from the root. -/
def depth (site : Site) : Nat :=
  site.path.length

theorem depth_lt_of_isAbove {upper lower : Site} (above : IsAbove upper lower) :
    upper.depth < lower.depth := by
  induction lower with
  | root node =>
    obtain ⟨parent, found, _⟩ := above
    cases found
  | child parent earlier node inductionHypothesis =>
    have step : (child parent earlier node).depth = parent.depth + 1 := by
      simp [depth, path]
    obtain ⟨_, found, member⟩ := above
    cases found
    rw [step]
    rcases mem_withAncestors_iff.mp member with rfl | member
    · exact Nat.lt_succ_self _
    · exact Nat.lt_succ_of_lt (inductionHypothesis member)

/-- Of two sites on the way to the root, one stands at or above the other. -/
theorem withAncestors_total {site first second : Site} (firstMember : first ∈ site.withAncestors)
    (secondMember : second ∈ site.withAncestors) :
    first ∈ second.withAncestors ∨ second ∈ first.withAncestors := by
  induction site with
  | root node =>
    rw [withAncestors, List.mem_singleton] at firstMember secondMember
    subst firstMember secondMember
    exact .inl (self_mem_withAncestors _)
  | child parent earlier node inductionHypothesis =>
    have all := secondMember
    rw [withAncestors, List.mem_cons] at firstMember secondMember
    rcases firstMember with rfl | firstMember
    · exact .inr all
    · rcases secondMember with rfl | secondMember
      · refine .inl ?_
        rw [withAncestors]
        exact List.mem_cons_of_mem _ firstMember
      · exact inductionHypothesis firstMember secondMember

/-- Of two sites that stand above a third, one stands at or above the other. -/
theorem isAbove_total {site first second : Site} (firstAbove : IsAbove first site)
    (secondAbove : IsAbove second site) :
    first = second ∨ IsAbove first second ∨ IsAbove second first := by
  have total := withAncestors_total (mem_withAncestors_iff.mpr (.inr firstAbove))
    (mem_withAncestors_iff.mpr (.inr secondAbove))
  rw [mem_withAncestors_iff, mem_withAncestors_iff] at total
  rcases total with (equal | above) | (equal | above)
  · exact .inl equal
  · exact .inr (.inl above)
  · exact .inl equal.symm
  · exact .inr (.inr above)

/-! ### Up and down in one tree -/

/-- Climbing from a site of a tree stays in the tree, and the site is below what is climbed
to. -/
theorem AtOrBelow.of_mem_withAncestors {top : Node} {site upper : Site}
    (below : AtOrBelow (root top) site) (member : upper ∈ site.withAncestors) :
    AtOrBelow (root top) upper ∧ AtOrBelow upper site := by
  induction below with
  | self =>
    rw [withAncestors, List.mem_singleton] at member
    subst member
    exact ⟨.self, .self⟩
  | @child parent site above isChild inductionHypothesis =>
    obtain ⟨earlier, node, _, rfl⟩ := mem_children isChild
    rw [withAncestors, List.mem_cons] at member
    rcases member with rfl | member
    · exact ⟨.child above isChild, .self⟩
    · obtain ⟨inTree, between⟩ := inductionHypothesis member
      exact ⟨inTree, .child between isChild⟩

/-! ### Owners -/

/-- A site that a definition can stand at: not the root, and of one of the kinds. -/
def Defines (kinds : List String) (site : Site) : Prop :=
  (∃ parent, site.parent? = some parent) ∧ site.node.kind ∈ kinds

/-- The nearest of the defining sites at or above a site: it is one of them, and all of them
stand at or above it. -/
structure IsOwner (kinds : List String) (owner site : Site) : Prop where
  above : owner ∈ site.withAncestors
  defines : owner.Defines kinds
  nearest : ∀ other ∈ site.withAncestors, other.Defines kinds → other ∈ owner.withAncestors

theorem not_defines_root (kinds : List String) (node : Node) : ¬ (root node).Defines kinds := by
  rintro ⟨⟨parent, found⟩, _⟩
  cases found

theorem isOwner_self {kinds : List String} {site : Site} (defines : site.Defines kinds) :
    IsOwner kinds site site where
  above := self_mem_withAncestors site
  defines := defines
  nearest _ member _ := member

/-- A site that defines nothing has the owner of its parent. -/
theorem isOwner_child_iff {kinds : List String} {parent owner : Site} {earlier : List Node}
    {node : Node} (other : node.kind ∉ kinds) :
    IsOwner kinds owner (child parent earlier node) ↔ IsOwner kinds owner parent := by
  have undefined : ¬ (child parent earlier node).Defines kinds := fun defines => other defines.2
  constructor
  · intro isOwner
    refine ⟨?_, isOwner.defines, fun site member => isOwner.nearest site ?_⟩
    · have above := isOwner.above
      rw [withAncestors, List.mem_cons] at above
      rcases above with rfl | above
      · exact absurd isOwner.defines undefined
      · exact above
    · rw [withAncestors]
      exact List.mem_cons_of_mem _ member
  · intro isOwner
    refine ⟨?_, isOwner.defines, fun site member defines => ?_⟩
    · rw [withAncestors]
      exact List.mem_cons_of_mem _ isOwner.above
    · rw [withAncestors, List.mem_cons] at member
      rcases member with rfl | member
      · exact absurd defines undefined
      · exact isOwner.nearest site member defines

theorem IsOwner.unique {kinds : List String} {site first second : Site}
    (firstOwns : IsOwner kinds first site) (secondOwns : IsOwner kinds second site) :
    first = second := by
  have upper := firstOwns.nearest second secondOwns.above secondOwns.defines
  have lower := secondOwns.nearest first firstOwns.above firstOwns.defines
  rw [mem_withAncestors_iff] at upper lower
  rcases upper with equal | upper
  · exact equal.symm
  · rcases lower with equal | lower
    · exact equal
    · exact absurd (depth_lt_of_isAbove upper) (Nat.lt_asymm (depth_lt_of_isAbove lower))

/-- The climb for an owner finds exactly the nearest defining site. -/
theorem owner?_eq_some_iff {kinds : List String} {site owner : Site} :
    site.owner? kinds = some owner ↔ IsOwner kinds owner site := by
  induction site with
  | root node =>
    constructor
    · intro found
      cases found
    · intro isOwner
      have above := isOwner.above
      rw [withAncestors, List.mem_singleton] at above
      exact absurd (above ▸ isOwner.defines) (not_defines_root kinds node)
  | child parent earlier node inductionHypothesis =>
    rw [owner?]
    by_cases defining : node.kind ∈ kinds
    · have defines : (child parent earlier node).Defines kinds := ⟨⟨parent, rfl⟩, defining⟩
      rw [if_pos defining, Option.some.injEq]
      constructor
      · rintro rfl
        exact isOwner_self defines
      · exact fun isOwner => (isOwner_self defines).unique isOwner
    · rw [if_neg defining, inductionHypothesis, isOwner_child_iff defining]

end CodeAtlas.Site
