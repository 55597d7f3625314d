/-
This file gives every node of a tree its surroundings. A site is a node together with the way
to it from the root, so that its parent and its earlier siblings can be reached. Two nodes
that look alike are different sites when they stand in different places.
-/

import CodeAtlas.Tree.Node

namespace CodeAtlas

/-- A node in its place. The earlier siblings are listed nearest first. -/
inductive Site where
  | root (node : Node)
  | child (parent : Site) (earlier : List Node) (node : Node)
deriving Repr

namespace Site

/-- The node that stands at a site. -/
def node : Site → Node
  | root node => node
  | child _ _ node => node

/-- The site of the parent. -/
def parent? : Site → Option Site
  | root _ => none
  | child parent _ _ => some parent

/-- The site of the nearest earlier sibling. -/
def previous? : Site → Option Site
  | root _ => none
  | child _ [] _ => none
  | child parent (sibling :: earlier) _ => some (child parent earlier sibling)

/-- The earlier siblings with their own surroundings, nearest first. -/
def earlierSiblings (site : Site) : List Site :=
  match site with
  | root _ => []
  | child parent earlier _ => below parent earlier
where
  below (parent : Site) : List Node → List Site
    | [] => []
    | sibling :: earlier => child parent earlier sibling :: below parent earlier

/-- The sites of some siblings, after the siblings `earlier`. -/
def siblingsAfter (parent : Site) (earlier : List Node) : List Node → List Site
  | [] => []
  | node :: later => child parent earlier node :: siblingsAfter parent (node :: earlier) later

/-- The sites of the children. -/
def children (site : Site) : List Site :=
  siblingsAfter site [] site.node.children

/-- The first child in a role. -/
def childInField? (site : Site) (field : String) : Option Site :=
  site.children.find? fun below => below.node.field = some field

/-- The indexes to follow from the root. Comparing them letter by letter is comparing sites by
their place in a walk that visits parents first and siblings in order. -/
def path : Site → List Nat
  | root _ => []
  | child parent earlier _ => parent.path ++ [earlier.length]

/-- The site that is reached by following indexes downward. -/
def follow? (site : Site) : List Nat → Option Site
  | [] => some site
  | index :: indexes =>
    match site.children[index]? with
    | some below => below.follow? indexes
    | none => none

/-- The nearest site at or above this one, below the root, whose kind is among `kinds`. -/
def owner? (kinds : List String) : Site → Option Site
  | root _ => none
  | child parent earlier node =>
    if node.kind ∈ kinds then some (child parent earlier node) else parent.owner? kinds

/-- The highest site that is reached by climbing while the parent's kind is among `kinds`. -/
def climb (kinds : List String) : Site → Site
  | root node => root node
  | child parent earlier node =>
    if parent.node.kind ∈ kinds then parent.climb kinds else child parent earlier node

/-- The site and those above it, nearest first. -/
def withAncestors : Site → List Site
  | root node => [root node]
  | child parent earlier node => child parent earlier node :: parent.withAncestors

end Site

mutual

/-- All sites at and below a site at which the node stands, parents first, siblings in order. -/
def Node.sitesFrom : Node → Site → List Site
  | ⟨_, _, _, _, children⟩, site => site :: Node.sitesOfChildren children site []

/-- All sites at and below some siblings, after the siblings `earlier`. -/
def Node.sitesOfChildren : List Node → Site → List Node → List Site
  | [], _, _ => []
  | node :: later, parent, earlier =>
    node.sitesFrom (.child parent earlier node) ++
      Node.sitesOfChildren later parent (node :: earlier)

end

/-- All sites at and below a site, parents first, siblings in order. -/
def Site.withDescendants (site : Site) : List Site :=
  site.node.sitesFrom site

/-- The site of the root of a file's tree. -/
def ParsedFile.rootSite (file : ParsedFile) : Site :=
  .root file.root

end CodeAtlas
