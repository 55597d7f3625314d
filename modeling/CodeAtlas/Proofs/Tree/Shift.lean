/-
This file says what moving a tree keeps. When every offset of a tree grows by the bytes of some
rows that are put before its source, each node covers the same text as before, that many rows
further down, and every way up, down and sideways through the tree leads to the same places.
-/

import CodeAtlas.Proofs.Text.Bytes
import CodeAtlas.Tree.Site

namespace CodeAtlas

open Text

/-! ### Nodes -/

namespace Node

variable (distance : Nat) (node : Node)

theorem shiftAll_eq_map (nodes : List Node) : shiftAll distance nodes = nodes.map (shift distance) := by
  induction nodes with
  | nil => rfl
  | cons node nodes inductionHypothesis =>
    rw [shiftAll, inductionHypothesis, List.map_cons]

@[simp]
theorem kind_shift : (node.shift distance).kind = node.kind := by
  cases node
  rw [shift]

@[simp]
theorem field_shift : (node.shift distance).field = node.field := by
  cases node
  rw [shift]

@[simp]
theorem start_shift : (node.shift distance).start = node.start + distance := by
  cases node
  rw [shift]

@[simp]
theorem stop_shift : (node.shift distance).stop = node.stop + distance := by
  cases node
  rw [shift]

@[simp]
theorem children_shift :
    (node.shift distance).children = node.children.map (shift distance) := by
  cases node
  rw [shift, shiftAll_eq_map]

theorem childInField?_shift (field : String) :
    (node.shift distance).childInField? field =
      (node.childInField? field).map (shift distance) := by
  rw [childInField?, children_shift, List.find?_map]
  exact congrArg (fun found => (node.children.find? found).map (shift distance))
    (funext fun child => by rw [Function.comp_apply, field_shift])

variable (front source : Chars)

@[simp]
theorem text_shift :
    (node.shift (byteLength front)).text (front ++ source) = node.text source := by
  rw [text, start_shift, stop_shift, slice_append, text]

@[simp]
theorem startRow_shift :
    (node.shift (byteLength front)).startRow (front ++ source) =
      node.startRow source + rowCount front := by
  rw [startRow, start_shift, rowAt_append, startRow]

@[simp]
theorem stopRow_shift :
    (node.shift (byteLength front)).stopRow (front ++ source) =
      node.stopRow source + rowCount front := by
  rw [stopRow, stop_shift, rowAt_append, stopRow]

end Node

/-! ### Sites -/

namespace Site

/-- The site in the tree with every offset moved by a number of bytes. -/
def shift (distance : Nat) : Site → Site
  | root node => root (node.shift distance)
  | child parent earlier node =>
    child (parent.shift distance) (earlier.map (Node.shift distance)) (node.shift distance)

variable (distance : Nat) (site : Site)

@[simp]
theorem node_shift : (site.shift distance).node = site.node.shift distance := by
  cases site <;> rfl

theorem parent?_shift : (site.shift distance).parent? = site.parent?.map (shift distance) := by
  cases site <;> rfl

@[simp]
theorem path_shift : (site.shift distance).path = site.path := by
  induction site with
  | root node => rfl
  | child parent earlier node inductionHypothesis =>
    rw [shift, path, path, inductionHypothesis, List.length_map]

theorem siblingsAfter_shift (earlier nodes : List Node) :
    siblingsAfter (site.shift distance) (earlier.map (Node.shift distance))
        (nodes.map (Node.shift distance)) =
      (siblingsAfter site earlier nodes).map (shift distance) := by
  induction nodes generalizing earlier with
  | nil => rfl
  | cons node nodes inductionHypothesis =>
    have rest := inductionHypothesis (node :: earlier)
    rw [List.map_cons] at rest
    rw [List.map_cons, siblingsAfter, siblingsAfter, List.map_cons, rest, shift]

@[simp]
theorem children_shift : (site.shift distance).children = site.children.map (shift distance) := by
  rw [children, node_shift, Node.children_shift]
  exact siblingsAfter_shift distance site [] site.node.children

theorem earlierSiblings_below_shift (earlier : List Node) :
    earlierSiblings.below (site.shift distance) (earlier.map (Node.shift distance)) =
      (earlierSiblings.below site earlier).map (shift distance) := by
  induction earlier with
  | nil => rfl
  | cons sibling earlier inductionHypothesis =>
    rw [List.map_cons, earlierSiblings.below, earlierSiblings.below, inductionHypothesis,
      List.map_cons, shift]

theorem earlierSiblings_shift :
    (site.shift distance).earlierSiblings = site.earlierSiblings.map (shift distance) := by
  cases site with
  | root node => rfl
  | child parent earlier node => exact earlierSiblings_below_shift distance parent earlier

theorem owner?_shift (kinds : List String) :
    (site.shift distance).owner? kinds = (site.owner? kinds).map (shift distance) := by
  induction site with
  | root node => rfl
  | child parent earlier node inductionHypothesis =>
    rw [shift, owner?, owner?, Node.kind_shift, inductionHypothesis]
    split <;> rfl

theorem climb_shift (kinds : List String) :
    (site.shift distance).climb kinds = (site.climb kinds).shift distance := by
  induction site with
  | root node => rfl
  | child parent earlier node inductionHypothesis =>
    rw [shift, climb, climb, node_shift, Node.kind_shift, inductionHypothesis]
    split <;> rfl

end Site

/-! ### Walks -/

mutual

theorem Node.sitesFrom_shift (distance : Nat) (node : Node) (site : Site) :
    (node.shift distance).sitesFrom (site.shift distance) =
      (node.sitesFrom site).map (Site.shift distance) := by
  obtain ⟨kind, field, start, stop, children⟩ := node
  rw [Node.shift, Node.sitesFrom, Node.sitesFrom, Node.shiftAll_eq_map, List.map_cons,
    ← Node.sitesOfChildren_shift distance children site []]
  rfl

theorem Node.sitesOfChildren_shift (distance : Nat) (nodes : List Node) (parent : Site)
    (earlier : List Node) :
    Node.sitesOfChildren (nodes.map (Node.shift distance)) (parent.shift distance)
        (earlier.map (Node.shift distance)) =
      (Node.sitesOfChildren nodes parent earlier).map (Site.shift distance) := by
  match nodes with
  | [] => rfl
  | node :: later =>
    have first := Node.sitesFrom_shift distance node (.child parent earlier node)
    have rest := Node.sitesOfChildren_shift distance later parent (node :: earlier)
    rw [List.map_cons, Node.sitesOfChildren, Node.sitesOfChildren, List.map_append, ← first, ← rest]
    rfl

end

/-- The walk over a moved tree goes through the moved sites in the same order. -/
theorem Site.withDescendants_shift (distance : Nat) (site : Site) :
    (site.shift distance).withDescendants = site.withDescendants.map (Site.shift distance) := by
  rw [withDescendants, withDescendants, node_shift, Node.sitesFrom_shift]

end CodeAtlas
