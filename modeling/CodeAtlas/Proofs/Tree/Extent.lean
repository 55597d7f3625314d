/-
This file says what source the sites of a well-formed tree cover. Every site covers a range
inside the source that does not end before it begins, and a site covers all that the sites
below it cover, in bytes and therefore in lines.
-/

import CodeAtlas.Proofs.Text.Bytes
import CodeAtlas.Proofs.Tree.Ancestry

namespace CodeAtlas

open Text

namespace Node

theorem liesWithin_iff (node : Node) (low high : Nat) :
    node.LiesWithin low high ↔ low ≤ node.start ∧ node.start ≤ node.stop ∧ node.stop ≤ high ∧
      AllLieWithin node.children node.start node.stop := by
  cases node
  rw [LiesWithin]

/-- Every one of some trees that lie one after the other lies between the two offsets. -/
theorem liesWithin_of_mem {nodes : List Node} {low high : Nat}
    (within : AllLieWithin nodes low high) {node : Node} (member : node ∈ nodes) :
    ∃ first, low ≤ first ∧ node.LiesWithin first high := by
  induction nodes generalizing low with
  | nil => cases member
  | cons child later inductionHypothesis =>
    rw [AllLieWithin] at within
    rcases List.mem_cons.mp member with rfl | member
    · exact ⟨low, Nat.le_refl low, within.1⟩
    · obtain ⟨first, after, lies⟩ := inductionHypothesis within.2 member
      have bounds := (liesWithin_iff child low high).mp within.1
      exact ⟨first, by omega, lies⟩

end Node

namespace Site

/-- The range of a site: it begins no later than it ends, inside of some bounds. -/
theorem AtOrBelow.bounds {top site : Site} (below : AtOrBelow top site) {low high : Nat}
    (within : top.node.LiesWithin low high) :
    top.node.start ≤ site.node.start ∧ site.node.start ≤ site.node.stop ∧
      site.node.stop ≤ top.node.stop ∧
      ∃ first last, site.node.LiesWithin first last := by
  induction below with
  | self =>
    have topBounds := (Node.liesWithin_iff top.node low high).mp within
    exact ⟨Nat.le_refl _, topBounds.2.1, Nat.le_refl _, low, high, within⟩
  | @child parent site above isChild inductionHypothesis =>
    obtain ⟨earlier, node, member, rfl⟩ := mem_children isChild
    obtain ⟨startLe, _, stopLe, first, last, parentWithin⟩ := inductionHypothesis
    have children := ((Node.liesWithin_iff parent.node first last).mp parentWithin).2.2.2
    obtain ⟨begin, after, lies⟩ := Node.liesWithin_of_mem children member
    have nodeBounds := (Node.liesWithin_iff node begin parent.node.stop).mp lies
    have starts : parent.node.start ≤ node.start := Nat.le_trans after nodeBounds.1
    exact ⟨Nat.le_trans startLe starts, nodeBounds.2.1, Nat.le_trans nodeBounds.2.2.1 stopLe,
      begin, parent.node.stop, lies⟩

/-! ### Sites of a file -/

/-- A site of a file does not end in an earlier row than it begins. -/
theorem startRow_le_stopRow {file : ParsedFile} (wellFormed : file.WellFormed) {site : Site}
    (inFile : AtOrBelow file.rootSite site) :
    site.node.startRow file.source ≤ site.node.stopRow file.source :=
  rowAt_mono file.source (inFile.bounds wellFormed).2.1

/-- The rows of a site of a file lie within the rows of every site above it. -/
theorem rows_within {file : ParsedFile} (wellFormed : file.WellFormed) {site upper : Site}
    (inFile : AtOrBelow file.rootSite site) (above : upper ∈ site.withAncestors) :
    upper.node.startRow file.source ≤ site.node.startRow file.source ∧
      site.node.stopRow file.source ≤ upper.node.stopRow file.source := by
  obtain ⟨upperInFile, below⟩ := inFile.of_mem_withAncestors above
  obtain ⟨_, _, _, first, last, upperWithin⟩ := upperInFile.bounds wellFormed
  have bounds := below.bounds upperWithin
  exact ⟨rowAt_mono file.source bounds.1, rowAt_mono file.source bounds.2.2.1⟩

end Site

/-! ### A tree -/

/-- A script with a class of one method. -/
def shapes : ParsedFile where
  language := .python
  source := "class Shape:\n    def area(self):\n        draw()\n".toList
  root :=
    ⟨"module", none, 0, 48,
      [⟨"class_definition", none, 0, 47,
        [⟨"identifier", some "name", 6, 11, []⟩,
          ⟨"block", some "body", 17, 47,
            [⟨"function_definition", none, 17, 47,
              [⟨"identifier", some "name", 21, 25, []⟩,
                ⟨"parameters", some "parameters", 25, 31, [⟨"identifier", none, 26, 30, []⟩]⟩,
                ⟨"block", some "body", 41, 47,
                  [⟨"expression_statement", none, 41, 47,
                    [⟨"call", none, 41, 47,
                      [⟨"identifier", some "function", 41, 45, []⟩,
                        ⟨"argument_list", some "arguments", 45, 47, []⟩]⟩]⟩]⟩]⟩]⟩]⟩]⟩
  hasSyntaxErrors := false

theorem wellFormed_shapes : shapes.WellFormed := by
  have length : byteLength shapes.source = 48 := by decide
  rw [ParsedFile.WellFormed, length]
  simp [shapes, Node.LiesWithin, Node.AllLieWithin]

end CodeAtlas
