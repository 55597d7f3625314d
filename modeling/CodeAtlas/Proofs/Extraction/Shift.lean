/-
This file follows a moved tree through the reading of a file. Behind whole rows that are put
before its source, every definition is gathered from the same captures, has the same
documentation and the same calls, and what is made of it stands that many bytes and rows later.
-/

import CodeAtlas.Extraction.Basic
import CodeAtlas.Proofs.Query.Shift

namespace CodeAtlas

open Text

/-! ### Moved records -/

/-- The import some rows further down. -/
def Import.moved (rows : Nat) (statement : Import) : Import :=
  { statement with line := statement.line + rows }

/-- The function some bytes and rows further down. -/
def Function.moved (distance rows : Nat) (function : Function) : Function :=
  { function with
    startLine := function.startLine + rows
    endLine := function.endLine + rows
    offset := function.offset + distance }

/-- The class some bytes and rows further down, with its methods. -/
def Class.moved (distance rows : Nat) (owner : Class) : Class :=
  { owner with
    startLine := owner.startLine + rows
    endLine := owner.endLine + rows
    methods := owner.methods.map (Function.moved distance rows)
    offset := owner.offset + distance }

/-! ### Documentation -/

namespace Docs

variable {front : Chars} (source : Chars)

theorem lastRow_shift (rows : EndsRow front) (node : Node) :
    lastRow (node.shift (byteLength front)) (front ++ source) =
      lastRow node source + rowCount front := by
  simp only [lastRow, Node.stopRow_shift, Node.startRow_shift, Node.stop_shift,
    atRowStart_append source rows, Nat.add_lt_add_iff_right]
  split <;> omega

theorem commentsAbove_shift (rows : EndsRow front) (nextRow : Nat) (siblings : List Site) :
    commentsAbove (front ++ source) (nextRow + rowCount front)
        (siblings.map (Site.shift (byteLength front))) =
      commentsAbove source nextRow siblings := by
  induction siblings generalizing nextRow with
  | nil => rfl
  | cons sibling earlier inductionHypothesis =>
    have near : nextRow + rowCount front ≤ lastRow sibling.node source + rowCount front + 1 ↔
        nextRow ≤ lastRow sibling.node source + 1 := by omega
    simp only [List.map_cons, commentsAbove, Site.node_shift, Node.kind_shift,
      Node.startRow_shift, Node.text_shift, lastRow_shift source rows, inductionHypothesis, near]

theorem leading_shift (rows : EndsRow front) (definition : Site) :
    leading (definition.shift (byteLength front)) (front ++ source) =
      leading definition source := by
  simp only [leading, Site.climb_shift, Site.node_shift, Node.startRow_shift,
    Site.earlierSiblings_shift, commentsAbove_shift source rows]

theorem opening?_shift (distance : Nat) (body : Site) :
    opening? (body.shift distance) = (opening? body).map (Site.shift distance) := by
  have comments : ((fun child : Site => decide (child.node.kind ∉ commentKinds)) ∘
      Site.shift distance) = fun child => decide (child.node.kind ∉ commentKinds) := by
    funext child
    rw [Function.comp_apply, Site.node_shift, Node.kind_shift]
  rw [opening?, opening?, Site.children_shift, List.find?_map, comments]
  cases body.children.find? fun child => decide (child.node.kind ∉ commentKinds) with
  | none => rfl
  | some first =>
    simp only [Option.map_some, Option.bind_eq_bind, Option.bind_some, Site.node_shift,
      Node.kind_shift, Site.children_shift]
    split
    · rfl
    · rcases first.children with _ | ⟨literal, _ | ⟨next, others⟩⟩
      · rfl
      · simp only [List.map_cons, List.map_nil, Site.node_shift, Node.kind_shift]
        split <;> rfl
      · rfl

theorem inBody_shift (body : Option Site) :
    inBody (body.map (Site.shift (byteLength front))) (front ++ source) = inBody body source := by
  have opening : (body.map (Site.shift (byteLength front))).bind opening? =
      (body.bind opening?).map (Site.shift (byteLength front)) := by
    cases body with
    | none => rfl
    | some body => exact opening?_shift _ body
  rw [inBody, inBody, opening]
  cases body.bind opening? with
  | none => rfl
  | some literal => simp only [Option.map_some, Site.node_shift, Node.text_shift]

/-- Whole rows before a source do not change what documents a definition. -/
theorem ofDefinition_shift (rows : EndsRow front) (style : DocStyle) (definition : Site)
    (body : Option Site) :
    ofDefinition style (front ++ source) (definition.shift (byteLength front))
        (body.map (Site.shift (byteLength front))) =
      ofDefinition style source definition body := by
  cases style with
  | bodyString => rw [ofDefinition, ofDefinition, inBody_shift]
  | leadingComment => rw [ofDefinition, ofDefinition, leading_shift source rows]

end Docs

/-! ### Calls -/

namespace Callees

theorem found_shift (front source : Chars) (captures : List Capture) :
    found (front ++ source) (captures.map (Capture.shift (byteLength front))) =
      (found source captures).map fun call => ⟨call.offset + byteLength front, call.name⟩ := by
  rw [found, found, List.filterMap_map, List.map_filterMap]
  refine List.filterMap_congr fun capture _ => ?_
  simp only [Function.comp_apply, Capture.shift, Site.node_shift, Node.text_shift,
    Node.start_shift]
  split
  · split <;> rfl
  · rfl

theorem kept_shift (distance : Nat) (calls : List Call) :
    kept (calls.map fun call => ⟨call.offset + distance, call.name⟩) = kept calls := by
  have sorted : (calls.map fun call : Call => (⟨call.offset + distance, call.name⟩ : Call)).mergeSort
      (fun first second => first.offset ≤ second.offset) =
      (calls.mergeSort fun first second => first.offset ≤ second.offset).map
        fun call => ⟨call.offset + distance, call.name⟩ := by
    refine (List.map_mergeSort ?_).symm
    intro first _ second _
    simp only [Nat.add_le_add_iff_right]
  rw [kept, kept, sorted, List.map_map]
  rfl

theorem ofMatches_shift (front source : Chars) (found? : List Match) :
    ofMatches (front ++ source) (found?.map (Match.shift (byteLength front))) =
      ofMatches source found? := by
  have captures : (found?.map (Match.shift (byteLength front))).flatMap Match.captures =
      (found?.flatMap Match.captures).map (Capture.shift (byteLength front)) := by
    rw [List.flatMap_map, List.map_flatMap]
    rfl
  rw [ofMatches, ofMatches, captures, found_shift, kept_shift]

end Callees

namespace Extraction

/-! ### Drafts -/

/-- The text found some bytes further down. -/
def Placed.shift (distance : Nat) (item : Placed) : Placed :=
  { item with offset := item.offset + distance }

/-- The draft of the definition in the tree with every offset moved by a number of bytes. -/
def Draft.shift (distance : Nat) (draft : Draft) : Draft :=
  { draft with
    site := draft.site.shift distance
    body := draft.body.map (Site.shift distance)
    bases := draft.bases.map (Placed.shift distance)
    names := draft.names.map (Placed.shift distance)
    modules := draft.modules.map (Placed.shift distance) }

theorem Draft.offset_shift (distance : Nat) (draft : Draft) :
    (draft.shift distance).offset = draft.offset + distance := by
  rw [offset, shift, Site.node_shift, Node.start_shift, offset]

section

variable (category : Category) (front source : Chars)

theorem Draft.add_shift (draft : Draft) (capture : Capture) :
    (draft.shift (byteLength front)).add category (front ++ source)
        (capture.shift (byteLength front)) =
      (draft.add category source capture).shift (byteLength front) := by
  unfold add
  simp only [Capture.shift, Site.node_shift, Node.text_shift, Node.start_shift]
  split
  · cases category <;> simp [shift, Placed.shift]
  · rfl
  · rfl
  · cases held : draft.body <;> simp [shift, held]
  · simp [shift, Placed.shift, Function.comp_def]
  · split
    · rfl
    · simp [shift, Placed.shift]
  · simp [shift, Placed.shift]
  · rfl

theorem insert_shift (site : Site) (capture : Capture) (drafts : List Draft) :
    insert category (front ++ source) (site.shift (byteLength front))
        (capture.shift (byteLength front)) (drafts.map (Draft.shift (byteLength front))) =
      (insert category source site capture drafts).map (Draft.shift (byteLength front)) := by
  have begun : Draft.add category (front ++ source) { site := site.shift (byteLength front) }
      (capture.shift (byteLength front)) =
        (Draft.add category source { site } capture).shift (byteLength front) :=
    Draft.add_shift category front source { site } capture
  induction drafts with
  | nil => rw [List.map_nil, insert, insert, begun, List.map_cons, List.map_nil]
  | cons draft drafts inductionHypothesis =>
    rw [List.map_cons, insert, insert, begun, inductionHypothesis, Draft.offset_shift,
      Site.node_shift, Node.start_shift, Draft.add_shift]
    simp only [Nat.add_lt_add_iff_right, Nat.add_right_cancel_iff]
    split
    · rfl
    · split <;> rfl

/-- In a moved tree the same captures are gathered into the moved drafts. -/
theorem gather_shift (captures : List Capture) :
    gather category (front ++ source) (captures.map (Capture.shift (byteLength front))) =
      (gather category source captures).map (Draft.shift (byteLength front)) := by
  have step (drafts : List Draft) (capture : Capture) :
      gatherCapture category (front ++ source) (drafts.map (Draft.shift (byteLength front)))
          (capture.shift (byteLength front)) =
        (gatherCapture category source drafts capture).map (Draft.shift (byteLength front)) := by
    unfold gatherCapture
    simp only [Capture.shift, Site.owner?_shift]
    split
    · rfl
    · cases capture.site.owner? category.definitionKinds with
      | none => rfl
      | some site => exact insert_shift category front source site capture drafts
  have run (drafts : List Draft) :
      (captures.map (Capture.shift (byteLength front))).foldl
          (gatherCapture category (front ++ source)) (drafts.map (Draft.shift (byteLength front))) =
        (captures.foldl (gatherCapture category source) drafts).map
          (Draft.shift (byteLength front)) := by
    induction captures generalizing drafts with
    | nil => rfl
    | cons capture captures inductionHypothesis =>
      rw [List.map_cons, List.foldl_cons, List.foldl_cons, step, inductionHypothesis]
  exact run []

end

/-! ### From drafts to records -/

theorem inSourceOrder_shift (distance : Nat) (items : List Placed) :
    inSourceOrder (items.map (Placed.shift distance)) = inSourceOrder items := by
  have sorted : (items.map (Placed.shift distance)).mergeSort
      (fun first second => first.offset ≤ second.offset) =
      (items.mergeSort fun first second => first.offset ≤ second.offset).map
        (Placed.shift distance) := by
    refine (List.map_mergeSort ?_).symm
    intro first _ second _
    simp only [Placed.shift, Nat.add_le_add_iff_right]
  rw [inSourceOrder, inSourceOrder, sorted, List.map_map]
  rfl

section

variable {front : Chars} (source : Chars) (options : AnalysisOptions) (style : DocStyle)
  (draft : Draft)

theorem importsOf_shift :
    importsOf (front ++ source) (draft.shift (byteLength front)) =
      (importsOf source draft).map (Import.moved (rowCount front)) := by
  simp only [importsOf, Draft.shift, inSourceOrder_shift, Site.node_shift, Node.text_shift,
    Node.startRow_shift, List.map_map, Function.comp_def, Import.moved, Nat.add_right_comm]

theorem docOf_shift (rows : EndsRow front) :
    docOf options style (front ++ source) (draft.shift (byteLength front)) =
      docOf options style source draft := by
  simp only [docOf, Draft.shift, Docs.ofDefinition_shift source rows]

theorem classOf?_shift (rows : EndsRow front) :
    classOf? options style (front ++ source) (draft.shift (byteLength front)) =
      (classOf? options style source draft).map
        (Class.moved (byteLength front) (rowCount front)) := by
  simp only [classOf?, docOf_shift source options style draft rows, Draft.offset_shift]
  simp only [Draft.shift, inSourceOrder_shift, Site.node_shift, Node.startRow_shift,
    Node.stopRow_shift, Option.map_map, Function.comp_def, Class.moved, List.map_nil,
    Nat.add_right_comm]

theorem isMethodSite_shift (distance : Nat) (site : Site) :
    isMethodSite (site.shift distance) = isMethodSite site := by
  have enclosing : ((site.shift distance).parent?.bind
      (·.owner? Category.classes.definitionKinds)).isSome =
        (site.parent?.bind (·.owner? Category.classes.definitionKinds)).isSome := by
    rw [Site.parent?_shift]
    cases site.parent? with
    | none => rfl
    | some parent =>
      rw [Option.map_some, Option.bind_some, Option.bind_some, Site.owner?_shift,
        Option.isSome_map]
  rw [isMethodSite, isMethodSite, enclosing, Site.node_shift, Node.childInField?_shift,
    Option.isSome_map]

theorem functionOf?_shift (rows : EndsRow front) (calls : Option Query) :
    functionOf? options style (front ++ source)
        (calls.map fun query => query.matches (front ++ source))
        (draft.shift (byteLength front)) =
      (functionOf? options style source (calls.map fun query => query.matches source)
        draft).map (Function.moved (byteLength front) (rowCount front)) := by
  have scope : (draft.body.map (Site.shift (byteLength front))).getD
      (draft.site.shift (byteLength front)) =
        (draft.body.getD draft.site).shift (byteLength front) := Option.getD_map _ _ _
  simp only [functionOf?, docOf_shift source options style draft rows, Draft.offset_shift]
  cases calls with
  | none =>
    simp only [Draft.shift, isMethodSite_shift, Site.node_shift, Node.startRow_shift,
      Node.stopRow_shift, Option.map_none, Option.map_map, Function.comp_def, Function.moved,
      Nat.add_right_comm]
  | some query =>
    simp only [Draft.shift, isMethodSite_shift, Site.node_shift, Node.startRow_shift,
      Node.stopRow_shift, Option.map_some, scope, Query.matches_shift,
      Callees.ofMatches_shift, Option.map_map, Function.comp_def, Function.moved,
      Nat.add_right_comm]

end

end Extraction

end CodeAtlas
