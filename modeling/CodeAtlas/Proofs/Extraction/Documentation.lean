/-
This file says that lines document a definition in whichever way they are written: in comments of
one line each, in a block, or in a string at the beginning of the body. What is written around a
line is taken away from it and nothing more, and the walk over the earlier siblings finds just the
comments whose rows follow each other down to the definition.
-/

import CodeAtlas.Proofs.Extraction.CommentMarks
import CodeAtlas.Proofs.Text.Bytes

namespace CodeAtlas.Docs

open Text

/-! ### Lines and the rows in which they are written -/

/-- Whether a text can be a line of a documentation. -/
structure IsDocLine (line : Chars) : Prop where
  named : line ≠ []
  unbroken : '\n' ∉ line
  begins : ∀ character ∈ line.head?, isBlank character = false
  ends : ∀ character ∈ line.getLast?, isBlank character = false
  unclosed : ¬ ['*', '/'] <:+ line

theorem IsDocLine.trimmed {line : Chars} (plain : IsDocLine line) : trim line = line :=
  dropAround_eq_self plain.begins plain.ends

theorem filter_docLines {lines : List Chars} (plain : ∀ line ∈ lines, IsDocLine line) :
    lines.filter (fun line => !line.isEmpty) = lines :=
  List.filter_eq_self.mpr fun line isLine => by simp [(plain line isLine).named]

/-- Whether a row holds a text behind blanks. -/
def Indented (text row : Chars) : Prop :=
  ∃ indent, (∀ character ∈ indent, isBlank character = true ∧ character ≠ '\n') ∧
    row = indent ++ text

theorem indented_replicate (count : Nat) (text : Chars) :
    Indented text (List.replicate count ' ' ++ text) :=
  ⟨_, fun _ member => List.eq_of_mem_replicate member ▸ by decide, rfl⟩

theorem Indented.trim_eq {text row : Chars} (indented : Indented text row) :
    trim row = trim text := by
  obtain ⟨indent, blank, rfl⟩ := indented
  exact trim_append_of_blank (fun character member => (blank character member).1) text

theorem Indented.unbroken {text row : Chars} (indented : Indented text row)
    (unbroken : '\n' ∉ text) : '\n' ∉ row := by
  obtain ⟨indent, blank, rfl⟩ := indented
  exact List.not_mem_append (fun member => (blank _ member).2 rfl) unbroken

/-! ### Marks around a line -/

/-- The marks behind which a line is written in a comment of its own. -/
def openings : List Chars :=
  ["//".toList, "///".toList, "//!".toList, "#".toList]

section

variable {line : Chars} (plain : IsDocLine line)

include plain

/-- Stars before the space before a line are taken away, and the line is not cut. -/
theorem closed_stars {stars : Chars} (areStars : ∀ character ∈ stars, character = '*') :
    closed (stars ++ ' ' :: line) = line := by
  -- The closing mark is no longer than the space and the line, and no space stands in it.
  have unclosed : ¬ ['*', '/'] <:+ stars ++ ' ' :: line := by
    intro ends
    have long : ['*', '/'].length ≤ (' ' :: line).length := by
      have pos := List.length_pos_iff.mpr plain.named
      simp only [List.length_cons, List.length_nil]
      omega
    have inLine := List.suffix_of_suffix_length_le ends (List.suffix_append stars _) long
    rcases List.suffix_cons_iff.mp inLine with same | endsLine
    · exact absurd (List.cons.inj same).1 (by decide)
    · exact plain.unclosed endsLine
  rw [closed_of_unclosed unclosed,
    List.dropWhile_append_of_pos fun _ member => decide_eq_true (areStars _ member)]
  exact (trim_append_of_blank (List.forall_mem_singleton.mpr rfl) line).trans plain.trimmed

theorem cleanLine_opening {mark : Chars} (opens : mark ∈ openings) :
    cleanLine (mark ++ ' ' :: line) = line := by
  have trimmed : trim (mark ++ [' '] ++ line) = mark ++ [' '] ++ line := by
    refine trim_append_of_trimmed plain.named plain.trimmed ?_
    have unblank : ∀ mark ∈ openings, ((mark ++ [' ']).head?.all (!isBlank ·)) = true := by decide
    simpa using (Option.all_eq_true _ _).mp (unblank mark opens)
  have opened : ∀ mark ∈ openings,
      withoutFirst lineMarks (mark ++ [' '] ++ line) = ' ' :: line := by
    refine List.forall_mem_cons.mpr ⟨rfl, List.forall_mem_cons.mpr ⟨rfl, ?_⟩⟩
    exact List.forall_mem_cons.mpr ⟨rfl, List.forall_mem_singleton.mpr rfl⟩
  rw [List.append_cons, cleanLine_eq, trimmed, opened mark opens]
  exact closed_stars plain (List.forall_mem_nil _)

theorem unbroken_opening {mark : Chars} (opens : mark ∈ openings) :
    '\n' ∉ mark ++ ' ' :: line := by
  have unbrokenMark : ∀ mark ∈ openings, '\n' ∉ mark ++ [' '] := by decide
  rw [List.append_cons]
  exact List.not_mem_append (unbrokenMark mark opens) plain.unbroken

theorem cleanLine_starred {row : Chars} (indented : Indented (['*', ' '] ++ line) row) :
    cleanLine row = line := by
  have trimmed : trim (['*', ' '] ++ line) = ['*', ' '] ++ line :=
    trim_append_of_trimmed plain.named plain.trimmed fun character begins =>
      Option.some.inj begins ▸ rfl
  have unmarked : withoutFirst lineMarks (['*', ' '] ++ line) = ['*', ' '] ++ line :=
    withoutFirst_eq_self fun character begins => Option.some.inj begins ▸ by decide
  rw [cleanLine_eq, indented.trim_eq, trimmed, unmarked]
  exact closed_stars plain (List.forall_mem_singleton.mpr rfl)

end

/-- Lines that are indented, each behind the same marks, are read back row by row. -/
theorem map_of_indented {lead : Chars} (unbrokenLead : '\n' ∉ lead) {read : Chars → Chars}
    (reads : ∀ {line row}, IsDocLine line → Indented (lead ++ line) row → read row = line)
    {lines written : List Chars} (plain : ∀ line ∈ lines, IsDocLine line)
    (indented : List.Forall₂ (fun line row => Indented (lead ++ line) row) lines written) :
    written.map read = lines ∧ ∀ row ∈ written, '\n' ∉ row := by
  induction indented with
  | nil => exact ⟨rfl, List.forall_mem_nil _⟩
  | cons first _ inductionHypothesis =>
    obtain ⟨plainFirst, plainRest⟩ := List.forall_mem_cons.mp plain
    obtain ⟨readRest, unbrokenRest⟩ := inductionHypothesis plainRest
    refine ⟨congrArg₂ List.cons (reads plainFirst first) readRest, ?_⟩
    refine List.forall_mem_cons.mpr ⟨first.unbroken ?_, unbrokenRest⟩
    exact List.not_mem_append unbrokenLead plainFirst.unbroken

/-! ### Comments -/

/-- Whether a node is a comment of one line, with the newline behind it or without. -/
structure IsLineComment (source line : Chars) (node : Node) : Prop where
  kind : node.kind ∈ commentKinds
  text : ∃ mark ∈ openings, ∃ ending ∈ [[], ['\n']],
    node.text source = mark ++ ' ' :: line ++ ending

/-- Whether a node is a block with one line in each row but the first and the last. -/
structure IsBlockComment (source : Chars) (lines : List Chars) (node : Node) : Prop where
  kind : node.kind ∈ commentKinds
  text : ∃ written close,
    List.Forall₂ (fun line row => Indented (['*', ' '] ++ line) row) lines written ∧
    Indented ['*', '/'] close ∧ node.text source = unlines ("/**".toList :: written ++ [close])

theorem IsLineComment.cleanComment_eq {source line : Chars} {node : Node} (plain : IsDocLine line)
    (written : IsLineComment source line node) : cleanComment (node.text source) = line := by
  obtain ⟨mark, opens, ending, isEnding, text⟩ := written.text
  have unbroken := unbroken_opening plain opens
  have cleaned := cleanLine_opening plain opens
  rcases List.mem_pair.mp isEnding with rfl | rfl
  · rw [text, List.append_nil, cleanComment_of_unbroken unbroken, cleaned]
  · have nothing : cleanLine [] = [] := by decide
    rw [text, Docs.cleanComment_eq, rows_append_newline, rows_of_unbroken unbroken]
    simp [rows_of_unbroken, cleaned, nothing, plain.named, unlines_singleton]

theorem IsBlockComment.cleanComment_eq {source : Chars} {lines : List Chars} {node : Node}
    (plain : ∀ line ∈ lines, IsDocLine line) (written : IsBlockComment source lines node) :
    cleanComment (node.text source) = unlines lines := by
  obtain ⟨starred, close, indented, closes, text⟩ := written.text
  obtain ⟨cleaned, unbroken⟩ := map_of_indented (by decide)
    (fun plain indented => cleanLine_starred plain indented) plain indented
  have unbrokenRow : ∀ row ∈ "/**".toList :: starred ++ [close], '\n' ∉ row := by
    refine List.forall_mem_append.mpr ⟨List.forall_mem_cons.mpr ⟨by decide, unbroken⟩, ?_⟩
    exact fun row isClose => List.mem_singleton.mp isClose ▸ closes.unbroken (by decide)
  have first : cleanLine "/**".toList = [] := by decide
  have last : cleanLine close = [] := by
    rw [cleanLine_eq, closes.trim_eq]
    decide
  rw [text, Docs.cleanComment_eq, rows_unlines (by simp) unbrokenRow, List.map_append,
    List.map_cons, cleaned, first, List.map_singleton, last, List.filter_append,
    List.filter_cons_of_neg (by simp), filter_docLines plain]
  exact congrArg unlines (List.append_nil lines)

/-! ### Rows of comments -/

/-- Where a node ends can be told from its text: each newline in it ends a row, and behind a newline
at its end a row begins. -/
theorem stopRow_of_text {source text : Chars} {node : Node} (named : text ≠ [])
    (covers : node.text source = text) :
    node.stopRow source = node.startRow source + rowCount text ∧
      atRowStart source node.stop = decide (text.getLast? = some '\n') := by
  obtain ⟨front, back, rfl, start, stop⟩ := exists_of_slice named covers
  have later : byteLength (front ++ text) ≠ 0 :=
    (byteLength_pos (List.append_ne_nil_of_right_ne_nil front named)).ne'
  constructor
  · rw [Node.stopRow, Node.startRow, stop, start, rowAt_byteLength, List.append_assoc,
      rowAt_byteLength, rowCount, rowCount, rowCount, List.count_append]
  · rw [atRowStart, stop, charBefore?_byteLength, List.getLast?_append_of_ne_nil _ named,
      decide_eq_false later, Bool.false_or]

/-- A comment of one line ends in the row in which it begins. -/
theorem IsLineComment.lastRow_eq {source line : Chars} {node : Node} (plain : IsDocLine line)
    (written : IsLineComment source line node) : lastRow node source = node.startRow source := by
  obtain ⟨mark, opens, ending, isEnding, text⟩ := written.text
  have oneRow : rowCount (mark ++ ' ' :: line) = 0 :=
    List.count_eq_zero.mpr (unbroken_opening plain opens)
  obtain ⟨stopRow, stops⟩ := stopRow_of_text (by simp) text
  rcases List.mem_pair.mp isEnding with rfl | rfl
  · rw [List.append_nil, oneRow, Nat.add_zero] at stopRow
    simp [lastRow, stopRow]
  · have oneMore : rowCount (mark ++ ' ' :: line ++ ['\n']) = 1 := by
      rw [rowCount, List.count_append, ← rowCount, oneRow]
      rfl
    rw [oneMore] at stopRow
    rw [List.getLast?_concat, decide_eq_true rfl] at stops
    simp [lastRow, stopRow, stops]

/-- A block does not end at the beginning of a row. -/
theorem IsBlockComment.lastRow_eq {source : Chars} {lines : List Chars} {node : Node}
    (written : IsBlockComment source lines node) : lastRow node source = node.stopRow source := by
  obtain ⟨starred, _, _, ⟨indent, _, rfl⟩, text⟩ := written.text
  have ends : (node.text source).getLast? = some '/' := by
    rw [text, unlines_concat_append, List.getLast?_append_of_ne_nil _ (List.cons_ne_nil _ _)]
    rfl
  have named : node.text source ≠ [] := by
    intro empty
    rw [empty] at ends
    cases ends
  have stops := (stopRow_of_text named rfl).2
  rw [ends] at stops
  have notStart : atRowStart source node.stop = false := by
    rw [stops]
    decide
  simp [lastRow, notStart]

/-- Whether some comments hold some lines, the lowest first, each in the row above the one before
it and the first above the row `row`. -/
inductive LineComments (source : Chars) : Nat → List Chars → List Site → Prop where
  | none {row} : LineComments source row [] []
  | above {row line lines comment earlier} :
    IsLineComment source line comment.node → comment.node.startRow source + 1 = row →
    LineComments source (comment.node.startRow source) lines earlier →
    LineComments source row (line :: lines) (comment :: earlier)

theorem commentsAbove_comment {source : Chars} {row : Nat} {comment : Site}
    (kind : comment.node.kind ∈ commentKinds) (near : row ≤ lastRow comment.node source + 1)
    (earlier : List Site) :
    commentsAbove source row (comment :: earlier) =
      cleanComment (comment.node.text source) ::
        commentsAbove source (comment.node.startRow source) earlier := by
  have notAttribute : ∀ kind ∈ commentKinds, kind ∉ attributeKinds := by decide
  rw [commentsAbove, if_neg (notAttribute _ kind), if_pos ⟨kind, near⟩]

/-- From the comments of some lines the lines are collected, whatever stands before them. -/
theorem LineComments.commentsAbove_append {source : Chars} {row : Nat} {lines : List Chars}
    {comments : List Site} (plain : ∀ line ∈ lines, IsDocLine line)
    (written : LineComments source row lines comments) (before : List Site) :
    ∃ top, commentsAbove source row (comments ++ before) =
      lines ++ commentsAbove source top before := by
  induction written with
  | none => exact ⟨_, rfl⟩
  | above comment next _ inductionHypothesis =>
    -- The row that counts for the comments above this one is the row in which it begins.
    obtain ⟨plainLine, plainRest⟩ := List.forall_mem_cons.mp plain
    obtain ⟨top, collected⟩ := inductionHypothesis plainRest
    have near := (comment.lastRow_eq plainLine ▸ next).ge
    refine ⟨top, ?_⟩
    rw [List.cons_append, commentsAbove_comment comment.kind near,
      comment.cleanComment_eq plainLine, collected]
    rfl

/-- The walk passes the attributes before a site, and what counts is then the row of the first. -/
theorem commentsAbove_attributes {source : Chars} {attributes : List Site}
    (areAttributes : ∀ sibling ∈ attributes, sibling.node.kind ∈ attributeKinds)
    (anchor : Site) (earlier : List Site) :
    commentsAbove source (anchor.node.startRow source) (attributes ++ earlier) =
      commentsAbove source
        (((anchor :: attributes).getLast (List.cons_ne_nil _ _)).node.startRow source) earlier := by
  induction attributes generalizing anchor with
  | nil => rfl
  | cons nearest attributes inductionHypothesis =>
    obtain ⟨isAttribute, areAttributes⟩ := List.forall_mem_cons.mp areAttributes
    rw [List.cons_append, commentsAbove, if_pos isAttribute, inductionHypothesis areAttributes,
      List.getLast_cons (List.cons_ne_nil nearest attributes)]

theorem commentsAbove_eq_nil {source : Chars} {row : Nat} {before : List Site}
    (apart : ∀ sibling ∈ before.head?,
      sibling.node.kind ∉ commentKinds ∧ sibling.node.kind ∉ attributeKinds) :
    commentsAbove source row before = [] := by
  cases before with
  | nil => rfl
  | cons sibling before =>
    obtain ⟨notComment, notAttribute⟩ := apart sibling rfl
    rw [commentsAbove, if_neg notAttribute, if_neg fun comment => notComment comment.1]

/-! ### What stands before a definition -/

/-- Whether a site stands around another one with nothing but wrappers between and at it. -/
inductive Wraps (definition : Site) : Site → Prop where
  | self : Wraps definition definition
  | wrapper {inner outer : Site} : Wraps definition inner → inner.parent? = some outer →
    outer.node.kind ∈ wrapperKinds → Wraps definition outer

/-- What stands before a definition and all that is wrapped around it: attributes, before them
comments, and before these no further comment and no attribute. -/
structure Surroundings (definition : Site) where
  anchor : Site
  attributes : List Site
  comments : List Site
  before : List Site
  wraps : Wraps definition anchor
  outermost : ∀ parent ∈ anchor.parent?, parent.node.kind ∉ wrapperKinds
  siblings : anchor.earlierSiblings = attributes ++ (comments ++ before)
  areAttributes : ∀ sibling ∈ attributes, sibling.node.kind ∈ attributeKinds
  apart : ∀ sibling ∈ before.head?,
    sibling.node.kind ∉ commentKinds ∧ sibling.node.kind ∉ attributeKinds

/-- The row in which the first attribute begins, or if there is none, what is wrapped around the
definition. -/
def Surroundings.row {definition : Site} (surroundings : Surroundings definition)
    (source : Chars) : Nat :=
  ((surroundings.anchor :: surroundings.attributes).getLast
    (List.cons_ne_nil _ _)).node.startRow source

theorem Wraps.climb_eq {definition anchor : Site} (wraps : Wraps definition anchor) :
    definition.climb wrapperKinds = anchor.climb wrapperKinds := by
  induction wraps with
  | self => rfl
  | @wrapper inner outer _ isParent kind inductionHypothesis =>
    rw [inductionHypothesis]
    cases inner with
    | root node => cases isParent
    | child parent earlier node =>
      rw [← Option.some.inj isParent] at kind ⊢
      exact if_pos kind

theorem climb_outermost {anchor : Site}
    (outermost : ∀ parent ∈ anchor.parent?, parent.node.kind ∉ wrapperKinds) :
    anchor.climb wrapperKinds = anchor := by
  cases anchor with
  | root node => rfl
  | child parent earlier node => exact if_neg (outermost parent rfl)

theorem Surroundings.leading_eq {definition : Site} (surroundings : Surroundings definition)
    (source : Chars) :
    leading definition source =
      unlines ((commentsAbove source (surroundings.row source)
        (surroundings.comments ++ surroundings.before)).reverse.filter
          fun comment => !comment.isEmpty) := by
  have anchor : definition.climb wrapperKinds = surroundings.anchor :=
    surroundings.wraps.climb_eq.trans (climb_outermost surroundings.outermost)
  rw [leading, anchor, surroundings.siblings,
    commentsAbove_attributes surroundings.areAttributes]
  rfl

/-! ### Strings -/

/-- The quotes around a string of more than one row. -/
def tripleQuotes : List Chars :=
  [['"', '"', '"'], ['\'', '\'', '\'']]

/-- Whether a node is a string with some lines in it, each in a row of its own. Letters may stand
before the quotes and blanks before each line, and blank rows before and behind all lines. -/
structure IsDocString (source : Chars) (lines : List Chars) (node : Node) : Prop where
  kind : node.kind = "string"
  text : ∃ letters front written back, ∃ quote ∈ tripleQuotes,
    (∀ letter ∈ letters, letter.isAlpha = true) ∧ (∀ row ∈ front ++ back, Indented [] row) ∧
    List.Forall₂ Indented lines written ∧
    node.text source = letters ++ (quote ++ unlines (front ++ written ++ back) ++ quote)

/-- Whether the first statement of a body is a literal and nothing else. Comments are no
statements. -/
def BeginsWith (body literal : Site) : Prop :=
  ∃ comments statement later, body.children = comments ++ statement :: later ∧
    (∀ comment ∈ comments, comment.node.kind ∈ commentKinds) ∧
    statement.node.kind = "expression_statement" ∧ statement.children = [literal]

theorem BeginsWith.opening?_eq {body literal : Site} (begins : BeginsWith body literal)
    (kind : literal.node.kind = "string") : opening? body = some literal := by
  obtain ⟨comments, statement, later, children, areComments, isStatement, alone⟩ := begins
  have notComment : statement.node.kind ∉ commentKinds := by
    rw [isStatement]
    decide
  have first : body.children.find? (fun child => child.node.kind ∉ commentKinds) =
      some statement := by
    refine List.find?_eq_some_iff_append.mpr
      ⟨decide_eq_true notComment, comments, later, children, fun comment isComment => ?_⟩
    simp [areComments comment isComment]
  rw [opening?, first]
  simp [isStatement, alone, kind]

theorem unquote_eq {letters quote : Chars} (areLetters : ∀ letter ∈ letters, letter.isAlpha = true)
    (isQuote : quote ∈ tripleQuotes) (content : Chars) :
    unquote (letters ++ (quote ++ content ++ quote)) = content := by
  -- The letters are dropped up to the quotes, of which the double ones are tried first.
  have notLetter : ∀ quote ∈ tripleQuotes, quote.head?.all (!Char.isAlpha ·) = true := by decide
  have quoted : (letters ++ (quote ++ content ++ quote)).dropWhile Char.isAlpha =
      quote ++ content ++ quote := by
    rw [List.dropWhile_append_of_pos areLetters]
    refine dropWhile_eq_self fun character begins => ?_
    have named : quote ≠ [] := by
      rintro rfl
      exact absurd isQuote (by decide)
    rw [List.append_assoc, List.head?_append_of_ne_nil _ named] at begins
    simpa using (Option.all_eq_true _ _).mp (notLetter quote isQuote) character begins
  have inside (quote : Chars) :
      (stripFront? quote (quote ++ content ++ quote)).bind (stripBack? quote) = some content := by
    rw [List.append_assoc, stripFront?_append, Option.bind_some]
    exact stripBack?_eq_some_iff.mpr rfl
  rw [unquote, quoted]
  rcases List.mem_pair.mp isQuote with rfl | rfl
  · rw [quotes, List.findSome?_cons, inside, Option.getD_some]
  · have notDouble : stripFront? ['"', '"', '"']
        (['\'', '\'', '\''] ++ content ++ ['\'', '\'', '\'']) = none := rfl
    rw [quotes, List.findSome?_cons, notDouble, Option.bind_none, List.findSome?_cons, inside,
      Option.getD_some]

theorem IsDocString.ofLiteral_eq {source : Chars} {lines : List Chars} {node : Node}
    (some : lines ≠ []) (plain : ∀ line ∈ lines, IsDocLine line)
    (written : IsDocString source lines node) : ofLiteral (node.text source) = unlines lines := by
  obtain ⟨letters, front, rows, back, quote, isQuote, areLetters, blank, indented, text⟩ :=
    written.text
  obtain ⟨trimmed, unbroken⟩ := map_of_indented List.not_mem_nil
    (fun plain indented => indented.trim_eq.trans plain.trimmed) plain indented
  obtain ⟨blankFront, blankBack⟩ := List.forall_mem_append.mp blank
  have named : rows ≠ [] := by
    rintro rfl
    exact some trimmed.symm
  have unbrokenBlank (row : Chars) (isBlank : Indented [] row) : '\n' ∉ row :=
    isBlank.unbroken List.not_mem_nil
  have unbrokenRow : ∀ row ∈ front ++ rows ++ back, '\n' ∉ row :=
    List.forall_mem_append.mpr ⟨List.forall_mem_append.mpr
      ⟨fun row isRow => unbrokenBlank row (blankFront row isRow), unbroken⟩,
      fun row isRow => unbrokenBlank row (blankBack row isRow)⟩
  have empty {blanks : List Chars} (blank : ∀ row ∈ blanks, Indented [] row) :
      ∀ row ∈ blanks.map trim, row = [] :=
    List.forall_mem_map.mpr fun row isRow => (blank row isRow).trim_eq
  rw [ofLiteral, text, unquote_eq areLetters isQuote, trim_unlines_lines,
    rows_unlines (by simp [named]) unbrokenRow, List.map_append, List.map_append, trimmed,
    trim_unlines_around (empty blankFront) (empty blankBack),
    trim_unlines_of_trimmed some (fun line isLine => (plain line isLine).named)
      fun line isLine => (plain line isLine).trimmed]

/-! ### Documentation -/

/-- The ways in which lines can be written so that they document a definition with the body `body`:
above it and all that is wrapped around it, in comments of one line or in a block, or in a string at
the beginning of the body. -/
inductive IsWritten (source : Chars) (lines : List Chars) (definition : Site)
    (body : Option Site) : DocStyle → Prop where
  | comments (surroundings : Surroundings definition) :
    LineComments source (surroundings.row source) lines.reverse surroundings.comments →
    IsWritten source lines definition body .leadingComment
  | block {comment : Site} (surroundings : Surroundings definition) :
    surroundings.comments = [comment] → IsBlockComment source lines comment.node →
    comment.node.stopRow source + 1 = surroundings.row source →
    IsWritten source lines definition body .leadingComment
  | string {site literal : Site} : body = some site → BeginsWith site literal →
    IsDocString source lines literal.node → IsWritten source lines definition body .bodyString

/-- Lines document a definition in whichever way they are written. -/
theorem ofDefinition_of_isWritten {source : Chars} {lines : List Chars} {definition : Site}
    {body : Option Site} {style : DocStyle} (some : lines ≠ [])
    (plain : ∀ line ∈ lines, IsDocLine line)
    (written : IsWritten source lines definition body style) :
    ofDefinition style source definition body = truncate (unlines lines) := by
  have named : unlines lines ≠ [] :=
    mt (unlines_eq_nil_iff fun line isLine => (plain line isLine).named).mp some
  cases written with
  | comments surroundings comments =>
    have plainAbove : ∀ line ∈ lines.reverse, IsDocLine line := fun line isLine =>
      plain line (List.mem_reverse.mp isLine)
    obtain ⟨top, collected⟩ := comments.commentsAbove_append plainAbove surroundings.before
    rw [ofDefinition, surroundings.leading_eq, collected, commentsAbove_eq_nil surroundings.apart,
      List.append_nil, List.reverse_reverse, filter_docLines plain]
  | @block comment surroundings alone block next =>
    have near := (block.lastRow_eq ▸ next).ge
    rw [ofDefinition, surroundings.leading_eq, alone, List.singleton_append,
      commentsAbove_comment block.kind near, block.cleanComment_eq plain,
      commentsAbove_eq_nil surroundings.apart]
    simp [named, unlines_singleton]
  | string isBody begins isString =>
    rw [ofDefinition, inBody, isBody, Option.bind_some, begins.opening?_eq isString.kind]
    exact congrArg truncate (isString.ofLiteral_eq some plain)

/-- A function below an attribute and two comments, one of which has the newline behind it. -/
def commented : ParsedFile where
  language := .rust
  source := "/// One.\n// Two.\n#[inline]\nfn f() {}\n".toList
  root :=
    ⟨"source_file", none, 0, 37,
      [⟨"line_comment", none, 0, 9, []⟩, ⟨"line_comment", none, 9, 16, []⟩,
        ⟨"attribute_item", none, 17, 26, []⟩, ⟨"function_item", none, 27, 36, []⟩]⟩
  hasSyntaxErrors := false

/-- A class that is exported, below a block. -/
def blocked : ParsedFile where
  language := .javaScript
  source := "/**\n * One.\n * Two.\n */\nexport class C {}\n".toList
  root :=
    ⟨"program", none, 0, 42,
      [⟨"comment", none, 0, 23, []⟩,
        ⟨"export_statement", none, 24, 41, [⟨"class_declaration", none, 31, 41, []⟩]⟩]⟩
  hasSyntaxErrors := false

/-- A function that begins with a string. -/
def quoted : ParsedFile where
  language := .python
  source := "def f():\n    r'''One.\n    Two.\n    '''\n".toList
  root :=
    ⟨"module", none, 0, 39,
      [⟨"function_definition", none, 0, 38,
        [⟨"block", some "body", 13, 38,
          [⟨"expression_statement", none, 13, 38, [⟨"string", none, 13, 38, []⟩]⟩]⟩]⟩]⟩
  hasSyntaxErrors := false

/-- The same two lines document a definition in each of the ways. -/
theorem ofDefinition_of_isWritten_twoLines :
    (∃ definition, commented.rootSite.follow? [3] = some definition ∧
      ofDefinition .leadingComment commented.source definition none = "One.\nTwo.".toList) ∧
    (∃ definition, blocked.rootSite.follow? [1, 0] = some definition ∧
      ofDefinition .leadingComment blocked.source definition none = "One.\nTwo.".toList) ∧
    ∃ definition, quoted.rootSite.follow? [0] = some definition ∧
      ofDefinition .bodyString quoted.source definition (definition.childInField? "body") =
        "One.\nTwo.".toList := by
  have plain : ∀ line ∈ ["One.".toList, "Two.".toList], IsDocLine line := by
    refine List.forall_mem_cons.mpr ⟨?_, List.forall_mem_singleton.mpr ?_⟩
    all_goals exact ⟨by decide, by decide, by simp [isBlank], by simp [isBlank], by decide⟩
  refine ⟨⟨_, rfl, ?_⟩, ⟨_, rfl, ?_⟩, _, rfl, ?_⟩
  · refine ofDefinition_of_isWritten (by decide) plain (.comments {
      anchor := _
      attributes := _
      comments := _
      before := []
      wraps := .self
      outermost := by decide
      siblings := (rfl : _ = [_] ++ ([_, _] ++ []))
      areAttributes := by decide
      apart := by simp } ?_)
    refine .above ⟨by decide, "//".toList, by decide, [], by decide, rfl⟩ rfl ?_
    exact .above ⟨by decide, "///".toList, by decide, ['\n'], by decide, rfl⟩ rfl .none
  · refine ofDefinition_of_isWritten (by decide) plain (.block {
      anchor := _
      attributes := []
      comments := _
      before := []
      wraps := .wrapper .self rfl (by decide)
      outermost := by decide
      siblings := (rfl : _ = [] ++ ([_] ++ []))
      areAttributes := by simp
      apart := by simp } rfl ?_ ?_)
    · refine ⟨by decide, [" * One.".toList, " * Two.".toList], " */".toList,
        .cons ?_ (.cons ?_ .nil), ?_, by decide +kernel⟩
      all_goals exact indented_replicate 1 _
    · decide +kernel
  · refine ofDefinition_of_isWritten (by decide) plain (.string rfl
      ⟨[], _, [], rfl, by simp, rfl, rfl⟩ ⟨rfl, ['r'], [], ["One.".toList, "    Two.".toList],
        ["    ".toList], ['\'', '\'', '\''], by decide, by simp, ?_,
        .cons (indented_replicate 0 _) (.cons (indented_replicate 4 _) .nil), by decide +kernel⟩)
    exact List.forall_mem_singleton.mpr (indented_replicate 4 [])

end CodeAtlas.Docs
