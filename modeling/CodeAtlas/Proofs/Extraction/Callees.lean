/-
This file says which names a list of calls holds. A call gives the last segment of the text that
is called: what stands behind the last of all separators. Of the names that are neither empty nor
part of a language the list holds each once, in the order of their first calls, as many as are
kept; so a name is left out only for names that are called no later.
-/

import CodeAtlas.Proofs.Extraction.Soundness
import CodeAtlas.Proofs.Text.Blank
import CodeAtlas.Proofs.Text.Cutting
import CodeAtlas.Proofs.Text.Distinct
import Mathlib.Data.Set.Card

namespace CodeAtlas.Callees

open Text

/-! ### Last segments -/

theorem shortest_spec (first : Chars) (others : List Chars) :
    shortest first others ∈ first :: others ∧
      ∀ text ∈ first :: others, (shortest first others).length ≤ text.length := by
  induction others generalizing first with
  | nil => simp [shortest]
  | cons other others inductionHypothesis =>
    rw [shortest, List.foldl_cons, ← shortest]
    split
    · next shorter =>
      obtain ⟨member, least⟩ := inductionHypothesis other
      exact ⟨List.mem_cons_of_mem first member, List.forall_mem_cons.mpr
        ⟨(least other List.mem_cons_self).trans shorter.le, least⟩⟩
    · next notShorter =>
      obtain ⟨member, least⟩ := inductionHypothesis first
      obtain ⟨leastFirst, leastOthers⟩ := List.forall_mem_cons.mp least
      refine ⟨((List.sublist_cons_self other others).cons_cons first).subset member,
        List.forall_mem_cons.mpr ⟨leastFirst, List.forall_mem_cons.mpr ⟨?_, leastOthers⟩⟩⟩
      exact leastFirst.trans (Nat.le_of_not_lt notShorter)

/-- Whether the end of a text is what stands behind the last of its separators. -/
structure IsCutBehind (text rest : Chars) : Prop where
  ends : rest = text ∨ ∃ separator ∈ separators, ∃ front, text = front ++ separator ++ rest
  last : ∀ separator ∈ separators, ∀ front back, text = front ++ separator ++ back → rest <:+ back

/-- Whether a text is the last segment of another one: what stands behind the last separator,
without blanks around it. -/
def IsLastSegment (text segment : Chars) : Prop :=
  ∃ rest, IsCutBehind (trim text) rest ∧ segment = trim rest

theorem IsCutBehind.isSuffix {text rest : Chars} (cut : IsCutBehind text rest) :
    rest <:+ text := by
  rcases cut.ends with all | ⟨separator, _, front, divided⟩
  · rw [all]
  · exact ⟨front ++ separator, divided.symm⟩

/-- There is one end of a text behind the last separator. -/
theorem IsCutBehind.unique {text rest other : Chars} (cut : IsCutBehind text rest)
    (otherCut : IsCutBehind text other) : rest = other := by
  have isSuffix {first second : Chars} (isFirst : IsCutBehind text first)
      (isSecond : IsCutBehind text second) : first <:+ second := by
    rcases isSecond.ends with all | ⟨separator, member, front, divided⟩
    · exact all ▸ isFirst.isSuffix
    · exact isFirst.last separator member front second divided
  exact (isSuffix cut otherCut).eq_of_length_le (isSuffix otherCut cut).length_le

/-- No separator stands in what is cut off. -/
theorem IsCutBehind.free {text rest : Chars} (cut : IsCutBehind text rest) {separator : Chars}
    (member : separator ∈ separators) : ¬ separator <:+: rest := by
  rintro ⟨front, back, divided⟩
  obtain ⟨before, whole⟩ := cut.isSuffix
  have shorter : rest <:+ back := by
    refine cut.last separator member (before ++ front) back ?_
    rw [← whole, ← divided]
    simp
  have nonempty : ∀ separator ∈ separators, 0 < separator.length := by decide
  have length := shorter.length_le
  have long := nonempty separator member
  rw [← divided, List.length_append, List.length_append] at length
  omega

theorem isCutBehind_shortest (text : Chars) : IsCutBehind text
    (shortest text (separators.map fun separator => afterLast separator text)) := by
  obtain ⟨member, least⟩ :=
    shortest_spec text (separators.map fun separator => afterLast separator text)
  generalize shortest text (separators.map fun separator => afterLast separator text) = rest
    at member least
  have among : rest = text ∨ ∃ separator ∈ separators, afterLast separator text = rest := by
    simpa using member
  have isSuffix : rest <:+ text := by
    rcases among with all | ⟨separator, _, rfl⟩
    · rw [all]
    · exact afterLast_isSuffix separator text
  refine ⟨?_, fun separator member front back divided => ?_⟩
  · rcases among with all | ⟨separator, isSeparator, rfl⟩
    · exact .inl all
    · exact (afterLast_spec separator text).1.imp_right fun divided =>
        ⟨separator, isSeparator, divided⟩
  · have shorter := least _ (List.mem_cons_of_mem _ (List.mem_map_of_mem member))
    exact (List.suffix_of_suffix_length_le isSuffix (afterLast_isSuffix separator text)
      shorter).trans ((afterLast_spec separator text).2 front back divided)

/-- The last segment of a text is computed right. -/
theorem lastSegment_eq_iff {text segment : Chars} :
    lastSegment text = segment ↔ IsLastSegment text segment := by
  have cut := isCutBehind_shortest (trim text)
  constructor
  · rintro rfl
    exact ⟨_, cut, rfl⟩
  · rintro ⟨rest, otherCut, rfl⟩
    rw [← cut.unique otherCut]
    rfl

/-- No separator stands in a last segment. -/
theorem IsLastSegment.free {text segment : Chars} (isLast : IsLastSegment text segment)
    {separator : Chars} (member : separator ∈ separators) : ¬ separator <:+: segment := by
  obtain ⟨rest, cut, rfl⟩ := isLast
  exact fun inSegment => cut.free member (inSegment.trans (dropAround_isInfix isBlank rest))

/-- No blank stands at either end of a last segment. -/
theorem IsLastSegment.trimmed {text segment : Chars} (isLast : IsLastSegment text segment) :
    (∀ character ∈ segment.head?, isBlank character = false) ∧
      ∀ character ∈ segment.getLast?, isBlank character = false := by
  obtain ⟨rest, _, rfl⟩ := isLast
  exact ⟨fun _ => eq_false_of_mem_head?_dropAround, fun _ => eq_false_of_mem_getLast?_dropEnd⟩

/-! ### Calls -/

/-- Whether a capture calls a name that is neither empty nor part of a language. -/
structure Calls (source : Chars) (capture : Capture) (name : String) : Prop where
  label : capture.label = "callee"
  segment : IsLastSegment (capture.site.node.text source) name.toList
  notEmpty : name ≠ ""
  allowed : isDenied name = false

/-- Whether a name is first called at a byte offset by some captures. -/
structure IsFirstCall (source : Chars) (captures : List Capture) (name : String) (offset : Nat) :
    Prop where
  isCall : ∃ capture ∈ captures, Calls source capture name ∧ capture.site.node.start = offset
  least : ∀ capture ∈ captures, Calls source capture name → offset ≤ capture.site.node.start

section

variable {source : Chars} {captures : List Capture} {name : String}

/-- A name that is called is called somewhere first. -/
theorem exists_isFirstCall {capture : Capture} (member : capture ∈ captures)
    (calls : Calls source capture name) : ∃ offset, IsFirstCall source captures name offset := by
  classical
  have somewhere : ∃ offset, ∃ capture ∈ captures,
      Calls source capture name ∧ capture.site.node.start = offset :=
    ⟨_, capture, member, calls, rfl⟩
  exact ⟨Nat.find somewhere, Nat.find_spec somewhere, fun other otherMember otherCalls =>
    Nat.find_min' somewhere ⟨other, otherMember, otherCalls, rfl⟩⟩

/-- The calls of names that are not denied, in the order of their offsets. -/
def allowedCalls (calls : List Call) : List Call :=
  (calls.mergeSort fun first second => first.offset ≤ second.offset).filter fun call =>
    !isDenied call.name

theorem ascending_allowedCalls (calls : List Call) :
    (allowedCalls calls).Pairwise fun first second => first.offset ≤ second.offset := by
  have sorted := List.pairwise_mergeSort (byNumber_trans Call.offset) (byNumber_total Call.offset)
    calls
  exact (sorted.imp fun before => of_decide_eq_true before).filter _

theorem mem_found_iff {call : Call} : call ∈ found source captures ↔
    ∃ capture ∈ captures, capture.label = "callee" ∧
      IsLastSegment (capture.site.node.text source) call.name.toList ∧ call.name ≠ "" ∧
      capture.site.node.start = call.offset := by
  rw [found, List.mem_filterMap]
  refine exists_congr fun capture => and_congr_right fun _ => ?_
  rw [← lastSegment_eq_iff]
  split
  · next label =>
    rw [and_iff_right label]
    dsimp only
    split
    · next empty =>
      refine ⟨nofun, fun ⟨segment, notEmpty, _⟩ => ?_⟩
      rw [segment] at empty
      exact absurd (String.toList_eq_nil_iff.mp (List.isEmpty_iff.mp empty)) notEmpty
    · next notEmpty =>
      constructor
      · intro gives
        rw [← Option.some.inj gives]
        refine ⟨String.toList_ofList.symm, fun empty => notEmpty ?_, rfl⟩
        have nothing := congrArg String.toList empty
        simpa using nothing
      · rintro ⟨segment, _, start⟩
        rw [segment, start, String.ofList_toList]
  · next otherLabel =>
    exact ⟨nofun, fun ⟨label, _⟩ => absurd label otherLabel⟩

theorem mem_allowedCalls_iff {call : Call} :
    call ∈ allowedCalls (found source captures) ↔
      ∃ capture ∈ captures, Calls source capture call.name ∧
        capture.site.node.start = call.offset := by
  rw [allowedCalls, List.mem_filter, List.mem_mergeSort, mem_found_iff]
  constructor
  · rintro ⟨⟨capture, captured, label, segment, notEmpty, start⟩, notDenied⟩
    exact ⟨capture, captured, ⟨label, segment, notEmpty, by simpa using notDenied⟩, start⟩
  · rintro ⟨capture, captured, calls, start⟩
    exact ⟨⟨capture, captured, calls.label, calls.segment, calls.notEmpty, start⟩,
      by simpa using calls.allowed⟩

/-- The names that may be listed, each once. -/
def allowedNames (source : Chars) (captures : List Capture) : List String :=
  distinct ((allowedCalls (found source captures)).map Call.name)

theorem kept_found_eq (source : Chars) (captures : List Capture) :
    kept (found source captures) = (allowedNames source captures).take 20 := by
  rw [kept, allowedNames, allowedCalls, List.filter_map]
  rfl

theorem mem_allowedNames_iff :
    name ∈ allowedNames source captures ↔ ∃ capture ∈ captures, Calls source capture name := by
  rw [allowedNames, mem_distinct, List.mem_map]
  constructor
  · rintro ⟨call, member, rfl⟩
    obtain ⟨capture, captured, calls, _⟩ := mem_allowedCalls_iff.mp member
    exact ⟨capture, captured, calls⟩
  · rintro ⟨capture, captured, calls⟩
    exact ⟨⟨capture.site.node.start, name⟩,
      mem_allowedCalls_iff.mpr ⟨capture, captured, calls, rfl⟩, rfl⟩

/-- Where a name stands before any other one among the calls in their order, it is first called no
later. -/
theorem IsFirstCall.le_of_precedes {front back : List String} {first second : String}
    (divided : (allowedCalls (found source captures)).map Call.name = front ++ first :: back)
    (absent : second ∉ front) {firstOffset secondOffset : Nat}
    (isFirst : IsFirstCall source captures first firstOffset)
    (isSecond : IsFirstCall source captures second secondOffset) :
    firstOffset ≤ secondOffset := by
  have ascending := ascending_allowedCalls (found source captures)
  have members := @mem_allowedCalls_iff source captures
  generalize allowedCalls (found source captures) = calls at divided ascending members
  obtain ⟨early, late, rfl, rfl, rest⟩ := List.map_eq_append_iff.mp divided
  obtain ⟨call, later, rfl, rfl, rfl⟩ := List.map_eq_cons_iff.mp rest
  obtain ⟨capture, captured, calls, start⟩ := members.mp (List.mem_append_right early
    List.mem_cons_self)
  obtain ⟨other, otherCaptured, otherCalls, otherStart⟩ := isSecond.isCall
  have among := members.mpr (⟨other, otherCaptured, otherCalls, otherStart⟩ :
    ∃ capture ∈ captures, Calls source capture (Call.mk secondOffset second).name ∧
      capture.site.node.start = (Call.mk secondOffset second).offset)
  have notLater : call.offset ≤ secondOffset := by
    rcases List.mem_append.mp among with inEarly | inLate
    · exact absurd (List.mem_map_of_mem inEarly) absent
    · rcases List.mem_cons.mp inLate with same | inLater
      · rw [← same]
      · exact (List.pairwise_cons.mp (List.pairwise_append.mp ascending).2.1).1 _ inLater
  exact (start ▸ isFirst.least capture captured calls).trans notLater

theorem nodup_allowedNames (source : Chars) (captures : List Capture) :
    (allowedNames source captures).Nodup :=
  nodup_distinct _

/-- There are as many names that may be listed as different names are called. -/
theorem length_allowedNames (source : Chars) (captures : List Capture) :
    (allowedNames source captures).length =
      {name | ∃ capture ∈ captures, Calls source capture name}.ncard := by
  have same : {name | ∃ capture ∈ captures, Calls source capture name} =
      ((allowedNames source captures).toFinset : Set String) := by
    ext name
    simp only [Set.mem_ofPred_eq, List.coe_toFinset, mem_allowedNames_iff]
  rw [same, Set.ncard_coe_finset, List.toFinset_card_of_nodup (nodup_allowedNames _ _)]

/-- The names that may be listed come in the order of their first calls. -/
theorem ordered_allowedNames (source : Chars) (captures : List Capture) :
    (allowedNames source captures).Pairwise fun first second =>
      ∀ firstOffset secondOffset, IsFirstCall source captures first firstOffset →
        IsFirstCall source captures second secondOffset → firstOffset ≤ secondOffset :=
  (pairwise_distinct _).imp fun ⟨_, _, divided, absent⟩ _ _ isFirst isSecond =>
    isFirst.le_of_precedes divided absent isSecond

end

/-- The calls in a part of a file are listed exactly. Each name in the list is the last segment of
the text of some callee captured in that part; it is not empty, not denied, without blanks at its
ends and without separators. No name is listed twice, and there are as many as different names are
allowed, but no more than twenty. They come in the order in which they are first called, every name
that is left out is first called no earlier than any that is listed, and the list is not empty if
there is an allowed call. -/
theorem ofMatches_exact (file : ParsedFile) (run : Site → List Match)
    (searchable : Catalog.search file .calls = .ok run) (scope : Site) :
    (∀ name ∈ ofMatches file.source (run scope),
      (∃ capture ∈ Extraction.capturesOf run scope, Site.AtOrBelow scope capture.site ∧
        capture.label = "callee" ∧
        IsLastSegment (capture.site.node.text file.source) name.toList) ∧
      name ≠ "" ∧ isDenied name = false ∧
      (∀ character ∈ name.toList.head?, isBlank character = false) ∧
      (∀ character ∈ name.toList.getLast?, isBlank character = false) ∧
      ∀ separator ∈ ["::", "->", ".", "\\"], ¬ separator.toList <:+: name.toList) ∧
    (ofMatches file.source (run scope)).Nodup ∧
    (ofMatches file.source (run scope)).length = min 20
      {name | ∃ capture ∈ Extraction.capturesOf run scope, Calls file.source capture name}.ncard ∧
    (∀ name ∈ ofMatches file.source (run scope),
      ∃ offset, IsFirstCall file.source (Extraction.capturesOf run scope) name offset) ∧
    ((ofMatches file.source (run scope)).Pairwise fun first second =>
      ∀ firstOffset secondOffset,
        IsFirstCall file.source (Extraction.capturesOf run scope) first firstOffset →
        IsFirstCall file.source (Extraction.capturesOf run scope) second secondOffset →
        firstOffset ≤ secondOffset) ∧
    (∀ missing offset,
      IsFirstCall file.source (Extraction.capturesOf run scope) missing offset →
      missing ∉ ofMatches file.source (run scope) →
      ∀ listed ∈ ofMatches file.source (run scope), ∀ listedOffset,
        IsFirstCall file.source (Extraction.capturesOf run scope) listed listedOffset →
        listedOffset ≤ offset) ∧
    ((∃ name, ∃ capture ∈ Extraction.capturesOf run scope, Calls file.source capture name) →
      ofMatches file.source (run scope) ≠ []) := by
  have listed : ofMatches file.source (run scope) =
      (allowedNames file.source (Extraction.capturesOf run scope)).take 20 := kept_found_eq _ _
  have ordered := ordered_allowedNames file.source (Extraction.capturesOf run scope)
  have called {name : String} (member : name ∈
      (allowedNames file.source (Extraction.capturesOf run scope)).take 20) :
      ∃ capture ∈ Extraction.capturesOf run scope, Calls file.source capture name :=
    mem_allowedNames_iff.mp (List.mem_of_mem_take member)
  rw [listed]
  refine ⟨fun name member => ?_, (nodup_allowedNames _ _).sublist (List.take_sublist _ _), ?_,
    fun name member => ?_, ordered.sublist (List.take_sublist _ _),
    fun missing offset isFirst absent => ?_, fun ⟨name, isCalled⟩ => ?_⟩
  · obtain ⟨capture, captured, calls⟩ := called member
    have marks : ["::", "->", ".", "\\"].map String.toList = separators := by decide
    obtain ⟨begins, ends⟩ := calls.segment.trimmed
    refine ⟨⟨capture, captured, Extraction.atOrBelow_of_mem_capturesOf searchable captured,
      calls.label, calls.segment⟩, calls.notEmpty, calls.allowed, begins, ends,
      fun separator isMark => calls.segment.free ?_⟩
    rw [← marks]
    exact List.mem_map_of_mem isMark
  · rw [List.length_take, length_allowedNames]
  · obtain ⟨capture, captured, calls⟩ := called member
    exact exists_isFirstCall captured calls
  · -- What is left out stands behind all that is listed.
    obtain ⟨capture, captured, calls, _⟩ := isFirst.isCall
    have there := mem_allowedNames_iff.mpr ⟨capture, captured, calls⟩
    rw [← List.take_append_drop 20 (allowedNames _ _)] at there ordered
    have leftOut := (List.mem_append.mp there).resolve_left absent
    intro listed isListed listedOffset isFirstListed
    exact (List.pairwise_append.mp ordered).2.2 listed isListed missing leftOut _ _ isFirstListed
      isFirst
  · have there := mem_allowedNames_iff.mpr isCalled
    rw [Ne, List.take_eq_nil_iff]
    rintro (zero | empty)
    · cases zero
    · rw [empty] at there
      cases there

/-- A statement that calls what a node names. -/
def callStatement (callee : Node) : Node :=
  ⟨"expression_statement", none, callee.start, callee.stop + 3,
    [⟨"function_call_expression", none, callee.start, callee.stop + 2,
      [callee, ⟨"arguments", some "arguments", callee.stop, callee.stop + 2, []⟩]⟩]⟩

/-- A script that calls some names more than once, some of them with a prefix, and one that is part
of the language. -/
def plan : ParsedFile where
  language := .php
  source := "<?php\nGeo\\scale();\nprintf();\ndraw();\n$plan->scale();\nGeo\\draw();\nstop();\n".toList
  root :=
    ⟨"program", none, 0, 73,
      [⟨"php_tag", none, 0, 5, []⟩,
        callStatement ⟨"qualified_name", some "function", 6, 15,
          [⟨"namespace_name", some "prefix", 6, 9, [⟨"name", none, 6, 9, []⟩]⟩,
            ⟨"name", none, 10, 15, []⟩]⟩,
        callStatement ⟨"name", some "function", 19, 25, []⟩,
        callStatement ⟨"name", some "function", 29, 33, []⟩,
        ⟨"expression_statement", none, 37, 52,
          [⟨"member_call_expression", none, 37, 51,
            [⟨"variable_name", some "object", 37, 42, [⟨"name", none, 38, 42, []⟩]⟩,
              ⟨"name", some "name", 44, 49, []⟩,
              ⟨"arguments", some "arguments", 49, 51, []⟩]⟩]⟩,
        callStatement ⟨"qualified_name", some "function", 53, 61,
          [⟨"namespace_name", some "prefix", 53, 56, [⟨"name", none, 53, 56, []⟩]⟩,
            ⟨"name", none, 57, 61, []⟩]⟩,
        callStatement ⟨"name", some "function", 65, 69, []⟩]⟩
  hasSyntaxErrors := false

/-- Six calls are captured in the script, and three names are listed, in the order of their first
calls: without their prefixes, each of them once, and without the one that is denied. -/
theorem ofMatches_exact_plan :
    ∃ run, Catalog.search plan .calls = .ok run ∧
      (Extraction.capturesOf run plan.rootSite).map
          (fun capture => String.ofList (capture.site.node.text plan.source)) =
        ["Geo\\scale", "printf", "draw", "scale", "Geo\\draw", "stop"] ∧
      isDenied "printf" = true ∧
      ofMatches plan.source (run plan.rootSite) = ["scale", "draw", "stop"] ∧
      {name | ∃ capture ∈ Extraction.capturesOf run plan.rootSite,
        Calls plan.source capture name}.ncard = 3 := by
  have searchable : Catalog.search plan .calls =
      .ok ((Catalog.query .php .calls).matches plan.source) := rfl
  -- The matches and the calls are in order as they are found, so that sorting leaves them alone.
  have inOrder : (Catalog.query .php .calls).matches plan.source plan.rootSite =
      (Catalog.query .php .calls).matchesByTop plan.source plan.rootSite :=
    List.mergeSort_of_pairwise (by decide +kernel)
  have listed : ofMatches plan.source
      ((Catalog.query .php .calls).matches plan.source plan.rootSite) =
        ["scale", "draw", "stop"] := by
    rw [inOrder, ofMatches, kept, List.mergeSort_of_pairwise (by decide +kernel)]
    decide +kernel
  obtain ⟨_, _, length, _⟩ := ofMatches_exact plan _ searchable plan.rootSite
  refine ⟨_, searchable, ?_, by decide +kernel, listed, ?_⟩
  · rw [Extraction.capturesOf, inOrder]
    decide +kernel
  · rw [listed] at length
    have three : 3 = min 20 _ := length
    omega

end CodeAtlas.Callees
