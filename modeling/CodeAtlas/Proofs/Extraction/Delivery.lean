/-
This file shows that a record does not depend on the order in which matches are delivered, as long
as the captures of a definition leave nothing to be decided by it: what is said once is said in one
way, and what is listed at one place is the same. Lists are gathered in the order of delivery but
read in the order of the source, and repeats are taken away only after that, so the order of
delivery is gone before it could decide which of two equal texts is kept.
-/

import CodeAtlas.Proofs.Extraction.Apart
import CodeAtlas.Proofs.Text.Sorting

namespace CodeAtlas

open Text

/-! ### Deliveries -/

/-- An answer that fails as another does, or finds below every site what the other finds, in some
order. -/
inductive Catalog.Redelivers : Except String (Site → List Match) →
    Except String (Site → List Match) → Prop
  | failed (message : String) : Redelivers (.error message) (.error message)
  | found {other run : Site → List Match} (perm : ∀ site, (other site).Perm (run site)) :
    Redelivers (.ok other) (.ok run)

namespace Extraction

open Catalog

/-- The labels whose text a definition takes once. The names of an import are listed. -/
def scalarLabels : Category → List String
  | .imports => ["params", "return_type"]
  | _ => ["name", "params", "return_type"]

/-- The lists of a definition. -/
inductive Listing where
  | bases
  | names
  | modules

/-- The list that the captures with a label feed. -/
def listing? (category : Category) : String → Option Listing
  | "bases" => some .bases
  | "module" => some .modules
  | "wildcard" => some .names
  | "name" =>
    match category with
    | .imports => some .names
    | _ => none
  | _ => none

/-- Whether some captures of one definition agree: those of one label that is taken once have one
text, there is one body, and what feeds one list from one place has one label and one text. -/
structure Agree (category : Category) (source : Chars) (belongs : Capture → Prop) : Prop where
  texts : ∀ first second, belongs first → belongs second → first.label = second.label →
    first.label ∈ scalarLabels category →
    first.site.node.text source = second.site.node.text source
  bodies : ∀ first second, belongs first → belongs second → first.label = "body" →
    second.label = "body" → first.site = second.site
  listed : ∀ first second, belongs first → belongs second → ∀ listing,
    listing? category first.label = some listing →
    listing? category second.label = some listing →
    first.site.node.start = second.site.node.start →
    first.label = second.label ∧
      first.site.node.text source = second.site.node.text source

/-- Whether nothing in a file is left to the order of delivery. -/
structure Unambiguous (file : ParsedFile) : Prop where
  apart : DefinitionsApart file
  agree : ∀ category run, Catalog.search file category = .ok run → ∀ owner : Site,
    Agree category file.source fun capture => capture ∈ capturesOf run file.rootSite ∧
      Site.IsOwner category.definitionKinds owner capture.site
  callees : ∀ run, Catalog.search file .calls = .ok run →
    ∀ first ∈ capturesOf run file.rootSite, ∀ second ∈ capturesOf run file.rootSite,
      first.label = "callee" → second.label = "callee" →
      first.site.node.start = second.site.node.start →
      first.site.node.text file.source = second.site.node.text file.source

/-! ### Lists in the order of the source -/

/-- A list in the order of the source. -/
def ordered (items : List Placed) : List Placed :=
  items.mergeSort (byNumber Placed.offset)

/-- The draft with its lists in the order of the source. -/
def Draft.settled (draft : Draft) : Draft :=
  { draft with
    bases := ordered draft.bases
    names := ordered draft.names
    modules := ordered draft.modules }

theorem inSourceOrder_ordered (items : List Placed) :
    inSourceOrder (ordered items) = inSourceOrder items := by
  have sorted : ordered (ordered items) = ordered items := List.mergeSort_of_pairwise
    (List.pairwise_mergeSort (byNumber_trans Placed.offset) (byNumber_total _) items)
  show distinct ((ordered (ordered items)).map _) = _
  rw [sorted]
  rfl

section Settled

variable (options : AnalysisOptions) (style : DocStyle) (source : Chars)
  (calls : Option (Site → List Match)) (draft : Draft)

theorem importsOf_settled : importsOf source draft.settled = importsOf source draft := by
  simp only [importsOf, Draft.settled, inSourceOrder_ordered]

theorem classOf?_settled :
    classOf? options style source draft.settled = classOf? options style source draft := by
  simp only [classOf?, Draft.settled, inSourceOrder_ordered]
  rfl

theorem functionOf?_settled :
    functionOf? options style source calls draft.settled =
      functionOf? options style source calls draft := rfl

end Settled

/-! ### Captures of one definition -/

section Captures

variable {category : Category} {source : Chars} {first second : List Capture}

/-- What captures that agree say once is the same in whichever order they come, if it is read off
the text of a label that is taken once. -/
theorem findSome?_eq_of_agree {Value : Type} {give : Capture → Option Value} {label : String}
    (agree : Agree category source (· ∈ first)) (perm : first.Perm second)
    (labelled : ∀ capture value, give capture = some value →
      capture.label = label ∧ label ∈ scalarLabels category)
    (read : ∀ one other : Capture, one.label = other.label →
      one.site.node.text source = other.site.node.text source → give one = give other) :
    first.findSome? give = second.findSome? give := by
  refine findSome?_eq_of_perm perm fun one oneMember other otherMember found there gives
    givesToo => ?_
  obtain ⟨oneLabel, scalar⟩ := labelled one found gives
  obtain ⟨otherLabel, _⟩ := labelled other there givesToo
  have sameLabel : one.label = other.label := oneLabel.trans otherLabel.symm
  have text := agree.texts one other oneMember otherMember sameLabel (oneLabel ▸ scalar)
  rw [← Option.some.injEq, ← gives, ← givesToo, read one other sameLabel text]

/-- What captures that agree list is read in the same way in whichever order they come, if what
each of them lists is read off its text and stands where it stands. -/
theorem ordered_flatMap_eq_of_agree {give : Capture → List Placed} {listing : Listing}
    (agree : Agree category source (· ∈ first)) (perm : first.Perm second)
    (placed : ∀ capture, ∀ item ∈ give capture, item.offset = capture.site.node.start ∧
      listing? category capture.label = some listing)
    (read : ∀ one other : Capture, one.label = other.label →
      one.site.node.start = other.site.node.start →
      one.site.node.text source = other.site.node.text source → give one = give other) :
    ordered (first.flatMap give) = ordered (second.flatMap give) := by
  -- Captures of one place may list several texts, so equal places do not make equal items; but the
  -- items of one place come in the same order from whichever capture they come.
  refine mergeSort_eq_of_filter_alike (byNumber_trans Placed.offset)
    (byNumber_total Placed.offset) fun key => ?_
  rw [List.filter_flatMap, List.filter_flatMap]
  have here {capture : Capture}
      (gives : (give capture).filter (alike (byNumber Placed.offset) key) ≠ []) :
      capture.site.node.start = key.offset ∧
        listing? category capture.label = some listing := by
    obtain ⟨item, member⟩ := List.exists_mem_of_ne_nil _ gives
    obtain ⟨isGiven, isAlike⟩ := List.mem_filter.mp member
    obtain ⟨offset, listed⟩ := placed capture item isGiven
    exact ⟨offset.symm.trans ((alike_byNumber_iff _).mp isAlike).symm, listed⟩
  refine flatMap_eq_of_perm perm fun one oneMember other otherMember oneGives otherGives => ?_
  obtain ⟨oneHere, oneListed⟩ := here oneGives
  obtain ⟨otherHere, otherListed⟩ := here otherGives
  have sameStart := oneHere.trans otherHere.symm
  obtain ⟨label, text⟩ := agree.listed one other oneMember otherMember listing oneListed
    otherListed sameStart
  rw [read one other label sameStart text]

theorem label_of_namedBy?_eq_some {capture : Capture} {name : Chars}
    (named : namedBy? category source capture = some name) :
    capture.label = "name" ∧ "name" ∈ scalarLabels category := by
  have label := label_of_namedBy? named
  refine ⟨label, ?_⟩
  cases category with
  | imports =>
    rw [namedBy?, if_pos label] at named
    cases named
  | classes => decide
  | functions => decide
  | calls => decide

theorem params_mem_scalarLabels : "params" ∈ scalarLabels category := by
  cases category <;> decide

theorem returnType_mem_scalarLabels : "return_type" ∈ scalarLabels category := by
  cases category <;> decide

theorem placed_basesBy {capture : Capture} {item : Placed}
    (member : item ∈ basesBy source capture) :
    item.offset = capture.site.node.start ∧ listing? category capture.label = some .bases := by
  unfold basesBy at member
  split at member
  · next label =>
    obtain ⟨base, _, rfl⟩ := List.mem_map.mp member
    exact ⟨rfl, by rw [label]; rfl⟩
  · cases member

theorem placed_namesBy {capture : Capture} {item : Placed}
    (member : item ∈ namesBy category source capture) :
    item.offset = capture.site.node.start ∧ listing? category capture.label = some .names := by
  unfold namesBy at member
  split at member
  · next label =>
    cases category with
    | imports =>
      cases List.mem_singleton.mp member
      exact ⟨rfl, by rw [label]; rfl⟩
    | classes => cases member
    | functions => cases member
    | calls => cases member
  · split at member
    · next label =>
      cases List.mem_singleton.mp member
      exact ⟨rfl, by rw [label]; rfl⟩
    · cases member

theorem placed_modulesBy {capture : Capture} {item : Placed}
    (member : item ∈ modulesBy source capture) :
    item.offset = capture.site.node.start ∧ listing? category capture.label = some .modules := by
  unfold modulesBy at member
  split at member
  · next label =>
    dsimp only at member
    split at member
    · cases member
    · rw [List.mem_singleton] at member
      exact ⟨by rw [member], by rw [label]; rfl⟩
  · cases member

/-- Captures of a definition that agree make the same of it in whichever order they come, up to
the order of its lists. -/
theorem settled_addAll_eq_of_agree (agree : Agree category source (· ∈ first))
    (perm : first.Perm second) (site : Site) :
    (Draft.addAll category source { site } first).settled =
      (Draft.addAll category source { site } second).settled := by
  have name : first.findSome? (namedBy? category source) =
      second.findSome? (namedBy? category source) :=
    findSome?_eq_of_agree agree perm (fun _ _ => label_of_namedBy?_eq_some)
      fun one other label text => by rw [namedBy?, namedBy?, label, text]
  have parameters : first.findSome? (parametersBy? source) =
      second.findSome? (parametersBy? source) :=
    findSome?_eq_of_agree agree perm
      (fun _ _ gives => ⟨(Option.ite_some_none_eq_some.mp gives).1, params_mem_scalarLabels⟩)
      fun one other label text => by rw [parametersBy?, parametersBy?, label, text]
  have returnType : first.findSome? (returnTypeBy? source) =
      second.findSome? (returnTypeBy? source) :=
    findSome?_eq_of_agree agree perm
      (fun _ _ gives => ⟨(Option.ite_some_none_eq_some.mp gives).1, returnType_mem_scalarLabels⟩)
      fun one other label text => by rw [returnTypeBy?, returnTypeBy?, label, text]
  have body : first.findSome? bodyBy? = second.findSome? bodyBy? := by
    refine findSome?_eq_of_perm perm fun one oneMember other otherMember found there gives
      givesToo => ?_
    obtain ⟨oneLabel, rfl⟩ := Option.ite_some_none_eq_some.mp gives
    obtain ⟨otherLabel, rfl⟩ := Option.ite_some_none_eq_some.mp givesToo
    exact agree.bodies one other oneMember otherMember oneLabel otherLabel
  have bases : ordered (first.flatMap (basesBy source)) =
      ordered (second.flatMap (basesBy source)) :=
    ordered_flatMap_eq_of_agree agree perm (fun _ _ => placed_basesBy)
      fun one other label start text => by rw [basesBy, basesBy, label, start, text]
  have names : ordered (first.flatMap (namesBy category source)) =
      ordered (second.flatMap (namesBy category source)) :=
    ordered_flatMap_eq_of_agree agree perm (fun _ _ => placed_namesBy)
      fun one other label start text => by simp only [namesBy, label, start, text]
  have modules : ordered (first.flatMap (modulesBy source)) =
      ordered (second.flatMap (modulesBy source)) :=
    ordered_flatMap_eq_of_agree agree perm (fun _ _ => placed_modulesBy)
      fun one other label start text => by rw [modulesBy, modulesBy, label, start, text]
  simp only [Draft.settled, Draft.addAll, Option.none_or, List.nil_append, name, parameters,
    returnType, body, bases, names, modules]

end Captures

/-! ### Drafts -/

theorem Agree.mono {category : Category} {source : Chars} {belongs among : Capture → Prop}
    (agree : Agree category source among) (all : ∀ capture, belongs capture → among capture) :
    Agree category source belongs where
  texts first second firstBelongs secondBelongs :=
    agree.texts first second (all first firstBelongs) (all second secondBelongs)
  bodies first second firstBelongs secondBelongs :=
    agree.bodies first second (all first firstBelongs) (all second secondBelongs)
  listed first second firstBelongs secondBelongs :=
    agree.listed first second (all first firstBelongs) (all second secondBelongs)

theorem ascending_settled {drafts : List Draft} (ascending : Ascending drafts) :
    Ascending (drafts.map Draft.settled) :=
  List.pairwise_map.mpr ascending

theorem draftAt?_settled (offset : Nat) (drafts : List Draft) :
    draftAt? offset (drafts.map Draft.settled) =
      (draftAt? offset drafts).map Draft.settled := by
  rw [draftAt?, List.find?_map]
  rfl

section Drafts

variable {file : ParsedFile} (unambiguous : Unambiguous file) {category : Category}
  {run other : Site → List Match} (usable : Catalog.search file category = .ok run)
  (perm : ∀ site, (other site).Perm (run site))

include unambiguous usable perm

/-- Where nothing is left to the order of delivery, the drafts of a category are the same up to the
order of their lists. -/
theorem settled_draftsBy :
    (draftsBy other file category).map Draft.settled =
      (draftsBy run file category).map Draft.settled := by
  refine Ascending.ext (ascending_settled (ascending_gather category file.source _))
    (ascending_settled (ascending_gather category file.source _)) fun offset => ?_
  have captured : (capturesOf other file.rootSite).Perm (capturesOf run file.rootSite) :=
    (perm file.rootSite).flatMap_right _
  have pairs : (ownedAt category (capturesOf other file.rootSite) offset).Perm
      (ownedAt category (capturesOf run file.rootSite) offset) :=
    (captured.filterMap _).filter _
  have inFile : ∀ capture ∈ capturesOf run file.rootSite,
      Site.AtOrBelow file.rootSite capture.site := fun _ => atOrBelow_of_mem_capturesOf usable
  have inFileToo : ∀ capture ∈ capturesOf other file.rootSite,
      Site.AtOrBelow file.rootSite capture.site :=
    fun capture member => inFile capture (captured.mem_iff.mp member)
  rw [draftAt?_settled, draftAt?_settled, draftsBy, draftsBy, draftAt?_gather_eq,
    draftAt?_gather_eq]
  cases owned : ownedAt category (capturesOf run file.rootSite) offset with
  | nil =>
    rw [owned] at pairs
    rw [definitionAt?, definitionAt?, pairs.eq_nil, owned]
  | cons pair rest =>
    have member : pair ∈ ownedAt category (capturesOf run file.rootSite) offset :=
      owned ▸ List.mem_cons_self
    rw [definitionAt?_of_mem_ownedAt unambiguous.apart inFile member,
      definitionAt?_of_mem_ownedAt unambiguous.apart inFileToo (pairs.mem_iff.mpr member),
      ← owned]
    refine congrArg some (settled_addAll_eq_of_agree (Agree.mono
      (unambiguous.agree category run usable pair.1) fun capture isOwned => ?_)
      (pairs.map Prod.snd) pair.1)
    obtain ⟨holding, holdingMember, rfl⟩ := List.mem_map.mp isOwned
    have inRun := pairs.mem_iff.mp holdingMember
    obtain ⟨captured, _, isOwner, _⟩ := mem_ownedAt_iff.mp inRun
    rw [owner_eq_of_mem_ownedAt unambiguous.apart inFile member inRun]
    exact ⟨captured, isOwner⟩

end Drafts

/-! ### Calls -/

theorem exists_of_mem_found {source : Chars} {captures : List Capture} {call : Callees.Call}
    (member : call ∈ Callees.found source captures) :
    ∃ capture ∈ captures, capture.label = "callee" ∧
      call = ⟨capture.site.node.start,
        String.ofList (Callees.lastSegment (capture.site.node.text source))⟩ := by
  obtain ⟨capture, captured, gives⟩ := List.mem_filterMap.mp member
  split at gives
  · next label =>
    dsimp only at gives
    split at gives
    · cases gives
    · exact ⟨capture, captured, label, (Option.some.inj gives).symm⟩
  · cases gives

/-- The names called in some matches do not depend on the order of the matches if at one place one
name is called. -/
theorem ofMatches_eq_of_perm {source : Chars} {first second : List Match}
    (perm : first.Perm second)
    (same : ∀ one ∈ first.flatMap Match.captures, ∀ other ∈ first.flatMap Match.captures,
      one.label = "callee" → other.label = "callee" →
      one.site.node.start = other.site.node.start →
      one.site.node.text source = other.site.node.text source) :
    Callees.ofMatches source first = Callees.ofMatches source second := by
  have calls : (Callees.found source (first.flatMap Match.captures)).Perm
      (Callees.found source (second.flatMap Match.captures)) :=
    (perm.flatMap_right _).filterMap _
  have sorted (calls : List Callees.Call) :=
    List.pairwise_mergeSort (byNumber_trans Callees.Call.offset) (byNumber_total _) calls
  have ordered : (Callees.found source (first.flatMap Match.captures)).mergeSort
      (byNumber Callees.Call.offset) =
        (Callees.found source (second.flatMap Match.captures)).mergeSort
          (byNumber Callees.Call.offset) := by
    refine List.Perm.eq_of_pairwise ?_ (sorted _) (sorted _)
      ((List.mergeSort_perm _ _).trans (calls.trans (List.mergeSort_perm _ _).symm))
    intro one other oneMember otherMember before after
    rw [List.mem_mergeSort] at oneMember otherMember
    obtain ⟨here, hereCaptured, hereLabel, rfl⟩ := exists_of_mem_found oneMember
    obtain ⟨there, thereCaptured, thereLabel, rfl⟩ :=
      exists_of_mem_found (calls.mem_iff.mpr otherMember)
    have start : here.site.node.start = there.site.node.start :=
      Nat.le_antisymm (of_decide_eq_true before) (of_decide_eq_true after)
    rw [same here hereCaptured there thereCaptured hereLabel thereLabel start, start]
  exact congrArg (fun calls : List Callees.Call =>
    (distinct ((calls.map Callees.Call.name).filter fun name => !Callees.isDenied name)).take
      maxCalls) ordered

/-! ### Records -/

section Records

variable {file : ParsedFile} (unambiguous : Unambiguous file) {other : Catalog.Search}
  (redelivers : ∀ category, Redelivers (other category) (Catalog.search file category))

include unambiguous redelivers

theorem imports_redelivered : imports other file = imports (Catalog.search file) file := by
  have answer := redelivers .imports
  unfold imports draftsOf
  generalize other .imports = delivered, usable : Catalog.search file .imports = found at answer ⊢
  cases answer with
  | failed message => rfl
  | found perm =>
    have drafts := congrArg (List.flatMap (importsOf file.source))
      (settled_draftsBy unambiguous usable perm)
    simp only [List.flatMap_map, importsOf_settled] at drafts
    exact congrArg (([] : List String), ·) drafts

theorem classes_redelivered (options : AnalysisOptions) :
    classes other options file = classes (Catalog.search file) options file := by
  have answer := redelivers .classes
  unfold classes draftsOf
  generalize other .classes = delivered, usable : Catalog.search file .classes = found at answer ⊢
  cases answer with
  | failed message => rfl
  | found perm =>
    have drafts := congrArg (List.filterMap (classOf? options file.language.docStyle file.source))
      (settled_draftsBy unambiguous usable perm)
    simp only [List.filterMap_map, Function.comp_def, classOf?_settled] at drafts
    exact congrArg (([] : List String), ·) drafts

omit redelivers in
/-- The calls of a function are the same in whichever order they are delivered. -/
theorem functionOf?_redelivered {run calls delivered : Site → List Match}
    (usable : Catalog.search file .functions = .ok run)
    (callsUsable : Catalog.search file .calls = .ok calls)
    (perm : ∀ site, (delivered site).Perm (calls site)) (options : AnalysisOptions)
    (style : DocStyle) {draft : Draft} (member : draft ∈ draftsBy run file .functions) :
    functionOf? options style file.source (some delivered) draft =
      functionOf? options style file.source (some calls) draft := by
  have inScope := scope_mem_file usable member
  have names : Callees.ofMatches file.source (delivered (draft.body.getD draft.site)) =
      Callees.ofMatches file.source (calls (draft.body.getD draft.site)) := by
    refine (ofMatches_eq_of_perm (perm _).symm fun one oneMember two twoMember => ?_).symm
    exact unambiguous.callees calls callsUsable
      one (mem_capturesOf_of_atOrBelow callsUsable inScope oneMember)
      two (mem_capturesOf_of_atOrBelow callsUsable inScope twoMember)
  simp only [functionOf?, names]

theorem functions_redelivered (options : AnalysisOptions) :
    functions other options file = functions (Catalog.search file) options file := by
  have answer := redelivers .functions
  have calls := redelivers .calls
  unfold functions draftsOf
  generalize other .functions = delivered, usable : Catalog.search file .functions = found
    at answer ⊢
  cases answer with
  | failed message => rfl
  | @found delivered run perm =>
    have drafts (calls : Option (Site → List Match)) := congrArg (List.filterMap
      (functionOf? options file.language.docStyle file.source calls))
      (settled_draftsBy unambiguous usable perm)
    simp only [List.filterMap_map, Function.comp_def, functionOf?_settled] at drafts
    generalize other .calls = deliveredCalls, callsUsable : Catalog.search file .calls = foundCalls
      at calls ⊢
    cases calls with
    | failed message => exact congrArg ([message], ·) (drafts none)
    | found callsPerm =>
      refine congrArg (([] : List String), ·) ((drafts _).trans ?_)
      exact List.filterMap_congr fun draft member =>
        functionOf?_redelivered unambiguous usable callsUsable callsPerm options _ member

end Records

/-- A record does not depend on the order in which the matches of any search are delivered, in a
file where nothing is left to that order. -/
theorem recordBy_redelivered (options : AnalysisOptions) (path : String) (file : ParsedFile)
    (other : Catalog.Search)
    (redelivers : ∀ category, Redelivers (other category) (Catalog.search file category))
    (unambiguous : Unambiguous file) :
    recordBy other options path file = record options path file := by
  rw [record, recordBy, recordBy, imports_redelivered unambiguous redelivers,
    classes_redelivered unambiguous redelivers, functions_redelivered unambiguous redelivers]

/-- A class with a base. -/
def disc : ParsedFile where
  language := .python
  source := "class Disc(Shape):\n    pass\n".toList
  root :=
    ⟨"module", none, 0, 28,
      [⟨"class_definition", none, 0, 27,
        [⟨"identifier", some "name", 6, 10, []⟩,
          ⟨"argument_list", some "superclasses", 10, 17, [⟨"identifier", none, 11, 16, []⟩]⟩,
          ⟨"block", some "body", 23, 27, [⟨"pass_statement", none, 23, 27, []⟩]⟩]⟩]⟩
  hasSyntaxErrors := false

/-- A search that delivers its matches last to first. -/
def reversed (search : Catalog.Search) : Catalog.Search := fun category =>
  (search category).map fun run site => (run site).reverse

theorem redelivers_reversed (search : Catalog.Search) (category : Category) :
    Redelivers (reversed search category) (search category) := by
  unfold reversed
  cases search category with
  | error message => exact .failed message
  | ok run => exact .found fun site => List.reverse_perm (run site)

theorem search_disc (category : Category) : Catalog.search disc category =
    .ok ((Catalog.query .python category).matches disc.source) := by
  cases category <;> rfl

/-- No two captures in the class have one label or begin at one byte. -/
theorem captures_disc {category : Category} {run : Site → List Match}
    (usable : Catalog.search disc category = .ok run) {first second : Capture}
    (firstMember : first ∈ capturesOf run disc.rootSite)
    (secondMember : second ∈ capturesOf run disc.rootSite)
    (same : first.label = second.label ∨ first.site.node.start = second.site.node.start) :
    first = second := by
  have labels : ((((Catalog.query .python category).matchesByTop disc.source
      disc.rootSite).flatMap Match.captures).map Capture.label).Nodup := by
    cases category <;> decide +kernel
  have starts : ((((Catalog.query .python category).matchesByTop disc.source
      disc.rootSite).flatMap Match.captures).map fun capture => capture.site.node.start).Nodup := by
    cases category <;> decide +kernel
  have perm : (capturesOf ((Catalog.query .python category).matches disc.source)
      disc.rootSite).Perm _ := (List.mergeSort_perm _ _).flatMap_right Match.captures
  cases (search_disc category).symm.trans usable
  rcases same with same | same
  · exact List.inj_on_of_nodup_map labels (perm.mem_iff.mp firstMember)
      (perm.mem_iff.mp secondMember) same
  · exact List.inj_on_of_nodup_map starts (perm.mem_iff.mp firstMember)
      (perm.mem_iff.mp secondMember) same

theorem unambiguous_disc : Unambiguous disc where
  apart := definitionsApart_of_nodup fun category => by cases category <;> decide +kernel
  agree category run usable owner := {
    texts := fun first second firstBelongs secondBelongs same _ => by
      rw [captures_disc usable firstBelongs.1 secondBelongs.1 (.inl same)]
    bodies := fun first second firstBelongs secondBelongs label labelToo => by
      rw [captures_disc usable firstBelongs.1 secondBelongs.1 (.inl (label.trans labelToo.symm))]
    listed := fun first second firstBelongs secondBelongs _ _ _ same => by
      rw [captures_disc usable firstBelongs.1 secondBelongs.1 (.inr same)]
      exact ⟨rfl, rfl⟩ }
  callees run usable first firstMember second secondMember _ _ same := by
    rw [captures_disc usable firstMember secondMember (.inr same)]

theorem recordBy_redelivered_disc :
    (∀ category, Redelivers (reversed (Catalog.search disc) category)
      (Catalog.search disc category)) ∧
      Unambiguous disc ∧
      recordBy (reversed (Catalog.search disc)) {} "disc.py" disc = record {} "disc.py" disc := by
  have redelivers := redelivers_reversed (Catalog.search disc)
  exact ⟨redelivers, unambiguous_disc,
    recordBy_redelivered {} "disc.py" disc _ redelivers unambiguous_disc⟩

end Extraction

end CodeAtlas
