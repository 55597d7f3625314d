/-
This file reads one tree as JavaScript and as TypeScript. The queries of TypeScript are those of
JavaScript with further rules behind them, and the further rules add without taking away: they
capture return types of functions that are found in any case, and they capture names and bases for
definitions of their own, interfaces and abstract classes, which JavaScript does not have. So the
imports are the same, the functions are the same but for their return types, and every class is
found again. With more classes around, a function can only become a method that was none before.
Trees come from a grammar, of which only the kinds of nodes that it lets be names of classes matter.
-/

import CodeAtlas.Proofs.Extraction.Apart
import CodeAtlas.Proofs.Query.Extension

namespace CodeAtlas

open Text

/-- The file read as a source in another language. -/
def ParsedFile.readAs (file : ParsedFile) (language : Language) : ParsedFile :=
  { file with language }

/-- Whether every query that serves a language can be used with its grammar. -/
def ParsedFile.Serves (file : ParsedFile) (language : Language) : Prop :=
  ∀ category, Catalog.usable (file.grammars language) language category =
    .ok (Catalog.query language category)

theorem Catalog.search_readAs {file : ParsedFile} {language : Language}
    (serves : file.Serves language) (category : Category) :
    search (file.readAs language) category =
      .ok ((query language category).matches file.source) := by
  have usable : Catalog.usable ((file.readAs language).grammars (file.readAs language).language)
      (file.readAs language).language category = .ok (query language category) := serves category
  rw [search, usable]
  rfl

/-- What the node types of a grammar say of its trees: which kinds of children the nodes of a kind
have in a role. The grammars themselves are no part of this library. -/
structure NodeTypes where
  allows : String → String → String → Bool

/-- Whether the names of classes are what the node types of both languages say: an `identifier` in
JavaScript, a `type_identifier` in TypeScript. -/
def NodeTypes.NameClasses (types : NodeTypes) : Prop :=
  ∀ kind, types.allows "class_declaration" "name" kind = true →
    kind ∈ ["identifier", "type_identifier"]

/-- Whether a tree is well formed for a grammar: every child that has a role is of a kind that the
node types allow there. -/
def ParsedFile.Follows (file : ParsedFile) (types : NodeTypes) : Prop :=
  ∀ site, Site.AtOrBelow file.rootSite site → ∀ child ∈ site.children, ∀ role,
    child.node.field = some role → types.allows site.node.kind role child.node.kind = true

/-- The function without its return type. -/
def Function.untyped (function : Function) : Function :=
  { function with returnType := "" }

/-- The function without its return type, wherever it belongs. -/
def Function.bare (function : Function) : Function :=
  { function with returnType := "", isMethod := false }

namespace Extraction

open Ownership

/-! ### What the rules of TypeScript add -/

/-- The kinds of definition that only the rules of TypeScript ask for. -/
def typedKinds : List String :=
  ["abstract_class_declaration", "interface_declaration"]

theorem functions_typeScript : ∃ further, Functions.typeScript = Functions.javaScript ++ further ∧
    ∀ rule ∈ further, rule.pattern.writtenLabels = ["return_type"] :=
  ⟨_, rfl, by decide⟩

theorem classes_typeScript : ∃ further, Classes.typeScript = Classes.javaScript ++ further ∧
    ∀ rule ∈ further, rule.pattern.isShallow Category.classes.definitionKinds = true ∧
      rule.pattern.kind.any (· ∈ typedKinds) = true :=
  ⟨_, rfl, by decide⟩

theorem typedKinds_subset : typedKinds ⊆ Category.classes.definitionKinds := by
  decide

/-- The captures of a query in a file. -/
def captured (file : ParsedFile) (query : Query) : List Capture :=
  capturesOf (query.matches file.source) file.rootSite

/-- Whether a capture says anything but a return type. -/
def saysMore (capture : Capture) : Bool :=
  capture.label ≠ "return_type"

/-- Whether a capture belongs to a definition that JavaScript has. -/
def isUntyped (capture : Capture) : Bool :=
  (capture.site.owner? Category.classes.definitionKinds).any fun owner =>
    owner.node.kind ∉ typedKinds

section Files

variable (file : ParsedFile)

variable {file} in
/-- Every capture of a query is one to which a rule leads at a site of the file. -/
theorem exists_captures_of_mem_captured {query : Query} {capture : Capture}
    (member : capture ∈ captured file query) :
    ∃ rule ∈ query, ∃ site, Site.AtOrBelow file.rootSite site ∧
      rule.pattern.Captures site capture := by
  obtain ⟨found, foundMember, member⟩ := List.mem_flatMap.mp member
  exact Query.exists_captures_of_mem_matches foundMember member

theorem inFile_captured (query : Query) :
    ∀ capture ∈ captured file query, Site.AtOrBelow file.rootSite capture.site := by
  intro capture member
  obtain ⟨_, _, _, inFile, captures⟩ := exists_captures_of_mem_captured member
  exact inFile.trans captures.atOrBelow

/-- But for return types, the rules of TypeScript capture of functions what those of JavaScript
do. -/
theorem filter_captured_functions :
    (captured file Functions.typeScript).filter saysMore = captured file Functions.javaScript := by
  obtain ⟨further, behind, labels⟩ := functions_typeScript
  have none : ∀ rule ∈ Functions.javaScript, "return_type" ∉ rule.pattern.writtenLabels := by
    decide
  rw [behind, captured, capturesOf, Query.filter_captures_append]
  · refine List.filter_eq_self.mpr fun capture member => ?_
    obtain ⟨rule, isRule, _, _, captures⟩ := exists_captures_of_mem_captured member
    refine decide_eq_true fun label => none rule isRule ?_
    exact label ▸ captures.label_mem
  · intro rule isRule site capture captures
    have label := captures.label_mem
    rw [labels rule isRule, List.mem_singleton] at label
    rw [saysMore, label]
    rfl

/-- Of the classes that JavaScript has, the rules of TypeScript capture what those of JavaScript
do. -/
theorem filter_captured_classes :
    (captured file Classes.typeScript).filter isUntyped =
      (captured file Classes.javaScript).filter isUntyped := by
  obtain ⟨further, behind, asked⟩ := classes_typeScript
  rw [behind, captured, capturesOf, Query.filter_captures_append]
  · rfl
  · intro rule isRule site capture captures
    obtain ⟨shallow, typed⟩ := asked rule isRule
    rw [Option.any_eq_true] at typed
    obtain ⟨kind, definite, isTyped⟩ := typed
    have fits := captures.fits
    rw [definite, Node.fits_some_iff] at fits
    rw [isUntyped, captures.owner?_eq shallow]
    cases owned : site.owner? Category.classes.definitionKinds with
    | none => rfl
    | some owner =>
      have isKind : site.node.kind ∈ Category.classes.definitionKinds :=
        typedKinds_subset (fits ▸ of_decide_eq_true isTyped)
      rw [Site.eq_of_owner?_of_mem isKind owned, Option.any_some, fits]
      simpa using isTyped

end Files

/-! ### Functions -/

/-- The draft without its return type. -/
def Draft.untyped (draft : Draft) : Draft :=
  { draft with returnType := none }

/-- Without its return type, a draft is made of the captures that say more. -/
theorem untyped_addAll (category : Category) (source : Chars) (site : Site)
    (captures : List Capture) :
    (Draft.addAll category source { site } captures).untyped =
      Draft.addAll category source { site } (captures.filter saysMore) := by
  have label {capture : Capture} (silent : saysMore capture = false) :
      capture.label = "return_type" := by
    simpa [saysMore] using silent
  have name := findSome?_filter_of_silent (namedBy? category source)
    (fun _ silent => namedBy?_of_ne (by rw [label silent]; decide)) captures
  have parameters := findSome?_filter_of_silent (parametersBy? source)
    (fun _ silent => if_neg (by rw [label silent]; decide)) captures
  have body := findSome?_filter_of_silent bodyBy?
    (fun _ silent => if_neg (by rw [label silent]; decide)) captures
  have bases := flatMap_filter_of_silent (basesBy source)
    (fun _ silent => if_neg (by rw [label silent]; decide)) captures
  have names := flatMap_filter_of_silent (namesBy category source)
    (fun _ silent => (if_neg (by rw [label silent]; decide)).trans
      (if_neg (by rw [label silent]; decide))) captures
  have modules := flatMap_filter_of_silent (modulesBy source)
    (fun _ silent => if_neg (by rw [label silent]; decide)) captures
  have returnType : (captures.filter saysMore).findSome? (returnTypeBy? source) = none :=
    List.findSome?_eq_none_iff.mpr fun capture member =>
      if_neg (of_decide_eq_true (List.mem_filter.mp member).2)
  simp only [Draft.untyped, Draft.addAll, name, parameters, body, bases, names, modules,
    returnType, Option.none_or]

theorem functionOf?_untyped (options : AnalysisOptions) (style : DocStyle) (source : Chars)
    (calls : Option (Site → List Match)) (draft : Draft) :
    functionOf? options style source calls draft.untyped =
      (functionOf? options style source calls draft).map Function.untyped := by
  have nothing : signatureText options none = "" := by
    unfold signatureText
    split <;> rfl
  unfold functionOf?
  rw [Option.map_map]
  refine congrArg (Option.map · draft.name) (funext fun text => ?_)
  show Function.mk _ _ (signatureText options none) _ _ _ _ _ _ _ = _
  rw [nothing]
  rfl

section Readings

variable {file : ParsedFile} (plainly : file.Serves .javaScript) (typed : file.Serves .typeScript)
  (apart : DefinitionsApart file)

include apart

/-- What is made of the drafts of functions, apart from their return types, is the same for both
languages, if nothing is made of drafts without names. -/
theorem draftAt?_functions {Part : Type} {make : Draft → Option Part}
    (unnamed : ∀ draft, draft.name = none → make draft = none) (offset : Nat) :
    ((draftAt? offset (gather .functions file.source (captured file Functions.typeScript))).bind
        fun draft => make draft.untyped) =
      (draftAt? offset (gather .functions file.source
        (captured file Functions.javaScript))).bind make := by
  have pairs : ownedAt .functions (captured file Functions.javaScript) offset =
      (ownedAt .functions (captured file Functions.typeScript) offset).filter fun pair =>
        saysMore pair.2 := by
    rw [← ownedAt_filter, filter_captured_functions]
  have untyped (site : Site) : (Draft.addAll .functions file.source { site }
      ((ownedAt .functions (captured file Functions.typeScript) offset).map Prod.snd)).untyped =
        Draft.addAll .functions file.source { site }
          ((ownedAt .functions (captured file Functions.javaScript) offset).map Prod.snd) := by
    rw [untyped_addAll, List.filter_map, pairs]
    rfl
  rw [draftAt?_gather_eq, draftAt?_gather_eq, Option.bind_map, Option.bind_map]
  cases owned : ownedAt .functions (captured file Functions.javaScript) offset with
  | nil =>
    have nothing : definitionAt? .functions (captured file Functions.javaScript) offset = none := by
      rw [definitionAt?, owned]
      rfl
    rw [nothing]
    -- Nothing but return types can be owned here, and they name no function.
    refine Option.bind_eq_none_iff.mpr fun site _ => unnamed _ ?_
    rw [untyped, owned]
    rfl
  | cons pair rest =>
    have member : pair ∈ ownedAt .functions (captured file Functions.javaScript) offset :=
      owned ▸ List.mem_cons_self
    have memberToo : pair ∈ ownedAt .functions (captured file Functions.typeScript) offset := by
      rw [pairs] at member
      exact (List.mem_filter.mp member).1
    rw [definitionAt?_of_mem_ownedAt apart (inFile_captured file _) member,
      definitionAt?_of_mem_ownedAt apart (inFile_captured file _) memberToo, ← owned]
    exact congrArg make (untyped pair.1)

include plainly typed in
/-- The functions of the two languages are the same but for their return types, which are empty in
JavaScript. -/
theorem functions_untyped (options : AnalysisOptions) :
    (functions (Catalog.search (file.readAs .typeScript)) options
        (file.readAs .typeScript)).2.map Function.untyped =
      (functions (Catalog.search (file.readAs .javaScript)) options
        (file.readAs .javaScript)).2 := by
  have found : (functions (Catalog.search (file.readAs .typeScript)) options
      (file.readAs .typeScript)).2 =
        (gather .functions file.source (captured file Functions.typeScript)).filterMap
          (functionOf? options .leadingComment file.source
            (some (Calls.javaScript.matches file.source))) := by
    have calls : callSearch (Catalog.search (file.readAs .typeScript)) =
        some (Calls.javaScript.matches file.source) := by
      rw [callSearch, Catalog.search_readAs typed .calls]
      rfl
    rw [functions_ok (Catalog.search_readAs typed .functions), calls]
    rfl
  have plain : (functions (Catalog.search (file.readAs .javaScript)) options
      (file.readAs .javaScript)).2 =
        (gather .functions file.source (captured file Functions.javaScript)).filterMap
          (functionOf? options .leadingComment file.source
            (some (Calls.javaScript.matches file.source))) := by
    have calls : callSearch (Catalog.search (file.readAs .javaScript)) =
        some (Calls.javaScript.matches file.source) := by
      rw [callSearch, Catalog.search_readAs plainly .calls]
      rfl
    rw [functions_ok (Catalog.search_readAs plainly .functions), calls]
    rfl
  refine eq_of_ascending Function.offset
    (List.pairwise_map.mpr (offsets_functions _ options (file.readAs .typeScript)))
    (offsets_functions _ options (file.readAs .javaScript)) fun function => ?_
  rw [found, plain, List.map_filterMap,
    mem_filterMap_iff_draftAt? (ascending_gather .functions file.source _),
    mem_filterMap_iff_draftAt? (ascending_gather .functions file.source _)]
  refine exists_congr fun offset => ?_
  simp only [← functionOf?_untyped]
  rw [draftAt?_functions apart]
  intro draft unnamed
  rw [functionOf?, unnamed]
  rfl

end Readings

/-! ### Classes -/

/-- Whether an interface or an abstract class stands in the place of the name of a class. -/
def StandsAsName (file : ParsedFile) (named : Site) : Prop :=
  named.node.kind ∈ typedKinds ∧ named.node.field = some "name" ∧
    ∃ site, Site.AtOrBelow file.rootSite site ∧ site.node.kind = "class_declaration" ∧
      named ∈ site.children

/-- For JavaScript only children of class declarations in the role of a name are names. -/
theorem exists_class_of_name {file : ParsedFile} {capture : Capture}
    (isCaptured : capture ∈ captured file Classes.javaScript) (label : capture.label = "name") :
    ∃ site, Site.AtOrBelow file.rootSite site ∧ site.node.kind = "class_declaration" ∧
      capture.site ∈ site.children ∧ capture.site.node.field = some "name" := by
  have shape : ∀ rule ∈ Classes.javaScript, "name" ∉ rule.pattern.labels ∧
      ∀ part ∈ rule.pattern.children, part.children.isEmpty = true ∧
        ("name" ∈ part.labels →
          part.field = some "name" ∧ rule.pattern.kind = some "class_declaration") := by
    decide
  obtain ⟨rule, isRule, site, inFile, captures⟩ := exists_captures_of_mem_captured isCaptured
  obtain ⟨notHere, parts⟩ := shape rule isRule
  obtain ⟨_, labelled⟩ | ⟨part, isPart, isChild, ofPart, labelled⟩ :=
    captures.of_leaves fun part isPart => List.isEmpty_iff.mp (parts part isPart).1
  · exact absurd (label ▸ labelled) notHere
  · obtain ⟨field, kind⟩ := (parts part isPart).2 (label ▸ labelled)
    have isClass := captures.fits
    have isName := ofPart.isInField
    rw [kind, Node.fits_some_iff] at isClass
    rw [field, Node.isInField, decide_eq_true_eq] at isName
    exact ⟨site, inFile, isClass, isChild, isName⟩

section Classes

variable {file : ParsedFile} (apart : DefinitionsApart file) {draft : Draft}

include apart

/-- Captures that are owned where JavaScript has a definition are those of such a definition. -/
theorem filter_ownedAt_untyped (untyped : draft.site.node.kind ∉ typedKinds) {query : Query}
    (defined : definitionAt? .classes (captured file query) draft.offset = some draft.site) :
    (ownedAt .classes (captured file query) draft.offset).filter (fun pair => isUntyped pair.2) =
      ownedAt .classes (captured file query) draft.offset := by
  refine List.filter_eq_self.mpr fun pair pairMember => ?_
  have here := definitionAt?_of_mem_ownedAt apart (inFile_captured file query) pairMember
  rw [defined, Option.some.injEq] at here
  obtain ⟨_, _, isOwner, _⟩ := mem_ownedAt_iff.mp pairMember
  rw [isUntyped, Site.owner?_eq_some_iff.mpr isOwner, ← here]
  exact decide_eq_true untyped

variable (member : draft ∈ gather .classes file.source (captured file Classes.javaScript))

include member

/-- What names a class for JavaScript belongs to a definition that JavaScript has, or to one that
stands in the place of a name. -/
theorem standsAsName_of_named {name : Chars} (named : draft.name = some name)
    (isTyped : draft.site.node.kind ∈ typedKinds) : StandsAsName file draft.site := by
  obtain ⟨defined, made⟩ := exists_addAll_of_mem_gather .classes _ _ member
  rw [made] at named
  obtain ⟨_, isOwned, gives⟩ := List.exists_of_findSome?_eq_some named
  obtain ⟨⟨owner, capture⟩, pairMember, rfl⟩ := List.mem_map.mp isOwned
  have here := definitionAt?_of_mem_ownedAt apart (inFile_captured file _) pairMember
  rw [defined, Option.some.injEq] at here
  obtain ⟨isCaptured, _, isOwner, _⟩ := mem_ownedAt_iff.mp pairMember
  obtain ⟨site, inFile, isClass, isChild, isName⟩ :=
    exists_class_of_name isCaptured (label_of_namedBy? gives)
  have owns := Site.owner?_eq_some_iff.mpr isOwner
  rw [here] at isTyped ⊢
  by_cases defining : capture.site.node.kind ∈ Category.classes.definitionKinds
  · have itself := Site.eq_of_owner?_of_mem defining owns
    rw [itself] at isTyped ⊢
    exact ⟨isTyped, isName, site, inFile, isClass, isChild⟩
  · -- Otherwise the declaration whose name it is owns it, and that is no interface.
    rw [Site.owner?_of_mem_children isChild defining] at owns
    rw [Site.eq_of_owner?_of_mem (by rw [isClass]; decide) owns, isClass] at isTyped
    exact absurd isTyped (by decide)

/-- A class that JavaScript has is found with the same captures for TypeScript. -/
theorem mem_gather_typeScript (untyped : draft.site.node.kind ∉ typedKinds) :
    draft ∈ gather .classes file.source (captured file Classes.typeScript) := by
  have defined := definitionAt?_of_mem_gather .classes file.source _ member
  have filtered : (ownedAt .classes (captured file Classes.typeScript) draft.offset).filter
      (fun pair => isUntyped pair.2) =
        ownedAt .classes (captured file Classes.javaScript) draft.offset := by
    rw [← ownedAt_filter, filter_captured_classes, ownedAt_filter,
      filter_ownedAt_untyped apart untyped defined]
  obtain ⟨pair, first, here⟩ := Option.map_eq_some_iff.mp defined
  have pairMember := List.mem_of_mem_head? first
  rw [← filtered] at pairMember
  have definedToo := definitionAt?_of_mem_ownedAt apart (inFile_captured file Classes.typeScript)
    (List.mem_filter.mp pairMember).1
  rw [here] at definedToo
  -- One definition owns everything here, so nothing that is captured for TypeScript is left out.
  rw [filter_ownedAt_untyped apart untyped definedToo] at filtered
  have ascending := ascending_gather .classes file.source
  have found := (draftAt?_eq_some_iff (ascending _)).mpr ⟨member, rfl⟩
  rw [draftAt?_gather_eq, defined, ← definedToo, ← filtered, ← draftAt?_gather_eq] at found
  exact ((draftAt?_eq_some_iff (ascending _)).mp found).1

end Classes

/-! ### Records -/

section Records

variable {file : ParsedFile} (plainly : file.Serves .javaScript) (typed : file.Serves .typeScript)
  (apart : DefinitionsApart file) (options : AnalysisOptions)

include plainly typed apart

/-- Every class of JavaScript is a class of TypeScript, unless its definition stands in the place
of a name. -/
theorem mem_classes_typeScript {owner : Class}
    (member : owner ∈ (classes (Catalog.search (file.readAs .javaScript)) options
      (file.readAs .javaScript)).2) :
    owner ∈ (classes (Catalog.search (file.readAs .typeScript)) options
        (file.readAs .typeScript)).2 ∨
      ∃ site, StandsAsName file site ∧ site.node.start = owner.offset := by
  have inPlain : (classes (Catalog.search (file.readAs .javaScript)) options
      (file.readAs .javaScript)).2 =
        (gather .classes file.source (captured file Classes.javaScript)).filterMap
          (classOf? options .leadingComment file.source) :=
    congrArg Prod.snd (classes_ok (Catalog.search_readAs plainly .classes))
  have inTyped : (classes (Catalog.search (file.readAs .typeScript)) options
      (file.readAs .typeScript)).2 =
        (gather .classes file.source (captured file Classes.typeScript)).filterMap
          (classOf? options .leadingComment file.source) :=
    congrArg Prod.snd (classes_ok (Catalog.search_readAs typed .classes))
  rw [inPlain] at member
  rw [inTyped]
  obtain ⟨draft, draftMember, found⟩ := List.mem_filterMap.mp member
  obtain ⟨name, named, _⟩ := Option.map_eq_some_iff.mp found
  by_cases isTyped : draft.site.node.kind ∈ typedKinds
  · exact .inr ⟨draft.site, standsAsName_of_named apart draftMember named isTyped,
      (offset_of_classOf? found).symm⟩
  · exact .inl (List.mem_filterMap.mpr
      ⟨draft, mem_gather_typeScript apart draftMember isTyped, found⟩)

/-- Where all classes are found again, a method of JavaScript is a method of TypeScript. -/
theorem isMethod_typeScript
    (again : ∀ owner ∈ (classes (Catalog.search (file.readAs .javaScript)) options
      (file.readAs .javaScript)).2, owner ∈ (classes (Catalog.search (file.readAs .typeScript))
        options (file.readAs .typeScript)).2) {function other : Function}
    (member : function ∈ allAfter
      (classes (Catalog.search (file.readAs .javaScript)) options (file.readAs .javaScript)).2
      (functions (Catalog.search (file.readAs .javaScript)) options (file.readAs .javaScript)).2)
    (otherMember : other ∈ allAfter
      (classes (Catalog.search (file.readAs .typeScript)) options (file.readAs .typeScript)).2
      (functions (Catalog.search (file.readAs .typeScript)) options (file.readAs .typeScript)).2)
    (same : function.offset = other.offset) (isMethod : function.isMethod = true) :
    other.isMethod = true := by
  rcases mem_allAfter_iff.mp otherMember with ⟨isOther, free⟩ | ⟨_, _, _, _, rfl⟩
  · -- What is free in TypeScript is the same function in JavaScript, and lies in no class there.
    have original {found : Function} (isFound : found ∈ (functions
        (Catalog.search (file.readAs .javaScript)) options (file.readAs .javaScript)).2)
        (here : found.offset = other.offset) : found = other.untyped := by
      rw [← functions_untyped plainly typed apart] at isFound
      obtain ⟨found, isTyped, rfl⟩ := List.mem_map.mp isFound
      rw [eq_of_offset_eq (offsets_functions _ options _) isTyped isOther here]
    rcases mem_allAfter_iff.mp member with ⟨isFunction, _⟩ | ⟨index, moved, isMoved, home, rfl⟩
    · rw [original isFunction same] at isMethod
      exact isMethod
    · obtain ⟨owner, there, contains, _⟩ := isNearest_of_owner? home
      have isClass := again owner (List.mem_of_getElem? there)
      rw [original isMoved same] at contains
      have outside := owner?_eq_none_iff.mp free owner isClass
      exact absurd contains (by rw [← Bool.not_eq_true] at outside; exact outside)
  · rfl

end Records

/-! ### Trees of a grammar -/

theorem not_standsAsName {file : ParsedFile} {types : NodeTypes} (names : types.NameClasses)
    (follows : file.Follows types) (named : Site) : ¬ StandsAsName file named := by
  rintro ⟨isTyped, isName, site, inFile, isClass, isChild⟩
  have allowed := follows site inFile named isChild "name" isName
  rw [isClass] at allowed
  have apart : ∀ kind ∈ typedKinds, kind ∉ ["identifier", "type_identifier"] := by decide
  exact apart _ isTyped (names _ allowed)

/-- An interface, a class and a function with a return type. -/
def gallery : ParsedFile where
  language := .typeScript
  source := ("interface Shape \x7b\x7d\nclass Disc \x7b\x7d\n" ++
    "function area(): number \x7b\x7d\n").toList
  root :=
    ⟨"program", none, 0, 60,
      [⟨"interface_declaration", none, 0, 18,
        [⟨"type_identifier", some "name", 10, 15, []⟩,
          ⟨"interface_body", some "body", 16, 18, []⟩]⟩,
        ⟨"class_declaration", none, 19, 32,
          [⟨"type_identifier", some "name", 25, 29, []⟩, ⟨"class_body", some "body", 30, 32, []⟩]⟩,
        ⟨"function_declaration", none, 33, 59,
          [⟨"identifier", some "name", 42, 46, []⟩,
            ⟨"formal_parameters", some "parameters", 46, 48, []⟩,
            ⟨"type_annotation", some "return_type", 48, 56,
              [⟨"predefined_type", none, 50, 56, []⟩]⟩,
            ⟨"statement_block", some "body", 57, 59, []⟩]⟩]⟩
  hasSyntaxErrors := false

/-- The roles of some nodes that both grammars have. -/
def declarationTypes : NodeTypes where
  allows
    | "class_declaration", "name", kind => kind = "identifier" || kind = "type_identifier"
    | _, _, _ => true

theorem declarationTypes_nameClasses : declarationTypes.NameClasses := by
  intro kind allowed
  simpa [declarationTypes] using allowed

theorem follows_gallery : gallery.Follows declarationTypes := by
  have follows : ∀ site ∈ gallery.rootSite.withDescendants, ∀ child ∈ site.children,
      ∀ role ∈ child.node.field,
        declarationTypes.allows site.node.kind role child.node.kind = true := by
    decide +kernel
  exact fun site inFile => follows site (Site.mem_withDescendants_iff.mpr inFile)

end Extraction

end CodeAtlas
