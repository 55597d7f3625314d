/-
This file says what a capture gives to its definition: a name, parameters, a return type, a body,
bases, names, modules, or nothing. A draft that has taken some captures holds what was given first
of everything that is said once, and all that was given, in turn, of everything else.
-/

import CodeAtlas.Extraction.Basic

namespace CodeAtlas.Extraction

open Text

theorem firstNonEmpty_eq_or (held : Option Chars) (text : Chars) :
    firstNonEmpty held text = held.or (firstNonEmpty none text) := by
  cases held <;> rfl

theorem firstNonEmpty_none_eq_some_iff {text name : Chars} :
    firstNonEmpty none text = some name ↔ text = name ∧ name ≠ [] := by
  cases text with
  | nil => simp [firstNonEmpty, eq_comm]
  | cons character text =>
    rw [firstNonEmpty, List.isEmpty_cons, if_neg Bool.false_ne_true, Option.some.injEq]
    constructor
    · rintro rfl
      exact ⟨rfl, List.cons_ne_nil _ _⟩
    · exact And.left

/-! ### One capture -/

section

variable (category : Category) (source : Chars) (capture : Capture)

/-- The name that a capture gives to its definition, if it gives one. -/
def namedBy? : Option Chars :=
  if capture.label = "name" then
    let text := trim (capture.site.node.text source)
    match category with
    | .imports => none
    | .classes => firstNonEmpty none (Names.className text)
    | _ => firstNonEmpty none text
  else none

/-- The parameters that a capture gives to its definition, if it gives them. -/
def parametersBy? : Option Chars :=
  if capture.label = "params" then some (trim (capture.site.node.text source)) else none

/-- The return type that a capture gives to its definition, if it gives one. -/
def returnTypeBy? : Option Chars :=
  if capture.label = "return_type" then
    some (Names.returnType (trim (capture.site.node.text source)))
  else none

/-- The body that a capture gives to its definition, if it gives one. -/
def bodyBy? : Option Site :=
  if capture.label = "body" then some capture.site else none

/-- The bases that a capture adds to its definition. -/
def basesBy : List Placed :=
  if capture.label = "bases" then
    (Names.baseNames (trim (capture.site.node.text source))).map fun base =>
      ⟨capture.site.node.start, base⟩
  else []

/-- The names that a capture adds to its definition. -/
def namesBy : List Placed :=
  if capture.label = "name" then
    match category with
    | .imports => [⟨capture.site.node.start, trim (capture.site.node.text source)⟩]
    | _ => []
  else if capture.label = "wildcard" then
    [⟨capture.site.node.start, Import.wildcard.toList⟩]
  else []

/-- The modules that a capture adds to its definition. -/
def modulesBy : List Placed :=
  if capture.label = "module" then
    let moduleName := Names.moduleName (trim (capture.site.node.text source))
    if moduleName.isEmpty then [] else [⟨capture.site.node.start, moduleName⟩]
  else []

end

theorem namedBy?_of_ne {category : Category} {source : Chars} {capture : Capture}
    (other : capture.label ≠ "name") : namedBy? category source capture = none := by
  rw [namedBy?, if_neg other]

theorem label_of_namedBy? {category : Category} {source : Chars} {capture : Capture}
    {name : Chars} (named : namedBy? category source capture = some name) :
    capture.label = "name" := by
  refine Decidable.byContradiction fun other => ?_
  rw [namedBy?_of_ne other] at named
  cases named

/-- A name that is given is not empty. -/
theorem ne_nil_of_namedBy? {category : Category} {source : Chars} {capture : Capture}
    {name : Chars} (named : namedBy? category source capture = some name) : name ≠ [] := by
  have label := label_of_namedBy? named
  rw [namedBy?, if_pos label] at named
  cases category with
  | imports => cases named
  | classes => exact (firstNonEmpty_none_eq_some_iff.mp named).2
  | functions => exact (firstNonEmpty_none_eq_some_iff.mp named).2
  | calls => exact (firstNonEmpty_none_eq_some_iff.mp named).2

/-- A module that is given has a name. -/
theorem text_ne_nil_of_mem_modulesBy {source : Chars} {capture : Capture} {item : Placed}
    (member : item ∈ modulesBy source capture) : item.text ≠ [] := by
  unfold modulesBy at member
  split at member
  · dsimp only at member
    split at member
    · cases member
    · next named =>
      rw [List.mem_singleton] at member
      refine fun empty => named ?_
      have text : Names.moduleName (trim (capture.site.node.text source)) = item.text := by
        rw [member]
      rw [text, empty]
      rfl
  · cases member

namespace Draft

variable (category : Category) (source : Chars) (draft : Draft)

/-- A draft takes from a capture what it gives. -/
theorem add_eq (capture : Capture) :
    draft.add category source capture = { draft with
      name := draft.name.or (namedBy? category source capture)
      parameters := draft.parameters.or (parametersBy? source capture)
      returnType := draft.returnType.or (returnTypeBy? source capture)
      body := draft.body.or (bodyBy? capture)
      bases := draft.bases ++ basesBy source capture
      names := draft.names ++ namesBy category source capture
      modules := draft.modules ++ modulesBy source capture } := by
  unfold add namedBy? parametersBy? returnTypeBy? bodyBy? basesBy namesBy modulesBy
  split
  · next label =>
    cases category <;> simp [label, ← firstNonEmpty_eq_or]
  · next label => simp [label, Option.orElse_eq_or]
  · next label => simp [label, Option.orElse_eq_or]
  · next label => simp [label, Option.orElse_eq_or]
  · next label => simp [label]
  · next label =>
    dsimp only
    split <;> simp [*]
  · next label => simp [label]
  · next notName notParameters notReturnType notBody notBases notModule notWildcard =>
    rw [if_neg notName, if_neg notParameters, if_neg notReturnType, if_neg notBody,
      if_neg notBases, if_neg notName, if_neg notWildcard, if_neg notModule]
    simp only [Option.or_none, List.append_nil]

@[simp]
theorem add_site (capture : Capture) : (draft.add category source capture).site = draft.site := by
  rw [add_eq]

@[simp]
theorem add_offset (capture : Capture) :
    (draft.add category source capture).offset = draft.offset := by
  rw [offset, offset, add_site]

/-! ### Many captures -/

/-- The draft after some captures of its definition. -/
def addAll (captures : List Capture) : Draft :=
  { draft with
    name := draft.name.or (captures.findSome? (namedBy? category source))
    parameters := draft.parameters.or (captures.findSome? (parametersBy? source))
    returnType := draft.returnType.or (captures.findSome? (returnTypeBy? source))
    body := draft.body.or (captures.findSome? bodyBy?)
    bases := draft.bases ++ captures.flatMap (basesBy source)
    names := draft.names ++ captures.flatMap (namesBy category source)
    modules := draft.modules ++ captures.flatMap (modulesBy source) }

theorem foldl_add (captures : List Capture) :
    captures.foldl (add category source) draft = draft.addAll category source captures := by
  have step {Value : Type} (give : Capture → Option Value) (capture : Capture)
      (captures : List Capture) : (capture :: captures).findSome? give =
        (give capture).or (captures.findSome? give) := by
    rw [List.findSome?_cons]
    cases give capture <;> rfl
  induction captures generalizing draft with
  | nil => simp [addAll]
  | cons capture captures inductionHypothesis =>
    rw [List.foldl_cons, inductionHypothesis, add_eq]
    simp only [addAll, step, List.flatMap_cons, Option.or_assoc, List.append_assoc]

end Draft

end CodeAtlas.Extraction
