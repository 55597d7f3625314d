/-
This file reads the record of a source file off its syntax tree. The matches of a search are
taken apart into captures, and every capture goes to the definition in which it stands: the
nearest node at or above it, below the root, whose kind defines something of the category. The
captures of one definition together make one import, class or function.
-/

import CodeAtlas.Entity.Basic
import CodeAtlas.Extraction.Callees
import CodeAtlas.Extraction.Docs
import CodeAtlas.Extraction.Names
import CodeAtlas.Extraction.Ownership

namespace CodeAtlas.Extraction

open Text

/-! ### Gathering captures -/

/-- A text with the byte offset at which it was found. -/
structure Placed where
  offset : Nat
  text : Chars
deriving DecidableEq, Repr

/-- What the captures of one definition have said so far. A text that is said once is kept as
it was said first; lists take everything. -/
structure Draft where
  site : Site
  name : Option Chars := none
  parameters : Option Chars := none
  returnType : Option Chars := none
  body : Option Site := none
  bases : List Placed := []
  names : List Placed := []
  modules : List Placed := []

/-- The first value that is not empty. -/
def firstNonEmpty (held : Option Chars) (text : Chars) : Option Chars :=
  match held with
  | some name => some name
  | none => if text.isEmpty then none else some text

namespace Draft

/-- The byte offset of the definition. -/
def offset (draft : Draft) : Nat :=
  draft.site.node.start

/-- The draft after a capture of its definition. -/
def add (category : Category) (source : Chars) (draft : Draft) (capture : Capture) : Draft :=
  let offset := capture.site.node.start
  let text := trim (capture.site.node.text source)
  match capture.label with
  | "name" =>
    match category with
    | .imports => { draft with names := draft.names ++ [⟨offset, text⟩] }
    | .classes => { draft with name := firstNonEmpty draft.name (Names.className text) }
    | _ => { draft with name := firstNonEmpty draft.name text }
  | "params" => { draft with parameters := draft.parameters.orElse fun _ => some text }
  | "return_type" =>
    { draft with returnType := draft.returnType.orElse fun _ => some (Names.returnType text) }
  | "body" => { draft with body := draft.body.orElse fun _ => some capture.site }
  | "bases" =>
    { draft with bases := draft.bases ++ (Names.baseNames text).map fun base => ⟨offset, base⟩ }
  | "module" =>
    let moduleName := Names.moduleName text
    if moduleName.isEmpty then draft
    else { draft with modules := draft.modules ++ [⟨offset, moduleName⟩] }
  | "wildcard" =>
    { draft with names := draft.names ++ [⟨offset, Import.wildcard.toList⟩] }
  | _ => draft

end Draft

/-- The drafts after a capture that belongs to the definition at `site`. Drafts are kept in the
order of their offsets, and there is one for each offset. -/
def insert (category : Category) (source : Chars) (site : Site) (capture : Capture) :
    List Draft → List Draft
  | [] => [Draft.add category source { site } capture]
  | draft :: drafts =>
    if site.node.start < draft.offset then
      Draft.add category source { site } capture :: draft :: drafts
    else if site.node.start = draft.offset then
      draft.add category source capture :: drafts
    else draft :: insert category source site capture drafts

/-- Whether a label serves only the tests of a rule. -/
def isAuxiliary (label : String) : Bool :=
  startsWith ['_'] label.toList

/-- The drafts after a capture. -/
def gatherCapture (category : Category) (source : Chars) (drafts : List Draft)
    (capture : Capture) : List Draft :=
  if isAuxiliary capture.label then drafts
  else
    match capture.site.owner? category.definitionKinds with
    | some site => insert category source site capture drafts
    | none => drafts

/-- The drafts of all definitions of a category that some captures belong to, in the order of
their offsets. -/
def gather (category : Category) (source : Chars) (captures : List Capture) : List Draft :=
  captures.foldl (gatherCapture category source) []

/-- The texts in the order of their offsets, each once. -/
def inSourceOrder (items : List Placed) : List String :=
  let ordered := items.mergeSort fun first second => first.offset ≤ second.offset
  distinct (ordered.map fun item => String.ofList item.text)

/-! ### From drafts to records -/

/-- The imports of a definition: one for each module that it names. -/
def importsOf (source : Chars) (draft : Draft) : List Import :=
  (inSourceOrder draft.modules).map fun moduleName => {
    raw := String.ofList (collapse (draft.site.node.text source))
    moduleName
    names := inSourceOrder draft.names
    line := draft.site.node.startRow source + 1 }

/-- The documentation of a definition, if documentation is wanted. -/
def docOf (options : AnalysisOptions) (style : DocStyle) (source : Chars) (draft : Draft) :
    String :=
  if options.includeDocs then
    String.ofList (Docs.ofDefinition style source draft.site draft.body)
  else ""

/-- The class of a definition that has a name. -/
def classOf? (options : AnalysisOptions) (style : DocStyle) (source : Chars) (draft : Draft) :
    Option Class :=
  draft.name.map fun text =>
    let name := String.ofList text
    { name
      bases := inSourceOrder draft.bases
      doc := docOf options style source draft
      startLine := draft.site.node.startRow source + 1
      endLine := draft.site.node.stopRow source + 1
      methods := []
      isPrivate := Names.isPrivate name
      offset := draft.offset }

/-- Whether a function is defined in a class or with a receiver. -/
def isMethodSite (site : Site) : Bool :=
  (site.parent?.bind (·.owner? Category.classes.definitionKinds)).isSome ||
    (site.node.childInField? "receiver").isSome

/-- A text that was captured, if texts of signatures are wanted. -/
def signatureText (options : AnalysisOptions) (text : Option Chars) : String :=
  if options.includeSignatures then String.ofList (text.getD []) else ""

/-- The function of a definition that has a name. Its calls are searched for in its body, or in
all of it if it has none. -/
def functionOf? (options : AnalysisOptions) (style : DocStyle) (source : Chars)
    (calls : Option (Site → List Match)) (draft : Draft) : Option Function :=
  draft.name.map fun text =>
    let name := String.ofList text
    { name
      parameters := signatureText options draft.parameters
      returnType := signatureText options draft.returnType
      doc := docOf options style source draft
      startLine := draft.site.node.startRow source + 1
      endLine := draft.site.node.stopRow source + 1
      calls := match calls with
        | some search => Callees.ofMatches source (search (draft.body.getD draft.site))
        | none => []
      isMethod := isMethodSite draft.site
      isPrivate := Names.isPrivate name
      offset := draft.offset }

/-! ### Searching a file -/

/-- What a category's part of the record is, with what is said about searching for it. -/
abbrev Found (α : Type) := List String × List α

/-- The captures of a search below a site. -/
def capturesOf (search : Site → List Match) (site : Site) : List Capture :=
  (search site).flatMap Match.captures

/-- The drafts of a category, or what is said when it cannot be searched for. -/
def draftsOf (search : Catalog.Search) (file : ParsedFile) (category : Category) :
    Except String (List Draft) :=
  match search category with
  | .ok run => .ok (gather category file.source (capturesOf run file.rootSite))
  | .error message => .error message

/-- The imports of a file. -/
def imports (search : Catalog.Search) (file : ParsedFile) : Found Import :=
  match draftsOf search file .imports with
  | .ok drafts => ([], drafts.flatMap (importsOf file.source))
  | .error message => ([message], [])

/-- The classes of a file, as yet without methods. -/
def classes (search : Catalog.Search) (options : AnalysisOptions) (file : ParsedFile) :
    Found Class :=
  match draftsOf search file .classes with
  | .ok drafts =>
    ([], drafts.filterMap (classOf? options file.language.docStyle file.source))
  | .error message => ([message], [])

/-- The functions of a file. If calls cannot be searched for, they have none. -/
def functions (search : Catalog.Search) (options : AnalysisOptions) (file : ParsedFile) :
    Found Function :=
  match draftsOf search file .functions with
  | .ok drafts =>
    let style := file.language.docStyle
    match search .calls with
    | .ok run => ([], drafts.filterMap (functionOf? options style file.source (some run)))
    | .error message =>
      ([message], drafts.filterMap (functionOf? options style file.source none))
  | .error message => ([message], [])

/-! ### The record of a file -/

/-- What is said about a source that could not be read in whole. -/
def syntaxErrorMessage : String :=
  "Failed to parse source: tree contains syntax errors"

/-- The errors of a file before it is searched. -/
def syntaxErrors (file : ParsedFile) : List String :=
  if file.hasSyntaxErrors then [syntaxErrorMessage] else []

/-- The file without its private classes, methods and functions. -/
def dropPrivate (file : FileRecord) : FileRecord :=
  { file with
    classes := (file.classes.filter fun owner => !owner.isPrivate).map fun owner =>
      { owner with methods := owner.methods.filter fun method => !method.isPrivate }
    functions := file.functions.filter fun function => !function.isPrivate }

/-- The record of a file by a given search. -/
def recordBy (search : Catalog.Search) (options : AnalysisOptions) (path : String)
    (file : ParsedFile) : FileRecord :=
  let (importErrors, imports) := imports search file
  if options.granularity.isDetailed then
    let (classErrors, classes) := classes search options file
    let (functionErrors, functions) := functions search options file
    let owned := Ownership.assign {
      path, language := some file.language, imports, classes, functions
      errors := syntaxErrors file ++ importErrors ++ classErrors ++ functionErrors }
    if options.includePrivate then owned else dropPrivate owned
  else
    { path, language := some file.language, imports, classes := [], functions := []
      errors := syntaxErrors file ++ importErrors }

/-- The record of a file, searched with the queries of the catalog. -/
def record (options : AnalysisOptions) (path : String) (file : ParsedFile) : FileRecord :=
  recordBy (Catalog.search file) options path file

end CodeAtlas.Extraction
