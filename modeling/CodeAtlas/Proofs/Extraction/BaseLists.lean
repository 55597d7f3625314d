/-
This file says which names are found in a written list of bases. Where no argument of a base is the
type of a function, exactly the names outside of all brackets are found. Behind the arrow of such a
type one bracket too few is counted, and names are found that stand in brackets; but none is ever
lost that stands outside of them.
-/

import CodeAtlas.Proofs.Extraction.Brackets
import CodeAtlas.Proofs.Text.Distinct

namespace CodeAtlas.Names

open Text

/-! ### Lists of bases as they are written -/

/-- Blanks between the parts of a type. -/
abbrev Gap :=
  List {character : Char // isBlank character = true}

/-- A name with the path of modules before it, which may begin at the root of all modules. -/
structure Path where
  isRooted : Bool
  modules : List Identifier
  name : Identifier

mutual

/-- A written type: a name with its arguments, or the type of a function. -/
inductive TypeText where
  | named (path : Path) (arguments : Arguments)
  | function (style : FunctionStyle) (parameters : TypeList) (result : TypeText)

/-- The arguments of a name: none, or some in brackets. Squares may stand apart from the name. -/
inductive Arguments where
  | none
  | angles (types : TypeList)
  | squares (before : Gap) (types : TypeList)

/-- Types with commas between them, or behind each of them. -/
inductive TypeList where
  | empty (blanks : Gap)
  | last (before : Gap) (type : TypeText) (after : Gap)
  | more (before : Gap) (type : TypeText) (after : Gap) (types : TypeList)

end

/-- A written base. -/
structure Base where
  before : Gap
  path : Path
  arguments : Arguments
  after : Gap

/-! ### Their tokens -/

theorem isSeparator_of_isBlank {character : Char} (blank : isBlank character = true) :
    IsSeparator character where
  unspelled := by
    refine Bool.eq_false_iff.mpr fun spelled => ?_
    exact Bool.false_ne_true ((isBlank_eq_false_of_isIdentifierChar spelled).symm.trans blank)
  unbracketed member := by
    have visible : bracketMarks.all (fun mark => !isBlank mark) = true := by decide
    have notBlank := List.all_eq_true.mp visible character member
    rw [blank] at notBlank
    cases notBlank

/-- The marks that are written between names. -/
def punctuationMarks : Chars :=
  [',', ':', '(', ')', ' ']

theorem isSeparator_of_mem {mark : Char} (member : mark ∈ punctuationMarks) : IsSeparator mark := by
  have unspelled : ∀ mark ∈ punctuationMarks, isIdentifierChar mark = false :=
    unspelled_of_all (by decide)
  have unbracketed : ∀ mark ∈ punctuationMarks, mark ∉ bracketMarks := by
    simp [punctuationMarks, bracketMarks]
  exact ⟨unspelled mark member, unbracketed mark member⟩

/-- A mark between names as a token. -/
def punctuation (mark : Char) (member : mark ∈ punctuationMarks) : Token :=
  .separator mark (isSeparator_of_mem member)

/-- The comma between types. -/
def comma : Token :=
  punctuation ',' (by decide)

/-- The space beside an arrow. -/
def space : Token :=
  punctuation ' ' (by decide)

/-- The two colons behind a module, or for the root. -/
def colons : List Token :=
  [punctuation ':' (by decide), punctuation ':' (by decide)]

/-- Tokens in brackets. -/
def bracketed (bracket : Bracket) (tokens : List Token) : List Token :=
  .opening bracket :: (tokens ++ [.closing bracket])

def Gap.tokens (gap : Gap) : List Token :=
  gap.map fun blank => .separator blank.1 (isSeparator_of_isBlank blank.2)

def Path.tokens (path : Path) : List Token :=
  (if path.isRooted then colons else []) ++
    path.modules.flatMap (fun place => .name place :: colons) ++ [.name path.name]

/-- The names of a path, those of its modules included. -/
def Path.names (path : Path) : List Identifier :=
  path.modules ++ [path.name]

/-- The word before the parameters of a function. -/
def FunctionStyle.keyword : FunctionStyle → List Token
  | double => []
  | single => [.name ⟨"fn".toList, isIdentifier_of_all (by decide) (by decide)⟩]

mutual

def TypeText.tokens : TypeText → List Token
  | .named path arguments => path.tokens ++ arguments.tokens
  | .function style parameters result =>
    style.keyword ++ punctuation '(' (by decide) :: (parameters.tokens ++
      punctuation ')' (by decide) :: space :: .arrow style :: space :: result.tokens)

def Arguments.tokens : Arguments → List Token
  | .none => []
  | .angles types => bracketed .angle types.tokens
  | .squares before types => before.tokens ++ bracketed .square types.tokens

def TypeList.tokens : TypeList → List Token
  | .empty blanks => blanks.tokens
  | .last before type after => before.tokens ++ (type.tokens ++ after.tokens)
  | .more before type after types =>
    before.tokens ++ (type.tokens ++ (after.tokens ++ comma :: types.tokens))

end

def Base.tokens (base : Base) : List Token :=
  base.before.tokens ++ (base.path.tokens ++ (base.arguments.tokens ++ base.after.tokens))

/-- The tokens of bases with commas between them. -/
def baseTokens : List Base → List Token
  | [] => []
  | [base] => base.tokens
  | base :: bases => base.tokens ++ comma :: baseTokens bases

/-- The text of bases with commas between them. -/
def baseText (bases : List Base) : Chars :=
  textOf (baseTokens bases)

/-! ### How tokens follow each other -/

/-- Whether tokens can stand wherever a name can begin. -/
def Ready (tokens : List Token) : Prop :=
  ∀ before : Token, before.isOpen = true → before.Chained tokens

/-- Whether tokens can stand behind every token. -/
def Separated (tokens : List Token) : Prop :=
  ∀ before : Token, before.Chained tokens

section

variable {rest : List Token}

theorem separated_nil : Separated [] :=
  fun before => .singleton before

theorem Separated.ready (separated : Separated rest) : Ready rest :=
  fun before _ => separated before

theorem Ready.separator (ready : Ready rest) {character : Char}
    (isSeparator : IsSeparator character) : Separated (.separator character isSeparator :: rest) :=
  fun _ => .cons_cons trivial (ready _ rfl)

theorem Ready.punctuation (ready : Ready rest) (mark : Char) (member : mark ∈ punctuationMarks) :
    Separated (punctuation mark member :: rest) :=
  ready.separator (isSeparator_of_mem member)

theorem Ready.colons (ready : Ready rest) : Separated (colons ++ rest) :=
  (ready.punctuation _ _).ready.punctuation _ _

theorem Ready.gap (ready : Ready rest) (gap : Gap) : Ready (gap.tokens ++ rest) := by
  induction gap with
  | nil => exact ready
  | cons blank gap inductionHypothesis => exact (inductionHypothesis.separator _).ready

theorem Separated.gap (separated : Separated rest) (gap : Gap) :
    Separated (gap.tokens ++ rest) := by
  induction gap with
  | nil => exact separated
  | cons blank gap inductionHypothesis => exact inductionHypothesis.ready.separator _

theorem Separated.closing (separated : Separated rest) (bracket : Bracket) :
    Separated (.closing bracket :: rest) :=
  fun _ => .cons_cons trivial (separated _)

theorem Separated.arrow (separated : Separated rest) (style : FunctionStyle) :
    Separated (.arrow style :: rest) :=
  fun _ => .cons_cons trivial (separated _)

theorem ready_name {name : Identifier} (chained : (Token.name name).Chained rest) :
    Ready (.name name :: rest) :=
  fun _ isOpen => .cons_cons isOpen chained

theorem ready_modules (ready : Ready rest) (modules : List Identifier) :
    Ready (modules.flatMap (fun place => .name place :: colons) ++ rest) := by
  induction modules with
  | nil => exact ready
  | cons place modules inductionHypothesis =>
    rw [List.flatMap_cons, List.append_assoc]
    exact ready_name (inductionHypothesis.colons _)

theorem Path.ready (path : Path) (chained : (Token.name path.name).Chained rest) :
    Ready (path.tokens ++ rest) := by
  rw [Path.tokens, List.append_assoc, List.append_assoc]
  have modules := ready_modules (ready_name chained) path.modules
  split
  · exact modules.colons.ready
  · exact modules

theorem chained_bracketed {before : Token} {bracket : Bracket} {tokens : List Token}
    (mayFollow : before.MayFollow (.opening bracket))
    (ready : Ready (tokens ++ .closing bracket :: rest)) :
    before.Chained (bracketed bracket tokens ++ rest) := by
  rw [bracketed, List.cons_append, List.append_assoc]
  exact .cons_cons mayFollow (ready _ rfl)

theorem FunctionStyle.ready (style : FunctionStyle) (separated : Separated rest) :
    Ready (style.keyword ++ rest) := by
  cases style with
  | double => exact separated.ready
  | single => exact ready_name (separated _)

end

mutual

/-- A written type can stand wherever a name can begin. -/
theorem TypeText.ready (type : TypeText) {rest : List Token} (separated : Separated rest) :
    Ready (type.tokens ++ rest) := by
  cases type with
  | named path arguments =>
    rw [TypeText.tokens, List.append_assoc]
    exact path.ready (arguments.chained path.name separated)
  | function style parameters result =>
    have behindArrow := (result.ready separated).punctuation ' ' (by decide)
    have beforeArrow := (behindArrow.arrow style).ready.punctuation ' ' (by decide)
    have behindParameters := beforeArrow.ready.punctuation ')' (by decide)
    have behindKeyword := (parameters.ready behindParameters).punctuation '(' (by decide)
    simpa [TypeText.tokens, space] using style.ready behindKeyword

/-- Arguments can stand behind the name that has them. -/
theorem Arguments.chained (arguments : Arguments) (name : Identifier) {rest : List Token}
    (separated : Separated rest) : (Token.name name).Chained (arguments.tokens ++ rest) := by
  cases arguments with
  | none => exact separated _
  | angles types =>
    exact chained_bracketed (List.cons_ne_nil _ _) (types.ready (separated.closing _))
  | squares before types =>
    rw [Arguments.tokens, List.append_assoc]
    have behindName : Separated (bracketed .square types.tokens ++ rest) :=
      fun _ => chained_bracketed trivial (types.ready (separated.closing _))
    exact behindName.gap before _

/-- Written types can stand behind the bracket that opens. -/
theorem TypeList.ready (types : TypeList) {rest : List Token} (separated : Separated rest) :
    Ready (types.tokens ++ rest) := by
  cases types with
  | empty blanks => exact separated.ready.gap blanks
  | last before type after =>
    simpa [TypeList.tokens] using (type.ready (separated.gap after)).gap before
  | more before type after types =>
    have behindType := ((types.ready separated).punctuation ',' (by decide)).gap after
    simpa [TypeList.tokens, comma] using (type.ready behindType).gap before

end

theorem Base.ready (base : Base) {rest : List Token} (separated : Separated rest) :
    Ready (base.tokens ++ rest) := by
  have behindPath := base.arguments.chained base.path.name (separated.gap base.after)
  simpa [Base.tokens] using (base.path.ready behindPath).gap base.before

theorem ready_baseTokens (bases : List Base) : Ready (baseTokens bases) := by
  fun_induction baseTokens bases with
  | case1 => exact separated_nil.ready
  | case2 base => simpa using base.ready separated_nil
  | case3 base bases _ inductionHypothesis => exact base.ready (inductionHypothesis.punctuation _ _)

/-! ### Names outside of brackets -/

/-- Whether tokens close what brackets they open, and no others. -/
def Balanced (tokens : List Token) : Prop :=
  ∀ depth rest, namesOutside Token.isClosing depth (tokens ++ rest) =
    (if depth = 0 then namesOutside Token.isClosing 0 tokens else []) ++
      namesOutside Token.isClosing depth rest

/-- Whether balanced tokens have no names outside of their brackets. -/
def Hidden (tokens : List Token) : Prop :=
  ∀ depth rest, namesOutside Token.isClosing depth (tokens ++ rest) =
    namesOutside Token.isClosing depth rest

/-- Whether a token is no bracket. -/
def Token.IsLevel (token : Token) : Prop :=
  ∀ depth, token.depthAfter Token.isClosing depth = depth

section

variable {tokens others : List Token}

theorem Hidden.balanced (hidden : Hidden tokens) : Balanced tokens := by
  intro depth rest
  have alone := hidden 0 []
  rw [List.append_nil] at alone
  rw [hidden depth, alone, namesOutside, ite_self, List.nil_append]

theorem hidden_nil : Hidden [] :=
  fun _ _ => rfl

theorem Hidden.append (hidden : Hidden tokens) (othersHidden : Hidden others) :
    Hidden (tokens ++ others) := by
  intro depth rest
  rw [List.append_assoc, hidden, othersHidden]

theorem Balanced.namesOutside_append (balanced : Balanced tokens) :
    namesOutside Token.isClosing 0 (tokens ++ others) =
      namesOutside Token.isClosing 0 tokens ++ namesOutside Token.isClosing 0 others :=
  balanced 0 others

theorem Balanced.append (balanced : Balanced tokens) (othersBalanced : Balanced others) :
    Balanced (tokens ++ others) := by
  intro depth rest
  rw [List.append_assoc, balanced depth, othersBalanced depth, balanced.namesOutside_append]
  split
  · rw [List.append_assoc]
  · rfl

/-- In brackets balanced tokens are hidden. -/
theorem Balanced.bracketed (balanced : Balanced tokens) (bracket : Bracket) :
    Hidden (bracketed bracket tokens) := by
  intro depth rest
  have inside := balanced (depth + 1) (.closing bracket :: rest)
  rw [if_neg (Nat.succ_ne_zero depth), List.nil_append] at inside
  rw [Names.bracketed, List.cons_append, List.append_assoc, namesOutside]
  refine (congrArg (_ ++ ·) inside).trans ?_
  rw [namesOutside]
  simp [Token.names, Token.depthAfter, Token.isClosing]

/-- Tokens among which there is no bracket have all their names outside of brackets. -/
theorem namesOutside_append_of_level (level : ∀ token ∈ tokens, token.IsLevel) (depth : Nat)
    (rest : List Token) :
    namesOutside Token.isClosing depth (tokens ++ rest) =
      (if depth = 0 then tokens.flatMap Token.names else []) ++
        namesOutside Token.isClosing depth rest := by
  induction tokens with
  | nil => rw [List.flatMap_nil, ite_self]; rfl
  | cons token tokens inductionHypothesis =>
    obtain ⟨first, following⟩ := List.forall_mem_cons.mp level
    rw [List.cons_append, namesOutside, first, inductionHypothesis following, List.flatMap_cons]
    split
    · exact (List.append_assoc _ _ _).symm
    · rfl

theorem namesOutside_of_level (level : ∀ token ∈ tokens, token.IsLevel) :
    namesOutside Token.isClosing 0 tokens = tokens.flatMap Token.names := by
  simpa [namesOutside] using namesOutside_append_of_level level 0 []

theorem balanced_of_level (level : ∀ token ∈ tokens, token.IsLevel) : Balanced tokens := by
  intro depth rest
  rw [namesOutside_append_of_level level, namesOutside_of_level level]

theorem Balanced.cons (balanced : Balanced tokens) {token : Token} (level : token.IsLevel) :
    Balanced (token :: tokens) :=
  (balanced_of_level (List.forall_mem_singleton.mpr level)).append balanced

end

theorem level_colons : ∀ token ∈ colons, token.IsLevel :=
  List.forall_mem_cons.mpr ⟨fun _ => rfl, List.forall_mem_singleton.mpr fun _ => rfl⟩

theorem hidden_gap (gap : Gap) : Hidden gap.tokens := by
  intro depth rest
  have level : ∀ token ∈ gap.tokens, token.IsLevel := List.forall_mem_map.mpr fun _ _ _ => rfl
  have unnamed : gap.tokens.flatMap Token.names = [] := by
    rw [Gap.tokens, List.flatMap_map]
    exact List.flatMap_eq_nil_iff.mpr fun _ _ => rfl
  rw [namesOutside_append_of_level level, unnamed, ite_self, List.nil_append]

theorem Path.level (path : Path) : ∀ token ∈ path.tokens, token.IsLevel := by
  intro token member
  rw [Path.tokens, List.mem_append, List.mem_append, List.mem_flatMap] at member
  obtain (root | ⟨place, -, inModule⟩) | last := member
  · split at root
    · exact level_colons token root
    · cases root
  · obtain rfl | behindModule := List.mem_cons.mp inModule
    · exact fun _ => rfl
    · exact level_colons token behindModule
  · rw [List.mem_singleton.mp last]
    exact fun _ => rfl

theorem Path.flatMap_names (path : Path) : path.tokens.flatMap Token.names = path.names := by
  have modules : (path.modules.flatMap fun place => .name place :: colons).flatMap Token.names =
      path.modules := by
    rw [List.flatMap_assoc]
    exact List.flatMap_singleton' path.modules
  rw [Path.tokens, List.flatMap_append, List.flatMap_append, modules, Path.names]
  split <;> rfl

theorem Path.balanced (path : Path) : Balanced path.tokens :=
  balanced_of_level path.level

theorem FunctionStyle.balanced (style : FunctionStyle) : Balanced style.keyword := by
  cases style with
  | double => exact hidden_nil.balanced
  | single => exact balanced_of_level (List.forall_mem_singleton.mpr fun _ => rfl)

mutual

/-- A written type closes the brackets that it opens. -/
theorem TypeText.balanced (type : TypeText) : Balanced type.tokens := by
  cases type with
  | named path arguments =>
    rw [TypeText.tokens]
    exact path.balanced.append arguments.hidden.balanced
  | function style parameters result =>
    rw [TypeText.tokens]
    have behindArrow : Balanced (space :: result.tokens) := result.balanced.cons fun _ => rfl
    have behindParameters : Balanced (punctuation ')' (by decide) :: space :: .arrow style ::
        space :: result.tokens) :=
      ((behindArrow.cons fun _ => rfl).cons fun _ => rfl).cons fun _ => rfl
    exact style.balanced.append ((parameters.balanced.append behindParameters).cons fun _ => rfl)

/-- The names in arguments are all in brackets. -/
theorem Arguments.hidden (arguments : Arguments) : Hidden arguments.tokens := by
  cases arguments with
  | none => exact hidden_nil
  | angles types => exact types.balanced.bracketed _
  | squares before types => exact (hidden_gap before).append (types.balanced.bracketed _)

/-- Written types close the brackets that they open. -/
theorem TypeList.balanced (types : TypeList) : Balanced types.tokens := by
  cases types with
  | empty blanks => exact (hidden_gap blanks).balanced
  | last before type after =>
    exact (hidden_gap before).balanced.append (type.balanced.append (hidden_gap after).balanced)
  | more before type after types =>
    have behindType : Balanced (after.tokens ++ comma :: types.tokens) :=
      (hidden_gap after).balanced.append (types.balanced.cons fun _ => rfl)
    exact (hidden_gap before).balanced.append (type.balanced.append behindType)

end

/-- The names of the paths in a list of bases. -/
def pathNames (bases : List Base) : List Identifier :=
  bases.flatMap fun base => base.path.names

/-- A base has the names of its path outside of brackets. -/
theorem Base.namesOutside_append (base : Base) (rest : List Token) :
    namesOutside Token.isClosing 0 (base.tokens ++ rest) =
      base.path.names ++ namesOutside Token.isClosing 0 rest := by
  rw [Base.tokens, List.append_assoc, hidden_gap, List.append_assoc,
    base.path.balanced.namesOutside_append, namesOutside_of_level base.path.level,
    Path.flatMap_names, List.append_assoc, base.arguments.hidden, hidden_gap]

/-- The names outside of brackets are those of the paths. -/
theorem namesOutside_baseTokens (bases : List Base) :
    namesOutside Token.isClosing 0 (baseTokens bases) = pathNames bases := by
  fun_induction baseTokens bases with
  | case1 => rfl
  | case2 base => simpa [namesOutside, pathNames] using base.namesOutside_append []
  | case3 base bases _ inductionHypothesis =>
    rw [base.namesOutside_append, namesOutside, pathNames, List.flatMap_cons, ← pathNames,
      ← inductionHypothesis]
    rfl

/-! ### The names that are found -/

/-- Whether a name begins with a letter from A to Z. -/
def beginsWithCapital (name : Chars) : Bool :=
  name.head?.any fun first => decide (IsCapital first)

theorem capital?_of_plain {name : Chars}
    (plain : ∀ character ∈ name, isPlainIdentifierChar character = true) :
    capital? name = if beginsWithCapital name then some name else none := by
  cases name with
  | nil => rfl
  | cons first rest =>
    obtain ⟨-, others⟩ := List.forall_mem_cons.mp plain
    have whole : rest.takeWhile isPlainIdentifierChar = rest :=
      List.takeWhile_eq_self_iff.mpr others
    simp [capital?, beginsWithCapital, whole]

theorem filterMap_capital?_of_plain {names : List Identifier}
    (plain : ∀ name ∈ names, ∀ character ∈ name.text, isPlainIdentifierChar character = true) :
    names.filterMap (fun name => capital? name.text) =
      (names.map Identifier.text).filter beginsWithCapital := by
  induction names with
  | nil => rfl
  | cons name names inductionHypothesis =>
    obtain ⟨first, others⟩ := List.forall_mem_cons.mp plain
    rw [List.filterMap_cons, capital?_of_plain first, inductionHypothesis others, List.map_cons,
      List.filter_cons]
    cases beginsWithCapital name.text <;> rfl

/-- The scan finds the names that are outside of what it takes for brackets. -/
theorem baseNames_textOf {tokens : List Token} (ready : Ready tokens) :
    baseNames (textOf tokens) =
      distinct ((namesOutside Token.seemsClosing 0 tokens).filterMap fun name =>
        capital? name.text) := by
  have behindComma := runs_outsideBrackets (ready comma rfl) 0
  have unspelled : isIdentifierChar ',' = false := by decide
  have left : stripBrackets (textOf tokens) =
      outsideBrackets 0 comma.text.getLast? (textOf tokens) :=
    outsideBrackets_none unspelled 0 (textOf tokens)
  rw [baseNames_eq, left, behindComma, List.filterMap_map]
  rfl

/-- In a written list of bases the capitalized names are found that are outside of brackets, if
each arrow is counted as a bracket that closes. Those of the paths are all among them, and if no
argument is the type of a function and all letters are plain, they are the only ones. -/
theorem baseNames_baseText (bases : List Base) :
    baseNames (baseText bases) =
        distinct ((namesOutside Token.seemsClosing 0 (baseTokens bases)).filterMap fun name =>
          capital? name.text) ∧
      (∀ name ∈ (pathNames bases).filterMap fun name => capital? name.text,
        name ∈ baseNames (baseText bases)) ∧
      ((∀ token ∈ baseTokens bases, token.isArrow = false) →
        (∀ name ∈ pathNames bases, ∀ character ∈ name.text,
          isPlainIdentifierChar character = true) →
        baseNames (baseText bases) =
          distinct (((pathNames bases).map Identifier.text).filter beginsWithCapital)) := by
  have found := baseNames_textOf (ready_baseTokens bases)
  refine ⟨found, fun name outside => ?_, fun noArrow plain => ?_⟩
  · have closes : ∀ token : Token, token.isClosing = true → token.seemsClosing = true :=
      fun token closing => by rw [Token.seemsClosing, closing, Bool.true_or]
    have kept : (pathNames bases).Sublist
        (namesOutside Token.seemsClosing 0 (baseTokens bases)) :=
      namesOutside_baseTokens bases ▸ namesOutside_sublist closes _ le_rfl
    rw [baseText, found, mem_distinct]
    exact (kept.filterMap _).subset outside
  · have agree : ∀ token ∈ baseTokens bases, token.seemsClosing = token.isClosing :=
      fun token member => by rw [Token.seemsClosing, noArrow token member, Bool.or_false]
    rw [baseText, found, namesOutside_congr agree, namesOutside_baseTokens,
      filterMap_capital?_of_plain plain]

/-! ### A base with arguments -/

/-- A path that is a letter alone. -/
def letterPath (letter : Char) (spelled : isIdentifierChar letter = true) : Path :=
  ⟨false, [], ⟨[letter], List.cons_ne_nil _ _, List.forall_mem_singleton.mpr spelled⟩⟩

/-- The type that a letter names, without arguments. -/
def letterType (letter : Char) (spelled : isIdentifierChar letter = true) : TypeText :=
  .named (letterPath letter spelled) .none

/-- The base `T<…, C>`. -/
def baseWithArguments (argument : TypeText) : Base where
  before := []
  path := letterPath 'T' (by decide)
  arguments := .angles (.more [] argument []
    (.last [⟨' ', by decide⟩] (letterType 'C' (by decide)) []))
  after := []

/-- The type `fn(A) -> B` of a function. -/
def functionType : TypeText :=
  .function .single (.last [] (letterType 'A' (by decide)) []) (letterType 'B' (by decide))

/-- Of the base `T<A, C>` only its own name is found. -/
theorem baseNames_baseText_letters : baseNames "T<A, C>".toList = ["T".toList] := by
  have written : baseText [baseWithArguments (letterType 'A' (by decide))] = "T<A, C>".toList :=
    by decide
  have plain : ∀ name ∈ pathNames [baseWithArguments (letterType 'A' (by decide))],
      ∀ character ∈ name.text, isPlainIdentifierChar character = true := by
    intro name member character inName
    obtain rfl := List.mem_singleton.mp member
    obtain rfl := List.mem_singleton.mp inName
    decide
  have found := (baseNames_baseText [baseWithArguments (letterType 'A' (by decide))]).2.2
    (by decide) plain
  rw [written] at found
  rw [found]
  decide

/-- Behind an arrow among its arguments names in brackets are found too. -/
theorem exists_baseNames_baseText_ne :
    ∃ bases, baseText bases = "T<fn(A) -> B, C>".toList ∧
      (pathNames bases).map Identifier.text = ["T".toList] ∧
      baseNames (baseText bases) = ["T".toList, "B".toList, "C".toList] :=
  ⟨[baseWithArguments functionType], by decide, by decide, by decide⟩

end CodeAtlas.Names
