/-
This file says what the scan for brackets leaves of a written type, token by token. The scan counts
how many brackets are open and takes the sign at the end of an arrow for one that closes. So the
names that are left are those outside of brackets, counted with each arrow as a closing bracket.
-/

import CodeAtlas.Proofs.Extraction.CapitalNames

namespace CodeAtlas.Names

open Text

/-! ### Tokens -/

/-- An identifier of a program. -/
structure Identifier where
  text : Chars
  isIdentifier : IsIdentifier text

/-- A pair of brackets around arguments. -/
inductive Bracket where
  | angle
  | square

/-- A way to write the type of a function: `(A) => B` or `fn(A) -> B`. -/
inductive FunctionStyle where
  | double
  | single

/-- The marks that the scan for brackets counts. -/
def bracketMarks : Chars :=
  ['<', '>', '[', ']']

/-- Whether a character stands between names and is no bracket around arguments. -/
structure IsSeparator (character : Char) : Prop where
  unspelled : isIdentifierChar character = false
  unbracketed : character ∉ bracketMarks

/-- A part of a written type that is not divided further. -/
inductive Token where
  | name (identifier : Identifier)
  | opening (bracket : Bracket)
  | closing (bracket : Bracket)
  | arrow (style : FunctionStyle)
  | separator (character : Char) (isSeparator : IsSeparator character)

namespace Token

/-- The text of a token. -/
def text : Token → Chars
  | name identifier => identifier.text
  | opening .angle => ['<']
  | opening .square => ['[']
  | closing .angle => ['>']
  | closing .square => [']']
  | arrow .double => ['=', '>']
  | arrow .single => ['-', '>']
  | separator character _ => [character]

/-- The names among a token: itself, if it is one. -/
def names : Token → List Identifier
  | name identifier => [identifier]
  | _ => []

/-- Whether a token closes a pair of brackets. -/
def isClosing : Token → Bool
  | closing _ => true
  | _ => false

/-- Whether a token is an arrow. -/
def isArrow : Token → Bool
  | arrow _ => true
  | _ => false

/-- Whether the scan takes a token for a closing bracket. -/
def seemsClosing (token : Token) : Bool :=
  token.isClosing || token.isArrow

/-- How many brackets are open after a token, if `closes` tells which tokens close one. -/
def depthAfter (closes : Token → Bool) (depth : Nat) : Token → Nat
  | opening _ => depth + 1
  | token => if closes token then depth - 1 else depth

/-- What is left of a token where no bracket is open. -/
def shown : Token → Chars
  | opening _ => []
  | token => token.text

/-- Whether a name can begin behind a token. -/
def isOpen : Token → Bool
  | opening _ => true
  | separator _ _ => true
  | _ => false

/-- Whether a token can follow another in a written type: no name follows what does not separate
it, and an angle that opens follows a name. -/
def MayFollow (before : Token) : Token → Prop
  | name _ => before.isOpen = true
  | opening .angle => before.names ≠ []
  | _ => True

/-- Whether tokens can follow a token and each other. -/
def Chained (before : Token) (tokens : List Token) : Prop :=
  (before :: tokens).IsChain MayFollow

end Token

/-- The text of some tokens. -/
def textOf (tokens : List Token) : Chars :=
  tokens.flatMap Token.text

/-- The names among some tokens that stand outside of brackets, if `depth` brackets are open
before them and `closes` tells which tokens close one. -/
def namesOutside (closes : Token → Bool) (depth : Nat) : List Token → List Identifier
  | [] => []
  | token :: tokens =>
    (if depth = 0 then token.names else []) ++
      namesOutside closes (token.depthAfter closes depth) tokens

/-! ### The scan for brackets -/

theorem getLast?_cons_or (first : Char) (text : Chars) (previous : Option Char) :
    (first :: text).getLast?.or previous = text.getLast?.or (some first) := by
  rw [List.getLast?_cons]
  cases text.getLast? <;> rfl

theorem outsideBrackets_append_of_unbracketed {text : Chars}
    (unbracketed : ∀ character ∈ text, character ∉ bracketMarks) (depth : Nat)
    (previous : Option Char) (rest : Chars) :
    outsideBrackets depth previous (text ++ rest) =
      (if depth = 0 then text else []) ++
        outsideBrackets depth (text.getLast?.or previous) rest := by
  induction text generalizing previous with
  | nil => simp
  | cons character text inductionHypothesis =>
    obtain ⟨first, others⟩ := List.forall_mem_cons.mp unbracketed
    simp only [bracketMarks, List.mem_cons, List.not_mem_nil, or_false, not_or] at first
    rw [List.cons_append, outsideBrackets, getLast?_cons_or, inductionHypothesis others]
    simp only [first, false_and, or_self, ↓reduceIte]
    split <;> rfl

/-- Where nothing stands before a text, that is as if a mark stood there that no identifier has. -/
theorem outsideBrackets_none {mark : Char} (unspelled : isIdentifierChar mark = false)
    (depth : Nat) (text : Chars) :
    outsideBrackets depth none text = outsideBrackets depth (some mark) text := by
  cases text with
  | nil => rfl
  | cons character text => simp [outsideBrackets, unspelled]

theorem isIdentifierChar_bracketMarks :
    ∀ mark ∈ bracketMarks, isIdentifierChar mark = false :=
  unspelled_of_all (by decide)

theorem Identifier.unbracketed (identifier : Identifier) :
    ∀ character ∈ identifier.text, character ∉ bracketMarks := by
  intro character member isBracket
  have spelled := identifier.isIdentifier.spelled character member
  rw [isIdentifierChar_bracketMarks character isBracket] at spelled
  cases spelled

theorem Identifier.getLast?_any (identifier : Identifier) :
    identifier.text.getLast?.any isIdentifierChar = true := by
  rw [List.getLast?_eq_some_getLast identifier.isIdentifier.named]
  exact identifier.isIdentifier.spelled _ (List.getLast_mem _)

/-- An angle can only open behind a name. -/
theorem Token.any_getLast?_of_mayFollow {before : Token}
    (mayFollow : MayFollow before (.opening .angle)) :
    before.text.getLast?.any isIdentifierChar = true := by
  cases before with
  | name identifier => exact identifier.getLast?_any
  | _ => exact absurd rfl mayFollow

/-- Where no bracket is open a token is left, unless it opens one; elsewhere nothing is left of
it. Either way the count goes on behind it. -/
theorem outsideBrackets_token {before token : Token} (mayFollow : before.MayFollow token)
    (depth : Nat) (rest : Chars) :
    outsideBrackets depth before.text.getLast? (token.text ++ rest) =
      (if depth = 0 then token.shown else []) ++
        outsideBrackets (token.depthAfter Token.seemsClosing depth) token.text.getLast? rest := by
  cases token with
  | name identifier =>
    rw [Token.text, outsideBrackets_append_of_unbracketed identifier.unbracketed,
      List.getLast?_eq_some_getLast identifier.isIdentifier.named]
    rfl
  | opening bracket =>
    cases bracket with
    | angle =>
      have opens := Token.any_getLast?_of_mayFollow mayFollow
      generalize before.text.getLast? = previous at opens ⊢
      simp [Token.text, Token.shown, Token.depthAfter, outsideBrackets, opens]
    | square => simp [Token.text, Token.shown, Token.depthAfter, outsideBrackets]
  | closing bracket =>
    cases bracket <;> cases depth <;>
      simp [Token.text, Token.shown, Token.depthAfter, Token.seemsClosing, Token.isClosing,
        outsideBrackets]
  | arrow style =>
    cases style <;> cases depth <;>
      simp [Token.text, Token.shown, Token.depthAfter, Token.seemsClosing, Token.isClosing,
        Token.isArrow, outsideBrackets]
  | separator character isSeparator =>
    rw [Token.text, outsideBrackets_append_of_unbracketed
      (List.forall_mem_singleton.mpr isSeparator.unbracketed)]
    rfl

/-! ### The names that are left -/

section

variable {before : Token} {tokens : List Token} (chained : before.Chained tokens)

include chained

/-- What is left behind a token does not go on with an identifier: a name follows only what
separates it, or what hides it. -/
theorem detached_outsideBrackets (depth : Nat) (closed : depth = 0 → before.isOpen = false) :
    Detached (outsideBrackets depth before.text.getLast? (textOf tokens)) := by
  induction tokens generalizing before depth with
  | nil => intro character begins; cases begins
  | cons token tokens inductionHypothesis =>
    obtain ⟨mayFollow, others⟩ := List.isChain_cons_cons.mp chained
    rw [textOf, List.flatMap_cons, outsideBrackets_token mayFollow]
    have goesOn := inductionHypothesis others (token.depthAfter Token.seemsClosing depth)
    cases token with
    | name identifier =>
      have isOpen : before.isOpen = true := mayFollow
      have hidden : depth ≠ 0 := fun outside =>
        Bool.false_ne_true ((closed outside).symm.trans isOpen)
      rw [if_neg hidden]
      exact goesOn fun outside => rfl
    | opening bracket =>
      rw [Token.shown, ite_self]
      exact goesOn fun outside => absurd outside (Nat.succ_ne_zero _)
    | closing bracket =>
      split
      · cases bracket <;> exact fun character begins => Option.some.inj begins ▸ rfl
      · exact goesOn fun outside => rfl
    | arrow style =>
      split
      · cases style <;> exact fun character begins => Option.some.inj begins ▸ rfl
      · exact goesOn fun outside => rfl
    | separator character isSeparator =>
      split
      · exact fun other begins => Option.some.inj begins ▸ isSeparator.unspelled
      · next hidden => exact goesOn fun outside => absurd outside hidden

/-- The runs of what is left are the names outside of what the scan takes for brackets. -/
theorem runs_outsideBrackets (depth : Nat) :
    runs (outsideBrackets depth before.text.getLast? (textOf tokens)) =
      (namesOutside Token.seemsClosing depth tokens).map Identifier.text := by
  induction tokens generalizing before depth with
  | nil => rfl
  | cons token tokens inductionHypothesis =>
    obtain ⟨mayFollow, others⟩ := List.isChain_cons_cons.mp chained
    rw [textOf, List.flatMap_cons, outsideBrackets_token mayFollow, namesOutside, List.map_append,
      ← inductionHypothesis others]
    split
    · next outside =>
      cases token with
      | name identifier =>
        exact runs_append_of_detached identifier.isIdentifier
          (detached_outsideBrackets others _ fun _ => rfl)
      | opening bracket => rfl
      | closing bracket =>
        refine runs_append_of_marks ?_ _
        cases bracket <;> exact unspelled_of_all (by decide)
      | arrow style =>
        refine runs_append_of_marks ?_ _
        cases style <;> exact unspelled_of_all (by decide)
      | separator character isSeparator => exact runs_cons_of_mark isSeparator.unspelled _
    · rfl

end

/-! ### Which names are outside -/

section

variable {closesFew closesMany : Token → Bool}
  (closes : ∀ token, closesFew token = true → closesMany token = true)

include closes

theorem Token.depthAfter_le (token : Token) {less more : Nat} (deeper : less ≤ more) :
    token.depthAfter closesMany less ≤ token.depthAfter closesFew more := by
  have closing : (if closesMany token then less - 1 else less) ≤
      if closesFew token then more - 1 else more := by
    by_cases few : closesFew token = true
    · rw [if_pos few, if_pos (closes token few)]
      exact Nat.sub_le_sub_right deeper 1
    · rw [if_neg few]
      split
      · exact (Nat.sub_le less 1).trans deeper
      · exact deeper
  cases token with
  | opening bracket => exact Nat.succ_le_succ deeper
  | _ => exact closing

/-- If fewer tokens close a bracket and more brackets are open, then fewer names are outside. -/
theorem namesOutside_sublist (tokens : List Token) {less more : Nat} (deeper : less ≤ more) :
    (namesOutside closesFew more tokens).Sublist (namesOutside closesMany less tokens) := by
  induction tokens generalizing less more with
  | nil => exact .slnil
  | cons token tokens inductionHypothesis =>
    refine List.Sublist.append ?_ (inductionHypothesis (token.depthAfter_le closes deeper))
    split
    · next outside => rw [if_pos (Nat.le_zero.mp (outside ▸ deeper))]
    · exact List.nil_sublist _

end

/-- Where all tokens agree on whether they close a bracket, the same names are outside. -/
theorem namesOutside_congr {closes others : Token → Bool} {tokens : List Token}
    (same : ∀ token ∈ tokens, closes token = others token) (depth : Nat) :
    namesOutside closes depth tokens = namesOutside others depth tokens := by
  induction tokens generalizing depth with
  | nil => rfl
  | cons token tokens inductionHypothesis =>
    obtain ⟨first, rest⟩ := List.forall_mem_cons.mp same
    have sameDepth : token.depthAfter closes depth = token.depthAfter others depth := by
      cases token with
      | opening bracket => rfl
      | _ => simp only [Token.depthAfter, first]
    rw [namesOutside, namesOutside, sameDepth, inductionHypothesis rest]

end CodeAtlas.Names
