/-
This file says of which written types the bare name of the class is found. Arguments and a path are
cut off with everything before them, references included. Without a path the marks of references
are stripped once: every mark that only points, and then one that lets write. So a mark with a
lifetime stays in the name, and so do all marks behind one that lets write.
-/

import CodeAtlas.Extraction.Names
import CodeAtlas.Proofs.Text.Cutting
import CodeAtlas.Proofs.Text.Identifiers

namespace CodeAtlas.Names

open Text

/-! ### Types as they are written -/

/-- A mark that makes a type a reference: with a lifetime or without one, for reading alone or for
writing too. -/
structure ReferenceMark where
  lifetime : Option Chars
  isMutable : Bool
deriving DecidableEq

/-- The text of a mark: the sign of a reference, the lifetime and the word that lets write, each of
the latter with a space behind it. -/
def ReferenceMark.written (mark : ReferenceMark) : Chars :=
  '&' :: ((mark.lifetime.elim [] fun lifetime => '\'' :: lifetime ++ [' ']) ++
    if mark.isMutable then "mut ".toList else [])

/-- A type that refers to a class. -/
structure ClassType where
  marks : List ReferenceMark
  /-- The modules in which the class is named, outermost first. -/
  path : List Chars
  name : Chars
  /-- What stands between the angles of the type arguments. -/
  arguments : Option Chars

namespace ClassType

/-- The type without its arguments. -/
def plain (type : ClassType) : Chars :=
  type.marks.flatMap ReferenceMark.written ++ type.path.flatMap (· ++ [':', ':']) ++ type.name

/-- The text of a type. -/
def written (type : ClassType) : Chars :=
  type.plain ++ type.arguments.elim [] fun arguments => '<' :: arguments ++ ['>']

/-- Whether all names in a type are identifiers. A path may begin with colons. -/
structure WellNamed (type : ClassType) : Prop where
  name : IsIdentifier type.name
  path : ∀ segment ∈ type.path, segment = [] ∨ IsIdentifier segment
  lifetimes : ∀ mark ∈ type.marks, ∀ lifetime ∈ mark.lifetime, IsIdentifier lifetime

end ClassType

/-! ### Marks that are stripped -/

/-- Whether the marks before a name are stripped altogether: none has a lifetime, and none but the
last lets write. -/
structure Strippable (marks : List ReferenceMark) : Prop where
  anonymous : ∀ mark ∈ marks, mark.lifetime = none
  readable : ∀ mark ∈ marks.dropLast, mark.isMutable = false

/-- A bare type without the marks of references that are stripped. -/
def stripReference (bare : Chars) : Chars :=
  let plain := trim ((trim bare).dropWhile (· = '&'))
  trim ((stripFront? "mut ".toList plain).getD plain)

theorem className_eq (text : Chars) :
    className text = stripReference (afterLast [':', ':'] (beforeFirst ['<'] text)) :=
  rfl

theorem strippable_cons_plain {marks : List ReferenceMark} :
    Strippable (⟨none, false⟩ :: marks) ↔ Strippable marks := by
  cases marks with
  | nil => exact ⟨fun _ => ⟨by simp, by simp⟩, fun _ => ⟨by simp, by simp⟩⟩
  | cons next marks =>
    constructor
    · rintro ⟨anonymous, readable⟩
      exact ⟨(List.forall_mem_cons.mp anonymous).2, (List.forall_mem_cons.mp readable).2⟩
    · rintro ⟨anonymous, readable⟩
      exact ⟨List.forall_mem_cons.mpr ⟨rfl, anonymous⟩, List.forall_mem_cons.mpr ⟨rfl, readable⟩⟩

theorem strippable_cons_mutable {marks : List ReferenceMark} :
    Strippable (⟨none, true⟩ :: marks) ↔ marks = [] := by
  cases marks with
  | nil => exact ⟨fun _ => rfl, fun _ => ⟨by simp, by simp⟩⟩
  | cons next marks =>
    refine iff_of_false ?_ (List.cons_ne_nil next marks)
    rintro ⟨_, readable⟩
    cases readable _ List.mem_cons_self

theorem head?_flatMap_written (marks : List ReferenceMark) :
    ∀ character ∈ (marks.flatMap ReferenceMark.written).head?, character = '&' := by
  cases marks with
  | nil => simp
  | cons mark marks => exact fun character begins => (Option.some.inj begins).symm

section

variable {name : Chars} (identifier : IsIdentifier name)

include identifier

theorem trim_append_identifier {front : Chars}
    (begins : ∀ character ∈ front.head?, isBlank character = false) :
    trim (front ++ name) = front ++ name :=
  trim_append_of_trimmed identifier.named (trim_eq_self identifier.unblank) begins

theorem trim_marks (marks : List ReferenceMark) :
    trim (marks.flatMap ReferenceMark.written ++ name) =
      marks.flatMap ReferenceMark.written ++ name := by
  refine trim_append_identifier identifier fun character begins => ?_
  rw [head?_flatMap_written marks character begins]
  rfl

theorem stripReference_name : stripReference name = name := by
  have trimmed := trim_eq_self identifier.unblank
  have notReference : name.dropWhile (· = '&') = name := by
    refine dropWhile_eq_self fun character begins => decide_eq_false ?_
    rintro rfl
    exact identifier.notMem (by decide) (List.mem_of_mem_head? begins)
  have notMutable : stripFront? "mut ".toList name = none := by
    have noSpace : ' ' ∉ name := identifier.notMem (by decide)
    refine stripFront?_eq_none_iff.mpr ?_
    rintro ⟨rest, rfl⟩
    simp at noSpace
  rw [stripReference, trimmed, notReference, trimmed, notMutable]
  exact trimmed

/-- A mark that only points is stripped together with those behind it. -/
theorem stripReference_plain (marks : List ReferenceMark) :
    stripReference ('&' :: (marks.flatMap ReferenceMark.written ++ name)) =
      stripReference (marks.flatMap ReferenceMark.written ++ name) := by
  have trimmed : trim ('&' :: (marks.flatMap ReferenceMark.written ++ name)) =
      '&' :: (marks.flatMap ReferenceMark.written ++ name) :=
    trim_marks identifier (⟨none, false⟩ :: marks)
  rw [stripReference, stripReference, trimmed, trim_marks identifier marks]
  rfl

/-- Behind a mark that lets write nothing more is stripped. -/
theorem stripReference_mutable (marks : List ReferenceMark) :
    stripReference ("&mut ".toList ++ (marks.flatMap ReferenceMark.written ++ name)) =
      marks.flatMap ReferenceMark.written ++ name := by
  have trimmed : trim ("&mut ".toList ++ (marks.flatMap ReferenceMark.written ++ name)) =
      "&mut ".toList ++ (marks.flatMap ReferenceMark.written ++ name) :=
    trim_marks identifier (⟨none, true⟩ :: marks)
  have trimmedBehind : trim ("mut ".toList ++ marks.flatMap ReferenceMark.written ++ name) =
      "mut ".toList ++ marks.flatMap ReferenceMark.written ++ name :=
    trim_append_identifier identifier fun character begins => Option.some.inj begins ▸ rfl
  rw [List.append_assoc] at trimmedBehind
  have notReference : ("&mut ".toList ++ (marks.flatMap ReferenceMark.written ++ name)).dropWhile
      (· = '&') = "mut ".toList ++ (marks.flatMap ReferenceMark.written ++ name) := rfl
  rw [stripReference, trimmed, notReference, trimmedBehind, stripFront?_append]
  exact trim_marks identifier marks

/-- Before a lifetime only the sign of the reference is stripped. -/
theorem stripReference_lifetime (lifetime : Chars) (isMutable : Bool)
    (marks : List ReferenceMark) :
    '\'' ∈ (stripReference ((⟨some lifetime, isMutable⟩ :: marks).flatMap ReferenceMark.written ++
      name)).head? := by
  have trimmed := trim_marks identifier (⟨some lifetime, isMutable⟩ :: marks)
  obtain ⟨front, divided⟩ : ∃ front,
      (⟨some lifetime, isMutable⟩ :: marks).flatMap ReferenceMark.written = '&' :: '\'' :: front :=
    ⟨_, rfl⟩
  rw [divided] at trimmed ⊢
  have trimmedBehind : trim ('\'' :: front ++ name) = '\'' :: front ++ name :=
    trim_append_identifier identifier fun character begins => Option.some.inj begins ▸ rfl
  have notReference : ('&' :: '\'' :: front ++ name).dropWhile (· = '&') =
      '\'' :: front ++ name := rfl
  have notMutable : stripFront? "mut ".toList ('\'' :: front ++ name) = none := rfl
  rw [stripReference, trimmed, notReference, trimmedBehind, notMutable, Option.getD_none,
    trimmedBehind]
  rfl

/-- Of marks and a name the name is left exactly if all marks are stripped. -/
theorem stripReference_eq_iff (marks : List ReferenceMark) :
    stripReference (marks.flatMap ReferenceMark.written ++ name) = name ↔
      Strippable marks := by
  induction marks with
  | nil => exact iff_of_true (stripReference_name identifier) ⟨by simp, by simp⟩
  | cons mark marks inductionHypothesis =>
    obtain ⟨_ | lifetime, isMutable⟩ := mark
    · cases isMutable with
      | false =>
        rw [strippable_cons_plain, ← inductionHypothesis]
        exact iff_of_eq (congrArg (· = name) (stripReference_plain identifier marks))
      | true =>
        have stripped : stripReference ((⟨none, true⟩ :: marks).flatMap ReferenceMark.written ++
            name) = marks.flatMap ReferenceMark.written ++ name :=
          stripReference_mutable identifier marks
        rw [strippable_cons_mutable, stripped, List.append_left_eq_self]
        cases marks <;> simp [ReferenceMark.written]
    · refine iff_of_false (fun same => ?_) fun strippable => ?_
      · have begins := stripReference_lifetime identifier lifetime isMutable marks
        rw [same] at begins
        exact identifier.notMem (by decide) (List.mem_of_mem_head? begins)
      · cases strippable.anonymous _ List.mem_cons_self

end

/-! ### The name of a type -/

/-- Nothing but the sign of a reference, that of a lifetime and spaces stands around the words of a
mark. -/
theorem of_mem_written {mark : ReferenceMark}
    (named : ∀ lifetime ∈ mark.lifetime, IsIdentifier lifetime) {character : Char}
    (member : character ∈ mark.written) :
    character ∈ ['&', '\'', ' '] ∨ isIdentifierChar character = true := by
  obtain ⟨lifetime, isMutable⟩ := mark
  rw [ReferenceMark.written, List.mem_cons, List.mem_append] at member
  rcases member with rfl | inLifetime | inWord
  · exact .inl (by decide)
  · cases lifetime with
    | none => cases inLifetime
    | some lifetime =>
      rcases List.mem_append.mp inLifetime with inLifetime | isSpace
      · rcases List.mem_cons.mp inLifetime with rfl | inName
        · exact .inl (by decide)
        · exact .inr ((named lifetime rfl).spelled character inName)
      · rw [List.mem_singleton.mp isSpace]
        exact .inl (by decide)
  · cases isMutable with
    | false => cases inWord
    | true =>
      have inWord : character ∈ "mut".toList ++ [' '] := inWord
      rcases List.mem_append.mp inWord with inMut | isSpace
      · exact .inr ((isIdentifier_of_all (by decide) (by decide)).spelled character inMut)
      · rw [List.mem_singleton.mp isSpace]
        exact .inl (by decide)

namespace ClassType

variable {type : ClassType} (wellNamed : type.WellNamed)

include wellNamed

/-- No mark but those of references stands in the marks and the name of a type. -/
theorem WellNamed.notMem_marks {mark : Char} (unspelled : isIdentifierChar mark = false)
    (other : mark ∉ ['&', '\'', ' ']) :
    mark ∉ type.marks.flatMap ReferenceMark.written ++ type.name := by
  refine List.not_mem_append (fun member => ?_) (wellNamed.name.notMem unspelled)
  obtain ⟨reference, isMark, inMark⟩ := List.mem_flatMap.mp member
  refine (of_mem_written (wellNamed.lifetimes reference isMark) inMark).elim other fun spelled => ?_
  rw [unspelled] at spelled
  cases spelled

/-- A type is cut off its arguments. -/
theorem WellNamed.beforeFirst_written : beforeFirst ['<'] type.written = type.plain := by
  have free : '<' ∉ type.plain := by
    have inPath : '<' ∉ type.path.flatMap (· ++ [':', ':']) := by
      intro member
      obtain ⟨segment, isSegment, member⟩ := List.mem_flatMap.mp member
      refine List.not_mem_append (fun inSegment => ?_) (by decide) member
      rcases wellNamed.path segment isSegment with rfl | identifier
      · cases inSegment
      · exact identifier.notMem (by decide) inSegment
    have outside : '<' ∉ type.marks.flatMap ReferenceMark.written ++ type.name :=
      wellNamed.notMem_marks (by decide) (by decide)
    rw [List.mem_append, not_or] at outside
    exact List.not_mem_append (List.not_mem_append outside.1 inPath) outside.2
  rw [written]
  cases type.arguments with
  | none => exact (List.append_nil type.plain).symm ▸ beforeFirst_of_notMem free
  | some arguments => exact beforeFirst_append_cons free _

/-- The name is found behind the path, and if there is none, as it is left when the marks of
references are stripped. -/
theorem WellNamed.className_written :
    className type.written =
      if type.path = [] then
        stripReference (type.marks.flatMap ReferenceMark.written ++ type.name)
      else type.name := by
  rw [className_eq, wellNamed.beforeFirst_written, plain]
  split
  · next noPath =>
    have inSeparator : ':' ∈ [':', ':'] := by decide
    rw [noPath, List.flatMap_nil, List.append_nil, afterLast_of_notMem inSeparator
      (wellNamed.notMem_marks (by decide) (by decide))]
  · next hasPath =>
    obtain ⟨front, last, divided⟩ := (List.eq_nil_or_concat' type.path).resolve_left hasPath
    have behind : afterLast [':', ':'] (type.marks.flatMap ReferenceMark.written ++
        type.path.flatMap (· ++ [':', ':']) ++ type.name) = type.name := by
      have free : ':' ∉ type.name := wellNamed.name.notMem (by decide)
      have cut := afterLast_append [':']
        (type.marks.flatMap ReferenceMark.written ++ front.flatMap (· ++ [':', ':']) ++ last) free
      rw [divided]
      simpa using cut
    rw [behind, stripReference_name wellNamed.name]

/-- The bare name of a type is the name of its class exactly if the class is named by a path or all
marks of references are stripped; and the name of a class is its own bare name. -/
theorem className_written_iff :
    (className type.written = type.name ↔ type.path ≠ [] ∨ Strippable type.marks) ∧
      className type.name = type.name := by
  refine ⟨?_, ?_⟩
  · rw [wellNamed.className_written]
    split
    · next noPath => simpa [noPath] using stripReference_eq_iff wellNamed.name type.marks
    · next hasPath => exact iff_of_true rfl (.inl hasPath)
  · have inSeparator : ':' ∈ [':', ':'] := by decide
    rw [className_eq, beforeFirst_of_notMem (wellNamed.name.notMem (by decide)),
      afterLast_of_notMem inSeparator (wellNamed.name.notMem (by decide)),
      stripReference_name wellNamed.name]

omit wellNamed

/-- A type of a class with one argument, behind some marks and a path. -/
def shape (marks : List ReferenceMark) (path : List Chars) : ClassType where
  marks := marks
  path := path
  name := "Shape".toList
  arguments := some "T".toList

theorem wellNamed_shape {marks : List ReferenceMark} {path : List Chars}
    (named : ∀ segment ∈ path, IsIdentifier segment)
    (lifetimes : ∀ mark ∈ marks, ∀ lifetime ∈ mark.lifetime, IsIdentifier lifetime) :
    (shape marks path).WellNamed := by
  have name : IsIdentifier "Shape".toList := isIdentifier_of_all (by decide) (by decide)
  exact ⟨name, fun segment isSegment => .inr (named segment isSegment), lifetimes⟩

theorem lifetime_a : ∀ lifetime ∈ some ['a'], IsIdentifier lifetime :=
  fun _ isLifetime => Option.some.inj isLifetime ▸ isIdentifier_of_all (by decide) (by decide)

/-- Two marks without lifetimes are stripped, and a lifetime before a path is cut off. -/
theorem className_written_iff_shape :
    className "&&mut Shape<T>".toList = "Shape".toList ∧
      className "&'a mut crate::Shape<T>".toList = "Shape".toList := by
  have stripped : (shape [⟨none, false⟩, ⟨none, true⟩] []).WellNamed :=
    wellNamed_shape (by simp) (by simp)
  have crate : IsIdentifier "crate".toList := isIdentifier_of_all (by decide) (by decide)
  have cutOff : (shape [⟨some ['a'], true⟩] ["crate".toList]).WellNamed :=
    wellNamed_shape (List.forall_mem_singleton.mpr crate) (List.forall_mem_singleton.mpr lifetime_a)
  constructor
  · exact (className_written_iff stripped).1.mpr (.inr ⟨by simp [shape], by simp [shape]⟩)
  · exact (className_written_iff cutOff).1.mpr (.inl (List.cons_ne_nil _ _))

/-- A lifetime before a name stays in it. -/
theorem exists_className_written_ne :
    ∃ type : ClassType, type.WellNamed ∧ type.written = "&'a Shape<T>".toList ∧
      className type.written = "'a Shape".toList ∧ className type.written ≠ type.name :=
  ⟨shape [⟨some ['a'], false⟩] [], wellNamed_shape (by simp)
    (List.forall_mem_singleton.mpr lifetime_a), by decide +kernel⟩

end ClassType

end CodeAtlas.Names
