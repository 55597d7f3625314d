/-
This file says what comes out when the functions of a file are given to its classes, whatever the
file holds already. A class keeps its methods and takes the functions of which it is the home, so
that nothing is lost or doubled as long as no two functions or methods have one offset. What is free
afterwards lies in no class, and as the lines of the classes do not change, functions can be given
to classes again and again without changing anything more.
-/

import CodeAtlas.Proofs.Extraction.Parts
import Mathlib.Data.List.Perm.Subperm
import Mathlib.Logic.Function.Iterate

namespace CodeAtlas.Ownership

variable {classes : List Class} {functions : List Function} {function other : Function}

/-! ### Homes -/

/-- Whether the lines of some class hold those of a function. -/
def isHeld (classes : List Class) (function : Function) : Bool :=
  classes.any fun owner => owner.containsLines function.startLine function.endLine

theorem isSome_owner? (classes : List Class) (function : Function) :
    (owner? classes function).isSome = isHeld classes function := by
  refine Bool.eq_iff_iff.mpr ?_
  rw [isHeld, List.any_eq_true, ← Option.ne_none_iff_isSome, ne_eq, owner?_eq_none_iff]
  simp

theorem isNone_owner? (classes : List Class) (function : Function) :
    (owner? classes function).isNone = !isHeld classes function := by
  rw [← isSome_owner?, Option.not_isSome]

theorem isHeld_congr {others : List Class} (same : classes.map span = others.map span)
    (function : Function) : isHeld classes function = isHeld others function := by
  rw [← isSome_owner?, ← isSome_owner?, owner?_congr same]

/-- Lines are counted in machine words: the count is the difference, or nothing if the last line
comes before the first, and one more. -/
theorem lineCount_toNat (first last : UInt64) :
    lineCount first.toNat last.toNat =
      ((if first ≤ last then last - first else 0) + 1).toNat := by
  have firstBound := first.toNat_lt_size
  have lastBound := last.toNat_lt_size
  unfold lineCount
  by_cases ordered : first ≤ last
  · have difference := UInt64.toNat_sub_of_le last first ordered
    rw [if_pos ordered, UInt64.toNat_add, difference, UInt64.toNat_one]
    rw [UInt64.le_iff_toNat_le] at ordered
    simp only [UInt64.size] at firstBound lastBound ⊢
    split <;> omega
  · rw [if_neg ordered]
    rw [UInt64.le_iff_toNat_le] at ordered
    have later : last.toNat - first.toNat + 1 = 1 := by omega
    rw [later, if_neg (by omega)]
    rfl

/-- The number of lines that a class holds, however many they are. -/
def linesHeld (owner : Class) : Nat :=
  owner.endLine - owner.startLine + 1

/-- Whether a machine word can count the lines of a class. It can unless the class holds all lines
that a word can number, nought among them. -/
def IsCounted (owner : Class) : Prop :=
  ¬ (owner.startLine = 0 ∧ owner.endLine + 1 = UInt64.size)

theorem lineCount_of_isCounted {owner : Class} (counted : IsCounted owner) :
    owner.lineCount = linesHeld owner :=
  if_neg counted

/-- Whether a class, at an index, is the home of a function: it holds the lines of the function,
and of the classes that do, if their lines can be counted, it has the fewest lines, of those with as
few it begins last, and of those that begin there it is the first. -/
structure IsHome (classes : List Class) (function : Function) (index : Nat) (owner : Class) :
    Prop where
  found : classes[index]? = some owner
  holds : owner.containsLines function.startLine function.endLine = true
  before : (∀ holder ∈ classes,
      holder.containsLines function.startLine function.endLine = true → IsCounted holder) →
    ∀ place other, classes[place]? = some other →
      other.containsLines function.startLine function.endLine = true →
        linesHeld owner < linesHeld other ∨ linesHeld owner = linesHeld other ∧
          (other.startLine < owner.startLine ∨
            other.startLine = owner.startLine ∧ index ≤ place)

theorem exists_isHome_of_owner? {index : Nat} (home : owner? classes function = some index) :
    ∃ owner, IsHome classes function index owner := by
  obtain ⟨owner, found, holds, least⟩ := isNearest_of_owner? home
  refine ⟨owner, found, holds, fun counted place other atPlace otherHolds => ?_⟩
  have count := lineCount_of_isCounted (counted owner (List.mem_of_getElem? found) holds)
  have otherCount :=
    lineCount_of_isCounted (counted other (List.mem_of_getElem? atPlace) otherHolds)
  rcases least place other atPlace otherHolds with nearest | ⟨notNearer, earlier⟩
  · rw [nearer_iff, count, otherCount] at nearest
    omega
  · rw [Bool.eq_false_iff, ne_eq, nearer_iff, count, otherCount] at notNearer
    omega

/-! ### Receiving functions -/

/-- Whether no method of some classes has the offset of a function. -/
def IsFresh (classes : List Class) (function : Function) : Prop :=
  ∀ method ∈ classes.flatMap Class.methods, method.offset ≠ function.offset

theorem receive_of_fresh {owner : Class}
    (fresh : ∀ method ∈ owner.methods, method.offset ≠ function.offset) :
    receive owner function = { owner with methods := owner.methods ++ [asMethod function] } := by
  refine if_neg fun present => ?_
  obtain ⟨method, member, same⟩ := List.any_eq_true.mp present
  exact fresh method member (of_decide_eq_true same)

/-- A function that some class holds becomes one more method, and nothing else does. -/
theorem perm_methods_place (fresh : IsFresh classes function) :
    ((place classes function).flatMap Class.methods).Perm
      ((if isHeld classes function then [asMethod function] else []) ++
        classes.flatMap Class.methods) := by
  rw [← isSome_owner?]
  unfold place
  cases home : owner? classes function with
  | none => exact .refl _
  | some index =>
    have inside := owner?_lt_length home
    have freshInside : ∀ method ∈ classes[index].methods, method.offset ≠ function.offset :=
      fun method member => fresh method (List.mem_flatMap.mpr ⟨_, List.getElem_mem inside, member⟩)
    have divided : classes = classes.take index ++ classes[index] :: classes.drop (index + 1) := by
      rw [List.getElem_cons_drop, List.take_append_drop]
    show ((classes.modify index (receive · function)).flatMap Class.methods).Perm
      (asMethod function :: classes.flatMap Class.methods)
    conv_rhs => rw [divided]
    rw [List.modify_eq_take_cons_drop inside, receive_of_fresh freshInside]
    simp only [List.flatMap_append, List.flatMap_cons, List.append_assoc, List.singleton_append]
    rw [← List.append_assoc, ← List.append_assoc]
    exact List.perm_middle

theorem isFresh_place (fresh : IsFresh classes function) (otherFresh : IsFresh classes other)
    (different : function.offset ≠ other.offset) : IsFresh (place classes function) other := by
  intro method member
  rcases List.mem_append.mp ((perm_methods_place fresh).mem_iff.mp member) with new | old
  · split at new
    · rw [List.mem_singleton.mp new]
      exact different
    · cases new
  · exact otherFresh method old

/-- What is needed so that no function is taken for another: no two functions have one offset, and
no method has the offset of a function. -/
structure Distinct (classes : List Class) (functions : List Function) : Prop where
  apart : functions.Pairwise fun first second => first.offset ≠ second.offset
  fresh : ∀ function ∈ functions, IsFresh classes function

theorem distinct_of_nodup {file : FileRecord}
    (once : (file.allFunctions.map Function.offset).Nodup) :
    Distinct file.classes file.functions := by
  rw [FileRecord.allFunctions, List.map_append, List.nodup_append] at once
  obtain ⟨functions, _, apart⟩ := once
  refine ⟨List.pairwise_map.mp functions, fun function member method isMethod same => ?_⟩
  exact apart _ (List.mem_map_of_mem member) _ (List.mem_map_of_mem isMethod) same.symm

/-- The functions that classes hold become methods, and the classes keep those that they have. -/
theorem perm_methods_foldl_place (distinct : Distinct classes functions) :
    ((functions.foldl place classes).flatMap Class.methods).Perm
      ((functions.filter (isHeld classes)).map asMethod ++ classes.flatMap Class.methods) := by
  induction functions generalizing classes with
  | nil => exact .refl _
  | cons function functions inductionHypothesis =>
    obtain ⟨others, apart⟩ := List.pairwise_cons.mp distinct.apart
    obtain ⟨fresh, othersFresh⟩ := List.forall_mem_cons.mp distinct.fresh
    have distinctAfter : Distinct (place classes function) functions := ⟨apart,
      fun other member => isFresh_place fresh (othersFresh other member) (others other member)⟩
    have rest := inductionHypothesis distinctAfter
    have sameHeld : isHeld (place classes function) = isHeld classes :=
      funext (isHeld_congr (map_span_place classes function))
    rw [sameHeld] at rest
    refine rest.trans (((perm_methods_place fresh).append_left _).trans ?_)
    rw [List.filter_cons]
    split
    · exact List.perm_middle
    · exact .refl _

/-- Every class keeps its methods and takes the functions that it owns. -/
theorem getElem?_foldl_place (distinct : Distinct classes functions) (index : Nat) :
    (functions.foldl place classes)[index]? = classes[index]?.map fun owner => { owner with
      methods := owner.methods ++ (ownedBy classes functions index).map asMethod } := by
  rw [foldl_place, List.getElem?_mapIdx]
  cases found : classes[index]? with
  | none => rfl
  | some owner =>
    refine congrArg some (foldl_receive _ owner (distinct.apart.filter _) ?_)
    intro function isOwned method isMethod
    exact distinct.fresh function (mem_ownedBy_iff.mp isOwned).1 method
      (List.mem_flatMap.mpr ⟨owner, List.mem_of_getElem? found, isMethod⟩)

/-! ### Sorting methods -/

theorem standsBefore_iff {first second : Function} : standsBefore first second = true ↔
    first.startLine < second.startLine ∨
      first.startLine = second.startLine ∧ first.offset ≤ second.offset := by
  simp [standsBefore]

theorem sorted_sortMethods (owner : Class) :
    (sortMethods owner).methods.Pairwise fun first second => standsBefore first second = true := by
  refine List.pairwise_mergeSort (fun first second third before after => ?_)
    (fun first second => ?_) owner.methods
  · rw [standsBefore_iff] at before after ⊢
    omega
  · rw [Bool.or_eq_true, standsBefore_iff, standsBefore_iff]
    omega

theorem perm_methods_sortMethods (classes : List Class) :
    ((classes.map sortMethods).flatMap Class.methods).Perm (classes.flatMap Class.methods) := by
  rw [List.flatMap_map]
  exact List.Perm.flatMap_left _ fun owner _ => List.mergeSort_perm owner.methods standsBefore

/-! ### Assigning functions -/

/-- Whether no function of a file lies in the lines of a class, so that all of them stay free. -/
def Settled (file : FileRecord) : Prop :=
  ∀ function ∈ file.functions, isHeld file.classes function = false

theorem not_settled_iff {file : FileRecord} : ¬ Settled file ↔
    ∃ function ∈ file.functions, isHeld file.classes function = true := by
  simp [Settled]

theorem assign_of_settled {file : FileRecord} (settled : Settled file) : assign file = file := by
  refine if_neg fun moves => ?_
  obtain ⟨function, member, owned⟩ := List.any_eq_true.mp moves
  rw [isSome_owner?, settled function member] at owned
  cases owned

theorem assign_of_not_settled {file : FileRecord} (moves : ¬ Settled file) :
    assign file = { file with
      classes := (file.functions.foldl place file.classes).map sortMethods
      functions := file.functions.filter fun function => !isHeld file.classes function } := by
  obtain ⟨function, member, held⟩ := not_settled_iff.mp moves
  unfold assign
  simp only [isSome_owner?, isNone_owner?]
  exact if_pos (List.any_eq_true.mpr ⟨function, member, held⟩)

theorem map_span_assign (file : FileRecord) :
    (assign file).classes.map span = file.classes.map span := by
  have placed (functions : List Function) (classes : List Class) :
      (functions.foldl place classes).map span = classes.map span := by
    induction functions generalizing classes with
    | nil => rfl
    | cons function functions inductionHypothesis =>
      rw [List.foldl_cons, inductionHypothesis, map_span_place]
  by_cases settled : Settled file
  · rw [assign_of_settled settled]
  · rw [assign_of_not_settled settled, ← placed file.functions file.classes]
    exact List.map_map

theorem functions_assign (file : FileRecord) :
    (assign file).functions =
      file.functions.filter fun function => !isHeld file.classes function := by
  by_cases settled : Settled file
  · rw [assign_of_settled settled]
    refine (List.filter_eq_self.mpr fun function member => ?_).symm
    rw [settled function member, Bool.not_false]
  · rw [assign_of_not_settled settled]

/-- What is left free lies in no class: the lines of the classes have stayed the same. -/
theorem settled_assign (file : FileRecord) : Settled (assign file) := by
  intro function member
  rw [functions_assign] at member
  rw [isHeld_congr (map_span_assign file)]
  simpa using (List.mem_filter.mp member).2

theorem assign_eq_self_iff {file : FileRecord} : assign file = file ↔ Settled file :=
  ⟨fun same => same ▸ settled_assign file, assign_of_settled⟩

/-- Assigning the functions of any file again, however often, changes nothing more. Nothing is
changed at all exactly if no function lies in the lines of a class. -/
theorem iterate_assign (file : FileRecord) :
    (∀ count, assign^[count + 1] file = assign file) ∧
      (assign file = file ↔ ∀ function ∈ file.functions, ∀ owner ∈ file.classes,
        owner.containsLines function.startLine function.endLine = false) := by
  refine ⟨fun count => ?_, ?_⟩
  · rw [Function.iterate_succ_apply]
    exact Function.iterate_fixed (assign_of_settled (settled_assign file)) count
  · rw [assign_eq_self_iff]
    simp [Settled, isHeld]

/-! ### Conservation -/

/-- Every class keeps its methods and takes the functions that it owns, in some order. -/
theorem exists_methods_assign {file : FileRecord}
    (distinct : Distinct file.classes file.functions) {index : Nat} {owner : Class}
    (found : file.classes[index]? = some owner) :
    ∃ methods, (assign file).classes[index]? = some { owner with methods } ∧
      methods.Perm
        (owner.methods ++ (ownedBy file.classes file.functions index).map asMethod) := by
  by_cases settled : Settled file
  · have takesNone : ownedBy file.classes file.functions index = [] := by
      refine List.filter_eq_nil_iff.mpr fun function member owned => ?_
      have held := settled function member
      rw [← isSome_owner?, of_decide_eq_true owned] at held
      cases held
    rw [assign_of_settled settled, takesNone, List.map_nil, List.append_nil]
    exact ⟨owner.methods, found, .refl _⟩
  · rw [assign_of_not_settled settled]
    refine ⟨_, ?_, List.mergeSort_perm _ standsBefore⟩
    rw [List.getElem?_map, getElem?_foldl_place distinct, found]
    rfl

/-- What becomes of a function: a method, if some class holds it. -/
def assigned (classes : List Class) (function : Function) : Function :=
  if isHeld classes function then { function with isMethod := true } else function

/-- The functions that are held, as methods, and those that are free are all functions. -/
theorem perm_map_assigned (classes : List Class) (functions : List Function) :
    ((functions.filter fun function => !isHeld classes function) ++
      (functions.filter (isHeld classes)).map asMethod).Perm
        (functions.map (assigned classes)) := by
  have held : (functions.filter (isHeld classes)).map (assigned classes) =
      (functions.filter (isHeld classes)).map asMethod :=
    List.map_congr_left fun function member => if_pos (List.mem_filter.mp member).2
  have free : (functions.filter fun function => !isHeld classes function).map (assigned classes) =
      functions.filter fun function => !isHeld classes function := by
    refine (List.map_congr_left fun function member => ?_).trans (List.map_id _)
    have notHeld : isHeld classes function = false := by simpa using (List.mem_filter.mp member).2
    rw [assigned, notHeld]
    rfl
  have parts := (List.filter_append_perm (isHeld classes) functions).map (assigned classes)
  rw [List.map_append, held, free] at parts
  exact List.perm_append_comm.trans parts

/-- Every function stays what it is but for becoming a method if some class holds it, and so do all
methods that there are. -/
theorem perm_allFunctions_assign {file : FileRecord}
    (distinct : Distinct file.classes file.functions) :
    (assign file).allFunctions.Perm
      (file.functions.map (assigned file.classes) ++ file.classes.flatMap Class.methods) := by
  have methods : ((assign file).classes.flatMap Class.methods).Perm
      ((file.functions.filter (isHeld file.classes)).map asMethod ++
        file.classes.flatMap Class.methods) := by
    by_cases settled : Settled file
    · have none : file.functions.filter (isHeld file.classes) = [] :=
        List.filter_eq_nil_iff.mpr fun function member => by
          rw [settled function member]
          exact Bool.false_ne_true
      rw [assign_of_settled settled, none]
      exact .refl _
    · rw [assign_of_not_settled settled]
      exact (perm_methods_sortMethods _).trans (perm_methods_foldl_place distinct)
  rw [FileRecord.allFunctions, functions_assign]
  refine (methods.append_left _).trans ?_
  rw [← List.append_assoc]
  exact (perm_map_assigned _ _).append_right _

/-- What assigning the functions of a file makes of it. -/
structure Assigns (before after : FileRecord) : Prop where
  /-- The functions that no class holds stay free, in their order. -/
  free : after.functions =
    before.functions.filter fun function => !isHeld before.classes function
  /-- Every other function becomes a method of its home and of no other class. -/
  home : ∀ function ∈ before.functions, isHeld before.classes function = true →
    ∃ index owner, IsHome before.classes function index owner ∧
      (∃ home, after.classes[index]? = some home) ∧
      ∀ (place : Nat) (other : Class), after.classes[place]? = some other →
        ({ function with isMethod := true } ∈ other.methods ↔ place = index)
  /-- Nothing is lost, doubled or changed otherwise. -/
  conserved : after.allFunctions.Perm
    (before.functions.map (assigned before.classes) ++ before.classes.flatMap Class.methods)
  /-- The methods that were there stay with their class. -/
  kept : ∀ (index : Nat) (old new : Class), before.classes[index]? = some old →
    after.classes[index]? = some new → old.methods.Subperm new.methods
  /-- Methods are sorted if any function becomes one. -/
  sorted : (∃ function ∈ before.functions, isHeld before.classes function = true) →
    ∀ owner ∈ after.classes, owner.methods.Pairwise fun first second =>
      first.startLine < second.startLine ∨
        first.startLine = second.startLine ∧ first.offset ≤ second.offset
  /-- The classes are the same but for their methods, in the same order. -/
  classes : after.classes.map Class.bare = before.classes.map Class.bare
  /-- All else in the file is the same. -/
  rest : after = { before with classes := after.classes, functions := after.functions }

/-- Of the classes, only the home of a function has it as a method afterwards. -/
theorem asMethod_mem_iff {file : FileRecord} (distinct : Distinct file.classes file.functions)
    {function : Function} (member : function ∈ file.functions) {index : Nat}
    (home : owner? file.classes function = some index) {place : Nat} {owner : Class}
    (found : (assign file).classes[place]? = some owner) :
    asMethod function ∈ owner.methods ↔ place = index := by
  have inside : place < file.classes.length := by
    have inside := (List.getElem?_eq_some_iff.mp found).1
    rwa [← List.length_map span, map_span_assign, List.length_map] at inside
  obtain ⟨methods, atPlace, perm⟩ :=
    exists_methods_assign distinct (List.getElem?_eq_getElem inside)
  cases found.symm.trans atPlace
  rw [perm.mem_iff, List.mem_append]
  constructor
  · rintro (old | moved)
    · have isMethod := List.mem_flatMap.mpr ⟨_, List.getElem_mem inside, old⟩
      exact absurd rfl (distinct.fresh function member (asMethod function) isMethod)
    · obtain ⟨other, isOwned, same⟩ := List.mem_map.mp moved
      obtain ⟨otherMember, otherHome⟩ := mem_ownedBy_iff.mp isOwned
      have once : (file.functions.map Function.offset).Nodup := List.pairwise_map.mpr distinct.apart
      have offsets : (asMethod other).offset = (asMethod function).offset :=
        congrArg Function.offset same
      have equal : other = function := List.inj_on_of_nodup_map once otherMember member offsets
      rw [equal, home] at otherHome
      exact (Option.some.inj otherHome).symm
  · rintro rfl
    exact .inr (List.mem_map_of_mem (mem_ownedBy_iff.mpr ⟨member, home⟩))

/-- Assigning functions conserves them, as long as no two functions or methods have one offset. A
function goes to the class with the fewest lines of those that hold it, if all their lines can be
counted. -/
theorem assign_conserves (file : FileRecord)
    (once : (file.allFunctions.map Function.offset).Nodup) : Assigns file (assign file) := by
  have distinct := distinct_of_nodup once
  have grown {index : Nat} {owner : Class} (found : file.classes[index]? = some owner) :=
    exists_methods_assign distinct found
  have length : (assign file).classes.length = file.classes.length := by
    rw [← List.length_map span, map_span_assign, List.length_map]
  constructor
  case free => exact functions_assign file
  case conserved => exact perm_allFunctions_assign distinct
  case home =>
    intro function member held
    rw [← isSome_owner?, Option.isSome_iff_exists] at held
    obtain ⟨index, home⟩ := held
    obtain ⟨owner, isHome⟩ := exists_isHome_of_owner? home
    obtain ⟨methods, there, _⟩ := grown isHome.found
    exact ⟨index, owner, isHome, ⟨_, there⟩, fun _ _ => asMethod_mem_iff distinct member home⟩
  case kept =>
    intro index old new atOld atNew
    obtain ⟨methods, there, perm⟩ := grown atOld
    cases atNew.symm.trans there
    exact (List.sublist_append_left _ _).subperm.trans perm.symm.subperm
  case sorted =>
    intro moves owner member
    rw [assign_of_not_settled (not_settled_iff.mpr moves)] at member
    obtain ⟨placed, _, rfl⟩ := List.mem_map.mp member
    exact (sorted_sortMethods placed).imp standsBefore_iff.mp
  case classes =>
    refine List.ext_getElem? fun index => ?_
    rw [List.getElem?_map, List.getElem?_map]
    cases found : file.classes[index]? with
    | none =>
      rw [List.getElem?_eq_none_iff, ← length, ← List.getElem?_eq_none_iff] at found
      rw [found]
    | some owner =>
      obtain ⟨methods, there, _⟩ := grown found
      rw [there]
      rfl
  case rest =>
    by_cases settled : Settled file
    · rw [assign_of_settled settled]
    · rw [assign_of_not_settled settled]

/-- A function on some lines, defined at an offset. -/
def onLines (name : String) (startLine endLine offset : Nat) : Function where
  name
  parameters := "()"
  returnType := ""
  doc := ""
  startLine
  endLine
  calls := []
  isMethod := false
  isPrivate := false
  offset

/-- A class inside another one, with a method that it has already. -/
def crowded : FileRecord where
  path := "shapes.py"
  language := some .python
  imports := []
  classes := [
    { name := "Outer", bases := [], doc := "", startLine := 1, endLine := 20, methods := []
      isPrivate := false, offset := 0 },
    { name := "Inner", bases := [], doc := "", startLine := 5, endLine := 10
      methods := [asMethod (onLines "late" 9 10 90)], isPrivate := false, offset := 40 }]
  functions := [onLines "outer" 2 4 10, onLines "inner" 6 8 60, onLines "run" 22 25 300]
  errors := []

theorem assign_conserves_crowded :
    (crowded.allFunctions.map Function.offset).Nodup ∧ ¬ Settled crowded ∧
      Assigns crowded (assign crowded) ∧
      ∃ index owner, IsHome crowded.classes (onLines "inner" 6 8 60) index owner ∧
        linesHeld owner ≤ 6 ∧
        ∃ home, (assign crowded).classes[index]? = some home ∧
          { onLines "inner" 6 8 60 with isMethod := true } ∈ home.methods := by
  have once : (crowded.allFunctions.map Function.offset).Nodup := by decide
  have member : onLines "inner" 6 8 60 ∈ crowded.functions := by decide
  have held : isHeld crowded.classes (onLines "inner" 6 8 60) = true := by decide
  have counted : ∀ holder ∈ crowded.classes, holder.containsLines 6 8 = true →
      IsCounted holder := by
    unfold IsCounted
    decide
  have assigns := assign_conserves crowded once
  obtain ⟨index, owner, isHome, ⟨home, there⟩, only⟩ := assigns.home _ member held
  have few : linesHeld owner ≤ 6 := by
    rcases isHome.before counted 1 _ rfl (by decide) with fewer | ⟨same, _⟩
    · exact Nat.le_of_lt fewer
    · exact Nat.le_of_eq same
  exact ⟨once, not_settled_iff.mpr ⟨_, member, held⟩, assigns, index, owner, isHome, few, home,
    there, (only index home there).mpr rfl⟩

/-- A class that holds all lines that a word can number, and a small class in it. -/
def boundless : FileRecord where
  path := "shapes.py"
  language := some .python
  imports := []
  classes := [
    { name := "Whole", bases := [], doc := "", startLine := 0, endLine := UInt64.size - 1
      methods := [], isPrivate := false, offset := 0 },
    { name := "Small", bases := [], doc := "", startLine := 5, endLine := 10, methods := []
      isPrivate := false, offset := 40 }]
  functions := [onLines "inner" 6 8 60]
  errors := []

/-- All lines that a word can number are too many to be counted in a word, and the class that holds
them takes a function that a class with fewer lines holds as well. -/
theorem exists_not_fewest_boundless :
    (boundless.allFunctions.map Function.offset).Nodup ∧
      ∃ home ∈ (assign boundless).classes, { onLines "inner" 6 8 60 with isMethod := true } ∈
        home.methods ∧
        ∃ other ∈ boundless.classes, other.containsLines 6 8 = true ∧
          linesHeld other < linesHeld home := by
  decide +kernel

end CodeAtlas.Ownership
