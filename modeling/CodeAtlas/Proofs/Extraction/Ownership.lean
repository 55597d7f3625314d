/-
This file says which class takes a function and what the classes hold once every function has
gone to its owner. The search for an owner finds the nearest of the classes whose lines hold
the function's; the lines of the classes do not change while functions are moved, so that the
classes can be described all at once: each has taken the functions of which it is the nearest
owner, and what no class holds stays where it was.
-/

import CodeAtlas.Extraction.Ownership

namespace CodeAtlas.Ownership

/-! ### The nearest class -/

/-- Lines that are counted from one are all counted. -/
theorem lineCount_of_pos {startLine endLine : Nat} (numbered : 1 ≤ startLine) :
    lineCount startLine endLine = endLine - startLine + 1 :=
  if_neg fun whole => Nat.ne_of_gt numbered whole.1

theorem nearer_iff {first second : Class} :
    nearer first second = true ↔ first.lineCount < second.lineCount ∨
      first.lineCount = second.lineCount ∧ second.startLine < first.startLine := by
  simp [nearer]

/-- What the search for an owner has found among some classes: nothing, if none of them
contains the lines; else a class that does, at its index, and no other that does is nearer or
stands before it and is as near. -/
def IsNearest (classes : List Class) (startLine endLine : Nat) : Option (Nat × Class) → Prop
  | none => ∀ owner ∈ classes, owner.containsLines startLine endLine = false
  | some (index, owner) =>
    classes[index]? = some owner ∧ owner.containsLines startLine endLine = true ∧
      ∀ place other, classes[place]? = some other →
        other.containsLines startLine endLine = true →
        nearer owner other = true ∨ (nearer other owner = false ∧ index ≤ place)

theorem getElem?_concat_cases {classes : List Class} {owner other : Class} {place : Nat}
    (found : (classes ++ [owner])[place]? = some other) :
    classes[place]? = some other ∨ (classes.length ≤ place ∧ other = owner) := by
  by_cases earlier : place < classes.length
  · rw [List.getElem?_append_left earlier] at found
    exact .inl found
  · have later := Nat.le_of_not_lt earlier
    rw [List.getElem?_append_right later, List.getElem?_singleton] at found
    split at found
    · exact .inr ⟨later, (Option.some.inj found).symm⟩
    · cases found

/-- One more class keeps what was found among the earlier ones, unless it contains the lines
and is nearer. -/
theorem isNearest_concat_held {classes : List Class} {startLine endLine : Nat}
    {best : Option (Nat × Class)} (holds : IsNearest classes startLine endLine best)
    {owner : Class} (notBetter : owner.containsLines startLine endLine = true →
      ∃ held, best.map Prod.snd = some held ∧ nearer owner held = false) :
    IsNearest (classes ++ [owner]) startLine endLine best := by
  cases best with
  | none =>
    intro one member
    rcases List.mem_append.mp member with member | member
    · exact holds one member
    · rw [List.mem_singleton.mp member]
      refine Bool.eq_false_iff.mpr fun contains => ?_
      obtain ⟨held, found, _⟩ := notBetter contains
      cases found
  | some pair =>
    obtain ⟨index, held⟩ := pair
    obtain ⟨found, contains, least⟩ := holds
    have inside : index < classes.length := (List.getElem?_eq_some_iff.mp found).1
    refine ⟨by rw [List.getElem?_append_left inside]; exact found, contains, ?_⟩
    intro place one atPlace oneContains
    rcases getElem?_concat_cases atPlace with atPlace | ⟨later, rfl⟩
    · exact least place one atPlace oneContains
    · obtain ⟨_, heldFound, notNearer⟩ := notBetter oneContains
      cases heldFound
      exact .inr ⟨notNearer, by omega⟩

/-- A nearer class that contains the lines takes the place of what was found before. -/
theorem isNearest_concat_new {classes : List Class} {startLine endLine : Nat}
    {best : Option (Nat × Class)} (holds : IsNearest classes startLine endLine best)
    {owner : Class} (contains : owner.containsLines startLine endLine = true)
    (better : ∀ held, best.map Prod.snd = some held → nearer owner held = true) :
    IsNearest (classes ++ [owner]) startLine endLine (some (classes.length, owner)) := by
  refine ⟨List.getElem?_concat_length, contains, ?_⟩
  intro place one atPlace oneContains
  rcases getElem?_concat_cases atPlace with atPlace | ⟨later, rfl⟩
  · refine .inl ?_
    cases best with
    | none =>
      rw [holds one (List.mem_of_getElem? atPlace)] at oneContains
      cases oneContains
    | some pair =>
      obtain ⟨index, held⟩ := pair
      have nearerThanHeld := nearer_iff.mp (better held rfl)
      rw [nearer_iff]
      rcases holds.2.2 place one atPlace oneContains with heldNearer | ⟨notNearer, _⟩
      · rw [nearer_iff] at heldNearer
        omega
      · rw [Bool.eq_false_iff, ne_eq, nearer_iff] at notNearer
        omega
  · refine .inr ⟨?_, later⟩
    rw [Bool.eq_false_iff, ne_eq, nearer_iff]
    omega

/-- What has been found after one more class, which stands at `index`. -/
def improved (startLine endLine index : Nat) (best : Option (Nat × Class)) (owner : Class) :
    Option (Nat × Class) :=
  if owner.containsLines startLine endLine then
    match best with
    | none => some (index, owner)
    | some (_, held) => if nearer owner held then some (index, owner) else best
  else best

theorem nearestFrom_cons (startLine endLine index : Nat) (best : Option (Nat × Class))
    (owner : Class) (owners : List Class) :
    nearestFrom startLine endLine index best (owner :: owners) =
      nearestFrom startLine endLine (index + 1) (improved startLine endLine index best owner)
        owners := rfl

theorem isNearest_improved {classes : List Class} {startLine endLine : Nat}
    {best : Option (Nat × Class)} (holds : IsNearest classes startLine endLine best)
    (owner : Class) :
    IsNearest (classes ++ [owner]) startLine endLine
      (improved startLine endLine classes.length best owner) := by
  unfold improved
  by_cases contains : owner.containsLines startLine endLine = true
  · rw [if_pos contains]
    cases best with
    | none => exact isNearest_concat_new holds contains fun held found => by cases found
    | some pair =>
      obtain ⟨index, held⟩ := pair
      by_cases better : nearer owner held = true
      · simp only [if_pos better]
        exact isNearest_concat_new holds contains fun _ found => by cases found; exact better
      · simp only [if_neg better]
        exact isNearest_concat_held holds fun _ => ⟨held, rfl, Bool.eq_false_iff.mpr better⟩
  · rw [if_neg contains]
    exact isNearest_concat_held holds fun holdsLines => absurd holdsLines contains

/-- The search goes on from what it found among the earlier classes. -/
theorem isNearest_nearestFrom (startLine endLine : Nat) (owners classes : List Class)
    (best : Option (Nat × Class)) (holds : IsNearest classes startLine endLine best) :
    IsNearest (classes ++ owners) startLine endLine
      (nearestFrom startLine endLine classes.length best owners) := by
  induction owners generalizing classes best with
  | nil =>
    rw [List.append_nil]
    exact holds
  | cons owner owners inductionHypothesis =>
    have next := inductionHypothesis (classes ++ [owner]) _ (isNearest_improved holds owner)
    rw [List.length_append, List.length_singleton, List.append_assoc,
      List.singleton_append] at next
    rw [nearestFrom_cons]
    exact next

theorem isNearest_nearestFrom_all (classes : List Class) (startLine endLine : Nat) :
    IsNearest classes startLine endLine (nearestFrom startLine endLine 0 none classes) :=
  isNearest_nearestFrom startLine endLine classes [] none fun _ member => by cases member

/-- The owner of a function is the nearest of the classes that contain its lines. -/
theorem isNearest_of_owner? {classes : List Class} {function : Function} {index : Nat}
    (found : owner? classes function = some index) :
    ∃ owner, IsNearest classes function.startLine function.endLine (some (index, owner)) := by
  obtain ⟨⟨_, owner⟩, nearest, rfl⟩ := Option.map_eq_some_iff.mp found
  exact ⟨owner, nearest ▸ isNearest_nearestFrom_all classes _ _⟩

/-- A function has no owner exactly if no class contains its lines. -/
theorem owner?_eq_none_iff {classes : List Class} {function : Function} :
    owner? classes function = none ↔
      ∀ owner ∈ classes, owner.containsLines function.startLine function.endLine = false := by
  have holds := isNearest_nearestFrom_all classes function.startLine function.endLine
  constructor
  · intro found
    rw [Option.map_eq_none_iff.mp found] at holds
    exact holds
  · intro outside
    unfold owner?
    cases nearest : nearestFrom function.startLine function.endLine 0 none classes with
    | none => rfl
    | some pair =>
      obtain ⟨index, owner⟩ := pair
      rw [nearest] at holds
      have contains := holds.2.1
      rw [outside owner (List.mem_of_getElem? holds.1)] at contains
      cases contains

theorem owner?_lt_length {classes : List Class} {function : Function} {index : Nat}
    (found : owner? classes function = some index) : index < classes.length := by
  obtain ⟨owner, nearest⟩ := isNearest_of_owner? found
  exact (List.getElem?_eq_some_iff.mp nearest.1).1

/-! ### Only lines count -/

/-- The lines of a class. -/
def span (owner : Class) : Nat × Nat :=
  (owner.startLine, owner.endLine)

theorem containsLines_congr {first second : Class} (same : span first = span second)
    (startLine endLine : Nat) :
    first.containsLines startLine endLine = second.containsLines startLine endLine := by
  obtain ⟨starts, ends⟩ := Prod.mk.inj same
  rw [Class.containsLines, Class.containsLines, starts, ends]

theorem nearer_congr {first second other next : Class} (same : span first = span second)
    (otherSame : span other = span next) : nearer first other = nearer second next := by
  obtain ⟨starts, ends⟩ := Prod.mk.inj same
  obtain ⟨otherStarts, otherEnds⟩ := Prod.mk.inj otherSame
  unfold nearer Class.lineCount
  rw [starts, ends, otherStarts, otherEnds]

/-- What a found class is known by in the search: its index and its lines. -/
def spanFound (best : Option (Nat × Class)) : Option (Nat × Nat × Nat) :=
  best.map fun pair => (pair.1, span pair.2)

theorem spanFound_improved (startLine endLine index : Nat) {best next : Option (Nat × Class)}
    (sameBest : spanFound best = spanFound next) {owner other : Class}
    (same : span owner = span other) :
    spanFound (improved startLine endLine index best owner) =
      spanFound (improved startLine endLine index next other) := by
  unfold improved
  rw [containsLines_congr same]
  split
  · cases best with
    | none =>
      cases next with
      | none => simp only [spanFound, Option.map_some, same]
      | some pair => cases sameBest
    | some pair =>
      cases next with
      | none => cases sameBest
      | some nextPair =>
        obtain ⟨_, heldSame⟩ := Prod.mk.inj (Option.some.inj sameBest)
        simp only [nearer_congr same heldSame]
        split
        · simp only [spanFound, Option.map_some, same]
        · exact sameBest
  · exact sameBest

theorem spanFound_nearestFrom (startLine endLine : Nat) {owners others : List Class}
    (same : owners.map span = others.map span) (index : Nat) {best next : Option (Nat × Class)}
    (sameBest : spanFound best = spanFound next) :
    spanFound (nearestFrom startLine endLine index best owners) =
      spanFound (nearestFrom startLine endLine index next others) := by
  induction owners generalizing others index best next with
  | nil =>
    cases others with
    | nil => exact sameBest
    | cons other others => cases same
  | cons owner owners inductionHypothesis =>
    cases others with
    | nil => cases same
    | cons other others =>
      obtain ⟨headSame, tailSame⟩ := List.cons.inj same
      rw [nearestFrom_cons, nearestFrom_cons]
      exact inductionHypothesis tailSame _ (spanFound_improved _ _ _ sameBest headSame)

/-- The owner of a function depends on the lines of the classes alone. -/
theorem owner?_congr {classes others : List Class} (same : classes.map span = others.map span)
    (function : Function) : owner? classes function = owner? others function := by
  have found := spanFound_nearestFrom function.startLine function.endLine same 0
    (show spanFound none = spanFound none from rfl)
  have indexes := congrArg (fun held => held.map fun triple => triple.1) found
  simpa [spanFound, owner?, Function.comp_def] using indexes

/-! ### Moving functions -/

theorem span_receive (owner : Class) (function : Function) :
    span (receive owner function) = span owner := by
  unfold receive
  split <;> rfl

theorem map_span_place (classes : List Class) (function : Function) :
    (place classes function).map span = classes.map span := by
  unfold place
  split
  · refine List.ext_getElem? fun index => ?_
    rw [List.getElem?_map, List.getElem?_map, List.getElem?_modify]
    cases classes[index]? with
    | none => rfl
    | some owner =>
      simp only [Option.map_eq_map, Option.map_some]
      split
      · rw [span_receive]
      · rfl
  · rfl

/-- The functions that go to the class at an index. -/
def ownedBy (classes : List Class) (functions : List Function) (index : Nat) : List Function :=
  functions.filter fun function => owner? classes function = some index

theorem getElem?_place (classes : List Class) (function : Function) (index : Nat) :
    (place classes function)[index]? = classes[index]?.map fun owner =>
      if owner? classes function = some index then receive owner function else owner := by
  unfold place
  cases found : owner? classes function with
  | none => simp
  | some home =>
    simp only [List.getElem?_modify, Option.some.injEq, Option.map_eq_map]

/-- Moving many functions: every class has received the functions of which it is the owner. -/
theorem foldl_place (functions : List Function) (classes : List Class) :
    functions.foldl place classes =
      classes.mapIdx fun index owner => (ownedBy classes functions index).foldl receive owner := by
  induction functions generalizing classes with
  | nil => exact (List.mapIdx_eq_iff.mpr fun index => by simp [ownedBy]).symm
  | cons function functions inductionHypothesis =>
    have sameOwned (index : Nat) : ownedBy (place classes function) functions index =
        ownedBy classes functions index := by
      unfold ownedBy
      simp only [owner?_congr (map_span_place classes function)]
    rw [List.foldl_cons, inductionHypothesis]
    refine List.ext_getElem? fun index => ?_
    rw [List.getElem?_mapIdx, List.getElem?_mapIdx, getElem?_place, Option.map_map, sameOwned]
    refine congrArg (fun change => classes[index]?.map change) (funext fun owner => ?_)
    rw [Function.comp_apply, ownedBy, ownedBy, List.filter_cons]
    simp only [decide_eq_true_eq]
    split <;> rfl

/-- A class that has none of some functions yet receives all of them, as long as they are
defined at different places. -/
theorem foldl_receive (functions : List Function) (owner : Class)
    (distinct : functions.Pairwise fun first second => first.offset ≠ second.offset)
    (fresh : ∀ function ∈ functions, ∀ method ∈ owner.methods,
      method.offset ≠ function.offset) :
    functions.foldl receive owner =
      { owner with methods := owner.methods ++ functions.map asMethod } := by
  induction functions generalizing owner with
  | nil => simp
  | cons function functions inductionHypothesis =>
    obtain ⟨others, rest⟩ := List.pairwise_cons.mp distinct
    have absent : ¬ (owner.methods.any fun method => method.offset = function.offset) = true := by
      rw [List.any_eq_true]
      rintro ⟨method, member, equal⟩
      exact fresh function List.mem_cons_self method member (of_decide_eq_true equal)
    rw [List.foldl_cons, receive, if_neg absent, inductionHypothesis _ rest]
    · simp
    · intro other otherMember method member
      rcases List.mem_append.mp member with member | member
      · exact fresh other (List.mem_cons_of_mem _ otherMember) method member
      · rw [List.mem_singleton.mp member]
        exact others other otherMember

/-! ### Classes that begin empty -/

/-- What holds of the parts of a file before its functions are moved: no class has methods yet,
and functions that are defined later begin no earlier. -/
structure Unassigned (classes : List Class) (functions : List Function) : Prop where
  noMethods : ∀ owner ∈ classes, owner.methods = []
  offsets : functions.Pairwise fun first second => first.offset < second.offset
  lines : functions.Pairwise fun first second => first.startLine ≤ second.startLine

/-- The classes, each with the functions of which it is the owner. -/
def withMethods (classes : List Class) (functions : List Function) : List Class :=
  classes.mapIdx fun index owner =>
    { owner with methods := (ownedBy classes functions index).map asMethod }

/-- The functions that no class takes. -/
def unowned (classes : List Class) (functions : List Function) : List Function :=
  functions.filter fun function => (owner? classes function).isNone

theorem sortMethods_of_sorted {owner : Class}
    (sorted : owner.methods.Pairwise fun first second => standsBefore first second = true) :
    sortMethods owner = owner := by
  rw [sortMethods, List.mergeSort_of_pairwise sorted]

/-- The methods that a class takes stand in order already, so sorting them changes nothing. -/
theorem sorted_ownedBy {classes : List Class} {functions : List Function}
    (unassigned : Unassigned classes functions) (index : Nat) :
    ((ownedBy classes functions index).map asMethod).Pairwise fun first second =>
      standsBefore first second = true := by
  have sorted : functions.Pairwise fun first second =>
      standsBefore (asMethod first) (asMethod second) = true := by
    refine (unassigned.lines.and unassigned.offsets).imp fun ordered => ?_
    obtain ⟨lines, offsets⟩ := ordered
    unfold standsBefore asMethod
    simp only [Bool.or_eq_true, decide_eq_true_eq, Bool.and_eq_true, beq_iff_eq]
    omega
  exact List.pairwise_map.mpr (sorted.filter _)

/-- What a class has received, once sorted, is all that it owns. -/
theorem sortMethods_foldl_receive {classes : List Class} {functions : List Function}
    (unassigned : Unassigned classes functions) {owner : Class} (member : owner ∈ classes)
    (index : Nat) :
    sortMethods ((ownedBy classes functions index).foldl receive owner) =
      { owner with methods := (ownedBy classes functions index).map asMethod } := by
  have distinct : (ownedBy classes functions index).Pairwise fun first second =>
      first.offset ≠ second.offset :=
    (unassigned.offsets.imp fun before => Nat.ne_of_lt before).filter _
  have fresh : ∀ function ∈ ownedBy classes functions index, ∀ method ∈ owner.methods,
      method.offset ≠ function.offset := by
    intro function _ method methodMember
    rw [unassigned.noMethods owner member] at methodMember
    cases methodMember
  rw [foldl_receive _ owner distinct fresh, unassigned.noMethods owner member, List.nil_append]
  exact sortMethods_of_sorted (sorted_ownedBy unassigned index)

theorem map_sortMethods_foldl_place {classes : List Class} {functions : List Function}
    (unassigned : Unassigned classes functions) :
    (functions.foldl place classes).map sortMethods = withMethods classes functions := by
  rw [foldl_place]
  refine List.ext_getElem? fun index => ?_
  rw [List.getElem?_map, List.getElem?_mapIdx, withMethods, List.getElem?_mapIdx, Option.map_map]
  cases found : classes[index]? with
  | none => rfl
  | some owner =>
    exact congrArg some (sortMethods_foldl_receive unassigned (List.mem_of_getElem? found) index)

/-- Classes that take no function keep what they have, which is nothing. -/
theorem withMethods_of_free {classes : List Class} {functions : List Function}
    (unassigned : Unassigned classes functions)
    (free : ∀ function ∈ functions, owner? classes function = none) :
    withMethods classes functions = classes := by
  refine List.mapIdx_eq_iff.mpr fun index => ?_
  cases found : classes[index]? with
  | none => rfl
  | some owner =>
    have takesNone : ownedBy classes functions index = [] := by
      refine List.filter_eq_nil_iff.mpr fun function member => ?_
      rw [free function member, decide_eq_true_eq]
      exact fun owned => by cases owned
    have empty := unassigned.noMethods owner (List.mem_of_getElem? found)
    rw [Option.map_some, takesNone, List.map_nil, ← empty]

/-- Every class takes the functions of which it is the nearest owner, in their order, and the
others stay free. -/
theorem assign_eq {file : FileRecord} (unassigned : Unassigned file.classes file.functions) :
    assign file =
      { file with
        classes := withMethods file.classes file.functions
        functions := unowned file.classes file.functions } := by
  unfold assign
  by_cases moves : (file.functions.any fun function => (owner? file.classes function).isSome) = true
  · rw [if_pos moves, map_sortMethods_foldl_place unassigned]
    rfl
  · rw [if_neg moves]
    have free : ∀ function ∈ file.functions, owner? file.classes function = none := by
      intro function member
      refine Option.not_isSome_iff_eq_none.mp fun owned => moves ?_
      exact List.any_eq_true.mpr ⟨function, member, owned⟩
    have functions : unowned file.classes file.functions = file.functions := by
      refine List.filter_eq_self.mpr fun function member => ?_
      rw [free function member]
      rfl
    rw [withMethods_of_free unassigned free, functions]

/-! ### Classes and functions that change -/

/-- Whether changes of some classes and of functions leave every function its owner, and a class
the methods that it takes. -/
structure KeepsOwners (classes : List Class) (changeClass : Class → Class)
    (changeFunction : Function → Function) : Prop where
  owner : ∀ function : Function,
    owner? (classes.map changeClass) (changeFunction function) = owner? classes function
  methods : ∀ (owner : Class) (owned : List Function), changeClass { owner with methods := owned.map asMethod } =
    { changeClass owner with methods := (owned.map changeFunction).map asMethod }

section

variable {classes : List Class} {changeClass : Class → Class}
  {changeFunction : Function → Function} (keeps : KeepsOwners classes changeClass changeFunction)
  (functions : List Function)

include keeps

theorem ownedBy_map (index : Nat) :
    ownedBy (classes.map changeClass) (functions.map changeFunction) index =
      (ownedBy classes functions index).map changeFunction := by
  rw [ownedBy, ownedBy, List.filter_map]
  refine congrArg _ (List.filter_congr fun function _ => ?_)
  rw [Function.comp_apply, keeps.owner]

/-- The functions that no class takes are the changed ones that none took. -/
theorem unowned_map :
    unowned (classes.map changeClass) (functions.map changeFunction) =
      (unowned classes functions).map changeFunction := by
  rw [unowned, unowned, List.filter_map]
  refine congrArg _ (List.filter_congr fun function _ => ?_)
  rw [Function.comp_apply, keeps.owner]

/-- Changed classes take the changed functions as they took the functions themselves. -/
theorem withMethods_map :
    withMethods (classes.map changeClass) (functions.map changeFunction) =
      (withMethods classes functions).map changeClass := by
  -- The methods of a class depend on its index among the classes, which stays the same.
  refine List.ext_getElem? fun index => ?_
  rw [withMethods, withMethods, List.getElem?_mapIdx, List.getElem?_map, List.getElem?_map,
    List.getElem?_mapIdx, Option.map_map, Option.map_map]
  refine congrArg (fun change => classes[index]?.map change) (funext fun owner => ?_)
  rw [Function.comp_apply, Function.comp_apply, ownedBy_map keeps, keeps.methods]

end

end CodeAtlas.Ownership
