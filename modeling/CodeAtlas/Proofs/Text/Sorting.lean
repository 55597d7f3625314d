/-
This file says how much of the order of a list survives sorting, and how much of it matters. Values
that compare alike keep the order in which they stood, so a sorted list is determined by what
stands in it at each place of the order, and values can be left out before or after sorting. What
the values of a list agree on can be read off the list in any order, and without the values that
give nothing.
-/

import Mathlib.Data.List.Perm.Basic
import Mathlib.Data.List.Sort

namespace CodeAtlas.Text

variable {α β : Type}

/-! ### Sorting -/

/-- Whether two values have the same place in an order. -/
def alike (order : α → α → Bool) (first second : α) : Bool :=
  order first second && order second first

section Sorting

variable {order : α → α → Bool}

theorem alike_self (total : ∀ first second, (order first second || order second first) = true)
    (value : α) : alike order value value = true := by
  have reflexive := total value value
  rw [Bool.or_self] at reflexive
  rw [alike, reflexive]
  rfl

variable (trans : ∀ first second third, order first second = true → order second third = true →
    order first third = true)
  (total : ∀ first second, (order first second || order second first) = true)

include trans total

/-- Sorting keeps the values of one place in their order. -/
theorem filter_alike_mergeSort (key : α) (values : List α) :
    (values.mergeSort order).filter (alike order key) = values.filter (alike order key) := by
  have sorted : (values.filter (alike order key)).Pairwise fun first second =>
      order first second = true := by
    refine List.pairwise_of_forall_mem_list fun first firstMember second secondMember => ?_
    have firstAlike := (List.mem_filter.mp firstMember).2
    have secondAlike := (List.mem_filter.mp secondMember).2
    rw [alike, Bool.and_eq_true] at firstAlike secondAlike
    exact trans first key second firstAlike.2 secondAlike.1
  have inSorted := List.sublist_mergeSort trans total sorted List.filter_sublist
  have kept := inSorted.filter (alike order key)
  rw [List.filter_filter] at kept
  simp only [Bool.and_self] at kept
  have perm := (List.mergeSort_perm values order).filter (alike order key)
  exact (kept.eq_of_length perm.length_eq.symm).symm

omit trans in
theorem mem_iff_of_filter_alike {first second : List α}
    (same : ∀ key, first.filter (alike order key) = second.filter (alike order key)) (value : α) :
    value ∈ first ↔ value ∈ second := by
  have here := congrArg (value ∈ ·) (same value)
  simpa [List.mem_filter, alike_self total value] using here

omit trans in
/-- Sorted lists are equal if they have the same values, in the same order, at each place. -/
theorem eq_of_filter_alike {first second : List α}
    (firstSorted : first.Pairwise fun one other => order one other = true)
    (secondSorted : second.Pairwise fun one other => order one other = true)
    (same : ∀ key, first.filter (alike order key) = second.filter (alike order key)) :
    first = second := by
  have members := mem_iff_of_filter_alike total same
  induction first generalizing second with
  | nil =>
    exact (List.eq_nil_iff_forall_not_mem.mpr fun value member =>
      List.not_mem_nil ((members value).mpr member)).symm
  | cons value values inductionHypothesis =>
    cases second with
    | nil => exact absurd ((members value).mp List.mem_cons_self) List.not_mem_nil
    | cons other others =>
      have reflexive (key : α) : order key key = true := by
        simpa [alike] using alike_self total key
      -- Each head stands in the other list, so they have the same place, and there they are first.
      have valueFirst : order value other = true := by
        rcases List.mem_cons.mp ((members other).mpr List.mem_cons_self) with equal | member
        · exact equal ▸ reflexive other
        · exact (List.pairwise_cons.mp firstSorted).1 other member
      have otherFirst : order other value = true := by
        rcases List.mem_cons.mp ((members value).mp List.mem_cons_self) with equal | member
        · exact equal ▸ reflexive value
        · exact (List.pairwise_cons.mp secondSorted).1 value member
      have heads := same value
      rw [List.filter_cons_of_pos (alike_self total value),
        List.filter_cons_of_pos (by rw [alike, valueFirst, otherFirst]; rfl)] at heads
      obtain ⟨rfl, _⟩ := List.cons.inj heads
      have rest (key : α) : values.filter (alike order key) = others.filter (alike order key) := by
        have both := same key
        rw [List.filter_cons, List.filter_cons] at both
        split at both
        · exact (List.cons.inj both).2
        · exact both
      exact congrArg (value :: ·) (inductionHypothesis (List.pairwise_cons.mp firstSorted).2
        (List.pairwise_cons.mp secondSorted).2 rest (mem_iff_of_filter_alike total rest))

/-- Lists that have the same values, in the same order, at each place are equal once sorted. -/
theorem mergeSort_eq_of_filter_alike {first second : List α}
    (same : ∀ key, first.filter (alike order key) = second.filter (alike order key)) :
    first.mergeSort order = second.mergeSort order := by
  refine eq_of_filter_alike total (List.pairwise_mergeSort trans total first)
    (List.pairwise_mergeSort trans total second) fun key => ?_
  rw [filter_alike_mergeSort trans total, filter_alike_mergeSort trans total, same]

/-- Leaving values out and sorting can be done in either order. -/
theorem filter_mergeSort (keep : α → Bool) (values : List α) :
    (values.mergeSort order).filter keep = (values.filter keep).mergeSort order := by
  refine eq_of_filter_alike total ((List.pairwise_mergeSort trans total values).filter keep)
    (List.pairwise_mergeSort trans total (values.filter keep)) fun key => ?_
  rw [List.filter_comm, filter_alike_mergeSort trans total, filter_alike_mergeSort trans total,
    List.filter_comm]

end Sorting

/-! ### Sorting by a number -/

section Numbers

/-- The order of values by a number that each of them has. -/
def byNumber (number : α → Nat) (first second : α) : Bool :=
  number first ≤ number second

variable (number : α → Nat)

theorem byNumber_trans (first second third : α) (before : byNumber number first second = true)
    (after : byNumber number second third = true) : byNumber number first third = true := by
  rw [byNumber, decide_eq_true_eq] at before after ⊢
  exact Nat.le_trans before after

theorem byNumber_total (first second : α) :
    (byNumber number first second || byNumber number second first) = true := by
  rw [Bool.or_eq_true, byNumber, byNumber, decide_eq_true_eq, decide_eq_true_eq]
  exact Nat.le_total _ _

theorem alike_byNumber_iff {first second : α} :
    alike (byNumber number) first second = true ↔ number first = number second := by
  rw [alike, Bool.and_eq_true, byNumber, byNumber, decide_eq_true_eq, decide_eq_true_eq]
  exact Nat.le_antisymm_iff.symm

/-- Lists in which every value has a number of its own, in ascending order, are equal if they have
the same values. -/
theorem eq_of_ascending {first second : List α}
    (firstAscends : first.Pairwise fun one other => number one < number other)
    (secondAscends : second.Pairwise fun one other => number one < number other)
    (same : ∀ value, value ∈ first ↔ value ∈ second) : first = second := by
  have antisymm : Std.Antisymm fun one other : α => number one < number other :=
    ⟨fun _ _ before after => absurd before (Nat.lt_asymm after)⟩
  have irrefl : Std.Irrefl fun one other : α => number one < number other :=
    ⟨fun _ => Nat.lt_irrefl _⟩
  exact firstAscends.eq_of_mem_iff secondAscends same

end Numbers

/-! ### Values that give nothing -/

theorem findSome?_filter_of_silent (find : α → Option β) {keep : α → Bool}
    (silent : ∀ value, keep value = false → find value = none) (values : List α) :
    (values.filter keep).findSome? find = values.findSome? find := by
  induction values with
  | nil => rfl
  | cons value values inductionHypothesis =>
    rw [List.filter_cons, List.findSome?_cons]
    split
    · rw [List.findSome?_cons, inductionHypothesis]
    · next dropped => rw [silent value (Bool.eq_false_iff.mpr dropped), inductionHypothesis]

theorem flatMap_filter_of_silent (give : α → List β) {keep : α → Bool}
    (silent : ∀ value, keep value = false → give value = []) (values : List α) :
    (values.filter keep).flatMap give = values.flatMap give := by
  induction values with
  | nil => rfl
  | cons value values inductionHypothesis =>
    rw [List.filter_cons, List.flatMap_cons]
    split
    · rw [List.flatMap_cons, inductionHypothesis]
    · next dropped =>
      rw [silent value (Bool.eq_false_iff.mpr dropped), inductionHypothesis, List.nil_append]

/-! ### Values that agree -/

/-- What is found in a list does not depend on its order if everything to be found is equal. -/
theorem findSome?_eq_of_perm {find : α → Option β} {first second : List α}
    (perm : first.Perm second)
    (agree : ∀ one ∈ first, ∀ other ∈ first, ∀ found there, find one = some found →
      find other = some there → found = there) :
    first.findSome? find = second.findSome? find := by
  cases inFirst : first.findSome? find with
  | none =>
    have absent := List.findSome?_eq_none_iff.mp inFirst
    exact (List.findSome?_eq_none_iff.mpr fun value member =>
      absent value (perm.mem_iff.mpr member)).symm
  | some found =>
    obtain ⟨one, oneMember, oneGives⟩ := List.exists_of_findSome?_eq_some inFirst
    have isSome : (second.findSome? find).isSome = true :=
      List.findSome?_isSome_iff.mpr ⟨one, perm.mem_iff.mp oneMember, by rw [oneGives]; rfl⟩
    obtain ⟨there, inSecond⟩ := Option.isSome_iff_exists.mp isSome
    obtain ⟨other, otherMember, otherGives⟩ := List.exists_of_findSome?_eq_some inSecond
    rw [inSecond, agree one oneMember other (perm.mem_iff.mpr otherMember) found there oneGives
      otherGives]

/-- What the values of a list give in turn does not depend on its order if each of them gives
nothing or the same. -/
theorem flatMap_eq_of_perm {give : α → List β} {first second : List α} (perm : first.Perm second)
    (agree : ∀ one ∈ first, ∀ other ∈ first, give one ≠ [] → give other ≠ [] →
      give one = give other) :
    first.flatMap give = second.flatMap give := by
  induction perm with
  | nil => rfl
  | cons value _ inductionHypothesis =>
    rw [List.flatMap_cons, List.flatMap_cons, inductionHypothesis fun one oneMember other member =>
      agree one (List.mem_cons_of_mem _ oneMember) other (List.mem_cons_of_mem _ member)]
  | swap one other rest =>
    simp only [List.flatMap_cons, ← List.append_assoc]
    refine congrArg (· ++ rest.flatMap give) ?_
    by_cases oneSilent : give one = []
    · rw [oneSilent, List.nil_append, List.append_nil]
    · by_cases otherSilent : give other = []
      · rw [otherSilent, List.nil_append, List.append_nil]
      · rw [agree one (by simp) other (by simp) oneSilent otherSilent]
  | trans upper _ upperHypothesis lowerHypothesis =>
    refine (upperHypothesis agree).trans (lowerHypothesis fun one oneMember other otherMember => ?_)
    exact agree one (upper.mem_iff.mpr oneMember) other (upper.mem_iff.mpr otherMember)

end CodeAtlas.Text
