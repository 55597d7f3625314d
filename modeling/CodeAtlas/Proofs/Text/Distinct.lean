/-
This file says what is left of some values when each is kept once, where it stands first. Values
that are pushed behind a list come behind it once each, without those that it has already, so
that keeping each value once can be done part by part.
-/

import CodeAtlas.Text.Chars
import Mathlib.Data.List.Induction

namespace CodeAtlas.Text

variable {α : Type} [DecidableEq α]

/-- What is pushed behind a list comes behind it once each, unless the list has it. -/
theorem foldl_pushNew (values list : List α) :
    values.foldl pushNew list = list ++ (values.removeAll list).eraseDups := by
  induction values generalizing list with
  | nil => rw [List.foldl_nil, List.nil_removeAll, List.eraseDups_nil, List.append_nil]
  | cons value values inductionHypothesis =>
    rw [List.foldl_cons, inductionHypothesis, pushNew]
    by_cases held : value ∈ list
    · rw [if_pos held, List.cons_removeAll, if_neg (by simpa using held)]
    · rw [if_neg held, List.cons_removeAll, if_pos (by simpa using held), List.eraseDups_cons,
        List.append_assoc, List.singleton_append]
      refine congrArg (fun rest => list ++ value :: List.eraseDups rest) ?_
      simp only [List.removeAll, List.filter_filter]
      refine List.filter_congr fun other _ => Bool.eq_iff_iff.mpr ?_
      simp [and_comm]

theorem distinct_eq_eraseDups (values : List α) : distinct values = values.eraseDups := by
  rw [distinct, foldl_pushNew, List.nil_append, List.removeAll]
  exact congrArg List.eraseDups (List.filter_eq_self.mpr fun _ _ => rfl)

theorem nodup_eraseDups (values : List α) : values.eraseDups.Nodup :=
  distinct_eq_eraseDups values ▸ nodup_distinct values

theorem eraseDups_eq_nil_iff {values : List α} : values.eraseDups = [] ↔ values = [] := by
  simp only [List.eq_nil_iff_forall_not_mem, List.mem_eraseDups]

/-- Lists with the same values keep the same values, in whichever order. -/
theorem perm_eraseDups {first second : List α} (same : ∀ value, value ∈ first ↔ value ∈ second) :
    first.eraseDups.Perm second.eraseDups := by
  rw [List.perm_ext_iff_of_nodup (nodup_eraseDups first) (nodup_eraseDups second)]
  simpa only [List.mem_eraseDups] using same

/-- Leaving values out and keeping each value once can be done in either order. -/
theorem eraseDups_filter (keep : α → Bool) (values : List α) :
    (values.filter keep).eraseDups = values.eraseDups.filter keep := by
  -- The last value is kept or not by what stands before it, so the induction is from the end.
  induction values using List.reverseRecOn with
  | nil => rfl
  | append_singleton values value inductionHypothesis =>
    rw [List.filter_append, List.eraseDups_append, List.eraseDups_append, List.filter_append,
      inductionHypothesis]
    refine congrArg _ ?_
    by_cases kept : keep value = true <;> by_cases held : value ∈ values <;>
      simp [List.removeAll, List.eraseDups_cons, kept, held]

/-- Two lists of values, one behind the other: of the second only what is new counts. -/
theorem eraseDups_append_eq (first second : List α) :
    (first ++ second).eraseDups =
      first.eraseDups ++ second.eraseDups.removeAll first.eraseDups := by
  rw [List.eraseDups_append, List.removeAll, eraseDups_filter, List.removeAll]
  refine congrArg _ (List.filter_congr fun value _ => ?_)
  simp

/-- Of two values that are kept the earlier one stands in the list before the later one does. -/
theorem pairwise_distinct (values : List α) : (distinct values).Pairwise fun first second =>
    ∃ front back, values = front ++ first :: back ∧ second ∉ front := by
  induction values using List.reverseRecOn with
  | nil => exact .nil
  | append_singleton values value inductionHypothesis =>
    have whole : distinct (values ++ [value]) = pushNew (distinct values) value := by
      rw [distinct, List.foldl_append]
      rfl
    have longer : (distinct values).Pairwise fun first second =>
        ∃ front back, values ++ [value] = front ++ first :: back ∧ second ∉ front := by
      refine inductionHypothesis.imp ?_
      rintro first second ⟨front, back, divided, absent⟩
      exact ⟨front, back ++ [value], by rw [divided, List.append_assoc, List.cons_append], absent⟩
    rw [whole, pushNew]
    split
    · exact longer
    · next fresh =>
      refine List.pairwise_append.mpr ⟨longer, List.pairwise_singleton _ _, ?_⟩
      intro first isKept second isValue
      obtain rfl := List.mem_singleton.mp isValue
      obtain ⟨front, back, divided⟩ := List.append_of_mem (mem_distinct.mp isKept)
      refine ⟨front, back ++ [second], by rw [divided, List.append_assoc, List.cons_append], ?_⟩
      intro inFront
      rw [mem_distinct, divided] at fresh
      exact fresh (List.mem_append_left _ inFront)

end CodeAtlas.Text
