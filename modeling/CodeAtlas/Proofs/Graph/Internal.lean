/-
This file says which calls stay inside a project. Whether a called name is one of the project's
depends on the names of functions, classes and callers alone, and only on which there are: with
more of them no name ceases to be one. The calls that stay inside are those of every caller in
their order, and a caller without any is left out.
-/

import CodeAtlas.Graph.Relationships
import CodeAtlas.Proofs.Graph.Index

namespace CodeAtlas.Relationships

variable {relationships others : Relationships}

/-! ### Names of the project -/

theorem isKnownName_iff {name : String} : relationships.isKnownName name = true ↔
    name ∈ relationships.functionIndex.keys ∨ name ∈ relationships.classIndex.keys := by
  rw [isKnownName, Bool.or_eq_true, Index.mem_keys_iff, Index.mem_keys_iff]
  rfl

/-- A called name is one of the project if it is known, or stands in the name of a function or
method, or in the name of a method together with that of its class. -/
theorem isInternalCallee_iff {callee : String} : relationships.isInternalCallee callee = true ↔
    relationships.isKnownName callee = true ∨
      (∃ name ∈ relationships.functionIndex.keys, stands callee name = true) ∨
        ∃ caller ∈ relationships.calls.keys,
          stands "::" caller = false ∧ stands callee caller = true := by
  simp only [isInternalCallee, Bool.or_eq_true, List.any_eq_true, List.mem_filter,
    Bool.not_eq_true', and_assoc, or_assoc]

/-- Whether all names of some relationships are names of others. -/
structure NamesWithin (relationships others : Relationships) : Prop where
  functions : relationships.functionIndex.keys ⊆ others.functionIndex.keys
  classes : relationships.classIndex.keys ⊆ others.classIndex.keys
  callers : relationships.calls.keys ⊆ others.calls.keys

namespace NamesWithin

theorem isKnownName (within : NamesWithin relationships others) {name : String}
    (known : relationships.isKnownName name = true) : others.isKnownName name = true :=
  isKnownName_iff.mpr ((isKnownName_iff.mp known).imp (within.functions ·) (within.classes ·))

theorem isInternalCallee (within : NamesWithin relationships others) {callee : String}
    (internal : relationships.isInternalCallee callee = true) :
    others.isInternalCallee callee = true := by
  rw [isInternalCallee_iff] at internal ⊢
  rcases internal with known | ⟨name, member, part⟩ | ⟨caller, member, free, part⟩
  · exact .inl (within.isKnownName known)
  · exact .inr (.inl ⟨name, within.functions member, part⟩)
  · exact .inr (.inr ⟨caller, within.callers member, free, part⟩)

/-- Relationships with the same names have the same names of the project among the callees. -/
theorem isInternalCallee_eq (within : NamesWithin relationships others)
    (back : NamesWithin others relationships) :
    relationships.isInternalCallee = others.isInternalCallee :=
  funext fun _ => Bool.eq_iff_iff.mpr ⟨within.isInternalCallee, back.isInternalCallee⟩

end NamesWithin

/-! ### Calls inside the project -/

/-- What a caller calls inside the project. -/
theorem get?_internalCalls_eq_some_iff {caller : String} {kept : List String} :
    relationships.internalCalls.get? caller = some kept ↔
      ∃ callees, relationships.calls.get? caller = some callees ∧
        callees.filter relationships.isInternalCallee = kept ∧ kept ≠ [] := by
  rw [internalCalls, Index.get?_filterMap, Option.bind_eq_some_iff]
  refine exists_congr fun callees => and_congr_right fun _ => ?_
  cases callees.filter relationships.isInternalCallee with
  | nil => simp
  | cons callee callees =>
    rw [Option.some.injEq]
    exact ⟨fun same => ⟨same, same ▸ List.cons_ne_nil callee callees⟩, fun found => found.1⟩

/-- Whether a caller is left out or not, it has the callees of the project. -/
theorem getD_get?_internalCalls (relationships : Relationships) (caller : String) :
    (relationships.internalCalls.get? caller).getD [] =
      ((relationships.calls.get? caller).getD []).filter relationships.isInternalCallee := by
  rw [internalCalls, Index.get?_filterMap]
  cases relationships.calls.get? caller with
  | none => rfl
  | some callees =>
    rw [Option.bind_some, Option.getD_some]
    cases callees.filter relationships.isInternalCallee <;> rfl

theorem mem_keys_internalCalls_iff {caller : String} :
    caller ∈ relationships.internalCalls.keys ↔
      (relationships.internalCalls.get? caller).getD [] ≠ [] := by
  rw [Index.mem_keys_iff_exists]
  constructor
  · rintro ⟨kept, found⟩
    obtain ⟨_, _, _, notEmpty⟩ := get?_internalCalls_eq_some_iff.mp found
    rw [found]
    exact notEmpty
  · intro notEmpty
    cases found : relationships.internalCalls.get? caller with
    | none => rw [found] at notEmpty; contradiction
    | some kept => exact ⟨kept, rfl⟩

end CodeAtlas.Relationships
