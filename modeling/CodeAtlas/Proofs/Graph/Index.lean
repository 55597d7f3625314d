/-
This file says what a table and a set of texts hold after they have been changed. A change of
one key is seen at that key and nowhere else, so that the table of some entries has the value
of a key from the last of its entries. Tables and sets are known by what they hold: two that
hold the same are the same.
-/

import CodeAtlas.Graph.Index
import Mathlib.Data.List.Nodup
import Mathlib.Data.List.Sort

namespace CodeAtlas

namespace Index

variable {α : Type}

/-! ### Changing one key -/

theorem valueIn?_cons (key held : String) (value : α) (entries : List (String × α)) :
    valueIn? key ((held, value) :: entries) =
      if key = held then some value else valueIn? key entries := by
  rw [valueIn?]
  by_cases same : held = key
  · rw [if_pos same, if_pos same.symm]
  · rw [if_neg same, if_neg fun equal => same equal.symm]

theorem valueIn?_eq_none {key : String} {entries : List (String × α)}
    (absent : ∀ entry ∈ entries, key ≠ entry.1) : valueIn? key entries = none := by
  induction entries with
  | nil => rfl
  | cons entry entries inductionHypothesis =>
    rw [valueIn?_cons, if_neg (absent entry List.mem_cons_self)]
    exact inductionHypothesis fun other member => absent other (List.mem_cons_of_mem _ member)

theorem valueIn?_isSome_iff {key : String} {entries : List (String × α)} :
    (valueIn? key entries).isSome = true ↔ key ∈ entries.map Prod.fst := by
  induction entries with
  | nil => simp [valueIn?]
  | cons entry entries inductionHypothesis =>
    rw [valueIn?_cons, List.map_cons, List.mem_cons]
    by_cases here : key = entry.1
    · rw [if_pos here]
      exact ⟨fun _ => .inl here, fun _ => rfl⟩
    · rw [if_neg here, inductionHypothesis]
      exact ⟨.inr, fun member => member.resolve_left here⟩

/-- What is changed before all entries of a table is no key of it yet. -/
theorem valueIn?_of_before {key : String} {entry : String × α} {entries : List (String × α)}
    (before : key < entry.1) (after : ∀ other ∈ entries, entry.1 < other.1) :
    valueIn? key (entry :: entries) = none := by
  refine valueIn?_eq_none fun other member equal => ?_
  rcases List.mem_cons.mp member with rfl | member
  · exact String.lt_irrefl _ (equal ▸ before)
  · exact String.lt_irrefl _ (String.lt_trans before (equal ▸ after other member))

/-- A change is seen at its own key, and there it sees the old value. -/
theorem valueIn?_changeIn {entries : List (String × α)}
    (ascending : entries.Pairwise fun first second => first.1 < second.1) (key other : String)
    (change : Option α → α) :
    valueIn? other (changeIn key change entries) =
      if other = key then some (change (valueIn? key entries)) else valueIn? other entries := by
  induction entries with
  | nil =>
    rw [changeIn, valueIn?_cons]
    rfl
  | cons entry entries inductionHypothesis =>
    obtain ⟨held, value⟩ := entry
    have parts := List.pairwise_cons.mp ascending
    rw [changeIn]
    by_cases before : key < held
    · rw [if_pos before, valueIn?_of_before before parts.1, valueIn?_cons other key]
    · rw [if_neg before]
      by_cases here : held = key
      · subst here
        rw [if_pos rfl, valueIn?_cons, valueIn?_cons, valueIn?_cons, if_pos rfl]
        by_cases same : other = held
        · rw [if_pos same, if_pos same]
        · rw [if_neg same, if_neg same, if_neg same]
      · have notHere : key ≠ held := fun equal => here equal.symm
        rw [if_neg here, valueIn?_cons, inductionHypothesis parts.2]
        by_cases same : other = key
        · subst same
          rw [if_neg notHere, if_pos rfl, if_pos rfl, valueIn?_cons, if_neg notHere]
        · rw [if_neg same, if_neg same, valueIn?_cons]

theorem get?_change (index : Index α) (key other : String) (change : Option α → α) :
    (index.change key change).get? other =
      if other = key then some (change (index.get? key)) else index.get? other :=
  valueIn?_changeIn index.ascending key other change

theorem get?_insert (index : Index α) (key other : String) (value : α) :
    (index.insert key value).get? other = if other = key then some value else index.get? other :=
  get?_change index key other fun _ => value

theorem mem_keys_iff {index : Index α} {key : String} :
    key ∈ index.keys ↔ (index.get? key).isSome = true :=
  valueIn?_isSome_iff.symm

theorem mem_keys_iff_exists {index : Index α} {key : String} :
    key ∈ index.keys ↔ ∃ value, index.get? key = some value := by
  rw [mem_keys_iff, Option.isSome_iff_exists]

theorem get?_empty (key : String) : (∅ : Index α).get? key = none := rfl

/-! ### What a table holds -/

theorem valueIn?_eq_some_iff {key : String} {value : α} {entries : List (String × α)}
    (ascending : entries.Pairwise fun first second => first.1 < second.1) :
    valueIn? key entries = some value ↔ (key, value) ∈ entries := by
  induction entries with
  | nil => simp [valueIn?]
  | cons entry entries inductionHypothesis =>
    obtain ⟨held, content⟩ := entry
    obtain ⟨after, ascending⟩ := List.pairwise_cons.mp ascending
    rw [valueIn?_cons, List.mem_cons, Prod.mk.injEq]
    by_cases here : key = held
    · subst here
      have absent : (key, value) ∉ entries := fun member =>
        String.lt_irrefl key (after (key, value) member)
      simp [absent, eq_comm]
    · rw [if_neg here, inductionHypothesis ascending]
      exact ⟨.inr, fun member => member.resolve_left fun equal => here equal.1⟩

theorem get?_eq_some_iff {index : Index α} {key : String} {value : α} :
    index.get? key = some value ↔ (key, value) ∈ index.entries :=
  valueIn?_eq_some_iff index.ascending

/-- Tables that have the same value for every key are the same. -/
theorem ext_get? {first second : Index α} (same : ∀ key, first.get? key = second.get? key) :
    first = second := by
  have antisymm : Std.Antisymm fun first second : String × α => first.1 < second.1 :=
    ⟨fun _ _ before after => absurd (String.lt_trans before after) (String.lt_irrefl _)⟩
  have irrefl : Std.Irrefl fun first second : String × α => first.1 < second.1 :=
    ⟨fun _ => String.lt_irrefl _⟩
  refine ext_entries (first.ascending.eq_of_mem_iff second.ascending fun entry => ?_)
  rw [← get?_eq_some_iff, ← get?_eq_some_iff, same]

/-- Tables with the same keys have them in the same order. -/
theorem keys_eq_of_mem_iff {β : Type} {first : Index α} {second : Index β}
    (same : ∀ key, key ∈ first.keys ↔ key ∈ second.keys) : first.keys = second.keys :=
  (List.pairwise_map.mpr first.ascending).eq_of_mem_iff (List.pairwise_map.mpr second.ascending)
    same

theorem get?_filterMap {β : Type} (index : Index α) (keep : α → Option β) (key : String) :
    (index.filterMap keep).get? key = (index.get? key).bind keep := by
  refine Option.ext fun value => ?_
  rw [get?_eq_some_iff, Option.bind_eq_some_iff]
  simp only [get?_eq_some_iff, filterMap, List.mem_filterMap, Option.map_eq_some_iff,
    Prod.mk.injEq]
  constructor
  · rintro ⟨⟨_, content⟩, member, _, kept, rfl, rfl⟩
    exact ⟨content, member, kept⟩
  · rintro ⟨content, member, kept⟩
    exact ⟨(key, content), member, value, kept, rfl, rfl⟩

theorem get?_filter_eq_some_iff {index : Index α} {keep : α → Bool} {key : String} {value : α} :
    (index.filter keep).get? key = some value ↔
      index.get? key = some value ∧ keep value = true := by
  rw [filter, get?_filterMap, Option.bind_eq_some_iff]
  constructor
  · rintro ⟨content, found, kept⟩
    obtain ⟨keeps, same⟩ := Option.ite_none_right_eq_some.mp kept
    exact Option.some.inj same ▸ ⟨found, keeps⟩
  · rintro ⟨found, keeps⟩
    exact ⟨value, found, if_pos keeps⟩

/-! ### The table of some entries -/

theorem get?_foldl_insert (entries : List (String × α)) (index : Index α) (key : String) :
    (entries.foldl (fun index (held, value) => index.insert held value) index).get? key =
      ((entries.filter fun entry => entry.1 = key).getLast?.map Prod.snd).or
        (index.get? key) := by
  induction entries generalizing index with
  | nil => rfl
  | cons entry entries inductionHypothesis =>
    obtain ⟨held, value⟩ := entry
    rw [List.foldl_cons, inductionHypothesis, get?_insert, List.filter_cons]
    by_cases here : held = key
    · rw [if_pos here.symm, if_pos (by simpa using here), List.getLast?_cons]
      cases (entries.filter fun entry => entry.1 = key).getLast? <;> rfl
    · rw [if_neg fun equal => here equal.symm, if_neg (by simpa using here)]

/-- Of several entries for a key the last one counts. -/
theorem get?_ofEntries (entries : List (String × α)) (key : String) :
    (ofEntries entries).get? key =
      (entries.filter fun entry => entry.1 = key).getLast?.map Prod.snd := by
  rw [ofEntries, get?_foldl_insert]
  exact Option.or_none

theorem mem_of_get?_ofEntries {entries : List (String × α)} {key : String} {value : α}
    (found : (ofEntries entries).get? key = some value) : (key, value) ∈ entries := by
  rw [get?_ofEntries] at found
  obtain ⟨⟨held, _⟩, last, rfl⟩ := Option.map_eq_some_iff.mp found
  obtain ⟨member, here⟩ := List.mem_filter.mp (List.mem_of_getLast? last)
  have same : held = key := by simpa using here
  exact same ▸ member

/-- If every key has one entry at most, then that entry counts. -/
theorem get?_ofEntries_eq_some_iff {entries : List (String × α)}
    (once : (entries.map Prod.fst).Nodup) {key : String} {value : α} :
    (ofEntries entries).get? key = some value ↔ (key, value) ∈ entries := by
  refine ⟨mem_of_get?_ofEntries, fun member => ?_⟩
  have stands : (key, value) ∈ entries.filter fun entry => entry.1 = key :=
    List.mem_filter.mpr ⟨member, by simp⟩
  cases found : (ofEntries entries).get? key with
  | none =>
    rw [get?_ofEntries, Option.map_eq_none_iff, List.getLast?_eq_none_iff] at found
    rw [found] at stands
    cases stands
  | some other =>
    have equal := List.inj_on_of_nodup_map once (mem_of_get?_ofEntries found) member rfl
    rw [(Prod.mk.inj equal).2]

end Index

/-! ### Sets of texts -/

namespace TextSet

theorem mem_foldl_insert {texts : List String} {set : TextSet} {text : String} :
    text ∈ (texts.foldl insert set).toList ↔ text ∈ set.toList ∨ text ∈ texts := by
  induction texts generalizing set with
  | nil => simp
  | cons other texts inductionHypothesis =>
    rw [List.foldl_cons, inductionHypothesis, insert, mem_insertIn, List.mem_cons, or_comm
      (a := text = other), or_assoc]

/-- The set of some texts has these texts and no others. -/
theorem mem_ofList {texts : List String} {text : String} :
    text ∈ (ofList texts).toList ↔ text ∈ texts := by
  rw [ofList, mem_foldl_insert]
  simp [empty]

/-- Sets that have the same texts are the same. -/
theorem ext_mem {first second : TextSet}
    (same : ∀ text, text ∈ first.toList ↔ text ∈ second.toList) : first = second := by
  obtain ⟨_, firstAscending⟩ := first
  obtain ⟨_, secondAscending⟩ := second
  exact TextSet.mk.injEq .. ▸ firstAscending.eq_of_mem_iff secondAscending same

end TextSet

end CodeAtlas
