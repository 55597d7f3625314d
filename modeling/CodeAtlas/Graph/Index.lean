/-
This file holds tables with texts for keys. A table keeps its keys in ascending order, each
once, so that two tables which say the same of every key are the same table.
-/

import CodeAtlas.Text.Chars

namespace CodeAtlas

/-- A table with texts for keys, in ascending order. -/
structure Index (α : Type) where
  entries : List (String × α)
  ascending : entries.Pairwise fun first second => first.1 < second.1

namespace Index

variable {α β : Type}

/-! ### Looking up -/

/-- The value of a key among some entries. -/
def valueIn? (key : String) : List (String × α) → Option α
  | [] => none
  | (held, value) :: entries => if held = key then some value else valueIn? key entries

/-- The value of a key. -/
def get? (index : Index α) (key : String) : Option α :=
  valueIn? key index.entries

/-- The keys, in ascending order. -/
def keys (index : Index α) : List String :=
  index.entries.map (·.1)

/-- The values, in the order of their keys. -/
def values (index : Index α) : List α :=
  index.entries.map (·.2)

/-- Whether a table has a key. -/
def hasKey (index : Index α) (key : String) : Bool :=
  (index.get? key).isSome

/-- Whether a table has no keys. -/
def isEmpty (index : Index α) : Bool :=
  index.entries.isEmpty

/-! ### Changing -/

/-- The table without keys. -/
def empty : Index α where
  entries := []
  ascending := .nil

instance : EmptyCollection (Index α) := ⟨empty⟩

instance : Inhabited (Index α) := ⟨empty⟩

/-- Entries with a new value for a key, which may depend on its old one. -/
def changeIn (key : String) (change : Option α → α) : List (String × α) → List (String × α)
  | [] => [(key, change none)]
  | (held, value) :: entries =>
    if key < held then (key, change none) :: (held, value) :: entries
    else if held = key then (held, change (some value)) :: entries
    else (held, value) :: changeIn key change entries

theorem mem_keys_changeIn {key other : String} {change : Option α → α}
    {entries : List (String × α)} {value : α} (member : (other, value) ∈ changeIn key change entries) :
    other = key ∨ ∃ old, (other, old) ∈ entries := by
  induction entries with
  | nil =>
    simp only [changeIn, List.mem_cons, Prod.mk.injEq, List.not_mem_nil, or_false] at member
    exact .inl member.1
  | cons entry entries inductionHypothesis =>
    obtain ⟨held, old⟩ := entry
    simp only [changeIn] at member
    split at member
    · simp only [List.mem_cons, Prod.mk.injEq] at member
      rcases member with ⟨equal, _⟩ | ⟨equal, _⟩ | member
      · exact .inl equal
      · exact .inr ⟨old, by simp [equal]⟩
      · exact .inr ⟨value, List.mem_cons_of_mem _ member⟩
    · split at member
      · simp only [List.mem_cons, Prod.mk.injEq] at member
        rcases member with ⟨equal, _⟩ | member
        · exact .inr ⟨old, by simp [equal]⟩
        · exact .inr ⟨value, List.mem_cons_of_mem _ member⟩
      · simp only [List.mem_cons, Prod.mk.injEq] at member
        rcases member with ⟨equal, _⟩ | member
        · exact .inr ⟨old, by simp [equal]⟩
        · rcases inductionHypothesis member with equal | ⟨held, member⟩
          · exact .inl equal
          · exact .inr ⟨held, List.mem_cons_of_mem _ member⟩

theorem ascending_changeIn {key : String} {change : Option α → α} {entries : List (String × α)}
    (ascending : entries.Pairwise fun first second => first.1 < second.1) :
    (changeIn key change entries).Pairwise fun first second => first.1 < second.1 := by
  induction entries with
  | nil => simp [changeIn]
  | cons entry entries inductionHypothesis =>
    obtain ⟨held, old⟩ := entry
    rw [List.pairwise_cons] at ascending
    simp only [changeIn]
    split
    · next before =>
      rw [List.pairwise_cons, List.pairwise_cons]
      refine ⟨?_, ascending⟩
      intro other member
      rcases List.mem_cons.mp member with rfl | member
      · exact before
      · exact String.lt_trans before (ascending.1 other member)
    · next notBefore =>
      split
      · exact List.pairwise_cons.mpr ascending
      · next different =>
        refine List.pairwise_cons.mpr ⟨?_, inductionHypothesis ascending.2⟩
        intro other member
        obtain ⟨name, content⟩ := other
        rcases mem_keys_changeIn member with equal | ⟨value, member⟩
        · rw [equal]
          rcases Std.lt_trichotomy held key with less | equal | greater
          · exact less
          · exact absurd equal different
          · exact absurd greater notBefore
        · exact ascending.1 (name, value) member

/-- The table with a new value for a key, which may depend on its old one. -/
def change (index : Index α) (key : String) (change : Option α → α) : Index α where
  entries := changeIn key change index.entries
  ascending := ascending_changeIn index.ascending

/-- The table with a value for a key. -/
def insert (index : Index α) (key : String) (value : α) : Index α :=
  index.change key fun _ => value

/-- The table of some entries; of several entries for a key the last one counts. -/
def ofEntries (entries : List (String × α)) : Index α :=
  entries.foldl (fun index (key, value) => index.insert key value) empty

/-- The table with every value changed or left out. -/
def filterMap (index : Index α) (keep : α → Option β) : Index β where
  entries := index.entries.filterMap fun (key, value) => (keep value).map (key, ·)
  ascending := by
    refine List.Pairwise.filterMap _ ?_ index.ascending
    intro first second less one oneMember two twoMember
    simp only [Option.map_eq_some_iff] at oneMember twoMember
    obtain ⟨_, _, rfl⟩ := oneMember
    obtain ⟨_, _, rfl⟩ := twoMember
    exact less

/-- The table with only the values that satisfy a test. -/
def filter (index : Index α) (keep : α → Bool) : Index α :=
  index.filterMap fun value => if keep value then some value else none

theorem ext_entries {first second : Index α} (same : first.entries = second.entries) :
    first = second := by
  cases first
  cases second
  cases same
  rfl

end Index

/-! ### Sets of texts -/

/-- A set of texts, in ascending order. -/
structure TextSet where
  toList : List String
  ascending : toList.Pairwise (· < ·)

namespace TextSet

/-- Ascending texts with one more. -/
def insertIn (text : String) : List String → List String
  | [] => [text]
  | held :: texts =>
    if text < held then text :: held :: texts
    else if held = text then held :: texts
    else held :: insertIn text texts

theorem mem_insertIn {text other : String} {texts : List String} :
    other ∈ insertIn text texts ↔ other = text ∨ other ∈ texts := by
  induction texts with
  | nil => simp [insertIn]
  | cons held texts inductionHypothesis =>
    simp only [insertIn]
    split
    · simp
    · split
      · next equal => simp [equal]
      · simp only [List.mem_cons, inductionHypothesis]
        exact or_left_comm

theorem ascending_insertIn {text : String} {texts : List String}
    (ascending : texts.Pairwise (· < ·)) : (insertIn text texts).Pairwise (· < ·) := by
  induction texts with
  | nil => simp [insertIn]
  | cons held texts inductionHypothesis =>
    rw [List.pairwise_cons] at ascending
    simp only [insertIn]
    split
    · next before =>
      rw [List.pairwise_cons, List.pairwise_cons]
      refine ⟨?_, ascending⟩
      intro other member
      rcases List.mem_cons.mp member with rfl | member
      · exact before
      · exact String.lt_trans before (ascending.1 other member)
    · next notBefore =>
      split
      · exact List.pairwise_cons.mpr ascending
      · next different =>
        refine List.pairwise_cons.mpr ⟨?_, inductionHypothesis ascending.2⟩
        intro other member
        rcases mem_insertIn.mp member with rfl | member
        · rcases Std.lt_trichotomy held other with less | equal | greater
          · exact less
          · exact absurd equal different
          · exact absurd greater notBefore
        · exact ascending.1 other member

/-- The set without texts. -/
def empty : TextSet where
  toList := []
  ascending := .nil

/-- The set with one more text. -/
def insert (set : TextSet) (text : String) : TextSet where
  toList := insertIn text set.toList
  ascending := ascending_insertIn set.ascending

/-- The set of some texts. -/
def ofList (texts : List String) : TextSet :=
  texts.foldl insert empty

/-- The number of texts in a set. -/
def size (set : TextSet) : Nat :=
  set.toList.length

/-- Whether a set has no texts. -/
def isEmpty (set : TextSet) : Bool :=
  set.toList.isEmpty

end TextSet

end CodeAtlas
