/-
This file says what the gathering of captures gathers. The drafts of a category stand in
strictly ascending order, one for each byte offset at which a definition owns a capture, and
the draft of an offset depends on nothing but the captures that are owned there: it begins at
the owner of the first of them and takes the others in turn.
-/

import CodeAtlas.Proofs.Extraction.Contributions
import CodeAtlas.Proofs.Text.Sorting
import CodeAtlas.Proofs.Tree.Ancestry

namespace CodeAtlas.Extraction

open Text

/-! ### Many captures -/

/-- The captures that count for a category, each with the site that owns it. -/
def owned (category : Category) (captures : List Capture) : List (Site × Capture) :=
  captures.filterMap fun capture =>
    if isAuxiliary capture.label then none
    else (capture.site.owner? category.definitionKinds).map fun site => (site, capture)

theorem mem_owned_iff {category : Category} {captures : List Capture} {site : Site}
    {capture : Capture} :
    (site, capture) ∈ owned category captures ↔
      capture ∈ captures ∧ isAuxiliary capture.label = false ∧
        Site.IsOwner category.definitionKinds site capture.site := by
  unfold owned
  rw [List.mem_filterMap]
  constructor
  · rintro ⟨found, member, equal⟩
    split at equal
    · cases equal
    · next counts =>
      obtain ⟨owner, isOwner, pair⟩ := Option.map_eq_some_iff.mp equal
      cases pair
      exact ⟨member, Bool.eq_false_iff.mpr counts, Site.owner?_eq_some_iff.mp isOwner⟩
  · rintro ⟨member, counts, isOwner⟩
    refine ⟨capture, member, ?_⟩
    rw [if_neg (Bool.eq_false_iff.mp counts), Site.owner?_eq_some_iff.mpr isOwner]
    rfl

/-- The drafts after a capture and the site that owns it. -/
def gatherOwned (category : Category) (source : Chars) (drafts : List Draft)
    (pair : Site × Capture) : List Draft :=
  insert category source pair.1 pair.2 drafts

theorem gather_eq_foldl_owned (category : Category) (source : Chars) (captures : List Capture) :
    gather category source captures =
      (owned category captures).foldl (gatherOwned category source) [] := by
  unfold gather owned
  rw [List.foldl_filterMap]
  refine congrArg (fun step => captures.foldl step []) ?_
  funext drafts capture
  rw [gatherCapture]
  split
  · rfl
  · cases capture.site.owner? category.definitionKinds <;> rfl

/-! ### Order -/

/-- The drafts stand in the order of their offsets, and no two have the same. -/
def Ascending (drafts : List Draft) : Prop :=
  drafts.Pairwise fun first second => first.offset < second.offset

section Insertion

variable {category : Category} {source : Chars} {site : Site} {capture : Capture}
  {drafts : List Draft}

/-- What stands among the drafts after a capture stood there before, or has just begun, or was
there and has taken the capture. -/
theorem mem_insert {draft : Draft} (member : draft ∈ insert category source site capture drafts) :
    draft ∈ drafts ∨ ∃ old : Draft, (old ∈ drafts ∨ old = { site }) ∧
      old.offset = site.node.start ∧ draft = old.add category source capture := by
  induction drafts with
  | nil =>
    rw [insert, List.mem_singleton] at member
    exact .inr ⟨{ site }, .inr rfl, rfl, member⟩
  | cons held drafts inductionHypothesis =>
    rw [insert] at member
    split at member
    · rcases List.mem_cons.mp member with rfl | member
      · exact .inr ⟨{ site }, .inr rfl, rfl, rfl⟩
      · exact .inl member
    · split at member
      · next same =>
        rcases List.mem_cons.mp member with rfl | member
        · exact .inr ⟨held, .inl List.mem_cons_self, same.symm, rfl⟩
        · exact .inl (List.mem_cons_of_mem _ member)
      · rcases List.mem_cons.mp member with rfl | member
        · exact .inl List.mem_cons_self
        · rcases inductionHypothesis member with member | ⟨old, member, rest⟩
          · exact .inl (List.mem_cons_of_mem _ member)
          · exact .inr ⟨old, member.imp_left (List.mem_cons_of_mem _), rest⟩

theorem offset_of_mem_insert {draft : Draft}
    (member : draft ∈ insert category source site capture drafts) :
    draft.offset = site.node.start ∨ ∃ old ∈ drafts, draft.offset = old.offset := by
  rcases mem_insert member with member | ⟨old, _, same, rfl⟩
  · exact .inr ⟨draft, member, rfl⟩
  · exact .inl (by rw [Draft.add_offset, same])

theorem ascending_insert (ascending : Ascending drafts) :
    Ascending (insert category source site capture drafts) := by
  induction drafts with
  | nil => exact List.pairwise_singleton _ _
  | cons held drafts inductionHypothesis =>
    have parts := List.pairwise_cons.mp ascending
    rw [insert]
    split
    · next before =>
      refine List.pairwise_cons.mpr ⟨fun other member => ?_, ascending⟩
      rw [Draft.add_offset]
      rcases List.mem_cons.mp member with rfl | member
      · exact before
      · exact Nat.lt_trans before (parts.1 other member)
    · next notBefore =>
      split
      · refine List.pairwise_cons.mpr ⟨fun other member => ?_, parts.2⟩
        rw [Draft.add_offset]
        exact parts.1 other member
      · next different =>
        refine List.pairwise_cons.mpr ⟨fun other member => ?_, inductionHypothesis parts.2⟩
        rcases offset_of_mem_insert member with equal | ⟨old, member, equal⟩
        · omega
        · exact equal ▸ parts.1 old member

/-- The draft of an offset among some drafts. -/
def draftAt? (offset : Nat) (drafts : List Draft) : Option Draft :=
  drafts.find? fun draft => draft.offset = offset

theorem draftAt?_cons (offset : Nat) (held : Draft) (drafts : List Draft) :
    draftAt? offset (held :: drafts) =
      if held.offset = offset then some held else draftAt? offset drafts := by
  unfold draftAt?
  by_cases here : held.offset = offset
  · rw [if_pos here, List.find?_cons_of_pos (by simpa using here)]
  · rw [if_neg here, List.find?_cons_of_neg (by simpa using here)]

/-- There is no draft at an offset before all others. -/
theorem draftAt?_of_before {offset : Nat} {held : Draft} (before : offset < held.offset)
    (ascending : Ascending (held :: drafts)) : draftAt? offset (held :: drafts) = none := by
  refine List.find?_eq_none.mpr fun draft member => ?_
  have after : held.offset ≤ draft.offset := by
    rcases List.mem_cons.mp member with rfl | member
    · exact Nat.le_refl _
    · exact Nat.le_of_lt ((List.pairwise_cons.mp ascending).1 draft member)
  rw [decide_eq_true_eq]
  omega

/-- A capture changes the draft of its owner's offset and no other; it begins one there if
there is none. -/
theorem draftAt?_insert (ascending : Ascending drafts) (offset : Nat) :
    draftAt? offset (insert category source site capture drafts) =
      if site.node.start = offset then
        some (((draftAt? offset drafts).getD { site }).add category source capture)
      else draftAt? offset drafts := by
  have begun : (Draft.add category source { site } capture).offset = site.node.start :=
    Draft.add_offset category source { site } capture
  induction drafts with
  | nil =>
    rw [insert, draftAt?_cons, begun]
    rfl
  | cons held drafts inductionHypothesis =>
    rw [insert]
    by_cases before : site.node.start < held.offset
    · rw [if_pos before, draftAt?_cons, begun]
      by_cases here : site.node.start = offset
      · rw [if_pos here, if_pos here, draftAt?_of_before (here ▸ before) ascending]
        rfl
      · rw [if_neg here, if_neg here]
    · rw [if_neg before]
      by_cases same : site.node.start = held.offset
      · rw [if_pos same, draftAt?_cons, draftAt?_cons, Draft.add_offset, same]
        by_cases here : held.offset = offset
        · rw [if_pos here, if_pos here, if_pos here]
          rfl
        · rw [if_neg here, if_neg here, if_neg here]
      · rw [if_neg same, draftAt?_cons, draftAt?_cons,
          inductionHypothesis (List.pairwise_cons.mp ascending).2]
        by_cases here : held.offset = offset
        · have notHere : site.node.start ≠ offset := fun equal => same (equal.trans here.symm)
          rw [if_pos here, if_pos here, if_neg notHere]
        · rw [if_neg here, if_neg here]

end Insertion

theorem draftAt?_eq_some_iff {drafts : List Draft} (ascending : Ascending drafts) {offset : Nat}
    {draft : Draft} :
    draftAt? offset drafts = some draft ↔ draft ∈ drafts ∧ draft.offset = offset := by
  constructor
  · intro found
    exact ⟨List.mem_of_find?_eq_some found, by simpa using List.find?_some found⟩
  · rintro ⟨member, rfl⟩
    induction drafts with
    | nil => cases member
    | cons held drafts inductionHypothesis =>
      have parts := List.pairwise_cons.mp ascending
      rw [draftAt?_cons]
      rcases List.mem_cons.mp member with rfl | member
      · exact if_pos rfl
      · rw [if_neg (Nat.ne_of_lt (parts.1 draft member))]
        exact inductionHypothesis parts.2 member

/-- Drafts in order are the same if the same stands at every offset. -/
theorem Ascending.ext {first second : List Draft} (firstAscends : Ascending first)
    (secondAscends : Ascending second)
    (same : ∀ offset, draftAt? offset first = draftAt? offset second) : first = second := by
  refine eq_of_ascending Draft.offset firstAscends secondAscends fun draft => ?_
  have stands {drafts : List Draft} (ascends : Ascending drafts) :
      draft ∈ drafts ↔ draftAt? draft.offset drafts = some draft := by
    rw [draftAt?_eq_some_iff ascends, and_iff_left rfl]
  rw [stands firstAscends, stands secondAscends, same]

/-- What is made of drafts is made of the drafts that stand at some offset. -/
theorem mem_filterMap_iff_draftAt? {drafts : List Draft} (ascending : Ascending drafts)
    {Part : Type} {make : Draft → Option Part} {part : Part} :
    part ∈ drafts.filterMap make ↔
      ∃ offset, (draftAt? offset drafts).bind make = some part := by
  simp only [List.mem_filterMap, Option.bind_eq_some_iff, draftAt?_eq_some_iff ascending]
  constructor
  · rintro ⟨draft, member, made⟩
    exact ⟨draft.offset, draft, ⟨member, rfl⟩, made⟩
  · rintro ⟨_, draft, ⟨member, _⟩, made⟩
    exact ⟨draft, member, made⟩

/-! ### All captures -/

/-- The captures that are owned at an offset, each with its owner. -/
def ownedAt (category : Category) (captures : List Capture) (offset : Nat) :
    List (Site × Capture) :=
  (owned category captures).filter fun pair => pair.1.node.start = offset

/-- Leaving captures out before or after it is told who owns them is the same. -/
theorem ownedAt_filter (category : Category) (keep : Capture → Bool) (captures : List Capture)
    (offset : Nat) :
    ownedAt category (captures.filter keep) offset =
      (ownedAt category captures offset).filter fun pair => keep pair.2 := by
  have owned_filter : owned category (captures.filter keep) =
      (owned category captures).filter fun pair => keep pair.2 := by
    rw [owned, owned, List.filterMap_filter, List.filter_filterMap]
    refine List.filterMap_congr fun capture _ => ?_
    cases isAuxiliary capture.label <;> cases capture.site.owner? category.definitionKinds <;>
      cases kept : keep capture <;> simp [Option.filter, kept]
  rw [ownedAt, ownedAt, owned_filter, List.filter_comm]

/-- The draft of an offset after one more of the captures that are owned there. -/
def absorb (category : Category) (source : Chars) (held : Option Draft)
    (pair : Site × Capture) : Option Draft :=
  some ((held.getD { site := pair.1 }).add category source pair.2)

/-- Each capture changes the draft of its own offset only, so the drafts after many captures
can be read off offset by offset. -/
theorem draftAt?_foldl_gatherOwned (category : Category) (source : Chars)
    (pairs : List (Site × Capture)) (drafts : List Draft) (ascending : Ascending drafts)
    (offset : Nat) :
    Ascending (pairs.foldl (gatherOwned category source) drafts) ∧
      draftAt? offset (pairs.foldl (gatherOwned category source) drafts) =
        (pairs.filter fun pair => pair.1.node.start = offset).foldl (absorb category source)
          (draftAt? offset drafts) := by
  induction pairs generalizing drafts with
  | nil => exact ⟨ascending, rfl⟩
  | cons pair pairs inductionHypothesis =>
    obtain ⟨site, capture⟩ := pair
    have step : draftAt? offset (gatherOwned category source drafts (site, capture)) = _ :=
      draftAt?_insert ascending offset
    obtain ⟨stillAscending, rest⟩ :=
      inductionHypothesis (gatherOwned category source drafts (site, capture))
        (ascending_insert ascending)
    refine ⟨stillAscending, ?_⟩
    rw [List.foldl_cons, rest, step, List.filter_cons]
    by_cases here : site.node.start = offset
    · rw [if_pos here, if_pos (by simpa using here), List.foldl_cons]
      rfl
    · rw [if_neg here, if_neg (by simpa using here)]

section Gathering

variable (category : Category) (source : Chars) (captures : List Capture)

theorem ascending_gather : Ascending (gather category source captures) := by
  rw [gather_eq_foldl_owned]
  exact (draftAt?_foldl_gatherOwned category source _ [] .nil 0).1

/-- The draft of an offset is made of the captures that are owned there, in their order. -/
theorem draftAt?_gather (offset : Nat) :
    draftAt? offset (gather category source captures) =
      (ownedAt category captures offset).foldl (absorb category source) none := by
  rw [gather_eq_foldl_owned]
  exact (draftAt?_foldl_gatherOwned category source _ [] .nil offset).2

/-- The site at which the definition of an offset stands: the owner of the first capture that
is owned there. -/
def definitionAt? (offset : Nat) : Option Site :=
  (ownedAt category captures offset).head?.map Prod.fst

/-- The draft of an offset stands at the definition of the offset and has taken all captures
that are owned there. -/
theorem draftAt?_gather_eq (offset : Nat) :
    draftAt? offset (gather category source captures) =
      (definitionAt? category captures offset).map fun site =>
        Draft.addAll category source { site }
          ((ownedAt category captures offset).map Prod.snd) := by
  have absorbed (pairs : List (Site × Capture)) (draft : Draft) :
      pairs.foldl (absorb category source) (some draft) =
        some ((pairs.map Prod.snd).foldl (Draft.add category source) draft) := by
    induction pairs generalizing draft with
    | nil => rfl
    | cons pair pairs inductionHypothesis => exact inductionHypothesis _
  rw [draftAt?_gather, definitionAt?]
  cases ownedAt category captures offset with
  | nil => rfl
  | cons pair pairs =>
    rw [List.foldl_cons, absorb, absorbed]
    exact congrArg some
      (Draft.foldl_add category source { site := pair.1 } (pair.2 :: pairs.map Prod.snd))

theorem exists_addAll_of_mem_gather {draft : Draft}
    (member : draft ∈ gather category source captures) :
    definitionAt? category captures draft.offset = some draft.site ∧
      draft = Draft.addAll category source { site := draft.site }
        ((ownedAt category captures draft.offset).map Prod.snd) := by
  have found := (draftAt?_eq_some_iff (ascending_gather category source captures)).mpr
    ⟨member, rfl⟩
  rw [draftAt?_gather_eq] at found
  obtain ⟨site, defined, equal⟩ := Option.map_eq_some_iff.mp found
  have stands : draft.site = site := by rw [← equal]; rfl
  exact ⟨stands ▸ defined, by rw [stands, equal]⟩

theorem definitionAt?_of_mem_gather {draft : Draft}
    (member : draft ∈ gather category source captures) :
    definitionAt? category captures draft.offset = some draft.site :=
  (exists_addAll_of_mem_gather category source captures member).1

/-- A draft stands at the owner of some capture. -/
theorem exists_isOwner_of_mem_gather {draft : Draft}
    (member : draft ∈ gather category source captures) :
    ∃ capture ∈ captures, Site.IsOwner category.definitionKinds draft.site capture.site := by
  have defined := definitionAt?_of_mem_gather category source captures member
  obtain ⟨⟨site, capture⟩, first, rfl⟩ := Option.map_eq_some_iff.mp defined
  have isOwned := (List.mem_filter.mp (List.mem_of_mem_head? first)).1
  obtain ⟨captured, _, isOwner⟩ := mem_owned_iff.mp isOwned
  exact ⟨capture, captured, isOwner⟩

/-- Some draft at an offset has a name exactly if some capture that is owned there gives one. -/
theorem exists_named_iff (offset : Nat) :
    (∃ draft ∈ gather category source captures, draft.offset = offset ∧ draft.name.isSome) ↔
      ∃ owner, owner.node.start = offset ∧ ∃ capture ∈ captures,
        Site.IsOwner category.definitionKinds owner capture.site ∧
          (namedBy? category source capture).isSome := by
  have ascending := ascending_gather category source captures
  have name : (draftAt? offset (gather category source captures)).bind Draft.name =
      (ownedAt category captures offset).findSome? fun pair => namedBy? category source pair.2 := by
    rw [draftAt?_gather_eq, definitionAt?]
    cases ownedAt category captures offset with
    | nil => rfl
    | cons pair pairs =>
      show none.or (((pair :: pairs).map Prod.snd).findSome? (namedBy? category source)) = _
      rw [Option.none_or, List.findSome?_map]
      rfl
  constructor
  · rintro ⟨draft, member, atOffset, named⟩
    rw [(draftAt?_eq_some_iff ascending).mpr ⟨member, atOffset⟩, Option.bind_some] at name
    obtain ⟨text, found⟩ := Option.isSome_iff_exists.mp named
    rw [found] at name
    obtain ⟨⟨owner, capture⟩, pairMember, gives⟩ := List.exists_of_findSome?_eq_some name.symm
    obtain ⟨isOwned, here⟩ := List.mem_filter.mp pairMember
    obtain ⟨captured, _, isOwner⟩ := mem_owned_iff.mp isOwned
    exact ⟨owner, by simpa using here, capture, captured, isOwner, by rw [gives]; rfl⟩
  · rintro ⟨owner, rfl, capture, captured, isOwner, named⟩
    obtain ⟨text, gives⟩ := Option.isSome_iff_exists.mp named
    have counts : isAuxiliary capture.label = false := by
      rw [label_of_namedBy? gives]
      decide
    have pairMember : (owner, capture) ∈ ownedAt category captures owner.node.start :=
      List.mem_filter.mpr ⟨mem_owned_iff.mpr ⟨captured, counts, isOwner⟩, by simp⟩
    have given : ((draftAt? owner.node.start (gather category source captures)).bind
        Draft.name).isSome := by
      rw [name, List.findSome?_isSome_iff]
      exact ⟨(owner, capture), pairMember, named⟩
    rw [Option.isSome_bind, Option.any_eq_true] at given
    obtain ⟨draft, found, draftNamed⟩ := given
    obtain ⟨member, atOffset⟩ := (draftAt?_eq_some_iff ascending).mp found
    exact ⟨draft, member, atOffset, draftNamed⟩

end Gathering

end CodeAtlas.Extraction
