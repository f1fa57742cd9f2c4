import Clerkenwell.Codegen.Normalize
import Clerkenwell.Codegen.Reordering

/-!
# What bringing keys into locale order forgets

A value whose objects hold no two different keys that collate equal, array
indices aside, is brought to one value however its objects were ordered.  Any
other is not: keys that tie keep the order they were written in.
-/

namespace Clerkenwell.Codegen

open Clerkenwell.Foundation

section Sorting

variable (collator : Collator)

/-- No two different keys, neither an array index, collate equal. -/
def Untied (keys : List String) : Prop :=
  ∀ key ∈ keys, ∀ other ∈ keys, arrayIndex key = none → arrayIndex other = none →
    collator.compare key other = .eq → key = other

mutual

/-- Each object of a value holds untied keys. -/
def Json.Steady : Json → Prop
  | .array items => SteadyItems items
  | .object members => Untied collator (Members.keys members)
      ∧ SteadyMembers members
  | _ => True

def SteadyItems : List Json → Prop
  | [] => True
  | item :: rest => item.Steady ∧ SteadyItems rest

def SteadyMembers : List (String × Json) → Prop
  | [] => True
  | (_, value) :: rest => value.Steady ∧ SteadyMembers rest

end

variable {collator}

theorem compare_eq_iff (key other : String) :
    collator.compare key other = .eq
      ↔ collator.sortsBefore key other ∧ collator.sortsBefore other key := by
  unfold Collator.sortsBefore
  rw [collator.oriented key other]
  cases collator.compare key other <;> simp

theorem steadyMembers_iff (members : Members) :
    SteadyMembers collator members
      ↔ ∀ member ∈ members, member.2.Steady collator := by
  induction members with
  | nil => simp [SteadyMembers]
  | cons member rest inductionHypothesis =>
      simp [SteadyMembers, inductionHypothesis]

theorem Json.Steady.untied {members : Members}
    (steady : (Json.object members).Steady collator) :
    Untied collator members.keys := by
  rw [Json.Steady] at steady
  exact steady.1

theorem Json.Steady.member {members : Members}
    (steady : (Json.object members).Steady collator)
    (nodup : members.keys.Nodup) {key : String} {value : Json}
    (held : members.get? key = some value) : value.Steady collator := by
  rw [Json.Steady] at steady
  exact (steadyMembers_iff members).mp steady.2 _
    ((Members.get?_eq_some_iff nodup key value).mp held)

/-! ## Entries and their order -/

section Entries

variable (collator) (members : Members)

theorem sortedEntries_perm : (sortedEntries collator members).Perm members :=
  List.perm_insertionSort _ members

theorem keys_sortedEntries :
    (sortedEntries collator members).keys
      = members.keys.insertionSort collator.sortsBefore :=
  List.map_insertionSort _ _ Prod.fst members fun _ _ _ _ => Iff.rfl

/-- Values are not looked at. -/
theorem sortedEntries_map (change : String × Json → String × Json)
    (keeps : ∀ member, (change member).1 = member.1) :
    (sortedEntries collator members).map change
      = sortedEntries collator (members.map change) := by
  refine List.map_insertionSort _ _ change members fun left _ right _ => ?_
  rw [keeps, keeps]

theorem deepSortItems_eq_map (items : List Json) :
    deepSortItems collator items = items.map (deepSort collator) := by
  induction items with
  | nil => rfl
  | cons item rest inductionHypothesis =>
      rw [deepSortItems, inductionHypothesis, List.map_cons]

theorem deepSortMembers_eq_map :
    deepSortMembers collator members
      = members.map fun member => (member.1, deepSort collator member.2) := by
  induction members with
  | nil => rfl
  | cons member rest inductionHypothesis =>
      rw [deepSortMembers, inductionHypothesis, List.map_cons]

@[simp]
theorem keys_deepSortMembers :
    Members.keys (deepSortMembers collator members) = members.keys := by
  rw [deepSortMembers_eq_map, Members.keys, List.map_map]
  rfl

theorem get?_deepSortMembers (key : String) :
    Members.get? (deepSortMembers collator members) key
      = (members.get? key).map (deepSort collator) := by
  induction members with
  | nil => rfl
  | cons member rest inductionHypothesis =>
      rw [deepSortMembers, Members.get?_cons, Members.get?_cons,
        inductionHypothesis]
      split_ifs <;> rfl

end Entries

/-! ## Keys that tie -/

section Ties

variable {members others : Members}

/-- Entries whose tied keys stand alike come into one order. -/
theorem sortedEntries_eq (nodup : members.keys.Nodup)
    (same : members.Perm others)
    (ties : ∀ key other, collator.compare key other = .eq →
      [key, other].Sublist members.keys → [key, other].Sublist others.keys) :
    sortedEntries collator members = sortedEntries collator others := by
  have others_nodup : others.keys.Nodup := (same.map Prod.fst).nodup_iff.mp nodup
  have total : Std.Total fun left right : String × Json =>
      collator.sortsBefore left.1 right.1 :=
    ⟨fun left right => Std.Total.total left.1 right.1⟩
  have transitive : IsTrans (String × Json) fun left right =>
      collator.sortsBefore left.1 right.1 :=
    ⟨fun first second third => collator.transitive first.1 second.1 third.1⟩
  refine StableSort.insertionSort_eq_of_ties _ nodup.of_map same ?_
  intro first second related tie pair
  have keys_pair : [first.1, second.1].Sublist others.keys :=
    ties first.1 second.1 ((compare_eq_iff _ _).mpr ⟨related, tie⟩)
      (pair.map Prod.fst)
  have different : first ≠ second := by
    have pair_nodup := (nodup.of_map).sublist pair
    simpa using pair_nodup
  rcases StableSort.pair_or_swap different
      (same.mem_iff.mp (pair.subset (by simp)))
      (same.mem_iff.mp (pair.subset (by simp))) with one | other
  · exact one
  · exact (StableSort.not_swap others_nodup keys_pair (other.map Prod.fst)).elim

/-- An array index stands where its object's order puts it. -/
theorem Members.Ordered.pair (ordered : members.Ordered)
    (others_ordered : others.Ordered) (same : members.keys.Perm others.keys)
    {key other : String} (pair : [key, other].Sublist members.keys)
    (indexed : ¬(arrayIndex key = none ∧ arrayIndex other = none)) :
    [key, other].Sublist others.keys := by
  have different : key ≠ other := by
    have pair_nodup := ordered.nodup.sublist pair
    simpa using pair_nodup
  have before := List.pairwise_iff_forall_sublist.mp ordered.indexed pair
  rcases StableSort.pair_or_swap different
      (same.mem_iff.mp (pair.subset (by simp)))
      (same.mem_iff.mp (pair.subset (by simp))) with one | swapped
  · exact one
  · have after :=
      List.pairwise_iff_forall_sublist.mp others_ordered.indexed swapped
    exfalso
    unfold indexedBefore at before after
    cases key_index : arrayIndex key <;> cases other_index : arrayIndex other <;>
      simp_all [indexBefore]
    omega

theorem sublist_names {key other : String} (key_name : arrayIndex key = none)
    (other_name : arrayIndex other = none) :
    [key, other].Sublist members.names ↔ [key, other].Sublist members.keys := by
  constructor
  · exact fun pair => pair.trans List.filter_sublist
  · intro pair
    have filtered := pair.filter fun key => arrayIndex key = none
    simpa [Members.names, key_name, other_name] using filtered

/-- Objects whose members agree, and whose tied keys stand alike, sort alike. -/
theorem deepSort_object_eq (ordered : members.Ordered)
    (others_ordered : others.Ordered)
    (same : (deepSortMembers collator members).Perm
      (deepSortMembers collator others))
    (ties : ∀ key other, collator.compare key other = .eq →
      [key, other].Sublist members.names → [key, other].Sublist others.names) :
    deepSort collator (.object members) = deepSort collator (.object others) := by
  have keys_same : members.keys.Perm others.keys := by
    have mapped := same.map Prod.fst
    change (Members.keys _).Perm (Members.keys _) at mapped
    simpa using mapped
  rw [deepSort, deepSort, sortedEntries_eq (by simpa using ordered.nodup) same]
  intro key other tie pair
  rw [keys_deepSortMembers] at pair ⊢
  by_cases names : arrayIndex key = none ∧ arrayIndex other = none
  · rw [← sublist_names names.1 names.2]
    exact ties key other tie ((sublist_names names.1 names.2).mpr pair)
  · exact ordered.pair others_ordered keys_same pair names

/-- Untied keys stand alike in any order. -/
theorem Untied.sublist (untied : Untied collator members.keys)
    (nodup : members.keys.Nodup) {key other : String}
    (tie : collator.compare key other = .eq)
    (pair : [key, other].Sublist members.names) : False := by
  have pair_nodup := (nodup.filter fun key => arrayIndex key = none).sublist pair
  have within : ∀ name ∈ [key, other],
      name ∈ members.keys ∧ arrayIndex name = none := fun name member => by
    simpa [Members.names] using List.mem_filter.mp (pair.subset member)
  have same := untied key (within key (by simp)).1 other (within other (by simp)).1
    (within key (by simp)).2 (within other (by simp)).2 tie
  simp [same] at pair_nodup

end Ties

/-! ## Steady values -/

mutual

/-- A steady value sorts to what any reordering of it sorts to. -/
theorem deepSort_eq_of_reordered :
    ∀ value other : Json, value.Steady collator → value.WellFormed →
      other.WellFormed → Reordered value other →
        deepSort collator value = deepSort collator other
  | .null, _, _, _, _, .null => rfl
  | .bool _, _, _, _, _, .bool _ => rfl
  | .number _, _, _, _, _, .number _ => rfl
  | .string _, _, _, _, _, .string _ => rfl
  | .array items, .array others, steady, wellFormed, others_wellFormed,
      .array alike => by
      rw [Json.Steady] at steady
      rw [Json.WellFormed] at wellFormed others_wellFormed
      rw [deepSort, deepSort, deepSortItems_eq_of_reordered items others steady
        wellFormed others_wellFormed alike]
  | .object members, .object others, steady, wellFormed, others_wellFormed,
      .object alike same => by
      rename_i middle
      rw [Json.Steady] at steady
      have ordered := wellFormed.ordered
      rw [Json.WellFormed] at wellFormed
      have middle_wellFormed : WellFormedMembers middle := by
        rw [Json.WellFormed] at others_wellFormed
        rw [wellFormedMembers_iff] at others_wellFormed ⊢
        exact fun member within =>
          others_wellFormed.2 member (same.mem_iff.mp within)
      have sorted := deepSortMembers_eq_of_reordered members middle steady.2
        wellFormed.2 middle_wellFormed alike
      refine deepSort_object_eq ordered others_wellFormed.ordered ?_ ?_
      · rw [sorted, deepSortMembers_eq_map, deepSortMembers_eq_map]
        exact same.map _
      · exact fun key other tie pair =>
          (steady.1.sublist ordered.nodup tie pair).elim

theorem deepSortItems_eq_of_reordered :
    ∀ items others : List Json, SteadyItems collator items →
      WellFormedItems items → WellFormedItems others →
        ReorderedItems items others →
          deepSortItems collator items = deepSortItems collator others
  | [], _, _, _, _, .nil => rfl
  | item :: items, other :: others, steady, wellFormed, others_wellFormed,
      .cons head tail => by
      rw [SteadyItems] at steady
      rw [WellFormedItems] at wellFormed others_wellFormed
      rw [deepSortItems, deepSortItems,
        deepSort_eq_of_reordered item other steady.1 wellFormed.1
          others_wellFormed.1 head,
        deepSortItems_eq_of_reordered items others steady.2 wellFormed.2
          others_wellFormed.2 tail]

theorem deepSortMembers_eq_of_reordered :
    ∀ members others : List (String × Json), SteadyMembers collator members →
      WellFormedMembers members → WellFormedMembers others →
        ReorderedMembers members others →
          deepSortMembers collator members = deepSortMembers collator others
  | [], _, _, _, _, .nil => rfl
  | (key, value) :: members, (_, other) :: others, steady, wellFormed,
      others_wellFormed, .cons head tail => by
      rw [SteadyMembers] at steady
      rw [WellFormedMembers] at wellFormed others_wellFormed
      rw [deepSortMembers, deepSortMembers,
        deepSort_eq_of_reordered value other steady.1 wellFormed.1
          others_wellFormed.1 head,
        deepSortMembers_eq_of_reordered members others steady.2 wellFormed.2
          others_wellFormed.2 tail]

end

/-! ## Sorting twice -/

section Twice

variable {members : Members}

/-- The members an object is sorted to. -/
abbrev sortedObject (collator : Collator) (members : Members) : Members :=
  Members.ofMembers
    (sortedEntries collator (deepSortMembers collator members))

theorem sortedObject_perm (nodup : members.keys.Nodup) :
    (sortedObject collator members).Perm (deepSortMembers collator members) := by
  have sorted := sortedEntries_perm collator (deepSortMembers collator members)
  refine (Members.ofMembers_perm ?_).trans sorted
  refine (sorted.map Prod.fst).nodup_iff.mpr ?_
  change (Members.keys _).Nodup
  simpa using nodup

theorem get?_sortedObject (nodup : members.keys.Nodup) (key : String) :
    (sortedObject collator members).get? key
      = (members.get? key).map (deepSort collator) := by
  rw [← get?_deepSortMembers]
  have same := @sortedObject_perm collator members nodup
  have sorted_nodup :
      (Members.keys (deepSortMembers collator members)).Nodup := by
    simpa using nodup
  apply Option.ext
  intro value
  rw [Members.get?_eq_some_iff ((same.map Prod.fst).nodup_iff.mpr sorted_nodup),
    Members.get?_eq_some_iff sorted_nodup, same.mem_iff]

/-- Keys that tie stay as they stand. -/
theorem sublist_sortedObject (nodup : members.keys.Nodup) {key other : String}
    (tie : collator.compare key other = .eq)
    (key_name : arrayIndex key = none) (other_name : arrayIndex other = none)
    (pair : [key, other].Sublist members.keys) :
    [key, other].Sublist (sortedObject collator members).keys := by
  have sorted : [key, other].Sublist
      (sortedEntries collator (deepSortMembers collator members)).keys := by
    rw [keys_sortedEntries, keys_deepSortMembers]
    exact List.pair_sublist_insertionSort ((compare_eq_iff _ _).mp tie).1 pair
  have sorted_nodup :
      (sortedEntries collator (deepSortMembers collator members)).keys.Nodup := by
    rw [keys_sortedEntries, keys_deepSortMembers]
    exact (List.perm_insertionSort _ _).nodup_iff.mpr nodup
  rw [← sublist_names key_name other_name] at sorted ⊢
  rwa [Members.names_ofMembers sorted_nodup]

end Twice

mutual

theorem wellFormed_deepSort : ∀ value : Json, value.WellFormed →
    (deepSort collator value).WellFormed
  | .null, _ | .bool _, _ | .number _, _ | .string _, _ => trivial
  | .array items, wellFormed => by
      rw [Json.WellFormed] at wellFormed
      rw [deepSort, Json.WellFormed]
      exact wellFormed_deepSortItems items wellFormed
  | .object members, wellFormed => by
      have same := @sortedObject_perm collator members wellFormed.ordered.nodup
      rw [Json.WellFormed] at wellFormed
      have values := wellFormed_deepSortMembers members wellFormed.2
      rw [deepSort, Json.WellFormed]
      refine ⟨Members.ordered_ofMembers _, ?_⟩
      rw [wellFormedMembers_iff] at values ⊢
      exact fun member within => values member (same.mem_iff.mp within)

theorem wellFormed_deepSortItems : ∀ items : List Json, WellFormedItems items →
    WellFormedItems (deepSortItems collator items)
  | [], _ => trivial
  | item :: rest, wellFormed => by
      rw [WellFormedItems] at wellFormed
      rw [deepSortItems, WellFormedItems]
      exact ⟨wellFormed_deepSort item wellFormed.1,
        wellFormed_deepSortItems rest wellFormed.2⟩

theorem wellFormed_deepSortMembers : ∀ members : List (String × Json),
    WellFormedMembers members →
      WellFormedMembers (deepSortMembers collator members)
  | [], _ => trivial
  | (key, value) :: rest, wellFormed => by
      rw [WellFormedMembers] at wellFormed
      rw [deepSortMembers, WellFormedMembers]
      exact ⟨wellFormed_deepSort value wellFormed.1,
        wellFormed_deepSortMembers rest wellFormed.2⟩

end

mutual

theorem deepSort_deepSort : ∀ value : Json, value.WellFormed →
    deepSort collator (deepSort collator value) = deepSort collator value
  | .null, _ => rfl
  | .bool _, _ => rfl
  | .number _, _ => rfl
  | .string _, _ => rfl
  | .array items, wellFormed => by
      rw [Json.WellFormed] at wellFormed
      rw [deepSort, deepSort, deepSortItems_deepSortItems items wellFormed]
  | .object members, wellFormed => by
      have ordered := wellFormed.ordered
      rw [Json.WellFormed] at wellFormed
      have kept := deepSortMembers_deepSortMembers members wellFormed.2
      have same := @sortedObject_perm collator members ordered.nodup
      have sorted : deepSortMembers collator (sortedObject collator members)
          = sortedObject collator members := by
        rw [deepSortMembers_eq_map] at kept ⊢
        have fixed := List.map_eq_map_iff.mp
          (kept.trans (List.map_id (deepSortMembers collator members)).symm)
        refine (List.map_congr_left ?_).trans (List.map_id _)
        exact fun member within => fixed member (same.mem_iff.mp within)
      have nodup : (Members.keys (deepSortMembers collator members)).Nodup := by
        simpa using ordered.nodup
      have once : sortedEntries collator (deepSortMembers collator members)
          = sortedEntries collator (sortedObject collator members) := by
        refine sortedEntries_eq nodup same.symm ?_
        intro key other tie pair
        rw [keys_deepSortMembers] at pair
        by_cases names : arrayIndex key = none ∧ arrayIndex other = none
        · exact sublist_sortedObject ordered.nodup tie names.1 names.2 pair
        · refine ordered.pair (Members.ordered_ofMembers _) ?_ pair names
          have keys := same.symm.map Prod.fst
          change (Members.keys _).Perm (Members.keys _) at keys
          simpa using keys
      change deepSort collator (.object (sortedObject collator members))
        = .object (sortedObject collator members)
      rw [deepSort, sorted, ← once]

theorem deepSortItems_deepSortItems : ∀ items : List Json,
    WellFormedItems items →
      deepSortItems collator (deepSortItems collator items)
        = deepSortItems collator items
  | [], _ => rfl
  | item :: rest, wellFormed => by
      rw [WellFormedItems] at wellFormed
      rw [deepSortItems, deepSortItems, deepSort_deepSort item wellFormed.1,
        deepSortItems_deepSortItems rest wellFormed.2]

theorem deepSortMembers_deepSortMembers : ∀ members : List (String × Json),
    WellFormedMembers members →
      deepSortMembers collator (deepSortMembers collator members)
        = deepSortMembers collator members
  | [], _ => rfl
  | (key, value) :: rest, wellFormed => by
      rw [WellFormedMembers] at wellFormed
      rw [deepSortMembers, deepSortMembers, deepSort_deepSort value wellFormed.1,
        deepSortMembers_deepSortMembers rest wellFormed.2]

end

/-! ## Values that are not steady -/

theorem keys_unnumberedMembers (members : Members) :
    Members.keys (unnumberedMembers members) = members.keys := by
  induction members with
  | nil => rfl
  | cons member rest inductionHypothesis =>
      rw [unnumberedMembers, Members.keys_cons, Members.keys_cons,
        inductionHypothesis]

theorem get?_unnumberedMembers (members : Members) (key : String) :
    Members.get? (unnumberedMembers members) key
      = (members.get? key).map Json.unnumbered := by
  induction members with
  | nil => rfl
  | cons member rest inductionHypothesis =>
      rw [unnumberedMembers, Members.get?_cons, Members.get?_cons,
        inductionHypothesis]
      split_ifs <;> rfl

theorem unnumberedItems_eq_map (items : List Json) :
    unnumberedItems items = items.map Json.unnumbered := by
  induction items with
  | nil => rfl
  | cons item rest inductionHypothesis =>
      rw [unnumberedItems, inductionHypothesis, List.map_cons]

section Apart

variable (collator) in
/-- Keys that tie stand one way round in one object, and the other in another. -/
def KeysApart (members others : Members) : Prop :=
  ∃ key other, collator.compare key other = .eq ∧ arrayIndex key = none
    ∧ arrayIndex other = none ∧ [key, other].Sublist members.keys
    ∧ [other, key].Sublist others.keys

variable (collator) in
/--
Two objects that sort to different texts: keys that tie stand differently in
them, or values under one key are told apart.
-/
def ToldApart (members others : Members) : Prop :=
  KeysApart collator members others
    ∨ ∃ key value other, members.get? key = some value
        ∧ others.get? key = some other
        ∧ (deepSort collator value).unnumbered
            ≠ (deepSort collator other).unnumbered

theorem ToldApart.deepSort_ne {members others : Members}
    (apart : ToldApart collator members others) (nodup : members.keys.Nodup)
    (others_nodup : others.keys.Nodup) :
    (deepSort collator (.object members)).unnumbered
      ≠ (deepSort collator (.object others)).unnumbered := by
  intro same
  rw [deepSort, deepSort, Json.unnumbered, Json.unnumbered, Json.object.injEq]
    at same
  rcases apart with
    ⟨key, other, tie, key_name, other_name, one, swapped⟩
    | ⟨key, value, other, held, other_held, different⟩
  · have keys := congrArg Members.keys same
    rw [keys_unnumberedMembers, keys_unnumberedMembers] at keys
    have first := sublist_sortedObject nodup tie key_name other_name one
    have tie_back : collator.compare other key = .eq :=
      (compare_eq_iff _ _).mpr ((compare_eq_iff _ _).mp tie).symm
    have second :=
      sublist_sortedObject others_nodup tie_back other_name key_name swapped
    rw [keys] at first
    exact StableSort.not_swap (Members.ordered_ofMembers _).nodup first second
  · have values := congrArg (Members.get? · key) same
    simp only [get?_unnumberedMembers] at values
    rw [get?_sortedObject nodup, get?_sortedObject others_nodup, held, other_held]
      at values
    exact different (by simpa using values)

/-- Two members under keys that are no array indices may change places. -/
theorem Members.Ordered.swap {earlier between later : Members}
    {key other : String} {value held : Json}
    (ordered : Members.Ordered
      (earlier ++ (key, value) :: (between ++ (other, held) :: later)))
    (swapped :
      (earlier ++ (key, value) :: (between ++ (other, held) :: later)).Perm
        (earlier ++ (other, held) :: (between ++ (key, value) :: later)))
    (key_name : arrayIndex key = none) (other_name : arrayIndex other = none) :
    Members.Ordered
      (earlier ++ (other, held) :: (between ++ (key, value) :: later)) where
  nodup := (swapped.map Prod.fst).nodup_iff.mp ordered.nodup
  indexed := by
    have indexed := ordered.indexed
    unfold indexedBefore at indexed ⊢
    rw [← List.pairwise_map (f := arrayIndex) (R := indexBefore)] at indexed ⊢
    simpa [Members.keys, key_name, other_name] using indexed

/-- Keys that stand one way round in an object are two of its members. -/
theorem exists_split {members : Members} {key other : String}
    (pair : [key, other].Sublist members.keys) :
    ∃ earlier value between held later,
      members = earlier ++ (key, value) :: (between ++ (other, held) :: later) := by
  obtain ⟨two, within, same⟩ := List.sublist_map_iff.mp pair
  match two, same with
  | [(_, value), (_, held)], rfl =>
      obtain ⟨before, after, rfl, value_in, held_in⟩ :=
        List.cons_sublist_iff.mp within
      obtain ⟨earlier, start, rfl⟩ := List.append_of_mem value_in
      obtain ⟨stop, later, rfl⟩ :=
        List.append_of_mem (List.singleton_sublist.mp held_in)
      exact ⟨earlier, value, start ++ stop, held, later, by simp⟩

/-- Keys that tie can stand either way round in an object. -/
theorem exists_swap {members : Members}
    (wellFormed : (Json.object members).WellFormed)
    (tied : ¬Untied collator members.keys) :
    ∃ others, (Json.object others).WellFormed
      ∧ Reordered (.object members) (.object others)
      ∧ KeysApart collator members others := by
  have swap : ∀ {key other : String}, arrayIndex key = none →
      arrayIndex other = none → collator.compare key other = .eq →
        [key, other].Sublist members.keys →
          ∃ others, (Json.object others).WellFormed
            ∧ Reordered (.object members) (.object others)
            ∧ KeysApart collator members others := by
    intro key other key_name other_name tie pair
    obtain ⟨earlier, value, between, held, later, rfl⟩ := exists_split pair
    have swapped :
        (earlier ++ (key, value) :: (between ++ (other, held) :: later)).Perm
          (earlier ++ (other, held) :: (between ++ (key, value) :: later)) := by
      refine List.Perm.append_left earlier ?_
      refine (List.Perm.cons _ List.perm_middle).trans ?_
      refine (List.Perm.swap _ _ _).trans (List.Perm.cons _ ?_)
      exact List.perm_middle.symm
    refine ⟨_, ?_, .object (ReorderedMembers.refl _) swapped,
      ⟨key, other, tie, key_name, other_name, pair, ?_⟩⟩
    · have ordered := wellFormed.ordered
      unfold Json.WellFormed at wellFormed ⊢
      refine ⟨ordered.swap swapped key_name other_name, ?_⟩
      rw [wellFormedMembers_iff] at wellFormed ⊢
      exact fun member within => wellFormed.2 member (swapped.mem_iff.mpr within)
    · rw [Members.keys, List.map_append, List.map_cons, List.map_append,
        List.map_cons]
      refine List.Sublist.trans ?_ (List.sublist_append_right _ _)
      refine List.Sublist.cons_cons _ (List.singleton_sublist.mpr ?_)
      simp
  unfold Untied at tied
  push Not at tied
  obtain ⟨key, within, other, other_within, key_name, other_name, tie,
    different⟩ := tied
  rcases StableSort.pair_or_swap different within other_within with one | other
  · exact swap key_name other_name tie one
  · exact swap other_name key_name
      ((compare_eq_iff _ _).mpr ((compare_eq_iff _ _).mp tie).symm) other

/-- An object with one member's value changed. -/
theorem Json.WellFormed.replace {earlier later : Members} {key : String}
    {value other : Json}
    (wellFormed : (Json.object (earlier ++ (key, value) :: later)).WellFormed)
    (other_wellFormed : other.WellFormed) :
    (Json.object (earlier ++ (key, other) :: later)).WellFormed := by
  have ordered := wellFormed.ordered
  have keys : Members.keys (earlier ++ (key, other) :: later)
      = Members.keys (earlier ++ (key, value) :: later) := by
    simp [Members.keys]
  unfold Json.WellFormed at wellFormed ⊢
  refine ⟨⟨keys ▸ ordered.nodup, keys ▸ ordered.indexed⟩, ?_⟩
  have values := (wellFormedMembers_iff _).mp wellFormed.2
  rw [wellFormedMembers_iff]
  intro member within
  rcases List.mem_append.mp within with before | after
  · exact values member (List.mem_append_left _ before)
  · rcases List.mem_cons.mp after with rfl | after
    · exact other_wellFormed
    · exact values member
        (List.mem_append_right _ (List.mem_cons_of_mem _ after))

theorem get?_replace {earlier later : Members} {key : String} {value : Json}
    (nodup : (Members.keys (earlier ++ (key, value) :: later)).Nodup) :
    Members.get? (earlier ++ (key, value) :: later) key = some value :=
  (Members.get?_eq_some_iff nodup key value).mpr (by simp)

/-- Reorderings of a value that sort to different texts. -/
structure Witnessed (collator : Collator) (value first second : Json) :
    Prop where
  first_wellFormed : first.WellFormed
  second_wellFormed : second.WellFormed
  first_reordered : Reordered value first
  second_reordered : Reordered value second
  different : (deepSort collator first).unnumbered
    ≠ (deepSort collator second).unnumbered

/-- Reorderings of an object whose members are told apart. -/
structure WitnessedObject (collator : Collator)
    (members first second : Members) : Prop where
  first_wellFormed : (Json.object first).WellFormed
  second_wellFormed : (Json.object second).WellFormed
  first_reordered : Reordered (.object members) (.object first)
  second_reordered : Reordered (.object members) (.object second)
  apart : ToldApart collator first second

theorem WitnessedObject.witnessed {members first second : Members}
    (witnessed : WitnessedObject collator members first second) :
    Witnessed collator (.object members) (.object first) (.object second) where
  first_wellFormed := witnessed.first_wellFormed
  second_wellFormed := witnessed.second_wellFormed
  first_reordered := witnessed.first_reordered
  second_reordered := witnessed.second_reordered
  different := witnessed.apart.deepSort_ne
    witnessed.first_wellFormed.ordered.nodup
    witnessed.second_wellFormed.ordered.nodup

/-- A value under one key is told apart by its own reorderings. -/
theorem Witnessed.member {earlier later : Members} {key : String}
    {value first second : Json}
    (wellFormed : (Json.object (earlier ++ (key, value) :: later)).WellFormed)
    (witnessed : Witnessed collator value first second) :
    WitnessedObject collator (earlier ++ (key, value) :: later)
      (earlier ++ (key, first) :: later) (earlier ++ (key, second) :: later) where
  first_wellFormed := wellFormed.replace witnessed.first_wellFormed
  second_wellFormed := wellFormed.replace witnessed.second_wellFormed
  first_reordered := reordered_replace witnessed.first_reordered
  second_reordered := reordered_replace witnessed.second_reordered
  apart := Or.inr ⟨key, first, second,
    get?_replace (wellFormed.replace witnessed.first_wellFormed).ordered.nodup,
    get?_replace (wellFormed.replace witnessed.second_wellFormed).ordered.nodup,
    witnessed.different⟩

/-- An item of an array is told apart by its own reorderings. -/
theorem Witnessed.item {earlier later : List Json} {item first second : Json}
    (wellFormed : (Json.array (earlier ++ item :: later)).WellFormed)
    (witnessed : Witnessed collator item first second) :
    Witnessed collator (.array (earlier ++ item :: later))
      (.array (earlier ++ first :: later))
      (.array (earlier ++ second :: later)) := by
  have replaced : ∀ {other : Json}, other.WellFormed →
      (Json.array (earlier ++ other :: later)).WellFormed := by
    intro other other_wellFormed
    rw [Json.WellFormed, wellFormedItems_iff] at wellFormed ⊢
    simp only [List.forall_mem_append, List.forall_mem_cons] at wellFormed ⊢
    exact ⟨wellFormed.1, other_wellFormed, wellFormed.2.2⟩
  refine ⟨replaced witnessed.first_wellFormed,
    replaced witnessed.second_wellFormed,
    .array (reorderedItems_replace witnessed.first_reordered),
    .array (reorderedItems_replace witnessed.second_reordered), fun same => ?_⟩
  rw [deepSort, deepSort, Json.unnumbered, Json.unnumbered, Json.array.injEq,
    deepSortItems_eq_map, deepSortItems_eq_map, unnumberedItems_eq_map,
    unnumberedItems_eq_map] at same
  simp only [List.map_append, List.map_cons] at same
  exact witnessed.different (List.cons.inj (List.append_cancel_left same)).1

/-- An object that is not steady ties keys or holds a value that is not. -/
theorem exists_witnessedObject_of {members : Members}
    (wellFormed : (Json.object members).WellFormed)
    (unsteady : ¬(Json.object members).Steady collator)
    (inside : ¬SteadyMembers collator members →
      ∃ earlier key value later first second,
        members = earlier ++ (key, value) :: later
          ∧ Witnessed collator value first second) :
    ∃ first second, WitnessedObject collator members first second := by
  rw [Json.Steady, not_and_or] at unsteady
  rcases unsteady with tied | unsteady
  · obtain ⟨others, others_wellFormed, reordered, apart⟩ :=
      exists_swap wellFormed tied
    exact ⟨members, others, wellFormed, others_wellFormed, .refl _, reordered,
      Or.inl apart⟩
  · obtain ⟨earlier, key, value, later, first, second, rfl, witnessed⟩ :=
      inside unsteady
    exact ⟨_, _, witnessed.member wellFormed⟩

mutual

/-- A value that is not steady has reorderings that sort to different texts. -/
theorem exists_witnessed : ∀ value : Json, ¬value.Steady collator →
    value.WellFormed → ∃ first second, Witnessed collator value first second
  | .null, unsteady, _ | .bool _, unsteady, _ | .number _, unsteady, _
  | .string _, unsteady, _ => absurd trivial unsteady
  | .array items, unsteady, wellFormed => by
      have items_wellFormed := wellFormed
      rw [Json.Steady] at unsteady
      rw [Json.WellFormed] at items_wellFormed
      obtain ⟨earlier, item, later, first, second, rfl, witnessed⟩ :=
        exists_witnessed_item items unsteady items_wellFormed
      exact ⟨_, _, witnessed.item wellFormed⟩
  | .object members, unsteady, wellFormed => by
      have values := wellFormed
      rw [Json.WellFormed] at values
      obtain ⟨first, second, witnessed⟩ := exists_witnessedObject_of wellFormed
        unsteady fun inside => exists_witnessed_member members inside values.2
      exact ⟨_, _, witnessed.witnessed⟩

theorem exists_witnessed_item : ∀ items : List Json,
    ¬SteadyItems collator items → WellFormedItems items →
      ∃ earlier item later first second, items = earlier ++ item :: later
        ∧ Witnessed collator item first second
  | [], unsteady, _ => absurd trivial unsteady
  | item :: rest, unsteady, wellFormed => by
      rw [SteadyItems, not_and_or] at unsteady
      rw [WellFormedItems] at wellFormed
      rcases unsteady with unsteady | unsteady
      · obtain ⟨first, second, witnessed⟩ :=
          exists_witnessed item unsteady wellFormed.1
        exact ⟨[], item, rest, first, second, rfl, witnessed⟩
      · obtain ⟨earlier, found, later, first, second, rfl, witnessed⟩ :=
          exists_witnessed_item rest unsteady wellFormed.2
        exact ⟨item :: earlier, found, later, first, second, rfl, witnessed⟩

theorem exists_witnessed_member : ∀ members : List (String × Json),
    ¬SteadyMembers collator members → WellFormedMembers members →
      ∃ earlier key value later first second,
        members = earlier ++ (key, value) :: later
          ∧ Witnessed collator value first second
  | [], unsteady, _ => absurd trivial unsteady
  | (key, value) :: rest, unsteady, wellFormed => by
      rw [SteadyMembers, not_and_or] at unsteady
      rw [WellFormedMembers] at wellFormed
      rcases unsteady with unsteady | unsteady
      · obtain ⟨first, second, witnessed⟩ :=
          exists_witnessed value unsteady wellFormed.1
        exact ⟨[], key, value, rest, first, second, rfl, witnessed⟩
      · obtain ⟨earlier, name, found, later, first, second, rfl, witnessed⟩ :=
          exists_witnessed_member rest unsteady wellFormed.2
        exact ⟨(key, value) :: earlier, name, found, later, first, second, rfl,
          witnessed⟩

end

theorem exists_witnessedObject {members : Members}
    (wellFormed : (Json.object members).WellFormed)
    (unsteady : ¬(Json.object members).Steady collator) :
    ∃ first second, WitnessedObject collator members first second := by
  refine exists_witnessedObject_of wellFormed unsteady fun inside => ?_
  rw [Json.WellFormed] at wellFormed
  exact exists_witnessed_member members inside wellFormed.2

end Apart

end Sorting

end Clerkenwell.Codegen
