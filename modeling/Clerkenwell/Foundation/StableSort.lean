import Mathlib.Data.List.Sort

/-!
# What a stable sort keeps of the order it is given

Two orders of the same items sort alike when every two items that tie stand the
same way round in both, and differently when some two do not.
-/

namespace Clerkenwell.Foundation.StableSort

variable {Item : Type*}

/-- Two different items of a list stand one way round in it. -/
theorem pair_or_swap {items : List Item} {first second : Item}
    (different : first ≠ second) (first_in : first ∈ items)
    (second_in : second ∈ items) :
    [first, second].Sublist items ∨ [second, first].Sublist items := by
  induction items with
  | nil => simp at first_in
  | cons item rest inductionHypothesis =>
      rcases List.mem_cons.mp first_in with rfl | first_later
      · rcases List.mem_cons.mp second_in with rfl | second_later
        · exact absurd rfl different
        · exact Or.inl
            (List.Sublist.cons_cons _ (List.singleton_sublist.mpr second_later))
      · rcases List.mem_cons.mp second_in with rfl | second_later
        · exact Or.inr
            (List.Sublist.cons_cons _ (List.singleton_sublist.mpr first_later))
        · rcases inductionHypothesis first_later second_later with one | other
          · exact Or.inl (List.Sublist.cons _ one)
          · exact Or.inr (List.Sublist.cons _ other)

/-- They stand only one way round when the list holds each item once. -/
theorem not_swap {items : List Item} {first second : Item}
    (nodup : items.Nodup) (one : [first, second].Sublist items)
    (other : [second, first].Sublist items) : False := by
  induction items with
  | nil => simp at one
  | cons item rest inductionHypothesis =>
      obtain ⟨absent, rest_nodup⟩ := List.nodup_cons.mp nodup
      cases one with
      | cons _ one =>
          cases other with
          | cons _ other => exact inductionHypothesis rest_nodup one other
          | cons_cons _ other => exact absent (one.subset (by simp))
      | cons_cons _ one =>
          cases other with
          | cons _ other => exact absent (other.subset (by simp))
          | cons_cons _ other => exact absent (one.subset (by simp))

section Sorting

variable (before : Item → Item → Prop) [DecidableRel before]
variable {items others : List Item}

/-- Items that tie keep the order they are given in. -/
theorem sublist_of_tie {first second : Item} (nodup : items.Nodup)
    (sorted : [first, second].Sublist (items.insertionSort before))
    (tie : before second first) : [first, second].Sublist items := by
  have sorted_nodup : (items.insertionSort before).Nodup :=
    (List.perm_insertionSort before items).nodup_iff.mpr nodup
  have different : first ≠ second := by
    have pair := sorted_nodup.sublist sorted
    simpa using pair
  have within : ∀ item ∈ [first, second], item ∈ items := fun item member =>
    (List.mem_insertionSort before).mp (sorted.subset member)
  rcases pair_or_swap different (within first (by simp))
      (within second (by simp)) with one | other
  · exact one
  · exact (not_swap sorted_nodup sorted
      (List.pair_sublist_insertionSort tie other)).elim

/-- Two items that tie, given both ways round, stay both ways round. -/
theorem insertionSort_ne_of_tie {first second : Item}
    (nodup : others.Nodup) (one : [first, second].Sublist items)
    (other : [second, first].Sublist others) (related : before first second)
    (tie : before second first) :
    items.insertionSort before ≠ others.insertionSort before := by
  intro same
  have sorted_nodup : (others.insertionSort before).Nodup :=
    (List.perm_insertionSort before others).nodup_iff.mpr nodup
  exact not_swap sorted_nodup
    (same ▸ List.pair_sublist_insertionSort related one)
    (List.pair_sublist_insertionSort tie other)

variable [Std.Total before] [IsTrans Item before]

/-- Orders in which every two items that tie stand alike sort to one list. -/
theorem insertionSort_eq_of_ties (nodup : items.Nodup)
    (same : items.Perm others)
    (ties : ∀ first second, before first second → before second first →
      [first, second].Sublist items → [first, second].Sublist others) :
    items.insertionSort before = others.insertionSort before := by
  have others_nodup : others.Nodup := same.nodup_iff.mp nodup
  have ordered : ∀ {list : List Item}, list.Nodup →
      (∀ first second, [first, second].Sublist list → before first second →
        before second first → [first, second].Sublist items) →
      (list.insertionSort before).Pairwise fun first second =>
        before first second
          ∧ (before second first → [first, second].Sublist items) := by
    intro list list_nodup kept
    rw [List.pairwise_iff_forall_sublist]
    intro first second sorted
    have related := List.pairwise_iff_forall_sublist.mp
      (List.pairwise_insertionSort before list) sorted
    exact ⟨related, fun tie =>
      kept first second (sublist_of_tie before list_nodup sorted tie) related tie⟩
  refine List.Perm.eq_of_pairwise ?_ (ordered nodup fun _ _ pair _ _ => pair)
    (ordered others_nodup ?_)
    ((List.perm_insertionSort before items).trans
      (same.trans (List.perm_insertionSort before others).symm))
  · intro first second _ _ one other
    exact (not_swap nodup (one.2 other.1) (other.2 one.1)).elim
  · intro first second pair related tie
    have different : first ≠ second := by
      have pair_nodup := others_nodup.sublist pair
      simpa using pair_nodup
    rcases pair_or_swap different (same.mem_iff.mpr (pair.subset (by simp)))
        (same.mem_iff.mpr (pair.subset (by simp))) with one | other
    · exact one
    · exact (not_swap others_nodup pair
        (ties second first tie related other)).elim

end Sorting

end Clerkenwell.Foundation.StableSort
