import Mathlib.Data.List.Forall2

/-!
# Longest common subsequences

What two lists have in common, up to a relation of their entries, and the
recursion that measures it.  The relation need not be an equivalence: matching
two heads that are related never costs anything.
-/

namespace Clerkenwell.Foundation

variable {α : Type*}

/-- Entries of one list that stand, in order, for entries of another. -/
def Common (same : α → α → Prop) (left right common : List α) : Prop :=
  common.Sublist left
    ∧ ∃ matched : List α, matched.Sublist right
      ∧ List.Forall₂ same common matched

/-- Entries in common, no fewer than any others. -/
structure LongestCommon (same : α → α → Prop)
    (left right common : List α) : Prop where
  is_common : Common same left right common
  longest : ∀ other, Common same left right other →
    other.length ≤ common.length

namespace Common

variable {same : α → α → Prop} {left right common : List α}

/-- What the tails have in common when both heads are let go. -/
theorem tail {first second : α}
    (shared : Common same (first :: left) (second :: right) common) :
    Common same left right common.tail := by
  obtain ⟨within, matched, within_right, pairs⟩ := shared
  have tail_within : common.tail.Sublist left := by
    simpa using within.tail
  have matched_within : matched.tail.Sublist right := by
    simpa using within_right.tail
  refine ⟨tail_within, matched.tail, matched_within, ?_⟩
  cases pairs with
  | nil => exact .nil
  | cons _ rest => exact rest

theorem reverse (shared : Common same left right common) :
    Common same left.reverse right.reverse common.reverse := by
  obtain ⟨within, matched, within_right, pairs⟩ := shared
  exact ⟨within.reverse, matched.reverse, within_right.reverse,
    List.forall₂_reverse_iff.mpr pairs⟩

/-- A pair of heads costs no more than one entry. -/
theorem length_le_cons {first second : α}
    (shared : Common same (first :: left) (second :: right) common) :
    ∃ other, Common same left right other
      ∧ common.length ≤ other.length + 1 := by
  refine ⟨common.tail, shared.tail, ?_⟩
  rw [List.length_tail]
  omega

/-- What two lists start with costs no more than there are of it. -/
theorem length_le_prepend {starts : List α} :
    ∀ {others : List α}, starts.length = others.length →
      ∀ {common : List α},
        Common same (starts ++ left) (others ++ right) common →
        ∃ other, Common same left right other
          ∧ common.length ≤ other.length + starts.length := by
  induction starts with
  | nil =>
      intro others same_length common shared
      obtain rfl := List.length_eq_zero_iff.mp same_length.symm
      exact ⟨common, shared, Nat.le_refl _⟩
  | cons first rest inductionHypothesis =>
      intro others same_length common shared
      obtain ⟨second, others, rfl⟩ :=
        List.exists_cons_of_length_eq_add_one same_length.symm
      obtain ⟨middle, shorter, fits⟩ := shared.length_le_cons
      obtain ⟨other, last, bound⟩ :=
        inductionHypothesis (by simpa using same_length) shorter
      refine ⟨other, last, ?_⟩
      rw [List.length_cons]
      omega

/-- Nor does what they end with. -/
theorem length_le_append {ends others : List α}
    (same_length : ends.length = others.length)
    (shared : Common same (left ++ ends) (right ++ others) common) :
    ∃ other, Common same left right other
      ∧ common.length ≤ other.length + ends.length := by
  have turned := shared.reverse
  rw [List.reverse_append, List.reverse_append] at turned
  obtain ⟨other, last, bound⟩ :=
    turned.length_le_prepend (by simpa using same_length)
  refine ⟨other.reverse, by simpa using last.reverse, ?_⟩
  simpa using bound

/-- Unrelated heads are not both used. -/
theorem skips {first second : α} (differ : ¬ same first second)
    (shared : Common same (first :: left) (second :: right) common) :
    Common same left (second :: right) common
      ∨ Common same (first :: left) right common := by
  obtain ⟨within, matched, within_right, pairs⟩ := shared
  rcases List.sublist_cons_iff.mp within with skipped | ⟨rest, rfl, _⟩
  · exact Or.inl ⟨skipped, matched, within_right, pairs⟩
  · rcases List.sublist_cons_iff.mp within_right with
      skipped | ⟨others, rfl, _⟩
    · exact Or.inr ⟨within, matched, skipped, pairs⟩
    · cases pairs with
      | cons related _ => exact absurd related differ

end Common

/-- How many entries two lists have in common. -/
def commonLength (same : α → α → Bool) : List α → List α → Nat
  | [], _ => 0
  | _ :: _, [] => 0
  | first :: left, second :: right =>
      if same first second then commonLength same left right + 1
      else max (commonLength same left (second :: right))
        (commonLength same (first :: left) right)
termination_by left right => left.length + right.length

section Lengths

variable {same : α → α → Bool}

@[simp]
theorem commonLength_nil_left (right : List α) :
    commonLength same [] right = 0 := by
  rw [commonLength]

@[simp]
theorem commonLength_nil_right (left : List α) :
    commonLength same left [] = 0 := by
  cases left <;> rw [commonLength]

/-- No common subsequence is longer. -/
theorem Common.length_le {left right : List α} :
    ∀ {common : List α},
      Common (fun entry other => same entry other = true) left right common →
        common.length ≤ commonLength same left right := by
  induction left, right using commonLength.induct same with
  | case1 right =>
      intro common shared
      simp [List.sublist_nil.mp shared.1]
  | case2 first left =>
      intro common shared
      obtain ⟨_, matched, within_right, pairs⟩ := shared
      obtain rfl := List.sublist_nil.mp within_right
      cases pairs
      simp
  | case3 first left second right related inductionHypothesis =>
      intro common shared
      obtain ⟨other, rest, fits⟩ := shared.length_le_cons
      rw [commonLength, if_pos related]
      have bound := inductionHypothesis rest
      omega
  | case4 first left second right differ skipLeft skipRight =>
      intro common shared
      rw [commonLength, if_neg differ]
      rcases Common.skips (by simpa using differ) shared with left_only | right_only
      · exact Nat.le_trans (skipLeft left_only) (Nat.le_max_left _ _)
      · exact Nat.le_trans (skipRight right_only) (Nat.le_max_right _ _)

end Lengths

end Clerkenwell.Foundation
