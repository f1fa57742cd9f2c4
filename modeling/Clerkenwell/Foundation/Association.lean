import Mathlib.Data.List.Nodup

/-!
# Association lists

Lists of keys and values, read by the first entry of a key.
-/

namespace Clerkenwell.Foundation

variable {α β γ : Type} [BEq α] [LawfulBEq α]

theorem mem_of_lookup {entries : List (α × β)} {key : α} {value : β}
    (found : entries.lookup key = some value) : (key, value) ∈ entries := by
  obtain ⟨before, after, rfl, -⟩ := List.lookup_eq_some_iff.mp found
  exact List.mem_append_right _ List.mem_cons_self

/-- Where every key is listed once, each entry is the one its key finds. -/
theorem lookup_of_mem {entries : List (α × β)}
    (unique : (entries.map Prod.fst).Nodup) {entry : α × β}
    (member : entry ∈ entries) :
    entries.lookup entry.1 = some entry.2 := by
  induction entries with
  | nil => cases member
  | cons first rest inductionHypothesis =>
      rw [List.map_cons, List.nodup_cons] at unique
      rcases List.mem_cons.mp member with rfl | later
      · rw [List.lookup_cons, beq_self_eq_true]
      · have other : (entry.1 == first.1) = false := by
          rw [beq_eq_false_iff_ne]
          intro same
          exact unique.1 (same ▸ List.mem_map_of_mem later)
        rw [List.lookup_cons, other]
        exact inductionHypothesis unique.2 later

end Clerkenwell.Foundation
