import Mathlib.Data.Set.Image

/-!
# Operations that land

An operation lands once every one it was made after has landed or was held.
Of the operations a log is offered, those that land are the least set that
takes each offered operation with nothing left to wait for; the others wait.
-/

namespace Clerkenwell.Foundation

variable {Op Name : Type} (name : Op → Name) (dependencies : Op → Set Name)

/-- Whether operations take each offered one that waits for no other. -/
def TakesReady (held : Set Name) (offered taken : Set Op) : Prop :=
  ∀ op ∈ offered, dependencies op ⊆ held ∪ name '' taken → op ∈ taken

/-- The offered operations that land in a log that holds some. -/
def landed (held : Set Name) (offered : Set Op) : Set Op :=
  {op | ∀ taken, TakesReady name dependencies held offered taken → op ∈ taken}

variable {name dependencies} {held more : Set Name}
  {offered others taken : Set Op} {op : Op}

theorem landed_subset_of_takesReady
    (takes : TakesReady name dependencies held offered taken) :
    landed name dependencies held offered ⊆ taken :=
  fun _ lands => lands taken takes

theorem landed_subset : landed name dependencies held offered ⊆ offered :=
  landed_subset_of_takesReady fun _ member _ => member

/-- An offered operation that waits for none but those that land, lands. -/
theorem takesReady_landed :
    TakesReady name dependencies held offered
      (landed name dependencies held offered) := by
  intro op member ready taken takes
  refine takes op member (ready.trans ?_)
  exact Set.union_subset_union_right held
    (Set.image_mono (landed_subset_of_takesReady takes))

/-- What lands was made after what was held and what lands. -/
theorem dependencies_subset_of_landed
    (lands : op ∈ landed name dependencies held offered) :
    dependencies op
      ⊆ held ∪ name '' landed name dependencies held offered := by
  have takes : TakesReady name dependencies held offered
      {op ∈ landed name dependencies held offered |
        dependencies op
          ⊆ held ∪ name '' landed name dependencies held offered} := by
    intro other member ready
    have ready := ready.trans (Set.union_subset_union_right held
      (Set.image_mono (Set.sep_subset _ _)))
    exact ⟨takesReady_landed other member ready, ready⟩
  exact (landed_subset_of_takesReady takes lands).2

/-- What depends on nothing lands. -/
theorem landed_of_dependencies_eq_empty (member : op ∈ offered)
    (none_before : dependencies op = ∅) :
    op ∈ landed name dependencies held offered :=
  takesReady_landed op member (by simp [none_before])

/-- More lands where more is held, of more that is offered. -/
theorem landed_mono (grows : held ⊆ more) (widens : offered ⊆ others) :
    landed name dependencies held offered
      ⊆ landed name dependencies more others := by
  refine landed_subset_of_takesReady fun op member ready => ?_
  exact takesReady_landed op (widens member)
    (ready.trans (Set.union_subset_union_left _ grows))

/-- Operations that wait play no part in what lands. -/
theorem landed_eq_of_subset (fewer : others ⊆ offered)
    (kept : landed name dependencies held offered ⊆ others) :
    landed name dependencies held offered
      = landed name dependencies held others := by
  refine Set.Subset.antisymm ?_ (landed_mono le_rfl fewer)
  have takes : TakesReady name dependencies held offered
      (landed name dependencies held others
        ∩ landed name dependencies held offered) := by
    intro op member ready
    have lands : op ∈ landed name dependencies held offered :=
      takesReady_landed op member (ready.trans
        (Set.union_subset_union_right held
          (Set.image_mono Set.inter_subset_right)))
    refine ⟨?_, lands⟩
    exact takesReady_landed op (kept lands) (ready.trans
      (Set.union_subset_union_right held
        (Set.image_mono Set.inter_subset_left)))
  exact fun op lands => (landed_subset_of_takesReady takes lands).1

end Clerkenwell.Foundation
