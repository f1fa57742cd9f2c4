import Clerkenwell.Foundation.CommonSubsequence

/-!
# Lists whose elements keep an identity

A list of a shared document.  An element is named when it is inserted and keeps
its name until it is deleted, and no name is given twice, so an element that is
deleted and inserted again is another element to every other writer.
-/

namespace Clerkenwell.Foundation

variable {α : Type*}

/-- An element, by the name it was inserted under. -/
structure Element (α : Type*) where
  id : Nat
  value : α

/-- A list, and the name its next element takes. -/
structure ElementList (α : Type*) where
  elements : List (Element α)
  next : Nat
  distinct : (elements.map Element.id).Nodup
  issued : ∀ element ∈ elements, element.id < next

namespace ElementList

/-- What the elements hold. -/
def values (list : ElementList α) : List α :=
  list.elements.map Element.value

/-- Inserts an element, at an index of the list or at its end. -/
def insert (list : ElementList α) (index : Nat) (value : α) :
    Option (ElementList α) :=
  if index ≤ list.elements.length then
    some
      { elements :=
          list.elements.take index
            ++ ⟨list.next, value⟩ :: list.elements.drop index
        next := list.next + 1
        distinct := by
          have moved : (list.elements.take index
              ++ (⟨list.next, value⟩ : Element α)
                :: list.elements.drop index).Perm
                (⟨list.next, value⟩ :: list.elements) := by
            have middle := @List.perm_middle _ (⟨list.next, value⟩ : Element α)
              (list.elements.take index) (list.elements.drop index)
            rwa [List.take_append_drop] at middle
          rw [(moved.map Element.id).nodup_iff, List.map_cons, List.nodup_cons]
          refine ⟨?_, list.distinct⟩
          rintro named
          obtain ⟨element, held, taken⟩ := List.mem_map.mp named
          exact Nat.ne_of_lt (list.issued element held) taken
        issued := by
          intro element held
          have either : element = ⟨list.next, value⟩
              ∨ element ∈ list.elements := by
            rcases List.mem_append.mp held with before | after
            · exact Or.inr (List.mem_of_mem_take before)
            · rcases List.mem_cons.mp after with new | after
              · exact Or.inl new
              · exact Or.inr (List.mem_of_mem_drop after)
          rcases either with rfl | old
          · exact Nat.lt_succ_self _
          · exact Nat.lt_succ_of_lt (list.issued element old) }
  else none

/-- Deletes `count` elements from an index on, all of them in the list. -/
def delete (list : ElementList α) (index count : Nat) :
    Option (ElementList α) :=
  if index + count ≤ list.elements.length then
    some
      { elements :=
          list.elements.take index ++ list.elements.drop (index + count)
        next := list.next
        distinct := by
          have within : (list.elements.take index
              ++ list.elements.drop (index + count)).Sublist list.elements := by
            conv_rhs => rw [← List.take_append_drop index list.elements]
            apply List.Sublist.append_left
            rw [← List.drop_drop]
            exact List.drop_sublist _ _
          exact (within.map Element.id).nodup list.distinct
        issued := by
          intro element held
          rcases List.mem_append.mp held with before | after
          · exact list.issued element (List.mem_of_mem_take before)
          · exact list.issued element (List.mem_of_mem_drop after) }
  else none

/-- The elements that are still in another list. -/
def survivors (before after : ElementList α) : List (Element α) :=
  before.elements.filter fun element =>
    element.id ∈ after.elements.map Element.id

theorem insert_eq {list : ElementList α} {done rest : List (Element α)}
    (held : list.elements = done ++ rest) (value : α) :
    ∃ inserted, list.insert done.length value = some inserted
      ∧ inserted.elements = done ++ ⟨list.next, value⟩ :: rest
      ∧ inserted.next = list.next + 1 := by
  refine ⟨_, if_pos (by simp [held]), ?_, rfl⟩
  simp [held]

theorem delete_eq {list : ElementList α}
    {done dropped rest : List (Element α)}
    (held : list.elements = done ++ (dropped ++ rest)) :
    ∃ deleted, list.delete done.length dropped.length = some deleted
      ∧ deleted.elements = done ++ rest ∧ deleted.next = list.next := by
  refine ⟨_, if_pos (by simp [held]), ?_, rfl⟩
  simp [held, List.drop_append]

end ElementList

/-- The elements some values make, named from `next` on. -/
def named : Nat → List α → List (Element α)
  | _, [] => []
  | next, value :: rest => ⟨next, value⟩ :: named (next + 1) rest

@[simp]
theorem length_named (next : Nat) (values : List α) :
    (named next values).length = values.length := by
  induction values generalizing next with
  | nil => rfl
  | cons value rest inductionHypothesis =>
      rw [named, List.length_cons, inductionHypothesis, List.length_cons]

/-! ## Rewriting a list entry by entry -/

/--
A way from some elements to the desired entries, and what it keeps: an element
stands for the next entry, or is dropped, or the entry is inserted.
-/
inductive Rewrite (same : α → α → Prop) :
    Nat → List (Element α) → List α → List (Element α) →
      List (Element α) → Prop where
  | done (next : Nat) : Rewrite same next [] [] [] []
  | keep {next : Nat} {element : Element α} {entry : α}
      {olds : List (Element α)} {desired : List α}
      {made kept : List (Element α)} :
      same element.value entry → Rewrite same next olds desired made kept →
        Rewrite same next (element :: olds) (entry :: desired)
          (element :: made) (element :: kept)
  | drop {next : Nat} {element : Element α} {olds : List (Element α)}
      {desired : List α} {made kept : List (Element α)} :
      Rewrite same next olds desired made kept →
        Rewrite same next (element :: olds) desired made kept
  | insert {next : Nat} {entry : α} {olds : List (Element α)}
      {desired : List α} {made kept : List (Element α)} :
      Rewrite same (next + 1) olds desired made kept →
        Rewrite same next olds (entry :: desired) (⟨next, entry⟩ :: made) kept

namespace Rewrite

variable {same : α → α → Prop} {next : Nat}
variable {olds made kept : List (Element α)} {desired : List α}

theorem keeps {run : List (Element α)} {entries : List α}
    (pairs : List.Forall₂ (fun element entry => same element.value entry)
      run entries)
    (later : Rewrite same next olds desired made kept) :
    Rewrite same next (run ++ olds) (entries ++ desired) (run ++ made)
      (run ++ kept) := by
  induction pairs with
  | nil => exact later
  | cons related _ inductionHypothesis => exact .keep related inductionHypothesis

theorem drops (run : List (Element α))
    (later : Rewrite same next olds desired made kept) :
    Rewrite same next (run ++ olds) desired made kept := by
  induction run with
  | nil => exact later
  | cons _ _ inductionHypothesis => exact .drop inductionHypothesis

/-- Entries inserted one after another, under the names they take. -/
theorem inserts (entries : List α)
    (later : Rewrite same (next + entries.length) olds desired made kept) :
    Rewrite same next olds (entries ++ desired)
      (named next entries ++ made) kept := by
  induction entries generalizing next with
  | nil => exact later
  | cons entry rest inductionHypothesis =>
      apply Rewrite.insert
      apply inductionHypothesis
      rwa [Nat.add_assoc, Nat.add_comm 1]

theorem values (way : Rewrite same next olds desired made kept)
    (refl : ∀ entry ∈ desired, same entry entry) :
    List.Forall₂ same (made.map Element.value) desired := by
  induction way with
  | done => exact .nil
  | keep related _ inductionHypothesis =>
      exact .cons related
        (inductionHypothesis fun entry held => refl entry (.tail _ held))
  | drop _ inductionHypothesis => exact inductionHypothesis refl
  | insert _ inductionHypothesis =>
      exact .cons (refl _ List.mem_cons_self)
        (inductionHypothesis fun entry held => refl entry (.tail _ held))

theorem kept_sublist (way : Rewrite same next olds desired made kept) :
    kept.Sublist olds ∧ kept.Sublist made := by
  induction way with
  | done => exact ⟨.refl _, .refl _⟩
  | keep _ _ inductionHypothesis =>
      exact ⟨inductionHypothesis.1.cons_cons _,
        inductionHypothesis.2.cons_cons _⟩
  | drop _ inductionHypothesis =>
      exact ⟨inductionHypothesis.1.cons _, inductionHypothesis.2⟩
  | insert _ inductionHypothesis =>
      exact ⟨inductionHypothesis.1, inductionHypothesis.2.cons _⟩

/-- What is kept stands for entries of the desired list. -/
theorem kept_common (way : Rewrite same next olds desired made kept) :
    Common same (olds.map Element.value) desired
      (kept.map Element.value) := by
  refine ⟨way.kept_sublist.1.map _, ?_⟩
  induction way with
  | done => exact ⟨[], .refl _, .nil⟩
  | keep related _ inductionHypothesis =>
      obtain ⟨matched, within, pairs⟩ := inductionHypothesis
      exact ⟨_, within.cons_cons _, .cons related pairs⟩
  | drop _ inductionHypothesis => exact inductionHypothesis
  | insert _ inductionHypothesis =>
      obtain ⟨matched, within, pairs⟩ := inductionHypothesis
      exact ⟨matched, within.cons _, pairs⟩

/-- An element that is made was there, or takes a name not given before. -/
theorem made_old_or_new (way : Rewrite same next olds desired made kept) :
    ∀ element ∈ made, element ∈ olds ∨ next ≤ element.id := by
  induction way with
  | done => simp
  | keep _ _ inductionHypothesis =>
      intro element held
      rcases List.mem_cons.mp held with rfl | held
      · exact Or.inl List.mem_cons_self
      · exact (inductionHypothesis element held).imp_left (.tail _)
  | drop _ inductionHypothesis =>
      intro element held
      exact (inductionHypothesis element held).imp_left (.tail _)
  | insert _ inductionHypothesis =>
      intro element held
      rcases List.mem_cons.mp held with rfl | held
      · exact Or.inr (Nat.le_refl _)
      · exact (inductionHypothesis element held).imp_right Nat.le_of_succ_le

/-- The elements that are still there are the ones kept. -/
theorem survivors_eq (way : Rewrite same next olds desired made kept)
    (distinct : (olds.map Element.id).Nodup)
    (issued : ∀ element ∈ olds, element.id < next) :
    olds.filter (fun element => element.id ∈ made.map Element.id) = kept := by
  induction way with
  | done => rfl
  | @keep next element entry olds desired made kept _ _ inductionHypothesis =>
      rw [List.map_cons, List.nodup_cons] at distinct
      rw [List.filter_cons_of_pos (by simp)]
      congr 1
      rw [← inductionHypothesis distinct.2
        (fun other held => issued other (.tail _ held))]
      apply List.filter_congr
      intro other held
      have differs : other.id ≠ element.id := fun taken =>
        distinct.1 (taken ▸ List.mem_map_of_mem held)
      simp [differs]
  | @drop next element olds desired made kept way inductionHypothesis =>
      rw [List.map_cons, List.nodup_cons] at distinct
      have gone : element.id ∉ made.map Element.id := by
        intro named
        obtain ⟨other, held, taken⟩ := List.mem_map.mp named
        rcases way.made_old_or_new other held with old | new
        · exact distinct.1 (taken ▸ List.mem_map_of_mem old)
        · exact absurd (issued element List.mem_cons_self) (by omega)
      rw [List.filter_cons_of_neg (by simpa using gone)]
      exact inductionHypothesis distinct.2
        fun other held => issued other (.tail _ held)
  | @insert next entry olds desired made kept _ inductionHypothesis =>
      rw [← inductionHypothesis distinct
        (fun other held => Nat.lt_succ_of_lt (issued other held))]
      apply List.filter_congr
      intro other held
      have differs : other.id ≠ next := Nat.ne_of_lt (issued other held)
      simp [differs]

end Rewrite

/-! ## Rewriting from a position on -/

/-- Edits end with a list rewritten behind what is done, keeping so many. -/
def Rewrites (same : α → α → Prop) (result : Option (ElementList α))
    (next : Nat) (done olds : List (Element α)) (desired : List α)
    (length : Nat) : Prop :=
  ∃ after made kept, result = some after ∧ after.elements = done ++ made
    ∧ Rewrite same next olds desired made kept ∧ kept.length = length

namespace Rewrites

variable {same : α → α → Prop} {list : ElementList α}
variable {done olds : List (Element α)} {desired : List α} {length : Nat}
variable {next : ElementList α → Option (ElementList α)}

/-- Elements that stand for the desired entries are left where they are. -/
theorem keeps {result : Option (ElementList α)} {issued : Nat}
    {run : List (Element α)} {entries : List α}
    (pairs : List.Forall₂ (fun element entry => same element.value entry)
      run entries)
    (later : Rewrites same result issued (done ++ run) olds desired length) :
    Rewrites same result issued done (run ++ olds) (entries ++ desired)
      (run.length + length) := by
  obtain ⟨after, made, kept, made_it, final, way, rfl⟩ := later
  refine ⟨after, run ++ made, run ++ kept, made_it, ?_, way.keeps pairs, ?_⟩
  · rw [final, List.append_assoc]
  · rw [List.length_append]

theorem done_nil (held : list.elements = done) :
    Rewrites same (some list) list.next done [] [] 0 :=
  ⟨list, [], [], rfl, by rw [held, List.append_nil], .done _, rfl⟩

theorem insert {entry : α} (held : list.elements = done ++ olds)
    (later : ∀ middle : ElementList α,
      middle.elements = done ++ [⟨list.next, entry⟩] ++ olds →
        Rewrites same (next middle) middle.next
          (done ++ [⟨list.next, entry⟩]) olds desired length) :
    Rewrites same ((list.insert done.length entry).bind next) list.next done
      olds (entry :: desired) length := by
  obtain ⟨middle, inserted, elements, issued⟩ :=
    ElementList.insert_eq held entry
  rw [← List.append_cons] at later
  obtain ⟨after, made, kept, made_it, final, way, rfl⟩ :=
    later middle elements
  refine ⟨after, ⟨list.next, entry⟩ :: made, kept, ?_, ?_, ?_, rfl⟩
  · rw [inserted]
    exact made_it
  · rw [final, List.append_assoc, List.singleton_append]
  · exact .insert (issued ▸ way)

theorem delete {element : Element α}
    (held : list.elements = done ++ element :: olds)
    (later : ∀ middle : ElementList α, middle.elements = done ++ olds →
      Rewrites same (next middle) middle.next done olds desired length) :
    Rewrites same ((list.delete done.length 1).bind next) list.next done
      (element :: olds) desired length := by
  obtain ⟨middle, deleted, elements, issued⟩ :=
    @ElementList.delete_eq _ list done [element] olds held
  obtain ⟨after, made, kept, made_it, final, way, rfl⟩ :=
    later middle elements
  refine ⟨after, made, kept, ?_, final, .drop (issued ▸ way), rfl⟩
  rw [List.length_singleton] at deleted
  rw [deleted]
  exact made_it

end Rewrites

/--
A list rewritten to the desired entries: it holds them, and what it held before
and still holds is the same elements in the same order.
-/
structure Rewritten (same : α → α → Prop) (before after : ElementList α)
    (desired : List α) : Prop where
  values : List.Forall₂ same after.values desired
  survive : (before.survivors after).Sublist after.elements

/-- A rewriting that deletes no entry of a longest common subsequence. -/
structure RewrittenLeast (same : α → α → Prop)
    (before after : ElementList α) (desired : List α) : Prop extends
    Rewritten same before after desired where
  longest : LongestCommon same before.values desired
    ((before.survivors after).map Element.value)

namespace Rewrite

variable {same : α → α → Prop} {before after : ElementList α}
variable {desired : List α} {kept : List (Element α)}

theorem rewritten
    (way : Rewrite same before.next before.elements desired after.elements
      kept)
    (refl : ∀ entry ∈ desired, same entry entry) :
    Rewritten same before after desired := by
  have survivors : before.survivors after = kept :=
    way.survivors_eq before.distinct before.issued
  constructor
  · exact way.values refl
  · rw [survivors]
    exact way.kept_sublist.2

theorem rewrittenLeast
    (way : Rewrite same before.next before.elements desired after.elements
      kept)
    (refl : ∀ entry ∈ desired, same entry entry)
    (longest : ∀ other, Common same before.values desired other →
      other.length ≤ kept.length) :
    RewrittenLeast same before after desired := by
  have survivors : before.survivors after = kept :=
    way.survivors_eq before.distinct before.issued
  refine ⟨way.rewritten refl, ?_, ?_⟩
  · rw [survivors]
    exact way.kept_common
  · intro other shared
    rw [survivors, List.length_map]
    exact longest other shared

end Rewrite

end Clerkenwell.Foundation
