import Mathlib.Data.List.Forall2
import Mathlib.Tactic.Common

/-!
# Results of fallible steps

What the success of a computation in several steps says of each step.
-/

namespace Clerkenwell.Foundation

variable {ε α β : Type}

/-- Two steps in a row succeed when the first does, and the second on it. -/
theorem except_bind_ok {first : Except ε α} {next : α → Except ε β}
    {value : β} (succeeds : first >>= next = .ok value) :
    ∃ middle, first = .ok middle ∧ next middle = .ok value := by
  cases first with
  | error error => cases succeeds
  | ok middle => exact ⟨middle, rfl, succeeds⟩

/-- A step for each item succeeds when it does on each, in order. -/
theorem forall₂_of_mapM_ok {each : α → Except ε β} {items : List α}
    {values : List β} (succeeds : items.mapM each = .ok values) :
    List.Forall₂ (fun item value => each item = .ok value) items values := by
  induction items generalizing values with
  | nil =>
      rw [List.mapM_nil] at succeeds
      cases succeeds
      exact .nil
  | cons item rest inductionHypothesis =>
      rw [List.mapM_cons] at succeeds
      obtain ⟨value, first, succeeds⟩ := except_bind_ok succeeds
      obtain ⟨later, others, built⟩ := except_bind_ok succeeds
      cases built
      exact .cons first (inductionHypothesis others)

/-- A step for each item succeeds where it does on each. -/
theorem exists_mapM_ok {each : α → Except ε β} {items : List α}
    (succeeds : ∀ item ∈ items, ∃ value, each item = .ok value) :
    ∃ values, items.mapM each = .ok values := by
  induction items with
  | nil => exact ⟨[], rfl⟩
  | cons item rest inductionHypothesis =>
      rcases succeeds item List.mem_cons_self with ⟨value, one⟩
      rcases inductionHypothesis fun other within =>
        succeeds other (List.mem_cons_of_mem item within) with ⟨values, others⟩
      rw [List.mapM_cons, one, others]
      exact ⟨_, rfl⟩

/-- What steps that may have no result give is each what one of them gave. -/
theorem exists_of_mem_mapM {each : α → Option β} {items : List α}
    {values : List β} {value : β} (succeeds : items.mapM each = some values)
    (within : value ∈ values) : ∃ item ∈ items, each item = some value := by
  induction items generalizing values with
  | nil =>
      rw [List.mapM_nil] at succeeds
      cases succeeds
      cases within
  | cons item rest inductionHypothesis =>
      rw [List.mapM_cons] at succeeds
      obtain ⟨first, one, succeeds⟩ := Option.bind_eq_some_iff.mp succeeds
      obtain ⟨later, others, built⟩ := Option.bind_eq_some_iff.mp succeeds
      cases built
      rcases List.mem_cons.mp within with rfl | within
      · exact ⟨item, List.mem_cons_self, one⟩
      · obtain ⟨other, among, gave⟩ := inductionHypothesis others within
        exact ⟨other, List.mem_cons_of_mem _ among, gave⟩

theorem isSome_of_mem_mapM {each : α → Option β} {items : List α}
    {values : List β} {item : α} (succeeds : items.mapM each = some values)
    (within : item ∈ items) : (each item).isSome = true := by
  induction items generalizing values with
  | nil => cases within
  | cons first rest inductionHypothesis =>
      rw [List.mapM_cons] at succeeds
      obtain ⟨value, one, succeeds⟩ := Option.bind_eq_some_iff.mp succeeds
      obtain ⟨later, others, -⟩ := Option.bind_eq_some_iff.mp succeeds
      rcases List.mem_cons.mp within with rfl | within
      · rw [one]
        rfl
      · exact inductionHypothesis others within

/-- What steps that may have no result give, where each has one. -/
theorem filterMap_of_mapM {each : α → Option β} {items : List α}
    {values : List β} (gathered : items.mapM each = some values) :
    items.filterMap each = values := by
  induction items generalizing values with
  | nil =>
      rw [List.mapM_nil] at gathered
      cases gathered
      rfl
  | cons item rest inductionHypothesis =>
      rw [List.mapM_cons] at gathered
      obtain ⟨value, one, gathered⟩ := Option.bind_eq_some_iff.mp gathered
      obtain ⟨later, others, built⟩ := Option.bind_eq_some_iff.mp gathered
      cases built
      rw [List.filterMap_cons, one, inductionHypothesis others]

theorem forM_eq_ok_iff {each : α → Except ε PUnit} {items : List α} :
    forM items each = .ok ⟨⟩ ↔ ∀ item ∈ items, each item = .ok ⟨⟩ := by
  induction items with
  | nil => simp [pure, Except.pure]
  | cons first rest inductionHypothesis =>
      rw [List.forM_cons, List.forall_mem_cons, ← inductionHypothesis]
      cases each first <;> simp [bind, Except.bind]

/-- A loop fails where a step of it does, if its steps fail one way only. -/
theorem forM_eq_error_iff {each : α → Except ε PUnit} {items : List α}
    {failure : ε} (alone : ∀ item ∈ items,
      each item = .ok ⟨⟩ ∨ each item = .error failure) :
    forM items each = .error failure
      ↔ ∃ item ∈ items, each item = .error failure := by
  induction items with
  | nil => simp [pure, Except.pure]
  | cons first rest inductionHypothesis =>
      have later := inductionHypothesis fun item within =>
        alone item (List.mem_cons_of_mem _ within)
      rw [List.forM_cons]
      rcases alone first List.mem_cons_self with passes | fails
      · simp [passes, later, bind, Except.bind]
      · simp [fails, bind, Except.bind]

/-! ## Items in pairs -/

section Pairs

variable {Item Meant : Type} {relates also : Item → Meant → Prop}
variable {items : List Item} {meant : List Meant}

/-- What the items of one list are paired with is all of the other. -/
theorem exists_of_mem_right
    (paired : List.Forall₂ relates items meant) {meaning : Meant}
    (within : meaning ∈ meant) : ∃ item ∈ items, relates item meaning := by
  induction paired with
  | nil => cases within
  | cons first _ inductionHypothesis =>
      rcases List.mem_cons.mp within with rfl | within
      · exact ⟨_, List.mem_cons_self, first⟩
      · rcases inductionHypothesis within with ⟨item, among, one⟩
        exact ⟨item, List.mem_cons_of_mem _ among, one⟩

theorem exists_of_mem_left
    (paired : List.Forall₂ relates items meant) {item : Item}
    (within : item ∈ items) : ∃ meaning ∈ meant, relates item meaning :=
  exists_of_mem_right paired.flip within

theorem forall₂_imp_mem
    (related : List.Forall₂ relates items meant)
    (implies : ∀ item, ∀ meaning ∈ meant, relates item meaning →
      also item meaning) : List.Forall₂ also items meant := by
  induction related with
  | nil => exact .nil
  | cons first _ inductionHypothesis =>
      apply List.Forall₂.cons (implies _ _ List.mem_cons_self first)
      apply inductionHypothesis
      exact fun item meaning within =>
        implies item meaning (List.mem_cons_of_mem _ within)

/-- Just one item is counted where just one of what they stand for holds. -/
theorem countP_eq_one_iff {counts : Item → Bool} {holds : Meant → Prop}
    (same : List.Forall₂ (fun item meaning =>
      counts item = true ↔ holds meaning) items meant)
    (alone : meant.Pairwise fun one other => ¬(holds one ∧ holds other)) :
    items.countP counts = 1 ↔ ∃ meaning ∈ meant, holds meaning := by
  have counted : ∀ {items : List Item} {meant : List Meant},
      List.Forall₂ (fun item meaning => counts item = true ↔ holds meaning)
        items meant →
      (items.countP counts = 0 ↔ ∀ meaning ∈ meant, ¬holds meaning) := by
    intro items meant same
    induction same with
    | nil => simp
    | cons first _ inductionHypothesis =>
        rw [List.countP_cons, List.forall_mem_cons, ← inductionHypothesis,
          ← first]
        split <;> simp_all
  induction same with
  | nil => simp
  | @cons item meaning rest others first later inductionHypothesis =>
      rcases List.pairwise_cons.mp alone with ⟨apart, rest_alone⟩
      rw [List.countP_cons, List.exists_mem_cons_iff]
      by_cases held : holds meaning
      · have none_ : rest.countP counts = 0 :=
          (counted later).mpr fun other within also =>
            apart other within ⟨held, also⟩
        rw [if_pos (first.mpr held), none_]
        simp [held]
      · rw [if_neg fun counted_item => held (first.mp counted_item),
          Nat.add_zero]
        apply (inductionHypothesis rest_alone).trans
        simp [held]

/-- What comes of each named item, under the item's name. -/
theorem named_of_forall₂ {Item Result : Type} {relates : Item → Result → Prop}
    {items : List (String × Item)} {results : List (String × Result)}
    (each : List.Forall₂ (fun item result =>
      result.1 = item.1 ∧ relates item.2 result.2) items results) :
    results.map Prod.fst = items.map Prod.fst
      ∧ ∀ name result, (name, result) ∈ results →
        ∃ item, (name, item) ∈ items ∧ relates item result := by
  induction each with
  | nil => exact ⟨rfl, fun _ _ within => by cases within⟩
  | @cons item result items results first _ inductionHypothesis =>
      rcases inductionHypothesis with ⟨names, related⟩
      refine ⟨by rw [List.map_cons, List.map_cons, first.1, names], ?_⟩
      intro name other within
      rcases List.mem_cons.mp within with rfl | within
      · refine ⟨item.2, List.mem_cons.mpr (Or.inl ?_), first.2⟩
        rw [show name = item.1 from first.1]
      · rcases related name other within with ⟨meant, among, one⟩
        exact ⟨meant, List.mem_cons_of_mem _ among, one⟩

end Pairs

end Clerkenwell.Foundation
