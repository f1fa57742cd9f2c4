import Mathlib.Data.List.Basic
import Mathlib.Data.List.Forall2
import Mathlib.Tactic.Common

/-!
# Fallible calls that may still be running

A recursion that need not end is run with a bound on its nested calls.  A call
that meets the bound has no outcome yet; any other succeeds or fails, and does
so under every greater bound.
-/

namespace Clerkenwell.Foundation

universe u

variable {ε : Type} {α β : Type}

/-- What a fallible call has come to, nothing while it still runs. -/
abbrev Running (ε : Type) := ExceptT ε Option

namespace Running

/-- A call whose outcome is known. -/
def settled (outcome : Except ε α) : Running ε α :=
  ExceptT.mk (some outcome)

/-- A call that met the bound. -/
def pending : Running ε α :=
  ExceptT.mk none

/-- Whether a call has an outcome. -/
def Ended (running : Running ε α) : Prop :=
  running.run.isSome = true

/-- Whether a call succeeded with a value. -/
def Succeeds (running : Running ε α) (value : α) : Prop :=
  running.run = some (.ok value)

/-- Whether a call failed. -/
def Fails (running : Running ε α) (failure : ε) : Prop :=
  running.run = some (.error failure)

theorem ext {left right : Running ε α} (same : left.run = right.run) :
    left = right :=
  same

@[simp]
theorem run_settled (outcome : Except ε α) :
    (settled outcome).run = some outcome :=
  rfl

@[simp]
theorem run_pending : (pending : Running ε α).run = none :=
  rfl

@[simp]
theorem run_pure (value : α) :
    (pure value : Running ε α).run = some (.ok value) :=
  rfl

@[simp]
theorem run_throw (failure : ε) :
    (throw failure : Running ε α).run = some (.error failure) :=
  rfl

theorem run_bind (running : Running ε α) (next : α → Running ε β) :
    (running >>= next).run =
      match running.run with
      | none => none
      | some (.error failure) => some (.error failure)
      | some (.ok value) => (next value).run := by
  change Option.bind running.run _ = _
  rcases running.run with _ | failure | value <;> rfl

theorem settled_bind_ok (value : α) (next : α → Running ε β) :
    (settled (.ok value) >>= next) = next value :=
  rfl

/-! ## Sequences -/

theorem succeeds_pure (value result : α) :
    Succeeds (pure value : Running ε α) result ↔ value = result := by
  simp [Succeeds]

theorem succeeds_settled (outcome : Except ε α) (result : α) :
    Succeeds (settled outcome) result ↔ outcome = .ok result := by
  simp [Succeeds]

theorem succeeds_bind (running : Running ε α) (next : α → Running ε β)
    (result : β) :
    Succeeds (running >>= next) result ↔
      ∃ value, Succeeds running value ∧ Succeeds (next value) result := by
  unfold Succeeds
  rw [run_bind]
  rcases running.run with _ | failure | value
  · simp
  · simp
  · simp

theorem ended_bind (running : Running ε α) (next : α → Running ε β) :
    Ended (running >>= next) ↔
      Ended running ∧
        ∀ value, Succeeds running value → Ended (next value) := by
  unfold Ended Succeeds
  rw [run_bind]
  rcases running.run with _ | failure | value
  · simp
  · simp
  · simp

@[simp]
theorem ended_pure (value : α) : Ended (pure value : Running ε α) :=
  rfl

@[simp]
theorem ended_settled (outcome : Except ε α) : Ended (settled outcome) :=
  rfl

@[simp]
theorem ended_throw (failure : ε) : Ended (throw failure : Running ε α) :=
  rfl

theorem not_ended_pending : ¬Ended (pending : Running ε α) := by
  simp [Ended]

theorem Succeeds.ended {running : Running ε α} {value : α}
    (succeeds : Succeeds running value) : Ended running := by
  unfold Ended
  rw [succeeds]
  rfl

theorem Succeeds.unique {running : Running ε α} {value other : α}
    (succeeds : Succeeds running value) (also : Succeeds running other) :
    value = other := by
  unfold Succeeds at *
  rw [succeeds] at also
  simpa using also

theorem ended_cases {running : Running ε α} (ended : Ended running) :
    (∃ value, Succeeds running value) ∨
      ∃ failure, Fails running failure := by
  unfold Ended at ended
  unfold Succeeds Fails
  rcases outcome : running.run with _ | failure | value
  · rw [outcome] at ended
    cases ended
  · exact Or.inr ⟨failure, rfl⟩
  · exact Or.inl ⟨value, rfl⟩

/-! ## Loops -/

section Loops

variable {Item : Type} (body : Item → Running ε PUnit)

/-- A loop ends well when its body does for every item. -/
theorem succeeds_forM (items : List Item) :
    Succeeds (forM items body) ⟨⟩ ↔
      ∀ item ∈ items, Succeeds (body item) ⟨⟩ := by
  induction items with
  | nil => simp [Succeeds]
  | cons item rest inductionHypothesis =>
      rw [List.forM_cons, succeeds_bind, List.forall_mem_cons,
        ← inductionHypothesis]
      constructor
      · rintro ⟨⟨⟩, first, later⟩
        exact ⟨first, later⟩
      · rintro ⟨first, later⟩
        exact ⟨⟨⟩, first, later⟩

/-- A loop that gathers results ends well when its body does for every item. -/
theorem succeeds_mapM (each : Item → Running ε β) (items : List Item)
    (results : List β) :
    Succeeds (items.mapM each) results ↔
      List.Forall₂ (fun item result => Succeeds (each item) result) items
        results := by
  induction items generalizing results with
  | nil =>
      rw [List.mapM_nil, succeeds_pure, List.forall₂_nil_left_iff]
      exact eq_comm
  | cons item rest inductionHypothesis =>
      rw [List.mapM_cons, succeeds_bind]
      constructor
      · rintro ⟨first, one, later⟩
        obtain ⟨others, gathered, same⟩ := (succeeds_bind _ _ _).mp later
        obtain rfl := (succeeds_pure _ _).mp same
        exact List.Forall₂.cons one ((inductionHypothesis others).mp gathered)
      · rintro (_ | @⟨_, first, _, others, one, gathered⟩)
        exact ⟨first, one, (succeeds_bind _ _ _).mpr
          ⟨others, (inductionHypothesis others).mpr gathered, rfl⟩⟩

/-- What a loop gathered, its body came to for some item. -/
theorem succeeds_mapM_mem {each : Item → Running ε β} {items : List Item}
    {results : List β} (succeeds : Succeeds (items.mapM each) results)
    {result : β} (within : result ∈ results) :
    ∃ item ∈ items, Succeeds (each item) result := by
  have pairs := (succeeds_mapM each items results).mp succeeds
  induction pairs with
  | nil => cases within
  | cons one _ inductionHypothesis =>
      rcases List.mem_cons.mp within with rfl | within
      · exact ⟨_, List.mem_cons_self, one⟩
      · obtain ⟨item, among, also⟩ := inductionHypothesis
          ((succeeds_mapM each _ _).mpr ‹_›) within
        exact ⟨item, List.mem_cons_of_mem _ among, also⟩

/-- What a loop with a state came to, its body came to for every item. -/
theorem succeeds_foldlM_mem {step : β → Item → Running ε β} {items : List Item}
    {start result : β} (succeeds : Succeeds (items.foldlM step start) result)
    {item : Item} (within : item ∈ items) :
    ∃ before after, Succeeds (step before item) after := by
  induction items generalizing start with
  | nil => cases within
  | cons first rest inductionHypothesis =>
      rw [List.foldlM_cons] at succeeds
      obtain ⟨next, one, later⟩ := (succeeds_bind _ _ _).mp succeeds
      rcases List.mem_cons.mp within with rfl | within
      · exact ⟨start, next, one⟩
      · exact inductionHypothesis later within

end Loops

/-! ## Greater bounds -/

/-- Whether a call under a greater bound comes to what this one has. -/
def Below (running further : Running ε α) : Prop :=
  Ended running → running = further

theorem Below.refl (running : Running ε α) : Below running running :=
  fun _ => rfl

theorem below_pending (further : Running ε α) : Below pending further :=
  fun ended => absurd ended not_ended_pending

theorem Below.trans {first second third : Running ε α}
    (earlier : Below first second) (later : Below second third) :
    Below first third := by
  intro ended
  have same := earlier ended
  rw [same]
  exact later (same ▸ ended)

/-- A sequence under a greater bound, once its parts are where they come to. -/
theorem Below.bind {running further : Running ε α}
    {next later : α → Running ε β} (below : Below running further)
    (next_below : ∀ value, Succeeds running value →
      Below (next value) (later value)) :
    Below (running >>= next) (further >>= later) := by
  intro ended
  obtain ⟨ends, goes⟩ := (ended_bind running next).mp ended
  obtain rfl := below ends
  rcases ended_cases ends with ⟨value, succeeds⟩ | ⟨failure, fails⟩
  · have same := next_below value succeeds (goes value succeeds)
    apply ext
    unfold Succeeds at succeeds
    rw [run_bind, run_bind, succeeds]
    exact congrArg ExceptT.run same
  · apply ext
    unfold Fails at fails
    rw [run_bind, run_bind, fails]

theorem Below.forM {Item : Type} {body later : Item → Running ε PUnit}
    (items : List Item) (below : ∀ item ∈ items, Below (body item) (later item)) :
    Below (forM items body) (forM items later) := by
  induction items with
  | nil => exact Below.refl _
  | cons item rest inductionHypothesis =>
      rw [List.forM_cons, List.forM_cons]
      refine (below item List.mem_cons_self).bind fun _ _ => ?_
      exact inductionHypothesis fun item within =>
        below item (List.mem_cons_of_mem _ within)

theorem below_of_le {call : Nat → Running ε α}
    (step : ∀ fuel, Below (call fuel) (call (fuel + 1))) {less more : Nat}
    (le : less ≤ more) : Below (call less) (call more) := by
  induction le with
  | refl => exact Below.refl _
  | step _ inductionHypothesis => exact inductionHypothesis.trans (step _)

end Running

end Clerkenwell.Foundation
