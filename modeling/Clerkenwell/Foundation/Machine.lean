import Mathlib.Data.List.Infix

/-!
# Runs of a deterministic machine

A machine is a function from a state and a label to the next state.  A run
feeds it a list of labels; the states it reaches are those after each prefix
of the list.
-/

namespace Clerkenwell.Foundation.Machine

variable {State Label : Type*}

/-- The state a machine is in after a list of labels. -/
def run (next : State → Label → State) (start : State)
    (labels : List Label) : State :=
  labels.foldl next start

@[simp]
theorem run_nil (next : State → Label → State) (start : State) :
    run next start [] = start :=
  rfl

@[simp]
theorem run_append_singleton
    (next : State → Label → State) (start : State)
    (labels : List Label) (label : Label) :
    run next start (labels ++ [label]) =
      next (run next start labels) label := by
  simp [run]

theorem run_cons (next : State → Label → State) (start : State)
    (label : Label) (labels : List Label) :
    run next start (label :: labels) = run next (next start label) labels :=
  rfl

theorem run_append (next : State → Label → State) (start : State)
    (earlier later : List Label) :
    run next start (earlier ++ later)
      = run next (run next start earlier) later :=
  List.foldl_append

/-- A property of every state a run reaches, its start included. -/
def Throughout
    (next : State → Label → State) (Holds : State → Prop)
    (start : State) (labels : List Label) : Prop :=
  ∀ reached, reached <+: labels → Holds (run next start reached)

/-- A property of every step a run takes, judged at the state it is taken in. -/
def EveryStep
    (next : State → Label → State) (Permitted : State → Label → Prop)
    (start : State) (labels : List Label) : Prop :=
  ∀ reached label, reached ++ [label] <+: labels →
    Permitted (run next start reached) label

@[simp]
theorem everyStep_nil
    (next : State → Label → State) (Permitted : State → Label → Prop)
    (start : State) :
    EveryStep next Permitted start [] := by
  intro reached label within
  simp at within

theorem everyStep_cons
    (next : State → Label → State) (Permitted : State → Label → Prop)
    (start : State) (label : Label) (labels : List Label) :
    EveryStep next Permitted start (label :: labels) ↔
      Permitted start label ∧
        EveryStep next Permitted (next start label) labels := by
  constructor
  · intro every
    refine ⟨every [] label (by simp), ?_⟩
    intro reached later within
    exact every (label :: reached) later (by simpa using within)
  · rintro ⟨first, rest⟩ reached later within
    cases reached with
    | nil =>
        obtain rfl : later = label := by simpa using within
        exact first
    | cons head reached =>
        obtain ⟨rfl, rest_within⟩ :
            head = label ∧ reached ++ [later] <+: labels := by
          simpa using within
        exact rest reached later rest_within

/-- A run is checked step by step. -/
instance decidableEveryStep
    (next : State → Label → State) (Permitted : State → Label → Prop)
    [∀ state label, Decidable (Permitted state label)] :
    (start : State) → (labels : List Label) →
      Decidable (EveryStep next Permitted start labels)
  | start, [] => .isTrue (everyStep_nil next Permitted start)
  | start, label :: labels =>
      have := decidableEveryStep next Permitted (next start label) labels
      decidable_of_iff _ (everyStep_cons next Permitted start label labels).symm

theorem everyStep_append
    (next : State → Label → State) (Permitted : State → Label → Prop)
    (start : State) (earlier later : List Label) :
    EveryStep next Permitted start (earlier ++ later) ↔
      EveryStep next Permitted start earlier ∧
        EveryStep next Permitted (run next start earlier) later := by
  induction earlier generalizing start with
  | nil => simp
  | cons label rest inductionHypothesis =>
      rw [List.cons_append, everyStep_cons, everyStep_cons,
        inductionHypothesis, and_assoc]
      rfl

section Exactness

variable {next : State → Label → State} {Holds : State → Prop}
variable {Permitted : State → Label → Prop}

/-- A property that every permitted step keeps holds throughout a run of them. -/
theorem throughout_of_everyStep
    (keep : ∀ state label, Holds state → Permitted state label →
      Holds (next state label))
    {start : State} {labels : List Label}
    (initial : Holds start)
    (permitted : EveryStep next Permitted start labels) :
    Throughout next Holds start labels := by
  intro reached
  induction reached using List.reverseRecOn with
  | nil => exact fun _ => initial
  | append_singleton earlier label inductionHypothesis =>
      intro within
      have held : Holds (run next start earlier) :=
        inductionHypothesis
          ((List.prefix_append earlier [label]).trans within)
      rw [run_append_singleton]
      exact keep _ _ held (permitted earlier label within)

/--
A property a step keeps exactly when the step is permitted holds throughout a
run exactly when every step of the run is permitted.
-/
theorem throughout_iff_everyStep
    (exact_step : ∀ state label, Holds state →
      (Holds (next state label) ↔ Permitted state label))
    {start : State} {labels : List Label}
    (initial : Holds start) :
    Throughout next Holds start labels ↔
      EveryStep next Permitted start labels := by
  constructor
  · intro throughout reached label within
    have before : Holds (run next start reached) :=
      throughout reached
        ((List.prefix_append reached [label]).trans within)
    have after : Holds (next (run next start reached) label) := by
      rw [← run_append_singleton next start]
      exact throughout _ within
    exact (exact_step _ _ before).mp after
  · exact throughout_of_everyStep
      (fun state label held permitted =>
        (exact_step state label held).mpr permitted) initial

/--
Two judgements of a step that agree wherever an invariant holds, and whose
steps keep it, agree on whole runs from a state that has it.
-/
theorem everyStep_congr {Invariant : State → Prop}
    {Judged : State → Label → Prop}
    (agree : ∀ state label, Invariant state →
      (Judged state label ↔ Permitted state label))
    (keep : ∀ state label, Invariant state → Permitted state label →
      Invariant (next state label))
    {start : State} {labels : List Label} (initial : Invariant start) :
    EveryStep next Judged start labels ↔
      EveryStep next Permitted start labels := by
  induction labels generalizing start with
  | nil => simp
  | cons label rest inductionHypothesis =>
      rw [everyStep_cons, everyStep_cons, agree start label initial]
      constructor
      · rintro ⟨first, later⟩
        exact ⟨first,
          (inductionHypothesis (keep start label initial first)).mp later⟩
      · rintro ⟨first, later⟩
        exact ⟨first,
          (inductionHypothesis (keep start label initial first)).mpr later⟩

/--
A property of states and a judgement of steps that together come to what is
permitted, wherever an invariant the permitted steps keep holds, come to it on
whole runs from a state that has the invariant.
-/
theorem throughout_and_everyStep_iff (Invariant : State → Prop)
    {Judged : State → Label → Prop}
    (holds : ∀ state, Invariant state → Holds state)
    (agree : ∀ state label, Invariant state →
      (Holds (next state label) ∧ Judged state label ↔ Permitted state label))
    (keep : ∀ state label, Invariant state → Permitted state label →
      Invariant (next state label))
    {start : State} {labels : List Label} (initial : Invariant start) :
    Throughout next Holds start labels ∧ EveryStep next Judged start labels ↔
      EveryStep next Permitted start labels := by
  have congr : EveryStep next _ start labels ↔ EveryStep next _ start labels :=
    everyStep_congr agree keep initial
  constructor
  · rintro ⟨throughout, judged⟩
    refine congr.mp fun reached label within => ⟨?_, judged _ _ within⟩
    rw [← run_append_singleton next start]
    exact throughout _ within
  · intro permitted
    have both := congr.mpr permitted
    refine ⟨?_, fun reached label within => (both reached label within).2⟩
    intro reached within
    induction reached using List.reverseRecOn with
    | nil => exact holds start initial
    | append_singleton earlier label _ =>
        rw [run_append_singleton]
        exact (both earlier label within).1

end Exactness

end Clerkenwell.Foundation.Machine
