import Mathlib.Logic.Relation
import Mathlib.Data.List.Basic

/-!
# Programs over atomic actions

A program performs atomic actions one at a time and goes on as each is
answered.  What an action may be answered, and what answering it does to the
world, is left to a relation, so one program runs over many worlds.

A program of an unbounded loop is given the number of turns it may take, and is
`unfinished` when it has taken them.
-/

namespace Clerkenwell.Foundation

/-- A program performing actions, each answered with a response of its type. -/
inductive Program {Action : Type} (Response : Action → Type) (α : Type) where
  | done (result : α)
  | unfinished
  | perform (action : Action)
      (resume : Response action → Program Response α)

namespace Program

variable {Action : Type} {Response : Action → Type} {α β : Type}

/-- The program that goes on as `next` says once `program` has its result. -/
def bind (program : Program Response α) (next : α → Program Response β) :
    Program Response β :=
  match program with
  | .done result => next result
  | .unfinished => .unfinished
  | .perform action resume =>
      .perform action fun response => (resume response).bind next

instance : Monad (Program Response) where
  pure := .done
  bind := bind

/-- The program of one action, whose result is its response. -/
def act (action : Action) : Program Response (Response action) :=
  .perform action .done

@[simp]
theorem pure_eq (result : α) :
    (pure result : Program Response α) = .done result :=
  rfl

@[simp]
theorem bind_eq (program : Program Response α)
    (next : α → Program Response β) :
    program >>= next = program.bind next :=
  rfl

@[simp]
theorem done_bind (result : α) (next : α → Program Response β) :
    (done result).bind next = next result :=
  rfl

@[simp]
theorem unfinished_bind (next : α → Program Response β) :
    (unfinished : Program Response α).bind next = .unfinished :=
  rfl

@[simp]
theorem perform_bind (action : Action)
    (resume : Response action → Program Response α)
    (next : α → Program Response β) :
    (perform action resume).bind next =
      .perform action fun response => (resume response).bind next :=
  rfl

@[simp]
theorem act_bind (action : Action)
    (next : Response action → Program Response β) :
    (act action).bind next = .perform action next :=
  rfl

theorem bind_assoc {γ : Type} (program : Program Response α)
    (next : α → Program Response β) (last : β → Program Response γ) :
    (program.bind next).bind last
      = program.bind fun result => (next result).bind last := by
  induction program with
  | done result => rfl
  | unfinished => rfl
  | perform action resume inductionHypothesis =>
      simp only [perform_bind, inductionHypothesis]

/-- An action a program performed and how it was answered. -/
abbrev Answered (Response : Action → Type) :=
  (action : Action) × Response action

end Program

end Clerkenwell.Foundation
