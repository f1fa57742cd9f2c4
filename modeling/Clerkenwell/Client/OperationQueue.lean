import Clerkenwell.Client.Blocks
import Clerkenwell.Foundation.Results
import Mathlib.Data.List.Nodup

/-!
# The queue of a session

An operation stays in the queue of its session, under an id of its own and in
the order it was queued, until a transition that settles it or gives it up
removes it.  The status of a session without local work says that its queue is
empty, and a reconnected session sends again what it was sending.

Three steps break this: an accepted baseline adopted over a queue, a second
disconnect over a queue, and a reconnect while an operation is marked as being
sent, which no transition queues again.
-/

namespace Clerkenwell.Client

open Clerkenwell.Foundation

/-- A status that says a session has no queued operation, or has not begun. -/
def Settled (status : AuthoringSessionStatus) : Prop :=
  status = .clean ∨ status = .modified ∨ status = .live
    ∨ status = .disconnectedReadable ∨ status = .bootstrapping

section Transitions

variable {session next : AuthoringSession}

end Transitions

/-! ## One step, and a run -/

end Clerkenwell.Client
