import Clerkenwell.Doc.Json
import Clerkenwell.Doc.Plan

/-!
# The subscriptions of a connection

A connection's subscriptions and the revision each client holds.  A
subscription's revisions order the updates it sends its client: a patch starts
at the revision the client holds, a snapshot is at the one after it.

The application's types stay variables: a snapshot, a patch, and the delivery
that names what an update leaves a client holding.
-/

namespace Clerkenwell.Session

open Clerkenwell.Doc

/-! ## Numbers -/

/-- `revision + 1` of a `u64`, as a release build computes it. -/
def nextRevision (revision : Nat) : Nat :=
  (revision + 1) % 2 ^ 64

/-- The greatest revision. -/
def lastRevision : Nat :=
  2 ^ 64 - 1

theorem nextRevision_eq {revision : Nat} (room : revision < lastRevision) :
    nextRevision revision = revision + 1 := by
  have bounded : revision + 1 < 2 ^ 64 := by
    unfold lastRevision at room
    omega
  exact Nat.mod_eq_of_lt bounded

/-- A snapshot, and the number of the last modification it holds. -/
structure NumberedSnapshot (Snapshot : Type) where
  snapshot : Snapshot
  through : Nat

/-! ## Updates -/

inductive ProjectionTransportEvent (Snapshot Patch : Type) where
  | snapshot (subscriptionId revision : Nat) (snapshot : Snapshot)
      (held : Option Json)
  | patch (subscriptionId fromRevision toRevision : Nat) (patch : Patch)
      (held : Option Json)

structure ProjectionSubscribeAccepted where
  subscriptionId : Nat
  revision : Nat
  upToDate : Bool
deriving DecidableEq, Repr

structure ProjectionResyncAccepted where
  subscriptionId : Nat
  fromRevision : Nat
  revision : Nat
deriving DecidableEq, Repr

namespace ProjectionTransportEvent

variable {Snapshot Patch : Type}

def subscriptionId : ProjectionTransportEvent Snapshot Patch → Nat
  | .snapshot id _ _ _ => id
  | .patch id _ _ _ _ => id

/-- The revision an update takes its client to. -/
def revision : ProjectionTransportEvent Snapshot Patch → Nat
  | .snapshot _ revision _ _ => revision
  | .patch _ _ toRevision _ _ => toRevision

end ProjectionTransportEvent

/-! ## Subscriptions -/

/-- One subscription and the revision its client holds. -/
structure ProjectionSubscription (Delivery : Type) where
  projection : String
  params : Json
  revision : Nat
  /-- What the last update left the client holding, when the host names it. -/
  delivered : Option Delivery
  /-- The number of the last modification its snapshot holds. -/
  through : Nat

/-- Why a delivery that follows the one its client held is not sent. -/
inductive FollowingDelivery where
  | superseded
  | alreadyHeld
deriving DecidableEq, Repr

structure ProjectionSubscriptions (Delivery : Type) where
  principal : Principal
  nextSubscriptionId : Nat
  subscriptions : Std.ExtTreeMap Nat (ProjectionSubscription Delivery)

namespace ProjectionSubscriptions

variable {Delivery Snapshot Patch : Type}

/-- The subscriptions of a connection authenticated as a principal. -/
def new (principal : Principal) : ProjectionSubscriptions Delivery where
  principal := principal
  nextSubscriptionId := 1
  subscriptions := ∅

/-- Registers a subscription whose snapshot holds what `through` numbers. -/
def insert (held : ProjectionSubscriptions Delivery) (projection : String)
    (params : Json) (revision through : Nat) :
    Nat × ProjectionSubscriptions Delivery :=
  let subscriptionId := held.nextSubscriptionId
  (subscriptionId,
    { held with
      nextSubscriptionId := subscriptionId + 1
      subscriptions :=
        held.subscriptions.insert subscriptionId
          { projection := projection
            params := params
            revision := revision
            delivered := none
            through := through } })

def get (held : ProjectionSubscriptions Delivery) (subscriptionId : Nat) :
    Option (ProjectionSubscription Delivery) :=
  held.subscriptions[subscriptionId]?

/-- The subscriptions with one of them changed. -/
def modify (held : ProjectionSubscriptions Delivery) (subscriptionId : Nat)
    (change : ProjectionSubscription Delivery →
      ProjectionSubscription Delivery) :
    ProjectionSubscriptions Delivery :=
  { held with
    subscriptions := held.subscriptions.modify subscriptionId change }

/-- Records an update that took the client to a revision. -/
def recordDelivery (held : ProjectionSubscriptions Delivery)
    (subscriptionId revision : Nat) (delivered : Option Delivery) :
    ProjectionSubscriptions Delivery :=
  held.modify subscriptionId fun subscription =>
    { subscription with revision := revision, delivered := delivered }

def remove (held : ProjectionSubscriptions Delivery)
    (subscriptionId : Nat) : Bool × ProjectionSubscriptions Delivery :=
  ((held.get subscriptionId).isSome,
    { held with
      subscriptions := held.subscriptions.erase subscriptionId })

/-- The highest revision any subscription has reached. -/
def currentRevision (held : ProjectionSubscriptions Delivery) : Nat :=
  (held.subscriptions.toList.map fun entry => entry.2.revision).foldl max 0

/-- The revision a change's effects reach. -/
def changeRevision (held : ProjectionSubscriptions Delivery)
    (publishes : Bool) : Nat :=
  let current := max held.currentRevision 1
  if publishes then nextRevision current else current

variable (toValue : Delivery → Option Json)

/-- What an update tells its client it holds. -/
def heldToken (delivered : Option Delivery) : Option Json :=
  delivered.bind toValue

/--
Sends a patch to a subscription, to a revision or to the one after its own
when it already holds that.
-/
def deliverPatch (held : ProjectionSubscriptions Delivery)
    (subscriptionId toRevision : Nat) (patch : Patch)
    (delivered : Option Delivery) :
    Option (ProjectionTransportEvent Snapshot Patch)
      × ProjectionSubscriptions Delivery :=
  match held.get subscriptionId with
  | none => (none, held)
  | some subscription =>
      let fromRevision := subscription.revision
      let toRevision := max toRevision (nextRevision fromRevision)
      (some (.patch subscriptionId fromRevision toRevision patch
          (heldToken toValue delivered)),
        held.modify subscriptionId fun subscription =>
          { subscription with revision := toRevision, delivered := delivered })

/-- Sends a snapshot to a subscription at the revision after its own. -/
def resync (held : ProjectionSubscriptions Delivery) (subscriptionId : Nat)
    (snapshot : NumberedSnapshot Snapshot) (delivered : Option Delivery) :
    Option (ProjectionResyncAccepted
        × ProjectionTransportEvent Snapshot Patch)
      × ProjectionSubscriptions Delivery :=
  match held.get subscriptionId with
  | none => (none, held)
  | some subscription =>
      let fromRevision := subscription.revision
      let revision := nextRevision fromRevision
      let through := held.modify subscriptionId fun subscription =>
        { subscription with through := snapshot.through }
      (some
          ({ subscriptionId := subscriptionId
             fromRevision := fromRevision
             revision := revision },
            .snapshot subscriptionId revision snapshot.snapshot
              (heldToken toValue delivered)),
        through.recordDelivery subscriptionId revision delivered)

variable [DecidableEq Delivery]

/--
Accepts a subscription, and sends its client the snapshot unless the client
already holds it.
-/
def acceptSubscription (held : ProjectionSubscriptions Delivery)
    (projection : String) (params : Json) (clientHeld : Option Delivery)
    (snapshot : NumberedSnapshot Snapshot) (delivered : Option Delivery) :
    (ProjectionSubscribeAccepted
        × List (ProjectionTransportEvent Snapshot Patch))
      × ProjectionSubscriptions Delivery :=
  let revision := max held.currentRevision 1
  let (subscriptionId, inserted) :=
    held.insert projection params revision snapshot.through
  let upToDate := clientHeld.isSome && clientHeld == delivered
  let events :=
    if upToDate then []
    else
      [.snapshot subscriptionId revision snapshot.snapshot
        (heldToken toValue delivered)]
  (({ subscriptionId := subscriptionId
      revision := revision
      upToDate := upToDate },
      events),
    inserted.recordDelivery subscriptionId revision delivered)

/--
Records a delivery that follows the one the client held at a revision, and
returns the update that carries it.
-/
def deliverFollowing (held : ProjectionSubscriptions Delivery)
    (subscriptionId fromRevision : Nat) (patch : Patch)
    (delivered : Delivery) :
    Except FollowingDelivery (ProjectionTransportEvent Snapshot Patch)
      × ProjectionSubscriptions Delivery :=
  match held.get subscriptionId with
  | none => (.error .superseded, held)
  | some subscription =>
      if subscription.revision ≠ fromRevision then (.error .superseded, held)
      else if subscription.delivered = some delivered then
        (.error .alreadyHeld, held)
      else
        let toRevision := nextRevision fromRevision
        (.ok (.patch subscriptionId fromRevision toRevision patch
            (heldToken toValue (some delivered))),
          held.modify subscriptionId fun subscription =>
            { subscription with
              revision := toRevision
              delivered := some delivered })

end ProjectionSubscriptions

/-! ## What each operation leaves -/

namespace ProjectionSubscriptions

variable {Delivery Snapshot Patch : Type}

@[simp]
theorem get_new (principal : Principal) (id : Nat) :
    (new principal : ProjectionSubscriptions Delivery).get id = none := by
  simp [new, get]

theorem get_modify (held : ProjectionSubscriptions Delivery) (changed id : Nat)
    (change : ProjectionSubscription Delivery →
      ProjectionSubscription Delivery) :
    (held.modify changed change).get id
      = if changed = id then (held.get id).map change else held.get id := by
  simp only [modify, get, Std.ExtTreeMap.getElem?_modify]
  by_cases same : changed = id
  · subst same
    simp
  · simp [same]

@[simp]
theorem get_recordDelivery (held : ProjectionSubscriptions Delivery)
    (recorded revision id : Nat) (delivered : Option Delivery) :
    (held.recordDelivery recorded revision delivered).get id
      = if recorded = id then
          (held.get id).map fun subscription =>
            { subscription with revision := revision, delivered := delivered }
        else held.get id :=
  get_modify held recorded id _

@[simp]
theorem get_insert (held : ProjectionSubscriptions Delivery)
    (projection : String) (params : Json) (revision through id : Nat) :
    (held.insert projection params revision through).2.get id
      = if held.nextSubscriptionId = id then
          some
            { projection := projection, params := params, revision := revision,
              delivered := none, through := through }
        else held.get id := by
  simp only [insert, get, Std.ExtTreeMap.getElem?_insert]
  by_cases same : held.nextSubscriptionId = id <;> simp [same]

@[simp]
theorem get_remove (held : ProjectionSubscriptions Delivery)
    (removed id : Nat) :
    (held.remove removed).2.get id
      = if removed = id then none else held.get id := by
  simp only [remove, get, Std.ExtTreeMap.getElem?_erase]
  by_cases same : removed = id <;> simp [same]

theorem le_foldl_max (values : List Nat) (start : Nat) :
    start ≤ values.foldl max start
      ∧ ∀ value ∈ values, value ≤ values.foldl max start := by
  induction values generalizing start with
  | nil => simp
  | cons first rest inductionHypothesis =>
      have further := inductionHypothesis (max start first)
      constructor
      · exact le_trans (le_max_left start first) further.1
      · intro value member
        rcases List.mem_cons.mp member with rfl | later
        · exact le_trans (le_max_right start value) further.1
        · exact further.2 value later

/-- No subscription's revision is past the current one. -/
theorem revision_le_currentRevision
    {held : ProjectionSubscriptions Delivery} {id : Nat}
    {subscription : ProjectionSubscription Delivery}
    (there : held.get id = some subscription) :
    subscription.revision ≤ held.currentRevision := by
  apply (le_foldl_max _ 0).2
  apply List.mem_map.mpr
  exact ⟨(id, subscription),
    Std.ExtTreeMap.mem_toList_iff_getElem?_eq_some.mpr there, rfl⟩

end ProjectionSubscriptions

end Clerkenwell.Session
