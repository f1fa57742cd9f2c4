import Clerkenwell.Foundation.Machine
import Clerkenwell.Session.Subscriptions
import Mathlib.Data.List.Chain

/-!
# The chain of a subscription's updates

A connection runs any operations on any of its subscriptions.  The updates of
each subscription form a chain: a patch starts at the revision the update
before it reached, and a snapshot is at the revision after it.  A recorded
delivery is an update some other way, so it is a link of the chain too.
-/

namespace Clerkenwell.Session

open Clerkenwell.Foundation
open Clerkenwell.Doc

variable {Delivery Snapshot Patch : Type}

/-! ## Updates -/

/-- What takes a subscription's client to a revision. -/
inductive Update (Snapshot Patch : Type) where
  /-- An acceptance whose client already held what it would be sent. -/
  | upToDate (subscriptionId revision : Nat)
  | sent (event : ProjectionTransportEvent Snapshot Patch)
  | recorded (subscriptionId revision : Nat)

namespace Update

def subscriptionId : Update Snapshot Patch → Nat
  | .upToDate id _ => id
  | .sent event => event.subscriptionId
  | .recorded id _ => id

/-- The revision an update takes its client to. -/
def reaches : Update Snapshot Patch → Nat
  | .upToDate _ revision => revision
  | .sent event => event.revision
  | .recorded _ revision => revision

/-- An update takes its client further from a revision. -/
def From (revision : Nat) (update : Update Snapshot Patch) : Prop :=
  revision < update.reaches
    ∧ match update with
      | .upToDate _ _ => False
      | .sent (.patch _ fromRevision _ _ _) => fromRevision = revision
      | .sent (.snapshot _ reached _ _) => reached = revision + 1
      | .recorded _ _ => True

/-- An update is the next of a subscription after another. -/
def Follows (earlier later : Update Snapshot Patch) : Prop :=
  later.From earlier.reaches

end Update

/-! ## Operations -/

/-- One operation on the subscriptions of a connection. -/
inductive SubscriptionOperation (Delivery Snapshot Patch : Type) where
  | accept (projection : String) (params : Json)
      (clientHeld : Option Delivery) (snapshot : NumberedSnapshot Snapshot)
      (delivered : Option Delivery)
  | deliverPatch (subscriptionId toRevision : Nat) (patch : Patch)
      (delivered : Option Delivery)
  | deliverFollowing (subscriptionId fromRevision : Nat) (patch : Patch)
      (delivered : Delivery)
  | resync (subscriptionId : Nat) (snapshot : NumberedSnapshot Snapshot)
      (delivered : Option Delivery)
  | recordDelivery (subscriptionId revision : Nat)
      (delivered : Option Delivery)
  | remove (subscriptionId : Nat)
  | changeRevision (publishes : Bool)

/-- A connection's subscriptions and every update made so far. -/
structure Served (Delivery Snapshot Patch : Type) where
  held : ProjectionSubscriptions Delivery
  updates : List (Update Snapshot Patch)

namespace Served

/-- A connection that served nothing yet. -/
def new (principal : Principal) : Served Delivery Snapshot Patch where
  held := .new principal
  updates := []

variable [DecidableEq Delivery]

/-- The updates an operation makes and the subscriptions it leaves. -/
def perform (toValue : Delivery → Option Json)
    (held : ProjectionSubscriptions Delivery) :
    SubscriptionOperation Delivery Snapshot Patch →
      List (Update Snapshot Patch) × ProjectionSubscriptions Delivery
  | .accept projection params clientHeld snapshot delivered =>
      let ((accepted, events), after) :=
        held.acceptSubscription toValue projection params clientHeld snapshot
          delivered
      (if accepted.upToDate then
          [.upToDate accepted.subscriptionId accepted.revision]
        else events.map Update.sent,
        after)
  | .deliverPatch id toRevision patch delivered =>
      let (event, after) :=
        held.deliverPatch toValue id toRevision patch delivered
      (event.toList.map Update.sent, after)
  | .deliverFollowing id fromRevision patch delivered =>
      let (event, after) :=
        held.deliverFollowing toValue id fromRevision patch delivered
      (event.toOption.toList.map Update.sent, after)
  | .resync id snapshot delivered =>
      let (resynced, after) := held.resync toValue id snapshot delivered
      (resynced.toList.map fun resynced => Update.sent resynced.2, after)
  | .recordDelivery id revision delivered =>
      ((held.get id).toList.map fun _ => .recorded id revision,
        held.recordDelivery id revision delivered)
  | .remove id => ([], (held.remove id).2)
  | .changeRevision _ => ([], held)

/-- The connection after one more operation. -/
def next (toValue : Delivery → Option Json)
    (served : Served Delivery Snapshot Patch)
    (operation : SubscriptionOperation Delivery Snapshot Patch) :
    Served Delivery Snapshot Patch :=
  let (updates, after) := perform toValue served.held operation
  { held := after, updates := served.updates ++ updates }

omit [DecidableEq Delivery] in
/-- The updates of one subscription. -/
def updatesOf (served : Served Delivery Snapshot Patch) (id : Nat) :
    List (Update Snapshot Patch) :=
  served.updates.filter fun update => update.subscriptionId == id

end Served

/--
An operation moves its subscription forward: a delivery is recorded past the
revision held, and none is sent from the last revision there is.
-/
def Advances (served : Served Delivery Snapshot Patch) :
    SubscriptionOperation Delivery Snapshot Patch → Prop
  | .recordDelivery id revision _ =>
      ∀ subscription, served.held.get id = some subscription →
        subscription.revision < revision
  | .deliverPatch id _ _ _ | .deliverFollowing id _ _ _ | .resync id _ _ =>
      ∀ subscription, served.held.get id = some subscription →
        subscription.revision < lastRevision
  | .accept _ _ _ _ _ | .remove _ | .changeRevision _ => True

/-- What an operation does to a connection's subscriptions. -/
inductive Performed (held : ProjectionSubscriptions Delivery) :
    List (Update Snapshot Patch) → ProjectionSubscriptions Delivery → Prop
  | nothing {after : ProjectionSubscriptions Delivery}
      (kept : ∀ id subscription, after.get id = some subscription →
        held.get id = some subscription)
      (next : after.nextSubscriptionId = held.nextSubscriptionId) :
      Performed held [] after
  | accepted {after : ProjectionSubscriptions Delivery}
      {update : Update Snapshot Patch}
      (new : update.subscriptionId = held.nextSubscriptionId)
      (there : ∀ id subscription, after.get id = some subscription →
        if held.nextSubscriptionId = id then
          subscription.revision = update.reaches
        else held.get id = some subscription)
      (next : after.nextSubscriptionId = held.nextSubscriptionId + 1) :
      Performed held [update] after
  | moved {after : ProjectionSubscriptions Delivery}
      {update : Update Snapshot Patch}
      {moving : ProjectionSubscription Delivery}
      (held_at : held.get update.subscriptionId = some moving)
      (further : update.From moving.revision)
      (there : ∀ id subscription, after.get id = some subscription →
        if update.subscriptionId = id then
          subscription.revision = update.reaches
        else held.get id = some subscription)
      (next : after.nextSubscriptionId = held.nextSubscriptionId) :
      Performed held [update] after

section Performing

variable [DecidableEq Delivery] {toValue : Delivery → Option Json}
variable {served : Served Delivery Snapshot Patch}

open ProjectionSubscriptions

omit [DecidableEq Delivery] in
/-- A subscription moved to a revision is at it, and no other moved. -/
theorem get_moved {held : ProjectionSubscriptions Delivery} {moving id : Nat}
    {change : ProjectionSubscription Delivery →
      ProjectionSubscription Delivery}
    {revision : Nat} {subscription : ProjectionSubscription Delivery}
    (moves : ∀ earlier, (change earlier).revision = revision)
    (there : (held.modify moving change).get id = some subscription) :
    if moving = id then subscription.revision = revision
    else held.get id = some subscription := by
  rw [get_modify] at there
  split
  · rename_i same
    rw [if_pos same] at there
    rcases Option.map_eq_some_iff.mp there with ⟨earlier, -, rfl⟩
    exact moves earlier
  · rename_i other
    rwa [if_neg other] at there

omit [DecidableEq Delivery] in
theorem get_recorded {held : ProjectionSubscriptions Delivery}
    {recorded revision id : Nat} {delivered : Option Delivery}
    {subscription : ProjectionSubscription Delivery}
    (there : (held.recordDelivery recorded revision delivered).get id
      = some subscription) :
    if recorded = id then subscription.revision = revision
    else held.get id = some subscription :=
  get_moved (fun _ => rfl) there

/-- What each operation does, as long as it moves its subscription forward. -/
theorem performed
    (operation : SubscriptionOperation Delivery Snapshot Patch)
    (advances : Advances served operation) :
    Performed served.held (Served.perform toValue served.held operation).1
      (Served.perform toValue served.held operation).2 := by
  cases operation with
  | accept projection params clientHeld snapshot delivered =>
      have there : ∀ revision id subscription,
          (((served.held.insert projection params revision
              snapshot.through).2.recordDelivery
            served.held.nextSubscriptionId revision delivered).get id
              = some subscription) →
          if served.held.nextSubscriptionId = id then
            subscription.revision = revision
          else served.held.get id = some subscription := by
        intro revision id subscription held
        have moved := get_recorded held
        split at moved
        · rename_i same
          rwa [if_pos same]
        · rename_i other
          rw [if_neg other]
          rwa [get_insert, if_neg other] at moved
      simp only [Served.perform, acceptSubscription]
      split
      · exact .accepted rfl (there _) rfl
      · rename_i differs
        simp only [Bool.false_eq_true, if_false, List.map_cons, List.map_nil]
        exact .accepted rfl (there _) rfl
  | deliverPatch id toRevision patch delivered =>
      simp only [Served.perform, deliverPatch]
      cases present : served.held.get id with
      | none => exact .nothing (fun _ _ there => there) rfl
      | some subscription =>
          have room := advances subscription present
          have further : subscription.revision
              < max toRevision (nextRevision subscription.revision) := by
            rw [nextRevision_eq room]
            omega
          exact .moved present ⟨further, rfl⟩
            (fun _ _ there => get_moved (fun _ => rfl) there) rfl
  | deliverFollowing id fromRevision patch delivered =>
      simp only [Served.perform, deliverFollowing]
      cases present : served.held.get id with
      | none => exact .nothing (fun _ _ there => there) rfl
      | some subscription =>
          have room := advances subscription present
          dsimp only
          split
          · exact .nothing (fun _ _ there => there) rfl
          · rename_i follows
            rw [not_not] at follows
            subst follows
            split
            · exact .nothing (fun _ _ there => there) rfl
            · have further : subscription.revision
                  < nextRevision subscription.revision := by
                rw [nextRevision_eq room]
                omega
              exact .moved present ⟨further, rfl⟩
                (fun _ _ there => get_moved (fun _ => rfl) there) rfl
  | resync id snapshot delivered =>
      simp only [Served.perform, resync]
      cases present : served.held.get id with
      | none => exact .nothing (fun _ _ there => there) rfl
      | some subscription =>
          have reached := nextRevision_eq (advances subscription present)
          refine .moved present ⟨?_, reached⟩ ?_ rfl
          · show subscription.revision < nextRevision subscription.revision
            omega
          · intro other held there
            have moved := get_recorded there
            split at moved
            · rename_i same
              show if id = other then _ else _
              rwa [if_pos same]
            · rename_i differs
              show if id = other then _ else _
              rw [if_neg differs]
              rwa [get_modify, if_neg differs] at moved
  | recordDelivery id revision delivered =>
      simp only [Served.perform]
      cases present : served.held.get id with
      | none =>
          refine .nothing ?_ rfl
          intro other subscription there
          rw [get_recordDelivery] at there
          split at there
          · rename_i same
            subst same
            rw [present] at there
            cases there
          · exact there
      | some subscription =>
          exact .moved present ⟨advances subscription present, trivial⟩
            (fun _ _ there => get_moved (fun _ => rfl) there) rfl
  | remove id =>
      refine .nothing ?_ rfl
      intro other subscription there
      have kept : (served.held.remove id).2.get other = some subscription :=
        there
      rw [get_remove] at kept
      split at kept
      · cases kept
      · exact kept
  | changeRevision publishes =>
      exact .nothing (fun _ _ there => there) rfl

end Performing

/-! ## The chain -/

/-- The revision the last of a subscription's updates reached. -/
def lastReached (updates : List (Update Snapshot Patch)) : Option Nat :=
  updates.getLast?.map Update.reaches

/--
Every subscription's updates form a chain, the last of which reached the
revision it is held at.
-/
structure Chained (served : Served Delivery Snapshot Patch) : Prop where
  chain : ∀ id, (served.updatesOf id).IsChain Update.Follows
  reached : ∀ id subscription, served.held.get id = some subscription →
    lastReached (served.updatesOf id) = some subscription.revision
  fresh : ∀ id, served.held.nextSubscriptionId ≤ id →
    served.updatesOf id = []

theorem chained_new (principal : Principal) :
    Chained (.new principal : Served Delivery Snapshot Patch) where
  chain := fun _ => .nil
  reached := by
    intro id subscription there
    cases (ProjectionSubscriptions.get_new principal id).symm.trans there
  fresh := fun _ _ => rfl

theorem updatesOf_append (held : ProjectionSubscriptions Delivery)
    (updates : List (Update Snapshot Patch)) (update : Update Snapshot Patch)
    (id : Nat) :
    Served.updatesOf { held := held, updates := updates ++ [update] } id
      = updates.filter (fun other => other.subscriptionId == id)
        ++ if update.subscriptionId = id then [update] else [] := by
  simp [Served.updatesOf, List.filter_append, List.filter_cons]

/-- A link added to a subscription's chain, or none to another's. -/
theorem chain_append {updates : List (Update Snapshot Patch)}
    {update : Update Snapshot Patch}
    (chain : updates.IsChain Update.Follows)
    (further : ∀ revision, lastReached updates = some revision →
      update.From revision) :
    (updates ++ [update]).IsChain Update.Follows := by
  apply chain.append (.singleton update)
  intro last ending first starting
  rw [Option.mem_def, List.head?_cons, Option.some.injEq] at starting
  subst starting
  apply further
  rw [lastReached, Option.mem_def.mp ending]
  rfl

section Running

variable [DecidableEq Delivery] {toValue : Delivery → Option Json}
variable {served : Served Delivery Snapshot Patch}

/-- An operation that moves its subscription forward keeps every chain. -/
theorem Chained.next {operation : SubscriptionOperation Delivery Snapshot Patch}
    (chained : Chained served) (advances : Advances served operation) :
    Chained (Served.next toValue served operation) := by
  have does := @performed _ _ _ _ toValue served operation advances
  unfold Served.next
  revert does
  generalize Served.perform toValue served.held operation = result
  rcases result with ⟨updates, after⟩
  intro does
  cases does with
  | nothing kept next =>
      simp only [List.append_nil]
      constructor
      · exact chained.chain
      · exact fun id subscription there =>
          chained.reached id subscription (kept id subscription there)
      · intro id past
        rw [next] at past
        exact chained.fresh id past
  | @accepted _ update new there next =>
      constructor
      · intro id
        rw [updatesOf_append]
        split
        · rename_i same
          have none_before := chained.fresh id (by omega)
          rw [Served.updatesOf] at none_before
          rw [none_before]
          exact .singleton update
        · rw [List.append_nil]
          exact chained.chain id
      · intro id subscription present
        have revision := there id subscription present
        rw [updatesOf_append, new]
        split
        · rename_i same
          rw [if_pos same] at revision
          rw [lastReached, List.getLast?_concat, revision]
          rfl
        · rename_i other
          rw [if_neg other] at revision
          rw [List.append_nil]
          exact chained.reached id subscription revision
      · intro id past
        have past_next : served.held.nextSubscriptionId + 1 ≤ id := next ▸ past
        have before := chained.fresh id (by omega)
        rw [updatesOf_append, if_neg (by omega), List.append_nil]
        exact before
  | @moved _ update moving held_at further there next =>
      have reached := chained.reached update.subscriptionId moving held_at
      constructor
      · intro id
        rw [updatesOf_append]
        split
        · rename_i same
          subst same
          apply chain_append (chained.chain update.subscriptionId)
          intro revision last
          have at_revision : moving.revision = revision :=
            Option.some.inj (reached.symm.trans last)
          rwa [← at_revision]
        · rw [List.append_nil]
          exact chained.chain id
      · intro id subscription present
        have revision := there id subscription present
        rw [updatesOf_append]
        split
        · rename_i same
          rw [if_pos same] at revision
          rw [lastReached, List.getLast?_concat, revision]
          rfl
        · rename_i other
          rw [if_neg other] at revision
          rw [List.append_nil]
          exact chained.reached id subscription revision
      · intro id past
        have past_held : served.held.nextSubscriptionId ≤ id := next ▸ past
        have before := chained.fresh id past_held
        have other : update.subscriptionId ≠ id := by
          intro same
          subst same
          rw [before] at reached
          cases reached
        rw [updatesOf_append, if_neg other, List.append_nil]
        exact before

/-- Every run of operations that move forward keeps every chain. -/
theorem chained_run (principal : Principal)
    {operations : List (SubscriptionOperation Delivery Snapshot Patch)}
    (advancing : Machine.EveryStep (Served.next toValue) Advances
      (.new principal) operations) :
    Machine.Throughout (Served.next toValue) Chained (.new principal)
      operations :=
  Machine.throughout_of_everyStep
    (fun _ _ chained advances => chained.next advances)
    (chained_new principal) advancing

end Running

end Clerkenwell.Session
