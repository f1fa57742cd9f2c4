import Clerkenwell.Session.RevisionChain

/-!
# A connection and its host's modifications

A host numbers each modification it saves, and a snapshot names the last one it
holds.  A connection is brought each modification by its own request, or by the
queue of what the server publishes.  It sends the modification's patch to every
subscription it affects, and it resynchronises them all when it fell behind its
queue.

What the session awaits between two transitions is open to any other step, so
every call on the connection is a record of how far it has come.
-/

namespace Clerkenwell.Session

open Clerkenwell.Foundation
open Clerkenwell.Doc

/-! ## What a change affects -/

structure ProjectionSpec where
  name : String
  dependsOn : List String
deriving DecidableEq, Repr

/-- A mutation or a command, and the entities it may change. -/
structure ChangeSpec where
  name : String
  touches : List String
deriving DecidableEq, Repr

/-- What an application serves, and the planning mutations of each entity. -/
structure ProjectionRegistry where
  projections : List ProjectionSpec
  mutations : List ChangeSpec
  commands : List ChangeSpec
  planningMutations : List (List String)

namespace ProjectionRegistry

variable (registry : ProjectionRegistry)

def command (name : String) : Option ChangeSpec :=
  registry.commands.find? fun command => command.name == name

/-- Whether a mutation only plans a change. -/
def plansOnly (mutation : String) : Bool :=
  registry.planningMutations.any fun planning => planning.contains mutation

/-- Whether a projection reads one of the entities. -/
def entitiesAffectProjection (touches : List String) (projection : String) :
    Bool :=
  (registry.projections.find? fun spec => spec.name == projection).any
    fun spec => spec.dependsOn.any fun entity => touches.contains entity

def mutationAffectsProjection (mutation projection : String) : Bool :=
  match registry.mutations.find? fun spec => spec.name == mutation with
  | none => false
  | some spec => registry.entitiesAffectProjection spec.touches projection

def commandAffectsProjection (command projection : String) : Bool :=
  match registry.command command with
  | none => false
  | some spec => registry.entitiesAffectProjection spec.touches projection

end ProjectionRegistry

/-- What a delivery brings: a mutation's change, a command's, or one announced. -/
inductive Change where
  | mutation (name : String)
  | command (name : String)
  | announced (touches : List String)
deriving DecidableEq, Repr

/-- A saved change and its number. -/
structure Modification where
  number : Nat
  change : Change
deriving DecidableEq, Repr

/-- The part of a host that says whom a change concerns. -/
structure ServedHost where
  registry : ProjectionRegistry
  /-- `is_authoring`: the projections that are authoring states. -/
  isAuthoring : String → Bool

namespace ServedHost

variable (host : ServedHost)

/-- Whether a numbered change is published to subscriptions at all. -/
def publishes : Change → Bool
  | .mutation name => !host.registry.plansOnly name
  | .command name =>
      (host.registry.command name).any fun spec => !spec.touches.isEmpty
  | .announced touches => !touches.isEmpty

def affects (change : Change) (projection : String) : Bool :=
  match change with
  | .mutation name => host.registry.mutationAffectsProjection name projection
  | .command name => host.registry.commandAffectsProjection name projection
  | .announced touches =>
      host.registry.entitiesAffectProjection touches projection

/-- A modification is one that a subscription's snapshot does not hold. -/
def concerns (modification : Modification) (projection : String)
    (through : Nat) : Bool :=
  host.affects modification.change projection
    && !host.isAuthoring projection && decide (through < modification.number)

variable {Delivery : Type}

/-- The subscriptions `deliver` asks the host for a patch to, in order. -/
def affected (modification : Modification)
    (held : ProjectionSubscriptions Delivery) :
    List (Nat × ProjectionSubscription Delivery) :=
  if host.publishes modification.change then
    held.subscriptions.toList.filter fun entry =>
      host.concerns modification entry.2.projection entry.2.through
  else []

end ServedHost

/-! ## Calls on a connection -/

section Calls

variable (Delivery Snapshot Patch : Type)

/-- How far a call of `deliver` has come. -/
inductive DeliveryStage where
  | begun
  | numbered (revision : Nat)
  | sending (revision : Nat)
      (remaining : List (Nat × ProjectionSubscription Delivery))

/-- A call of `deliver` with one modification. -/
structure Delivering where
  modification : Modification
  stage : DeliveryStage Delivery

/-- A request that is answered with a snapshot. -/
inductive SnapshotRequest where
  | subscribe (projection : String) (params : Json)
      (clientHeld : Option Delivery)
  | resync (subscriptionId : Nat)

/-- A request whose snapshot is read and not yet installed. -/
structure Installing where
  request : SnapshotRequest Delivery
  snapshot : NumberedSnapshot Snapshot
  delivered : Option Delivery

/-- A call of `resync_all`, and the snapshot it read for its next subscription. -/
structure ResyncingAll where
  remaining : List Nat
  read : Option (NumberedSnapshot Snapshot × Option Delivery)

/-- What was done for a subscription, in order. -/
inductive Trail where
  /-- An acceptance or a snapshot, which holds what `through` numbers. -/
  | shown (through : Nat) (update : Update Snapshot Patch)
  /-- A modification's patch, `none` when the host has none for it. -/
  | answered (subscriptionId number : Nat)
      (update : Option (Update Snapshot Patch))
  /-- An update that could not be encoded. -/
  | unsent (update : Update Snapshot Patch)
  /-- A modification that was among those the connection fell behind. -/
  | lost (subscriptionId number : Nat)

/-- One connection, the host's counter, and every call in progress. -/
structure Connection where
  /-- The number of the last modification saved. -/
  last : Nat
  modifications : List Modification
  /-- The modifications saved by calls that have not published them yet. -/
  unpublished : List Modification
  /-- The publications the connection has not taken yet. -/
  queue : List Modification
  deliveries : List (Delivering Delivery)
  installs : List (Installing Delivery Snapshot)
  resyncs : List (ResyncingAll Delivery Snapshot)
  held : ProjectionSubscriptions Delivery
  trail : List (Trail Snapshot Patch)

/-- What can happen next on a connection or at its host. -/
inductive ConnectionStep where
  /-- The host saves a change. -/
  | save (change : Change)
  /-- A saved change is published for the connection to take. -/
  | publish (index : Nat)
  /-- A request of the connection delivers the change it saved itself. -/
  | publishOwn (index : Nat)
  /-- A mutation's result cannot be encoded, so its request ends with a refusal. -/
  | refuse (index : Nat)
  /-- The connection takes its next publication. -/
  | take
  | number (index : Nat)
  | collect (index : Nat)
  /--
  The host answers with the patch for a delivery's next subscription, what the
  patch leaves its client holding, and whether the update can be encoded.
  -/
  | patch (index : Nat) (answer : Option (Patch × Option Delivery × Bool))
  /-- A command's reply cannot be encoded, so its updates are not returned. -/
  | refuseReply (index : Nat)
  | read (request : SnapshotRequest Delivery) (snapshot : Snapshot)
      (delivered : Option Delivery)
  /-- What a request read is installed, and its update encoded if it can be. -/
  | install (index : Nat) (encodes : Bool)
  | unsubscribe (subscriptionId : Nat)
  /-- The connection fell behind and skips every publication it has not taken. -/
  | lag
  /-- `resync_all` reads its next snapshot, or cannot. -/
  | readLagged (index : Nat) (answer : Option (Snapshot × Option Delivery))
  | installLagged (index : Nat) (encodes : Bool)

end Calls

namespace Connection

variable {Delivery Snapshot Patch : Type}

/-- A connection at the start of its host. -/
def new (principal : Principal) : Connection Delivery Snapshot Patch where
  last := 0
  modifications := []
  unpublished := []
  queue := []
  deliveries := []
  installs := []
  resyncs := []
  held := .new principal
  trail := []

/-- The modifications a lag loses a subscription. -/
def lostTo (host : ServedHost) (queue : List Modification)
    (entry : Nat × ProjectionSubscription Delivery) :
    List (Trail Snapshot Patch) :=
  (queue.filter fun modification =>
      host.publishes modification.change
        && host.concerns modification entry.2.projection entry.2.through).map
    fun modification => .lost entry.1 modification.number

/-- An update whose frame was not returned to anyone. -/
def withheld (number : Nat) : Trail Snapshot Patch → Trail Snapshot Patch
  | .answered id answered (some update) =>
      if answered = number then .unsent update
      else .answered id answered (some update)
  | entry => entry

variable [DecidableEq Delivery]

/-- The trail of an update that may not be encoded. -/
def answer (id number : Nat) (encodes : Bool)
    (update : Update Snapshot Patch) : Trail Snapshot Patch :=
  if encodes then .answered id number (some update) else .unsent update

/-- The trail of what shows a subscription a snapshot. -/
def showing (through : Nat) (encodes : Bool) :
    Update Snapshot Patch → Trail Snapshot Patch
  | .sent event =>
      if encodes then .shown through (.sent event) else .unsent (.sent event)
  | update => .shown through update

omit [DecidableEq Delivery] in
@[simp]
theorem showing_true (through : Nat) (update : Update Snapshot Patch) :
    showing through true update = .shown through update := by
  cases update <;> rfl

/-- The connection after an operation on its subscriptions. -/
def operate (toValue : Delivery → Option Json)
    (connection : Connection Delivery Snapshot Patch)
    (operation : SubscriptionOperation Delivery Snapshot Patch)
    (entry : Update Snapshot Patch → Trail Snapshot Patch) :
    Connection Delivery Snapshot Patch :=
  let (updates, after) := Served.perform toValue connection.held operation
  { connection with
    held := after
    trail := connection.trail ++ updates.map entry }

/-- `accept_subscription` or `resync` with the snapshot a request read. -/
def installOperation (installing : Installing Delivery Snapshot) :
    SubscriptionOperation Delivery Snapshot Patch :=
  match installing.request with
  | .subscribe projection params clientHeld =>
      .accept projection params clientHeld installing.snapshot
        installing.delivered
  | .resync id => .resync id installing.snapshot installing.delivered

/-- The connection after one more step; one that cannot happen changes nothing. -/
def next (host : ServedHost) (toValue : Delivery → Option Json)
    (connection : Connection Delivery Snapshot Patch) :
    ConnectionStep Delivery Snapshot Patch →
      Connection Delivery Snapshot Patch
  | .save change =>
      let modification : Modification :=
        { number := connection.last + 1, change := change }
      { connection with
        last := connection.last + 1
        modifications := connection.modifications ++ [modification]
        unpublished := connection.unpublished ++ [modification] }
  | .publish index =>
      match connection.unpublished[index]? with
      | none => connection
      | some modification =>
          { connection with
            unpublished := connection.unpublished.eraseIdx index
            queue := connection.queue ++ [modification] }
  | .publishOwn index =>
      match connection.unpublished[index]? with
      | none => connection
      | some modification =>
          { connection with
            unpublished := connection.unpublished.eraseIdx index
            deliveries := connection.deliveries ++ [⟨modification, .begun⟩] }
  | .refuse index =>
      match connection.unpublished[index]? with
      | some { number := _, change := .mutation _ } =>
          { connection with
            unpublished := connection.unpublished.eraseIdx index }
      | _ => connection
  | .take =>
      match connection.queue with
      | [] => connection
      | modification :: rest =>
          { connection with
            queue := rest
            deliveries := connection.deliveries ++ [⟨modification, .begun⟩] }
  | .number index =>
      match connection.deliveries[index]? with
      | some ⟨modification, .begun⟩ =>
          let revision :=
            connection.held.changeRevision
              (host.publishes modification.change)
          { connection with
            deliveries :=
              connection.deliveries.set index
                ⟨modification, .numbered revision⟩ }
      | _ => connection
  | .collect index =>
      match connection.deliveries[index]? with
      | some ⟨modification, .numbered revision⟩ =>
          { connection with
            deliveries :=
              connection.deliveries.set index
                ⟨modification,
                  .sending revision
                    (host.affected modification connection.held)⟩ }
      | _ => connection
  | .patch index answered =>
      match connection.deliveries[index]? with
      | some ⟨modification, .sending revision ((id, _) :: rest)⟩ =>
          let further : Connection Delivery Snapshot Patch :=
            { connection with
              deliveries :=
                connection.deliveries.set index
                  ⟨modification, .sending revision rest⟩ }
          match answered with
          | none =>
              { further with
                trail :=
                  connection.trail ++ [.answered id modification.number none] }
          | some (patch, delivered, encodes) =>
              further.operate toValue (.deliverPatch id revision patch delivered)
                (answer id modification.number encodes)
      | _ => connection
  | .refuseReply index =>
      match connection.deliveries[index]? with
      | some ⟨{ number := number, change := .command _ }, .sending _ []⟩ =>
          { connection with
            trail := connection.trail.map (withheld number) }
      | _ => connection
  | .read request snapshot delivered =>
      { connection with
        installs := connection.installs ++
          [{ request := request
             snapshot := { snapshot := snapshot, through := connection.last }
             delivered := delivered }] }
  | .install index encodes =>
      match connection.installs[index]? with
      | none => connection
      | some installing =>
          let further : Connection Delivery Snapshot Patch :=
            { connection with
              installs := connection.installs.eraseIdx index }
          further.operate toValue (installOperation installing)
            (showing installing.snapshot.through encodes)
  | .unsubscribe id =>
      connection.operate toValue (.remove id) .unsent
  | .lag =>
      { connection with
        queue := []
        resyncs := connection.resyncs ++
          [{ remaining := connection.held.subscriptions.toList.map Prod.fst
             read := none }]
        trail := connection.trail ++
          connection.held.subscriptions.toList.flatMap
            (lostTo host connection.queue) }
  | .readLagged index answered =>
      match connection.resyncs[index]?, answered with
      | some { remaining := _ :: rest, read := none }, none =>
          { connection with
            resyncs :=
              connection.resyncs.set index { remaining := rest, read := none } }
      | some { remaining := id :: rest, read := none },
          some (snapshot, delivered) =>
          { connection with
            resyncs :=
              connection.resyncs.set index
                { remaining := id :: rest
                  read := some
                    ({ snapshot := snapshot, through := connection.last },
                      delivered) } }
      | _, _ => connection
  | .installLagged index encodes =>
      match connection.resyncs[index]? with
      | some { remaining := id :: rest, read := some (snapshot, delivered) } =>
          let further : Connection Delivery Snapshot Patch :=
            { connection with
              resyncs :=
                connection.resyncs.set index
                  { remaining := rest, read := none } }
          further.operate toValue (.resync id snapshot delivered)
            (showing snapshot.through encodes)
      | _ => connection

end Connection

end Clerkenwell.Session
