import Clerkenwell.Foundation.Machine
import Clerkenwell.Session.Materialize

/-!
# A watch of a projection

A watch keeps one materialised projection through the losses of its
connection.  Everything it does is done by a callback: a change of the
connection, an event, a request's answer, a timer or its caller.  The callbacks
come in any order, and each is one step here.

A request that is awaited is an attempt to subscribe, and its continuation is a
step of its own.  The steps also count the connections and record what the
watch applied, which no step of the watch reads.
-/

namespace Clerkenwell.Client

open Clerkenwell.Foundation
open Clerkenwell.Doc (Json)
open Clerkenwell.Session

/-! ## What a watch holds -/

/-- What an update said its client holds, with the value it left. -/
structure HeldValue (Snapshot : Type) where
  token : Json
  snapshot : Snapshot
deriving DecidableEq

/-- Whether the first snapshot came. -/
inductive First where
  | pending
  | resolved
  | rejected
deriving DecidableEq, Repr

/-- A promise once it is resolved: one already settled stays as it is. -/
def First.resolve : First → First
  | .pending => .resolved
  | settled => settled

def First.reject : First → First
  | .pending => .rejected
  | settled => settled

/-- How far an attempt to subscribe is. -/
inductive Phase (Snapshot : Type) where
  | scheduled
  /-- Its request is sent, on a connection. -/
  | sent (connection : Nat) (resumeFrom : Option (HeldValue Snapshot))
  /-- Its request is accepted, and its continuation waits to run. -/
  | answered (connection : Nat) (resumeFrom : Option (HeldValue Snapshot))
      (accepted : ProjectionSubscribeAccepted)
  | finished (refused : Bool)
  | settled
deriving DecidableEq

/-- An attempt to subscribe, and the generation it was made in. -/
structure Attempt (Snapshot : Type) where
  generation : Nat
  phase : Phase Snapshot
deriving DecidableEq

/--
An event as it arrives, the connection it was sent on, and whether the caller's
handler returns from it.
-/
structure Arrival (Snapshot Patch : Type) where
  event : ClientEvent Snapshot Patch
  sentOn : Nat
  returns : Bool

/-- An event a watch applied, and the value it reported. -/
structure AppliedEvent (Snapshot Patch : Type) where
  event : ClientEvent Snapshot Patch
  sentOn : Nat
  /-- The connection its subscription was requested on. -/
  acceptedOn : Nat
  snapshot : Snapshot

structure Watch (Snapshot Patch : Type) where
  disposed : Bool
  generation : Nat
  subscriptionId : Option Nat
  connecting : Option Nat
  resyncing : Bool
  earlyEvents : List (Arrival Snapshot Patch)
  state : Std.ExtTreeMap Nat (MaterializedProjection Snapshot)
  held : Option (HeldValue Snapshot)
  firstSnapshot : First
  attempts : List (Attempt Snapshot)
  connection : Nat
  acceptedOn : Nat
  applied : List (AppliedEvent Snapshot Patch)

/-- A watch of a projection, and how its patches are composed. -/
structure Watched (Snapshot Patch Plan : Type) where
  projection : String
  composition : Composition Snapshot Patch Plan

/-- One callback. -/
inductive WatchStep (Snapshot Patch : Type) where
  /-- The transport reports its state. -/
  | connection (status : String)
  | event (arrival : Arrival Snapshot Patch)
  /-- The caller subscribes, at the start or to resynchronise. -/
  | connect
  /-- An attempt sends its request. -/
  | send (attempt : Nat)
  | accept (attempt : Nat) (accepted : ProjectionSubscribeAccepted)
  /-- An attempt's request fails, refused by the server or lost. -/
  | fail (attempt : Nat) (refused : Bool)
  /-- An accepted attempt goes on. -/
  | proceed (attempt : Nat)
  /-- A finished attempt's handlers run. -/
  | settle (attempt : Nat)
  /-- A resynchronisation the watch asked for ends. -/
  | resynced
  | timeout
  /-- The caller is told that the first snapshot did not come. -/
  | abandon
  | abort
  | unsubscribe

namespace Watch

variable {Snapshot Patch Plan : Type}

def start : Watch Snapshot Patch where
  disposed := false
  generation := 0
  subscriptionId := none
  connecting := none
  resyncing := false
  earlyEvents := []
  state := ∅
  held := none
  firstSnapshot := .pending
  attempts := []
  connection := 0
  acceptedOn := 0
  applied := []

/-! ## Events -/

/-- What an update says its client holds. -/
def tokenOf : ClientEvent Snapshot Patch → Option Json
  | .snapshot _ _ _ held => held
  | .patch _ _ _ _ held => held

def projectionOf : ClientEvent Snapshot Patch → String
  | .snapshot _ _ snapshot _ => snapshot.projection
  | .patch _ _ _ patch _ => patch.projection

/-- An update that fails: the watch holds nothing, and resynchronises. -/
def failed (watch : Watch Snapshot Patch) : Watch Snapshot Patch :=
  { watch with
    held := none
    resyncing := watch.resyncing || watch.subscriptionId.isSome }

/-- Materialises what an update left under a subscription. -/
def materialize (watch : Watch Snapshot Patch) (subscriptionId : Nat)
    (update : MaterializedProjection Snapshot) : Watch Snapshot Patch :=
  { watch with state := watch.state.insert subscriptionId update }

/-- Hands the caller the value an update left. -/
def report (watch : Watch Snapshot Patch) (arrival : Arrival Snapshot Patch)
    (snapshot : Snapshot) : Watch Snapshot Patch :=
  { watch with
    applied := watch.applied
      ++ [{ event := arrival.event
            sentOn := arrival.sentOn
            acceptedOn := watch.acceptedOn
            snapshot := snapshot }] }

/-- Keeps what an update said its client holds, once the caller took it. -/
def keep (watch : Watch Snapshot Patch) (event : ClientEvent Snapshot Patch)
    (snapshot : Snapshot) : Watch Snapshot Patch :=
  { watch with
    held := (tokenOf event).map fun token =>
      { token := token, snapshot := snapshot }
    firstSnapshot := watch.firstSnapshot.resolve }

variable (watched : Watched Snapshot Patch Plan)

def receive (watch : Watch Snapshot Patch)
    (arrival : Arrival Snapshot Patch) : Watch Snapshot Patch :=
  let subscriptionId := arrival.event.subscriptionId
  if watch.subscriptionId ≠ some subscriptionId then watch
  else
    let previous := watch.state[subscriptionId]?
    if previous.any fun previous =>
        arrival.event.revision ≤ previous.revision then
      watch
    else
      match applyProjectionEvent watched.composition previous
          arrival.event with
      | .error _ => watch.failed
      | .ok update =>
          let materialized := watch.materialize subscriptionId update
          if update.projection ≠ watched.projection then materialized.failed
          else
            let reported := materialized.report arrival update.snapshot
            if arrival.returns then
              reported.keep arrival.event update.snapshot
            else reported.failed

def receiveAll (watch : Watch Snapshot Patch)
    (arrivals : List (Arrival Snapshot Patch)) : Watch Snapshot Patch :=
  arrivals.foldl (receive watched) watch

/-- The transport delivers an event. -/
def notify (watch : Watch Snapshot Patch)
    (arrival : Arrival Snapshot Patch) : Watch Snapshot Patch :=
  if watch.disposed then watch
  else if projectionOf arrival.event ≠ watched.projection then watch
  else if watch.subscriptionId.isNone then
    { watch with earlyEvents := watch.earlyEvents ++ [arrival] }
  else watch.receive watched arrival

/-! ## Attempts -/

/-- An attempt moved to a phase. -/
def setPhase (watch : Watch Snapshot Patch) (attempt : Nat)
    (phase : Phase Snapshot) : Watch Snapshot Patch :=
  { watch with
    attempts := watch.attempts.modify attempt fun attempt =>
      { attempt with phase := phase } }

def connect (watch : Watch Snapshot Patch) : Watch Snapshot Patch :=
  if watch.disposed || watch.subscriptionId.isSome then watch
  else if watch.connecting.isSome then watch
  else
    { watch with
      connecting := some watch.attempts.length
      attempts := watch.attempts
        ++ [{ generation := watch.generation, phase := .scheduled }] }

/-- An attempt sends its request, naming what the watch holds by then. -/
def send (watch : Watch Snapshot Patch) (attempt : Nat) :
    Watch Snapshot Patch :=
  match watch.attempts[attempt]? with
  | some { generation := _, phase := .scheduled } =>
      watch.setPhase attempt (.sent watch.connection watch.held)
  | _ => watch

def accept (watch : Watch Snapshot Patch) (attempt : Nat)
    (accepted : ProjectionSubscribeAccepted) : Watch Snapshot Patch :=
  match watch.attempts[attempt]? with
  | some { generation := _, phase := .sent connection resumeFrom } =>
      watch.setPhase attempt (.answered connection resumeFrom accepted)
  | _ => watch

def fail (watch : Watch Snapshot Patch) (attempt : Nat) (refused : Bool) :
    Watch Snapshot Patch :=
  match watch.attempts[attempt]? with
  | some { generation := _, phase := .sent _ _ } =>
      watch.setPhase attempt (.finished refused)
  | _ => watch

/-- Follows a subscription, accepted on a connection. -/
def subscribe (watch : Watch Snapshot Patch) (connection : Nat)
    (accepted : ProjectionSubscribeAccepted) : Watch Snapshot Patch :=
  { watch with
    subscriptionId := some accepted.subscriptionId
    acceptedOn := connection }

/-- Keeps the value the client holds at the revision accepted. -/
def resume (watch : Watch Snapshot Patch)
    (accepted : ProjectionSubscribeAccepted)
    (resumeFrom : Option (HeldValue Snapshot)) : Watch Snapshot Patch :=
  match accepted.upToDate, resumeFrom with
  | true, some resumed =>
      watch.materialize accepted.subscriptionId
        { projection := watched.projection
          subscriptionId := accepted.subscriptionId
          revision := accepted.revision
          snapshot := resumed.snapshot }
  | _, _ => watch

/-- Receives the events that came before the subscription was known. -/
def flush (watch : Watch Snapshot Patch) : Watch Snapshot Patch :=
  { watch with earlyEvents := [] }.receiveAll watched watch.earlyEvents

def proceed (watch : Watch Snapshot Patch) (attempt : Nat) :
    Watch Snapshot Patch :=
  match watch.attempts[attempt]? with
  | some { generation := current
           phase := .answered connection resumeFrom accepted } =>
      let finished := watch.setPhase attempt (.finished false)
      -- A subscription of an earlier connection is not this one's.
      if current ≠ watch.generation then finished
      else if watch.disposed then finished
      else
        ((finished.subscribe connection accepted).resume watched accepted
          resumeFrom).flush watched
  | _ => watch

def settle (watch : Watch Snapshot Patch) (attempt : Nat) :
    Watch Snapshot Patch :=
  match watch.attempts[attempt]? with
  | some { generation := current, phase := .finished refused } =>
      let settled := watch.setPhase attempt .settled
      { settled with
        connecting :=
          if current = watch.generation then none else watch.connecting
        firstSnapshot :=
          if refused then watch.firstSnapshot.reject
          else watch.firstSnapshot }
  | _ => watch

/-! ## The connection -/

/-- The transport lost its connection, and with it every subscription. -/
def lose (watch : Watch Snapshot Patch) : Watch Snapshot Patch :=
  { watch with
    generation := watch.generation + 1
    subscriptionId := none
    connecting := none
    resyncing := false
    state := ∅
    earlyEvents := [] }

def connectionState (watch : Watch Snapshot Patch) (status : String) :
    Watch Snapshot Patch :=
  if status = "connected" then
    if watch.disposed then watch else watch.connect
  else if status = "connecting" then watch
  else
    let lost := { watch with connection := watch.connection + 1 }
    if watch.disposed then lost else lost.lose

/-! ## The steps -/

def next (watch : Watch Snapshot Patch) :
    WatchStep Snapshot Patch → Watch Snapshot Patch
  | .connection status => watch.connectionState status
  | .event arrival => watch.notify watched arrival
  | .connect => watch.connect
  | .send attempt => watch.send attempt
  | .accept attempt accepted => watch.accept attempt accepted
  | .fail attempt refused => watch.fail attempt refused
  | .proceed attempt => watch.proceed watched attempt
  | .settle attempt => watch.settle attempt
  | .resynced => { watch with resyncing := false }
  | .timeout =>
      { watch with firstSnapshot := watch.firstSnapshot.reject }
  | .abandon =>
      if watch.firstSnapshot = .rejected then { watch with disposed := true }
      else watch
  | .abort =>
      if watch.disposed then watch
      else
        { watch with
          disposed := true
          firstSnapshot := watch.firstSnapshot.reject
          subscriptionId := none }
  | .unsubscribe =>
      if watch.firstSnapshot = .resolved then { watch with disposed := true }
      else watch

/-- The values a watch reported, in order. -/
def reported (watch : Watch Snapshot Patch) : List Snapshot :=
  watch.applied.map AppliedEvent.snapshot

end Watch

end Clerkenwell.Client
