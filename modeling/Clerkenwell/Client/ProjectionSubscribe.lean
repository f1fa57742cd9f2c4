import Clerkenwell.Foundation.Machine
import Clerkenwell.Session.Materialize

/-!
# A one-shot subscription

`subscribeProjection` subscribes once, resolves with the first snapshot and
reports the later updates raw.  Notifications come in any order with the answer
to its request, and everything it does is done by a callback, one step here.
-/

namespace Clerkenwell.Client

open Clerkenwell.Foundation
open Clerkenwell.Session

/-- The method of the notifications projection events arrive as. -/
def projectionUpdateNotification : String :=
  "projection.update"

/-- What a subscription hands its caller's handlers. -/
inductive Report (Snapshot Patch : Type) where
  | snapshot (value : Snapshot)
  | patch (value : Patch)
deriving DecidableEq, Repr

/-- The promise of the first snapshot; once it is settled it stays as it is. -/
inductive SnapshotPromise (Snapshot : Type) where
  | pending
  | resolved (snapshot : Snapshot)
  | rejected (error : String)
deriving DecidableEq, Repr

def SnapshotPromise.resolve {Snapshot : Type}
    (promise : SnapshotPromise Snapshot) (snapshot : Snapshot) :
    SnapshotPromise Snapshot :=
  match promise with
  | .pending => .resolved snapshot
  | settled => settled

def SnapshotPromise.reject {Snapshot : Type}
    (promise : SnapshotPromise Snapshot) (error : String) :
    SnapshotPromise Snapshot :=
  match promise with
  | .pending => .rejected error
  | settled => settled

/-- Where the call of `subscribeProjection` is. -/
inductive SubscribeCall (Snapshot : Type) where
  | requested
  /-- The request is answered, and the continuation waits to run. -/
  | answered (subscriptionId : Nat)
  | refused (error : String)
  /-- The subscription is known, and the first snapshot awaited. -/
  | awaiting
  | returned (subscriptionId : Nat) (snapshot : Snapshot)
  | threw (error : String)
deriving DecidableEq, Repr

structure ProjectionSubscribe (Snapshot Patch : Type) where
  subscriptionId : Option Nat
  /-- The snapshots that came before the id was known, newest first. -/
  earlySnapshots : List (Nat × Snapshot)
  firstSnapshot : SnapshotPromise Snapshot
  settled : Bool
  listening : Bool
  call : SubscribeCall Snapshot
  /-- The subscriptions it asked the server to end. -/
  unsubscribed : List Nat
  reported : List (Report Snapshot Patch)

/--
A message the server pushes: `event` is what its parameters hold, if they hold
an event, and `throws` what the caller's handler throws on it, if it does.
-/
structure ProjectionNotification (Snapshot Patch : Type) where
  method : String
  event : Option (ClientEvent Snapshot Patch)
  throws : Option String

/-- One callback. -/
inductive SubscribeStep (Snapshot Patch : Type) where
  | notification (notification : ProjectionNotification Snapshot Patch)
  | answer (accepted : ProjectionSubscribeAccepted)
  | refuse (error : String)
  | timeout
  /--
  The call goes on: with the answer, with the first snapshot, or with an
  error.  `throws` is what the handler throws on an early snapshot.
  -/
  | proceed (throws : Option String)
  | unsubscribe

namespace ProjectionSubscribe

variable {Snapshot Patch : Type}

def start : ProjectionSubscribe Snapshot Patch where
  subscriptionId := none
  earlySnapshots := []
  firstSnapshot := .pending
  settled := false
  listening := true
  call := .requested
  unsubscribed := []
  reported := []

/-- Hands the caller a snapshot or a patch. -/
def report (subscribe : ProjectionSubscribe Snapshot Patch)
    (update : Report Snapshot Patch) : ProjectionSubscribe Snapshot Patch :=
  { subscribe with reported := subscribe.reported ++ [update] }

/--
The first snapshot settles the subscription, and a handler that throws on it
fails the subscription.
-/
def receiveSnapshot (subscribe : ProjectionSubscribe Snapshot Patch)
    (snapshot : Snapshot) (throws : Option String) :
    ProjectionSubscribe Snapshot Patch :=
  let reported := subscribe.report (.snapshot snapshot)
  if subscribe.settled then reported
  else
    match throws with
    | some error =>
        { reported with
          settled := true
          firstSnapshot := subscribe.firstSnapshot.reject error }
    | none =>
        { reported with
          settled := true
          firstSnapshot := subscribe.firstSnapshot.resolve snapshot }

variable (projection : String)

/-- What the listener does with an event. -/
def hear (subscribe : ProjectionSubscribe Snapshot Patch)
    (throws : Option String) :
    ClientEvent Snapshot Patch → ProjectionSubscribe Snapshot Patch
  | .snapshot subscriptionId _ snapshot _ =>
      if snapshot.projection = projection then
        match subscribe.subscriptionId with
        | none =>
            { subscribe with
              earlySnapshots :=
                (subscriptionId, snapshot.value)
                  :: subscribe.earlySnapshots }
        | some own =>
            if subscriptionId ≠ own then subscribe
            else subscribe.receiveSnapshot snapshot.value throws
      else subscribe
  | .patch subscriptionId _ _ patch _ =>
      if subscribe.subscriptionId = some subscriptionId
          ∧ patch.projection = projection then
        subscribe.report (.patch patch.value)
      else subscribe

def notify (subscribe : ProjectionSubscribe Snapshot Patch)
    (notification : ProjectionNotification Snapshot Patch) :
    ProjectionSubscribe Snapshot Patch :=
  if !subscribe.listening then subscribe
  else if notification.method ≠ projectionUpdateNotification then subscribe
  else
    match notification.event with
    | none => subscribe
    | some event => subscribe.hear projection notification.throws event

/-- Takes the id the answer names, and the snapshot held for it. -/
def accept (subscribe : ProjectionSubscribe Snapshot Patch)
    (subscriptionId : Nat) (throws : Option String) :
    ProjectionSubscribe Snapshot Patch :=
  let accepted :=
    { subscribe with
      subscriptionId := some subscriptionId
      call := .awaiting }
  match subscribe.earlySnapshots.lookup subscriptionId with
  | some snapshot => accepted.receiveSnapshot snapshot throws
  | none => accepted

/-- Removes the listener and ends the subscription, where it is known. -/
def fail (subscribe : ProjectionSubscribe Snapshot Patch) (error : String) :
    ProjectionSubscribe Snapshot Patch :=
  { subscribe with
    listening := false
    unsubscribed := subscribe.unsubscribed ++ subscribe.subscriptionId.toList
    call := .threw error }

def proceed (subscribe : ProjectionSubscribe Snapshot Patch)
    (throws : Option String) : ProjectionSubscribe Snapshot Patch :=
  match subscribe.call with
  | .answered subscriptionId => subscribe.accept subscriptionId throws
  | .refused error => subscribe.fail error
  | .awaiting =>
      match subscribe.subscriptionId, subscribe.firstSnapshot with
      | some subscriptionId, .resolved snapshot =>
          { subscribe with call := .returned subscriptionId snapshot }
      | _, .rejected error => subscribe.fail error
      | _, _ => subscribe
  | _ => subscribe

def next (subscribe : ProjectionSubscribe Snapshot Patch) :
    SubscribeStep Snapshot Patch → ProjectionSubscribe Snapshot Patch
  | .notification notification => subscribe.notify projection notification
  | .answer accepted =>
      match subscribe.call with
      | .requested =>
          { subscribe with call := .answered accepted.subscriptionId }
      | _ => subscribe
  | .refuse error =>
      match subscribe.call with
      | .requested => { subscribe with call := .refused error }
      | _ => subscribe
  | .timeout =>
      match subscribe.call with
      -- The timer is cancelled once the call returns or throws.
      | .returned _ _ | .threw _ => subscribe
      | _ =>
          { subscribe with
            firstSnapshot := subscribe.firstSnapshot.reject
              s!"Timed out waiting for {projection} projection snapshot." }
  | .proceed throws => subscribe.proceed throws
  | .unsubscribe =>
      match subscribe.call with
      | .returned subscriptionId _ =>
          { subscribe with
            listening := false
            unsubscribed := subscribe.unsubscribed ++ [subscriptionId] }
      | _ => subscribe

end ProjectionSubscribe

/-! ## What a subscription heard -/

section Heard

variable {Snapshot Patch : Type}

/-- The event a step brings, if it brings one. -/
def SubscribeStep.event? :
    SubscribeStep Snapshot Patch → Option (ClientEvent Snapshot Patch)
  | .notification message =>
      if message.method = projectionUpdateNotification then message.event
      else none
  | _ => none

/--
A subscription and the events that came while its call was not over: the ones
before its id was known, and the ones since.
-/
structure HeardSubscribe (Snapshot Patch : Type) where
  subscribe : ProjectionSubscribe Snapshot Patch
  early : List (ClientEvent Snapshot Patch)
  later : List (ClientEvent Snapshot Patch)
  /-- The call threw, or its caller ended the subscription. -/
  over_ : Bool

namespace HeardSubscribe

variable (projection : String)

def start : HeardSubscribe Snapshot Patch where
  subscribe := .start
  early := []
  later := []
  over_ := false

/-- Whether a call threw. -/
def threw (call : SubscribeCall Snapshot) : Bool :=
  match call with
  | .threw _ => true
  | _ => false

/-- Whether a call has yet to take its answer. -/
def unaccepted (call : SubscribeCall Snapshot) : Bool :=
  match call with
  | .requested | .answered _ => true
  | _ => false

/-- Whether a step is the end its caller puts to a subscription. -/
def ends (call : SubscribeCall Snapshot) :
    SubscribeStep Snapshot Patch → Bool
  | .unsubscribe =>
      match call with
      | .returned _ _ => true
      | _ => false
  | _ => false

def next (heard : HeardSubscribe Snapshot Patch)
    (step : SubscribeStep Snapshot Patch) : HeardSubscribe Snapshot Patch :=
  let came := if heard.over_ then [] else step.event?.toList
  let known := heard.subscribe.subscriptionId.isSome
  let after := heard.subscribe.next projection step
  { subscribe := after
    early := if known then heard.early else heard.early ++ came
    later := if known then heard.later ++ came else heard.later
    over_ := heard.over_ || threw after.call
      || ends heard.subscribe.call step }

/-- What an event of a subscription should have its caller handed. -/
def reportOf (subscriptionId : Nat) :
    ClientEvent Snapshot Patch → Option (Report Snapshot Patch)
  | .snapshot id _ snapshot _ =>
      if id = subscriptionId ∧ snapshot.projection = projection then
        some (.snapshot snapshot.value)
      else none
  | .patch id _ _ patch _ =>
      if id = subscriptionId ∧ patch.projection = projection then
        some (.patch patch.value)
      else none

/-- The updates of one subscription among the events. -/
def own (subscriptionId : Nat) (events : List (ClientEvent Snapshot Patch)) :
    List (Report Snapshot Patch) :=
  events.filterMap (reportOf projection subscriptionId)

/-- The last snapshot among some updates. -/
def lastSnapshot (updates : List (Report Snapshot Patch)) : Option Snapshot :=
  (updates.filterMap fun update =>
    match update with
    | .snapshot value => some value
    | .patch _ => none).getLast?

@[simp]
theorem lastSnapshot_snapshot (updates : List (Report Snapshot Patch))
    (value : Snapshot) :
    lastSnapshot (updates ++ [.snapshot value]) = some value := by
  simp [lastSnapshot]

@[simp]
theorem lastSnapshot_patch (updates : List (Report Snapshot Patch))
    (value : Patch) :
    lastSnapshot (updates ++ [.patch value]) = lastSnapshot updates := by
  simp [lastSnapshot]

theorem own_append (subscriptionId : Nat)
    (early later : List (ClientEvent Snapshot Patch)) :
    own projection subscriptionId (early ++ later)
      = own projection subscriptionId early
        ++ own projection subscriptionId later :=
  List.filterMap_append

/-- What a subscription holds of the events it heard. -/
structure Kept (heard : HeardSubscribe Snapshot Patch) : Prop where
  listening : heard.subscribe.listening = !heard.over_
  unknown : heard.subscribe.subscriptionId = none →
    heard.subscribe.reported = []
      ∧ heard.later = []
      ∧ ∀ subscriptionId,
        heard.subscribe.earlySnapshots.lookup subscriptionId
          = lastSnapshot (own projection subscriptionId heard.early)
  known : ∀ subscriptionId,
    heard.subscribe.subscriptionId = some subscriptionId →
      heard.subscribe.reported
        = (lastSnapshot (own projection subscriptionId heard.early)).toList.map
            Report.snapshot
          ++ own projection subscriptionId heard.later
  unanswered : unaccepted heard.subscribe.call = true →
    heard.subscribe.subscriptionId = none
  ended : threw heard.subscribe.call = true → heard.over_ = true

/-- A subscription that hands on what an event of its own should give. -/
theorem hear_known {subscribe : ProjectionSubscribe Snapshot Patch}
    {subscriptionId : Nat}
    (known : subscribe.subscriptionId = some subscriptionId)
    (throws : Option String) (event : ClientEvent Snapshot Patch) :
    let heard := subscribe.hear projection throws event
    heard.subscriptionId = subscribe.subscriptionId
      ∧ heard.listening = subscribe.listening
      ∧ heard.call = subscribe.call
      ∧ heard.reported
        = subscribe.reported
          ++ (reportOf projection subscriptionId event).toList := by
  cases event with
  | snapshot id revision snapshot held =>
      by_cases named : snapshot.projection = projection
      · by_cases same : id = subscriptionId
        · simp only [ProjectionSubscribe.hear, named, known, same, ne_eq,
            not_true_eq_false, if_true, if_false, reportOf, and_self,
            Option.toList_some, ProjectionSubscribe.receiveSnapshot]
          split
          · exact ⟨known, rfl, rfl, rfl⟩
          · cases throws <;> exact ⟨known, rfl, rfl, rfl⟩
        · simp [ProjectionSubscribe.hear, named, known, same, reportOf]
      · simp [ProjectionSubscribe.hear, named, known, reportOf]
  | patch id fromRevision toRevision patch held =>
      by_cases same : id = subscriptionId ∧ patch.projection = projection
      · have own : subscribe.subscriptionId = some id
            ∧ patch.projection = projection :=
          ⟨by rw [known, same.left], same.right⟩
        simp only [ProjectionSubscribe.hear, if_pos own, reportOf,
          if_pos same, Option.toList_some]
        exact ⟨rfl, rfl, rfl, rfl⟩
      · have foreign : ¬ (subscribe.subscriptionId = some id
            ∧ patch.projection = projection) := by
          rintro ⟨held, named⟩
          rw [known, Option.some.injEq] at held
          exact same ⟨held.symm, named⟩
        simp only [ProjectionSubscribe.hear, if_neg foreign, reportOf,
          if_neg same, Option.toList_none, List.append_nil, and_self]

/-- Before its id is known, a subscription keeps the last snapshot of each. -/
theorem hear_unknown {subscribe : ProjectionSubscribe Snapshot Patch}
    {early : List (ClientEvent Snapshot Patch)}
    (unknown : subscribe.subscriptionId = none)
    (throws : Option String) (event : ClientEvent Snapshot Patch)
    (kept : ∀ subscriptionId,
      subscribe.earlySnapshots.lookup subscriptionId
        = lastSnapshot (own projection subscriptionId early)) :
    let heard := subscribe.hear projection throws event
    heard.subscriptionId = none
      ∧ heard.listening = subscribe.listening
      ∧ heard.call = subscribe.call
      ∧ heard.reported = subscribe.reported
      ∧ ∀ subscriptionId,
        heard.earlySnapshots.lookup subscriptionId
          = lastSnapshot (own projection subscriptionId (early ++ [event])) := by
  cases event with
  | snapshot id revision snapshot held =>
      by_cases named : snapshot.projection = projection
      · simp only [ProjectionSubscribe.hear, named, unknown, if_true,
          true_and]
        intro subscriptionId
        rw [own_append, List.lookup_cons]
        by_cases same : id = subscriptionId
        · simp [own, reportOf, same, named]
        · have other : (subscriptionId == id) = false := by
            simpa using fun equal : subscriptionId = id => same equal.symm
          rw [other, kept subscriptionId]
          simp [own, reportOf, same]
      · simp only [ProjectionSubscribe.hear, named, if_false, unknown,
          true_and]
        intro subscriptionId
        rw [own_append, kept subscriptionId]
        simp [own, reportOf, named]
  | patch id fromRevision toRevision patch held =>
      simp only [ProjectionSubscribe.hear, unknown, reduceCtorEq, false_and,
        if_false, true_and]
      intro subscriptionId
      rw [own_append, kept subscriptionId]
      by_cases same : id = subscriptionId ∧ patch.projection = projection
      · simp [own, reportOf, same]
      · simp [own, reportOf, same]

/-- A step that changes nothing it hands on keeps what was kept. -/
theorem Kept.unchanged {heard : HeardSubscribe Snapshot Patch}
    (kept : Kept projection heard)
    {after : ProjectionSubscribe Snapshot Patch} {finished : Bool}
    (same : after.subscriptionId = heard.subscribe.subscriptionId
      ∧ after.earlySnapshots = heard.subscribe.earlySnapshots
      ∧ after.reported = heard.subscribe.reported)
    (listening : after.listening = !finished)
    (unanswered : unaccepted after.call = true →
      heard.subscribe.subscriptionId = none)
    (ended : threw after.call = true → finished = true) :
    Kept projection
      { subscribe := after
        early := heard.early
        later := heard.later
        over_ := finished } where
  listening := listening
  unknown := by
    rw [same.1, same.2.1, same.2.2]
    exact kept.unknown
  known := by
    rw [same.1, same.2.2]
    exact kept.known
  unanswered before_ := by
    rw [same.1]
    exact unanswered before_
  ended := ended

/-- A subscription that hears an event while its call is not finished. -/
theorem Kept.hear {heard : HeardSubscribe Snapshot Patch}
    (kept : Kept projection heard) (going : heard.over_ = false)
    (throws : Option String) (event : ClientEvent Snapshot Patch) :
    let known := heard.subscribe.subscriptionId.isSome
    Kept projection
      { subscribe := heard.subscribe.hear projection throws event
        early := if known then heard.early else heard.early ++ [event]
        later := if known then heard.later ++ [event] else heard.later
        over_ := false } := by
  intro known
  cases named : heard.subscribe.subscriptionId with
  | none =>
      obtain ⟨handed, none_later, snapshots⟩ := kept.unknown named
      obtain ⟨id, listening, call, reported, holds⟩ :=
        hear_unknown projection named throws event snapshots
      simp only [known, named, Option.isSome_none, Bool.false_eq_true,
        if_false]
      exact
        { listening := by rw [listening, kept.listening, going]
          unknown := fun _ => ⟨by rw [reported, handed], none_later, holds⟩
          known := fun other held => by rw [id] at held; cases held
          unanswered := fun _ => id
          ended := by
            intro finished
            rw [call] at finished
            exact going ▸ kept.ended finished }
  | some subscriptionId =>
      obtain ⟨id, listening, call, reported⟩ :=
        hear_known projection named throws event
      simp only [known, named, Option.isSome_some, if_true]
      exact
        { listening := by rw [listening, kept.listening, going]
          unknown := fun none_ => by rw [id, named] at none_; cases none_
          known := by
            intro other held
            rw [id, named, Option.some.injEq] at held
            subst held
            rw [reported, kept.known subscriptionId named, own_append,
              List.append_assoc]
            congr 2
          unanswered := by
            intro before_
            rw [call] at before_
            rw [id]
            exact kept.unanswered before_
          ended := by
            intro finished
            rw [call] at finished
            exact going ▸ kept.ended finished }

/-- The snapshot held for the id that is answered is handed on. -/
theorem Kept.accept {heard : HeardSubscribe Snapshot Patch}
    (kept : Kept projection heard) {subscriptionId : Nat}
    (answered : heard.subscribe.call = .answered subscriptionId)
    (throws : Option String) :
    Kept projection
      { heard with
        subscribe := heard.subscribe.accept subscriptionId throws } := by
  obtain ⟨handed, none_later, snapshots⟩ :=
    kept.unknown (kept.unanswered (by rw [answered]; rfl))
  have shape :
      let accepted := heard.subscribe.accept subscriptionId throws
      accepted.subscriptionId = some subscriptionId
        ∧ accepted.listening = heard.subscribe.listening
        ∧ accepted.call = .awaiting
        ∧ accepted.reported
          = (lastSnapshot
              (own projection subscriptionId heard.early)).toList.map
              Report.snapshot := by
    rw [← snapshots subscriptionId]
    unfold ProjectionSubscribe.accept
    cases heard.subscribe.earlySnapshots.lookup subscriptionId with
    | none => exact ⟨rfl, rfl, rfl, handed⟩
    | some snapshot =>
        simp only [ProjectionSubscribe.receiveSnapshot,
          ProjectionSubscribe.report, handed]
        split
        · exact ⟨rfl, rfl, rfl, rfl⟩
        · cases throws <;> exact ⟨rfl, rfl, rfl, rfl⟩
  obtain ⟨id, listening, call, reported⟩ := shape
  exact
    { listening := by rw [listening, kept.listening]
      unknown := fun none_ => by rw [id] at none_; cases none_
      known := by
        intro other held
        rw [id, Option.some.injEq] at held
        subst held
        rw [reported, none_later]
        exact (List.append_nil _).symm
      unanswered := fun before_ => by rw [call] at before_; cases before_
      ended := fun finished => by rw [call] at finished; cases finished }

/-- A step that brings no event. -/
theorem next_quiet (heard : HeardSubscribe Snapshot Patch)
    {step : SubscribeStep Snapshot Patch}
    (quiet : heard.over_ = true ∨ step.event? = none) :
    heard.next projection step
      = { subscribe := heard.subscribe.next projection step
          early := heard.early
          later := heard.later
          over_ := heard.over_
            || threw (heard.subscribe.next projection step).call
            || ends heard.subscribe.call step } := by
  have came : (if heard.over_ then [] else step.event?.toList) = [] := by
    rcases quiet with finished | none_
    · rw [finished, if_pos rfl]
    · rw [none_, Option.toList_none, ite_self]
  simp only [HeardSubscribe.next, came, List.append_nil, ite_self]

/-- A call that is not finished did not throw. -/
theorem Kept.threw_imp {heard : HeardSubscribe Snapshot Patch}
    (kept : Kept projection heard) :
    (heard.over_ || threw heard.subscribe.call) = heard.over_ := by
  cases threw_ : threw heard.subscribe.call with
  | false => exact Bool.or_false _
  | true => rw [kept.ended threw_, Bool.or_true]

theorem Kept.notification {heard : HeardSubscribe Snapshot Patch}
    (kept : Kept projection heard)
    (message : ProjectionNotification Snapshot Patch) :
    Kept projection (heard.next projection (.notification message)) := by
  have same : ∀ quiet : heard.over_ = true
      ∨ (SubscribeStep.notification message).event? = none,
      heard.subscribe.notify projection message = heard.subscribe →
        Kept projection
          (heard.next projection (.notification message)) := by
    intro quiet unmoved
    rw [next_quiet projection heard quiet]
    simp only [ProjectionSubscribe.next, unmoved, ends, Bool.or_false,
      kept.threw_imp]
    exact kept
  cases finished : heard.over_ with
  | true =>
      apply same (.inl finished)
      simp [ProjectionSubscribe.notify, kept.listening, finished]
  | false =>
      have listening : heard.subscribe.listening = true := by
        simp [kept.listening, finished]
      by_cases method : message.method = projectionUpdateNotification
      · cases brought : message.event with
        | none =>
            apply same (.inr (by simp [SubscribeStep.event?, brought]))
            simp [ProjectionSubscribe.notify, brought]
        | some event =>
            have heard_ := kept.hear projection finished message.throws event
            have going : threw
                (heard.subscribe.hear projection message.throws event).call
                  = false := by
              rw [← Bool.not_eq_true]
              exact fun threw_ => absurd (heard_.ended threw_) (by simp)
            simpa [HeardSubscribe.next, finished, SubscribeStep.event?, method,
              brought, ProjectionSubscribe.next, ProjectionSubscribe.notify,
              listening, going, ends] using heard_
      · apply same (.inr (by simp [SubscribeStep.event?, method]))
        simp [ProjectionSubscribe.notify, method]

/-- A call that throws ends the listening. -/
theorem Kept.fail {heard : HeardSubscribe Snapshot Patch}
    (kept : Kept projection heard) (error : String) :
    Kept projection
      { heard with
        subscribe := heard.subscribe.fail error
        over_ := true } :=
  kept.unchanged projection ⟨rfl, rfl, rfl⟩ rfl
    (fun before_ => by cases before_) (fun _ => rfl)

theorem Kept.proceed {heard : HeardSubscribe Snapshot Patch}
    (kept : Kept projection heard) (throws : Option String) :
    Kept projection (heard.next projection (.proceed throws)) := by
  rw [next_quiet projection heard (.inr rfl)]
  simp only [ProjectionSubscribe.next, ProjectionSubscribe.proceed, ends,
    Bool.or_false]
  cases call : heard.subscribe.call with
  | answered subscriptionId =>
      have accepted := kept.accept projection call throws
      have going := accepted.threw_imp
      simp only at going ⊢
      rw [going]
      exact accepted
  | refused error =>
      simpa [threw, ProjectionSubscribe.fail] using
        kept.fail projection error
  | awaiting =>
      cases known : heard.subscribe.subscriptionId with
      | none =>
          cases settled : heard.subscribe.firstSnapshot with
          | rejected error =>
              simpa [threw, ProjectionSubscribe.fail] using
                kept.fail projection error
          | pending => simpa [call, threw] using kept
          | resolved snapshot => simpa [call, threw] using kept
      | some subscriptionId =>
          cases settled : heard.subscribe.firstSnapshot with
          | rejected error =>
              simpa [threw, ProjectionSubscribe.fail] using
                kept.fail projection error
          | pending => simpa [call, threw] using kept
          | resolved snapshot =>
              simp only [threw, Bool.or_false]
              exact kept.unchanged projection ⟨known.symm, rfl, rfl⟩
                kept.listening (fun before_ => by cases before_)
                (fun finished => by cases finished)
  | requested => simpa [call, threw] using kept
  | returned subscriptionId snapshot => simpa [call, threw] using kept
  | threw error =>
      have finished : heard.over_ = true := kept.ended (by rw [call]; rfl)
      rw [finished, Bool.true_or, ← finished]
      exact kept

end HeardSubscribe

end Heard

end Clerkenwell.Client
