import Clerkenwell.Client.WatchResume

/-!
# Resuming against a whole snapshot

Two watches wait for one attempt to go on: a server told one that it is up to
date, and sent the other its snapshot whole.  Until the attempt goes on they
differ only in that, and once it has, they are alike.
-/

namespace Clerkenwell.Client

open Clerkenwell.Foundation
open Clerkenwell.Doc (Json)
open Clerkenwell.Session

variable {Snapshot Patch Plan Delivery : Type}

namespace Watch

/-- An accepted attempt of a watch's generation waits to go on. -/
def Waiting (index : Nat) (watch : Watch Snapshot Patch) : Prop :=
  watch.disposed = false
    ∧ ∃ connection resumeFrom accepted, watch.attempts[index]?
      = some ⟨watch.generation, .answered connection resumeFrom accepted⟩

/-- What two watches that wait were answered. -/
structure Answered (Snapshot Patch : Type) where
  index : Nat
  connection : Nat
  resumed : HeldValue Snapshot
  accepted : ProjectionSubscribeAccepted
  whole : ProjectionSubscribeAccepted
  /-- What came and was applied before the answer. -/
  before : List (Arrival Snapshot Patch)
  applied : List (AppliedEvent Snapshot Patch)
  snapshot : Arrival Snapshot Patch

/-- Watches that differ only in what they were answered. -/
structure Twins (answered : Answered Snapshot Patch)
    (one other : Watch Snapshot Patch) : Prop where
  live : one.disposed = false
  disposed : other.disposed = one.disposed
  generation : other.generation = one.generation
  unsubscribed : one.subscriptionId = none
  subscriptionId : other.subscriptionId = one.subscriptionId
  busy : one.connecting = some answered.index
  connecting : other.connecting = one.connecting
  resyncing : other.resyncing = one.resyncing
  early : ∃ since, one.earlyEvents = answered.before ++ since
    ∧ other.earlyEvents = answered.before ++ answered.snapshot :: since
  state : other.state = one.state
  held : other.held = one.held
  firstSnapshot : other.firstSnapshot = one.firstSnapshot
  connection : other.connection = one.connection
  acceptedOn : other.acceptedOn = one.acceptedOn
  applied : one.applied = answered.applied
  otherApplied : other.applied = answered.applied
  attempted : other.attempts.length = one.attempts.length
  own : one.attempts[answered.index]?
    = some ⟨one.generation, .answered answered.connection
        (some answered.resumed) answered.accepted⟩
  otherOwn : other.attempts[answered.index]?
    = some ⟨one.generation, .answered answered.connection
        (some answered.resumed) answered.whole⟩
  others : ∀ index, index ≠ answered.index →
    other.attempts[index]? = one.attempts[index]?

variable {watched : Watched Snapshot Patch Plan}
variable {answered : Answered Snapshot Patch}
variable {one other : Watch Snapshot Patch}

theorem Twins.connect (twins : Twins answered one other) :
    Twins answered one.connect other.connect := by
  have kept : one.connect = one := by
    simp [Watch.connect, twins.live, twins.unsubscribed, twins.busy]
  have other_kept : other.connect = other := by
    simp [Watch.connect, twins.disposed, twins.live, twins.subscriptionId,
      twins.unsubscribed, twins.connecting, twins.busy]
  rw [kept, other_kept]
  exact twins

theorem Twins.setPhase (twins : Twins answered one other) {index : Nat}
    (differs : index ≠ answered.index) (phase : Phase Snapshot) :
    Twins answered (one.setPhase index phase)
      (other.setPhase index phase) := by
  refine { twins with
    attempted := ?_
    own := ?_
    otherOwn := ?_
    others := ?_ }
  · simp only [Watch.setPhase, List.length_modify, twins.attempted]
  · simp only [Watch.setPhase]
    rw [List.getElem?_modify_ne _ _ differs]
    exact twins.own
  · simp only [Watch.setPhase]
    rw [List.getElem?_modify_ne _ _ differs]
    exact twins.otherOwn
  · intro key other_key
    simp only [Watch.setPhase, List.getElem?_modify]
    rw [twins.others key other_key]

theorem Twins.send (twins : Twins answered one other) (index : Nat) :
    Twins answered (one.send index) (other.send index) := by
  unfold Watch.send
  by_cases same : index = answered.index
  · subst same
    rw [twins.own, twins.otherOwn]
    exact twins
  · rw [twins.others index same, twins.connection, twins.held]
    split
    · exact twins.setPhase same _
    · exact twins

theorem Twins.accept (twins : Twins answered one other) (index : Nat)
    (accepted : ProjectionSubscribeAccepted) :
    Twins answered (one.accept index accepted)
      (other.accept index accepted) := by
  unfold Watch.accept
  by_cases same : index = answered.index
  · subst same
    rw [twins.own, twins.otherOwn]
    exact twins
  · rw [twins.others index same]
    split
    · exact twins.setPhase same _
    · exact twins

theorem Twins.fail (twins : Twins answered one other) (index : Nat)
    (refused : Bool) :
    Twins answered (one.fail index refused) (other.fail index refused) := by
  unfold Watch.fail
  by_cases same : index = answered.index
  · subst same
    rw [twins.own, twins.otherOwn]
    exact twins
  · rw [twins.others index same]
    split
    · exact twins.setPhase same _
    · exact twins

theorem Twins.settle (twins : Twins answered one other) (sound : one.Sound)
    (index : Nat) : Twins answered (one.settle index)
      (other.settle index) := by
  unfold Watch.settle
  by_cases same : index = answered.index
  · subst same
    rw [twins.own, twins.otherOwn]
    exact twins
  · rw [twins.others index same]
    split
    · rename_i generation refused there
      have earlier : generation ≠ one.generation := by
        intro current
        have busy : one.connecting = some index :=
          (sound.live twins.live).only index _ there current rfl
        exact same (Option.some.inj (busy.symm.trans twins.busy))
      have settled := twins.setPhase same .settled
      refine { settled with
        busy := ?_
        connecting := ?_
        firstSnapshot := ?_ }
      · dsimp only
        rw [if_neg earlier]
        exact twins.busy
      · dsimp only
        rw [twins.generation, twins.connecting]
      · dsimp only
        rw [twins.firstSnapshot]
    · exact twins

/-- The attempts after one went on. -/
theorem attempts_proceed {index connection : Nat}
    {resumeFrom : Option (HeldValue Snapshot)}
    {accepted : ProjectionSubscribeAccepted} {watch : Watch Snapshot Patch}
    {generation : Nat}
    (there : watch.attempts[index]?
      = some ⟨generation, .answered connection resumeFrom accepted⟩) :
    (watch.proceed watched index).attempts[index]?
      = some ⟨generation, .finished false⟩ := by
  have finished : (watch.setPhase index (.finished false)).attempts[index]?
      = some ⟨generation, .finished false⟩ := by
    simp only [Watch.setPhase, List.getElem?_modify_eq, there]
    rfl
  have received : ∀ (arrivals : List (Arrival Snapshot Patch))
      (before : Watch Snapshot Patch),
      (before.receiveAll watched arrivals).attempts = before.attempts := by
    intro arrivals
    induction arrivals with
    | nil => exact fun _ => rfl
    | cons arrival rest inductionHypothesis =>
        intro before
        exact (inductionHypothesis _).trans
          (frame_receive watched before arrival).attempts
  unfold Watch.proceed
  rw [there]
  dsimp only
  split
  · exact finished
  · split
    · exact finished
    · rw [Watch.flush, received]
      unfold Watch.resume
      split <;> exact finished

theorem Twins.proceed (twins : Twins answered one other) (sound : one.Sound)
    {index : Nat} (waiting : Waiting answered.index
      (one.proceed watched index)) :
    Twins answered (one.proceed watched index)
      (other.proceed watched index) := by
  by_cases same : index = answered.index
  · subst same
    rcases waiting with ⟨_, connection, resumeFrom, accepted, there⟩
    rw [attempts_proceed twins.own] at there
    have went_on := congrArg Attempt.phase (Option.some.inj there)
    cases went_on
  · unfold Watch.proceed
    rw [twins.others index same]
    split
    · rename_i generation connection resumeFrom accepted there
      have earlier : generation ≠ one.generation := by
        intro current
        have busy : one.connecting = some index :=
          (sound.live twins.live).only index _ there current rfl
        exact same (Option.some.inj (busy.symm.trans twins.busy))
      dsimp only
      rw [twins.generation, if_pos earlier, if_pos earlier]
      exact twins.setPhase same _
    · exact twins

theorem Twins.notify (twins : Twins answered one other)
    (arrival : Arrival Snapshot Patch) :
    Twins answered (one.notify watched arrival)
      (other.notify watched arrival) := by
  unfold Watch.notify
  simp only [twins.disposed, twins.live, twins.subscriptionId,
    twins.unsubscribed, Bool.false_eq_true, if_false, Option.isNone_none,
    if_true]
  split
  · exact twins
  · refine { twins with
      live := rfl
      disposed := rfl
      subscriptionId := rfl
      unsubscribed := rfl
      early := ?_ }
    rcases twins.early with ⟨since, since_one, since_other⟩
    refine ⟨since ++ [arrival], ?_, ?_⟩
    · show one.earlyEvents ++ [arrival] = _
      rw [since_one, List.append_assoc]
    · show other.earlyEvents ++ [arrival] = _
      rw [since_other, List.append_assoc]
      rfl

theorem Twins.connectionState (twins : Twins answered one other)
    {status : String} (waiting : Waiting answered.index
      (one.connectionState status)) :
    Twins answered (one.connectionState status)
      (other.connectionState status) := by
  unfold Watch.connectionState at waiting ⊢
  simp only [twins.disposed, twins.live, Bool.false_eq_true, if_false]
    at waiting ⊢
  split
  · exact twins.connect
  · split
    · exact twins
    · rename_i other_status not_connecting
      rw [if_neg other_status, if_neg not_connecting] at waiting
      rcases waiting with ⟨_, connection, resumeFrom, accepted, there⟩
      have moved : some (⟨one.generation, _⟩ : Attempt Snapshot)
          = some ⟨one.generation + 1, _⟩ := twins.own.symm.trans there
      have generation := congrArg Attempt.generation (Option.some.inj moved)
      exact absurd generation (Nat.ne_of_lt (Nat.lt_succ_self _))

/-- A step that leaves one twin waiting keeps the other its twin. -/
theorem Twins.next (twins : Twins answered one other) (sound : one.Sound)
    {step : WatchStep Snapshot Patch}
    (waiting : Waiting answered.index (one.next watched step)) :
    Twins answered (one.next watched step) (other.next watched step) := by
  have rejected := congrArg First.reject twins.firstSnapshot
  cases step with
  | connection status => exact twins.connectionState waiting
  | event arrival => exact twins.notify arrival
  | connect => exact twins.connect
  | send index => exact twins.send index
  | accept index accepted => exact twins.accept index accepted
  | fail index refused => exact twins.fail index refused
  | proceed index => exact twins.proceed sound waiting
  | settle index => exact twins.settle sound index
  | resynced => exact { twins with resyncing := rfl }
  | timeout => exact { twins with firstSnapshot := rejected }
  | abandon =>
      have kept : one.firstSnapshot ≠ .rejected := by
        intro first
        simp only [Watch.next, if_pos first] at waiting
        cases waiting.1
      simp only [Watch.next, twins.firstSnapshot, if_neg kept]
      exact twins
  | abort =>
      simp only [Watch.next, twins.live, Bool.false_eq_true, if_false]
        at waiting
      cases waiting.1
  | unsubscribe =>
      have kept : one.firstSnapshot ≠ .resolved := by
        intro first
        simp only [Watch.next, if_pos first] at waiting
        cases waiting.1
      simp only [Watch.next, twins.firstSnapshot, if_neg kept]
      exact twins

/-- Twins stay twins for as long as the attempt waits. -/
theorem Twins.run (twins : Twins answered one other) (sound : one.Sound)
    {steps : List (WatchStep Snapshot Patch)}
    (timely : Machine.EveryStep (Watch.next watched) Timely one steps)
    (waiting : Machine.Throughout (Watch.next watched)
      (Waiting answered.index) one steps) :
    Twins answered (Machine.run (Watch.next watched) one steps)
        (Machine.run (Watch.next watched) other steps)
      ∧ (Machine.run (Watch.next watched) one steps).Sound := by
  induction steps generalizing one other with
  | nil => exact ⟨twins, sound⟩
  | cons step rest inductionHypothesis =>
      rw [Machine.everyStep_cons] at timely
      apply inductionHypothesis
      · exact twins.next sound
          (waiting [step] (List.cons_prefix_cons.mpr ⟨rfl, rest.nil_prefix⟩))
      · exact sound.next watched step timely.1
      · exact timely.2
      · intro reached within
        exact waiting (step :: reached)
          (List.cons_prefix_cons.mpr ⟨rfl, within⟩)

/-! ## Going on -/

/-- Events of other subscriptions are passed over. -/
theorem receiveAll_others {id : Nat}
    {arrivals : List (Arrival Snapshot Patch)} {watch : Watch Snapshot Patch}
    (subscribed : watch.subscriptionId = some id)
    (others : ∀ arrival ∈ arrivals, arrival.event.subscriptionId ≠ id) :
    watch.receiveAll watched arrivals = watch := by
  induction arrivals with
  | nil => rfl
  | cons arrival rest inductionHypothesis =>
      have passed : watch.receive watched arrival = watch := by
        unfold Watch.receive
        rw [if_pos]
        rw [subscribed]
        intro same
        exact others arrival List.mem_cons_self (Option.some.inj same).symm
      show (watch.receive watched arrival).receiveAll watched rest = watch
      rw [passed]
      exact inductionHypothesis fun later member =>
        others later (List.mem_cons_of_mem _ member)

/-- What a whole snapshot does to a watch that just subscribed. -/
theorem receive_whole (watched : Watched Snapshot Patch Plan)
    {watch : Watch Snapshot Patch} {id : Nat}
    (subscribed : watch.subscriptionId = some id)
    (bare : watch.state[id]? = none) (revision sentOn : Nat)
    (snapshot : Snapshot) (token : Option Json) :
    let event : ClientEvent Snapshot Patch := .snapshot id revision
      { projection := watched.projection, value := snapshot } token
    let arrival : Arrival Snapshot Patch :=
      { event := event, sentOn := sentOn, returns := true }
    watch.receive watched arrival
      = ((watch.materialize id
          { projection := watched.projection
            subscriptionId := id
            revision := revision
            snapshot := snapshot }).report arrival snapshot).keep event
              snapshot := by
  intro event arrival
  have same : arrival.event.subscriptionId = id := rfl
  unfold Watch.receive
  dsimp only
  rw [same, if_neg (not_not.mpr subscribed), bare]
  simp only [Option.any_none, Bool.false_eq_true, if_false, arrival, event,
    applyProjectionEvent, ne_eq, not_true_eq_false, if_true]

/-- What a watch was answered, and what it kept, agree. -/
structure Answered.Agrees (answered : Answered Snapshot Patch)
    (watched : Watched Snapshot Patch Plan) (full : Snapshot) : Prop where
  upToDate : answered.accepted.upToDate = true
  notUpToDate : answered.whole.upToDate = false
  subscriptionId :
    answered.whole.subscriptionId = answered.accepted.subscriptionId
  snapshot : answered.snapshot =
    { event := .snapshot answered.accepted.subscriptionId
        answered.accepted.revision
        { projection := watched.projection, value := full }
        (some answered.resumed.token)
      sentOn := answered.snapshot.sentOn
      returns := true }
  before : ∀ arrival ∈ answered.before,
    arrival.event.subscriptionId ≠ answered.accepted.subscriptionId
  interchangeable : Interchangeable watched.composition
    answered.resumed.snapshot full

/-- What the whole snapshot is recorded as once it is applied. -/
def Answered.entry (answered : Answered Snapshot Patch) (full : Snapshot) :
    AppliedEvent Snapshot Patch where
  event := answered.snapshot.event
  sentOn := answered.snapshot.sentOn
  acceptedOn := answered.connection
  snapshot := full

/-- Twins are alike once both go on: one reported the whole snapshot. -/
theorem Twins.proceed_alike (twins : Twins answered one other)
    (sound : one.Sound) {full : Snapshot}
    (agrees : answered.Agrees watched full) :
    Alike watched.composition answered.applied
      (answered.applied ++ [answered.entry full])
      (one.proceed watched answered.index)
      (other.proceed watched answered.index) := by
  have live : one.Live := sound.live twins.live
  have bare : ∀ id : Nat, one.state[id]? = none :=
    live.bare twins.unsubscribed
  have held : one.held = some answered.resumed :=
    (live.requested _ _ twins.own rfl answered.connection _ rfl).2.symm
  have settled : one.firstSnapshot.resolve = one.firstSnapshot := by
    have came := live.first _ held
    cases first : one.firstSnapshot with
    | pending => exact absurd first came
    | resolved => rfl
    | rejected => rfl
  let subscribed_one : Watch Snapshot Patch :=
    { (one.setPhase answered.index (.finished false)).subscribe
        answered.connection answered.accepted with earlyEvents := [] }
  let subscribed_other : Watch Snapshot Patch :=
    { (other.setPhase answered.index (.finished false)).subscribe
        answered.connection answered.whole with earlyEvents := [] }
  let resumed : MaterializedProjection Snapshot :=
    { projection := watched.projection
      subscriptionId := answered.accepted.subscriptionId
      revision := answered.accepted.revision
      snapshot := answered.resumed.snapshot }
  rcases twins.early with ⟨since, since_one, since_other⟩
  have went_one : one.proceed watched answered.index
      = (subscribed_one.materialize answered.accepted.subscriptionId
          resumed).receiveAll watched since := by
    unfold Watch.proceed
    rw [twins.own]
    simp only [ne_eq, not_true_eq_false, if_false, twins.live,
      Bool.false_eq_true, Watch.resume, agrees.upToDate]
    show Watch.receiveAll watched _ one.earlyEvents = _
    rw [since_one, Watch.receiveAll, List.foldl_append]
    exact congrArg (Watch.receiveAll watched · since)
      (receiveAll_others rfl agrees.before)
  have went_other : other.proceed watched answered.index
      = (subscribed_other.receive watched answered.snapshot).receiveAll
          watched since := by
    unfold Watch.proceed
    rw [twins.otherOwn]
    simp only [twins.generation, ne_eq, not_true_eq_false, if_false,
      twins.disposed, twins.live, Bool.false_eq_true, Watch.resume,
      agrees.notUpToDate]
    show Watch.receiveAll watched _ other.earlyEvents = _
    rw [since_other, Watch.receiveAll, List.foldl_append]
    exact congrArg (Watch.receiveAll watched · (answered.snapshot :: since))
      (receiveAll_others (congrArg some agrees.subscriptionId) agrees.before)
  have subscribed : subscribed_other.subscriptionId
      = some answered.accepted.subscriptionId :=
    congrArg some agrees.subscriptionId
  have bare_other :
      subscribed_other.state[answered.accepted.subscriptionId]? = none := by
    show other.state[answered.accepted.subscriptionId]? = none
    rw [twins.state]
    exact bare _
  have whole := receive_whole watched subscribed bare_other
    answered.accepted.revision answered.snapshot.sentOn full
    (some answered.resumed.token)
  dsimp only at whole
  rw [← agrees.snapshot] at whole
  rw [went_one, went_other, whole]
  apply Alike.receiveAll
  refine
    { disposed := twins.disposed
      generation := twins.generation
      subscriptionId := congrArg some agrees.subscriptionId
      connecting := twins.connecting
      resyncing := twins.resyncing
      earlyEvents := rfl
      firstSnapshot := ?_
      connection := twins.connection
      acceptedOn := rfl
      attempted := ?_
      attempts := ?_
      state := ?_
      held := ?_
      applied := ?_ }
  · exact (congrArg First.resolve twins.firstSnapshot).trans settled
  · show (other.attempts.modify answered.index _).length
      = (one.attempts.modify answered.index _).length
    rw [List.length_modify, List.length_modify]
    exact twins.attempted
  · intro key
    show Option.Rel _
      (one.attempts.modify answered.index _)[key]?
      (other.attempts.modify answered.index _)[key]?
    by_cases same : key = answered.index
    · subst same
      rw [List.getElem?_modify_eq, List.getElem?_modify_eq, twins.own,
        twins.otherOwn]
      exact .some ⟨rfl, .finished false⟩
    · rw [List.getElem?_modify_ne _ _ (Ne.symm same),
        List.getElem?_modify_ne _ _ (Ne.symm same), twins.others key same]
      exact rel_refl (fun _ => ⟨rfl, .refl _⟩) _
  · intro key
    simp only [Watch.keep, Watch.report, Watch.materialize,
      Std.ExtTreeMap.getElem?_insert]
    split
    · exact .some ⟨rfl, rfl, rfl, agrees.interchangeable⟩
    · show Option.Rel _ one.state[key]? other.state[key]?
      rw [twins.state, bare key]
      exact .none
  · show Option.Rel _ one.held (some _)
    rw [held]
    exact .some ⟨rfl, agrees.interchangeable⟩
  · refine ⟨[], twins.applied.trans (List.append_nil _).symm, ?_⟩
    rw [List.append_nil]
    show other.applied ++ [_] = _
    rw [twins.otherApplied]
    rfl

end Watch

/-! ## A whole run -/

/--
A run in which a client that subscribes again is told it is up to date, and
what the server would have sent it whole.
-/
structure Resumption (watched : Watched Snapshot Patch Plan)
    (host : Deliveries watched.composition Delivery) where
  earlier : List (WatchStep Snapshot Patch)
  between : List (WatchStep Snapshot Patch)
  rest : List (WatchStep Snapshot Patch)
  index : Nat
  resumed : HeldValue Snapshot
  server : ProjectionSubscriptions Delivery
  params : Json
  /-- What the server would send a client that holds what it named. -/
  lacking : NumberedSnapshot Snapshot
  full : NumberedSnapshot Snapshot
  delivered : Option Delivery

namespace Resumption

variable [DecidableEq Delivery] {watched : Watched Snapshot Patch Plan}
variable {host : Deliveries watched.composition Delivery}
variable (resumption : Resumption watched host)

/-- The watch that is answered. -/
def before : Watch Snapshot Patch :=
  Machine.run (Watch.next watched) .start resumption.earlier

/-- What the server answers a client that names what it holds, or does not. -/
def answer (clientHeld : Option Delivery)
    (snapshot : NumberedSnapshot Snapshot) :
    ProjectionSubscribeAccepted × List (ClientEvent Snapshot Patch) :=
  host.answer watched.projection resumption.server resumption.params
    clientHeld snapshot resumption.delivered

/-- The answer the client gets. -/
def accepted : ProjectionSubscribeAccepted :=
  (resumption.answer (host.fromValue resumption.resumed.token)
    resumption.lacking).1

/-- The answer it would have got, had the server sent its snapshot whole. -/
def whole : ProjectionSubscribeAccepted × List (ClientEvent Snapshot Patch) :=
  resumption.answer none resumption.full

def steps : List (WatchStep Snapshot Patch) :=
  resumption.earlier
    ++ (.accept resumption.index resumption.accepted
      :: (resumption.between ++ (.proceed resumption.index
        :: resumption.rest)))

/-- The whole answer and its snapshot, in the order they are sent. -/
def wholeAnswer : List (WatchStep Snapshot Patch) :=
  .accept resumption.index resumption.whole.1
    :: resumption.whole.2.map fun event =>
      .event
        { event := event
          sentOn := resumption.before.connection
          returns := true }

/-- The run in which the whole answer and its snapshot come instead. -/
def wholeSteps (answers : List (WatchStep Snapshot Patch)) :
    List (WatchStep Snapshot Patch) :=
  resumption.earlier
    ++ (answers
      ++ (resumption.between ++ (.proceed resumption.index
        :: resumption.rest)))

/--
The attempt named what it holds, and is told it is up to date on the connection
it goes on on.  The updates before keep to what their deliveries name, the
server numbers the subscription afresh, and its delivery names the snapshot.
-/
structure UpToDate : Prop where
  keeps : Machine.EveryStep (Watch.next watched) host.Keeps .start
    resumption.earlier
  sent : ∃ generation connection,
    resumption.before.attempts[resumption.index]?
      = some ⟨generation, .sent connection (some resumption.resumed)⟩
  numbered : ∀ arrival ∈ resumption.before.earlyEvents,
    arrival.event.subscriptionId < resumption.server.nextSubscriptionId
  leaves : ∀ delivery, resumption.delivered = some delivery →
    host.Leaves delivery resumption.full.snapshot
  upToDate : resumption.accepted.upToDate = true
  waits : Machine.Throughout (Watch.next watched)
    (Watch.Waiting resumption.index)
    (resumption.before.next watched
      (.accept resumption.index resumption.accepted)) resumption.between

variable {resumption}

/-- What two watches are answered where one is up to date. -/
def answered (resumption : Resumption watched host) (connection : Nat) :
    Watch.Answered Snapshot Patch where
  index := resumption.index
  connection := connection
  resumed := resumption.resumed
  accepted := resumption.accepted
  whole := resumption.whole.1
  before := resumption.before.earlyEvents
  applied := resumption.before.applied
  snapshot :=
    { event := .snapshot resumption.accepted.subscriptionId
        resumption.accepted.revision
        { projection := watched.projection
          value := resumption.full.snapshot }
        (some resumption.resumed.token)
      sentOn := resumption.before.connection
      returns := true }

/-- The client's token names a delivery, which the server would send it. -/
theorem delivered_of_upToDate (upToDate : resumption.UpToDate)
    (named : resumption.before.Named host) :
    ∃ delivery, resumption.delivered = some delivery
      ∧ host.toValue delivery = some resumption.resumed.token
      ∧ host.Leaves delivery resumption.resumed.snapshot := by
  rcases upToDate.sent with ⟨generation, connection, sent⟩
  rcases named.requested _ _ sent connection resumption.resumed rfl with
    ⟨delivery, written, leaves⟩
  rcases host.held_of_upToDate upToDate.upToDate with
    ⟨read, held, delivered⟩
  have same : delivery = read :=
    Option.some.inj
      ((host.fromValue_toValue _ _ written).symm.trans held)
  exact ⟨delivery, same ▸ delivered, written, leaves⟩

theorem whole_events (upToDate : resumption.UpToDate)
    (named : resumption.before.Named host) (connection : Nat) :
    resumption.whole.2 = [(resumption.answered connection).snapshot.event] := by
  rcases delivered_of_upToDate upToDate named with
    ⟨delivery, delivered, written, _⟩
  have token : ProjectionSubscriptions.heldToken host.toValue
      resumption.delivered = some resumption.resumed.token := by
    rw [delivered]
    exact written
  simp only [whole, answer, Deliveries.answer, answered, accepted,
    ProjectionSubscriptions.acceptSubscription, token, Option.isSome_none,
    Bool.false_and, Bool.false_eq_true, if_false]
  rfl

theorem agrees (upToDate : resumption.UpToDate)
    (named : resumption.before.Named host) (connection : Nat) :
    (resumption.answered connection).Agrees watched
      resumption.full.snapshot := by
  rcases delivered_of_upToDate upToDate named with
    ⟨delivery, delivered, written, leaves⟩
  refine
    { upToDate := upToDate.upToDate
      notUpToDate := rfl
      subscriptionId := rfl
      snapshot := rfl
      before := ?_
      interchangeable := host.interchangeable delivery _ _ leaves
        (upToDate.leaves delivery delivered) }
  intro arrival member
  exact Nat.ne_of_lt (upToDate.numbered arrival member)

/-- A watch that is answered is one that has no subscription yet. -/
theorem before_current (upToDate : resumption.UpToDate)
    (sound : resumption.before.Sound) {generation connection : Nat}
    (sent : resumption.before.attempts[resumption.index]?
      = some ⟨generation, .sent connection (some resumption.resumed)⟩) :
    resumption.before.disposed = false
      ∧ generation = resumption.before.generation
      ∧ resumption.before.subscriptionId = none
      ∧ resumption.before.connecting = some resumption.index := by
  rcases upToDate.waits [] resumption.between.nil_prefix with
    ⟨live, other, resumeFrom, accepted, there⟩
  simp only [Machine.run_nil, Watch.next, Watch.accept, sent] at live there
  have disposed : resumption.before.disposed = false := live
  have current : generation = resumption.before.generation := by
    simp only [Watch.setPhase, List.getElem?_modify_eq, sent] at there
    exact congrArg Attempt.generation (Option.some.inj there)
  have sound_live := sound.live disposed
  exact ⟨disposed, current, sound_live.none_subscribed sent current rfl,
    sound_live.only _ _ sent current rfl⟩

/-- A watch that was answered whole, the answer and the snapshot in any order. -/
theorem run_wholeAnswer (upToDate : resumption.UpToDate)
    (sound : resumption.before.Sound) (named : resumption.before.Named host)
    {generation connection : Nat}
    (sent : resumption.before.attempts[resumption.index]?
      = some ⟨generation, .sent connection (some resumption.resumed)⟩)
    {answers : List (WatchStep Snapshot Patch)}
    (either : answers = resumption.wholeAnswer
      ∨ answers = resumption.wholeAnswer.reverse) :
    Machine.run (Watch.next watched) resumption.before answers
      = { resumption.before.setPhase resumption.index
            (.answered connection (some resumption.resumed)
              resumption.whole.1) with
          earlyEvents := resumption.before.earlyEvents
            ++ [(resumption.answered connection).snapshot] } := by
  rcases before_current upToDate sound sent with
    ⟨disposed, _, unsubscribed, _⟩
  have listed : resumption.wholeAnswer
      = [.accept resumption.index resumption.whole.1,
        .event (resumption.answered connection).snapshot] := by
    unfold wholeAnswer
    rw [whole_events upToDate named connection]
    rfl
  have pushes : ∀ watch : Watch Snapshot Patch, watch.disposed = false →
      watch.subscriptionId = none →
        watch.notify watched (resumption.answered connection).snapshot
          = { watch with
              earlyEvents := watch.earlyEvents
                ++ [(resumption.answered connection).snapshot] } := by
    intro watch live none_subscribed
    unfold Watch.notify
    rw [live, none_subscribed]
    simp [answered, Watch.projectionOf]
  rcases either with rfl | rfl
  · rw [listed]
    show (resumption.before.accept _ _).notify watched _ = _
    simp only [Watch.accept, sent]
    exact pushes _ disposed unsubscribed
  · rw [listed]
    show (resumption.before.notify watched _).accept _ _ = _
    rw [pushes _ disposed unsubscribed]
    simp only [Watch.accept, sent]
    rfl

/-- The two answers leave twins. -/
theorem twins (upToDate : resumption.UpToDate)
    (sound : resumption.before.Sound) (named : resumption.before.Named host)
    {generation connection : Nat}
    (sent : resumption.before.attempts[resumption.index]?
      = some ⟨generation, .sent connection (some resumption.resumed)⟩)
    {answers : List (WatchStep Snapshot Patch)}
    (either : answers = resumption.wholeAnswer
      ∨ answers = resumption.wholeAnswer.reverse) :
    Watch.Twins (resumption.answered connection)
      (resumption.before.next watched
        (.accept resumption.index resumption.accepted))
      (Machine.run (Watch.next watched) resumption.before answers) := by
  rcases before_current upToDate sound sent with
    ⟨disposed, rfl, unsubscribed, busy⟩
  have accepts : resumption.before.next watched
      (.accept resumption.index resumption.accepted)
      = resumption.before.setPhase resumption.index
        (.answered connection (some resumption.resumed)
          resumption.accepted) := by
    simp only [Watch.next, Watch.accept, sent]
  rw [run_wholeAnswer upToDate sound named sent either, accepts]
  refine
    { live := disposed
      disposed := rfl
      generation := rfl
      unsubscribed := unsubscribed
      subscriptionId := rfl
      busy := busy
      connecting := rfl
      resyncing := rfl
      early := ⟨[], (List.append_nil _).symm, rfl⟩
      state := rfl
      held := rfl
      firstSnapshot := rfl
      connection := rfl
      acceptedOn := rfl
      applied := rfl
      otherApplied := rfl
      attempted := ?_
      own := ?_
      otherOwn := ?_
      others := ?_ }
  · simp only [Watch.setPhase, List.length_modify]
  · simp only [Watch.setPhase, answered, List.getElem?_modify_eq, sent]
    rfl
  · simp only [Watch.setPhase, answered, List.getElem?_modify_eq, sent]
    rfl
  · intro other differs
    have differs : resumption.index ≠ other := Ne.symm differs
    simp only [Watch.setPhase]
    rw [List.getElem?_modify_ne _ _ differs,
      List.getElem?_modify_ne _ _ differs]

/--
A watch that is told it is up to date reports what it would have reported had
the server sent its snapshot whole, but for that snapshot.
-/
theorem reported_upToDate (upToDate : resumption.UpToDate)
    (timely : Machine.EveryStep (Watch.next watched) Watch.Timely .start
      resumption.steps)
    {answers : List (WatchStep Snapshot Patch)}
    (either : answers = resumption.wholeAnswer
      ∨ answers = resumption.wholeAnswer.reverse) :
    ∃ since,
      (Machine.run (Watch.next watched) .start resumption.steps).reported
          = resumption.before.reported ++ since
        ∧ (Machine.run (Watch.next watched) .start
            (resumption.wholeSteps answers)).reported
          = resumption.before.reported
            ++ resumption.full.snapshot :: since := by
  unfold steps at timely
  rw [Machine.everyStep_append, Machine.everyStep_cons,
    Machine.everyStep_append] at timely
  rcases timely with ⟨timely_earlier, _, timely_between, _⟩
  have held := Watch.named_run
    (fun reached step within => ⟨timely_earlier reached step within,
      upToDate.keeps reached step within⟩)
    resumption.earlier (List.prefix_refl _)
  rcases held with ⟨sound, named⟩
  have sound_accepted : (resumption.before.next watched
      (.accept resumption.index resumption.accepted)).Sound :=
    Watch.Sound.next watched sound _ trivial
  rcases upToDate.sent with ⟨generation, connection, sent⟩
  rcases (twins upToDate sound named sent either).run sound_accepted
      timely_between upToDate.waits with ⟨still, sound_between⟩
  rcases ((still.proceed_alike sound_between
    (agrees upToDate named connection)).run resumption.rest).applied with
    ⟨since, since_one, since_other⟩
  refine ⟨since.map AppliedEvent.snapshot, ?_, ?_⟩
  · unfold steps
    rw [Machine.run_append, Machine.run_cons, Machine.run_append]
    exact (congrArg (List.map AppliedEvent.snapshot) since_one).trans
      List.map_append
  · unfold wholeSteps
    rw [Machine.run_append, Machine.run_append, Machine.run_append]
    refine (congrArg (List.map AppliedEvent.snapshot) since_other).trans ?_
    rw [List.append_assoc]
    exact List.map_append

end Resumption

/--
In a run whose events each arrive while the connection they were sent on is in
force, a watch applies only events of the connection its subscription was
accepted on, in the order of their revisions, and a watch that is told it is up
to date reports what it would have reported had the server sent its snapshot
whole.
-/
theorem watch_of_timely_events [DecidableEq Delivery]
    (watched : Watched Snapshot Patch Plan)
    (host : Deliveries watched.composition Delivery)
    (steps : List (WatchStep Snapshot Patch))
    (timely : Machine.EveryStep (Watch.next watched) Watch.Timely .start
      steps) :
    let watch := Machine.run (Watch.next watched) .start steps
    (∀ entry ∈ watch.applied, entry.sentOn = entry.acceptedOn)
      ∧ watch.applied.Pairwise AppliedEvent.Before
      ∧ (watch.disposed = false → ∀ entry ∈ watch.applied,
        entry.acceptedOn = watch.connection →
          watch.subscriptionId = some entry.event.subscriptionId)
      ∧ ∀ resumption : Resumption watched host,
        resumption.steps = steps → resumption.UpToDate →
          ∀ answers, answers = resumption.wholeAnswer
              ∨ answers = resumption.wholeAnswer.reverse →
            ∃ since, watch.reported = resumption.before.reported ++ since
              ∧ (Machine.run (Watch.next watched) .start
                  (resumption.wholeSteps answers)).reported
                = resumption.before.reported
                  ++ resumption.full.snapshot :: since := by
  intro watch
  have sound : watch.Sound :=
    Watch.sound_run watched timely steps (List.prefix_refl _)
  refine ⟨sound.inOrder.own, sound.inOrder.increasing, ?_, ?_⟩
  · intro disposed entry member current
    exact ((sound.live disposed).following entry member current).1
  · rintro resumption rfl upToDate answers either
    exact Resumption.reported_upToDate upToDate timely either

/-- A projection of notes whose patches add to a count. -/
def counted : Watched Nat Nat Unit where
  projection := "notes"
  composition :=
    { plans := fun _ => some ()
      materializePatch := fun held patch _ => .ok (held + patch.value) }

/-- A subscription to notes that is followed until its connection is lost. -/
def followedUntilLost : List (WatchStep Nat Nat) :=
  [.connection "connected", .send 0,
    .accept 0 { subscriptionId := 1, revision := 1, upToDate := false },
    .proceed 0, .settle 0,
    .event
      { event := .snapshot 1 1 { projection := "notes", value := 5 }
          (some (.number (.integer 5)))
        sentOn := 0
        returns := true },
    .connection "disconnected"]

/-- A host whose deliveries are the counts they leave. -/
def countedHost : Deliveries counted.composition Nat where
  toValue := fun count => some (.number (.integer count))
  fromValue := fun
    | .number (.integer (.ofNat count)) => some count
    | _ => none
  Leaves := fun count snapshot => snapshot = count
  MayHold := fun _ _ revision snapshot => snapshot = 2 + 3 * revision
  fromValue_toValue := by
    intro delivery token written
    cases written
    rfl
  interchangeable := by
    rintro delivery left right rfl rfl
    exact .refl _

/-- The client comes back at the count it left at, and is sent one patch. -/
def resumedNotes : Resumption counted countedHost where
  earlier := followedUntilLost ++ [.connection "connected", .send 1]
  between := []
  rest :=
    [.event
      { event := .patch 1 1 2 { projection := "notes", value := 3 }
          (some (.number (.integer 8)))
        sentOn := 1
        returns := true }]
  index := 1
  resumed := { token := .number (.integer 5), snapshot := 5 }
  server := .new { id := "ada", kind := .human }
  params := .object []
  lacking := { snapshot := 5, through := 0 }
  full := { snapshot := 5, through := 0 }
  delivered := some 5

theorem upToDate_resumedNotes : resumedNotes.UpToDate where
  keeps := by
    simp only [resumedNotes, followedUntilLost, List.cons_append,
      List.nil_append, Machine.everyStep_cons]
    refine ⟨trivial, trivial, nofun, trivial, trivial, ?_, trivial, trivial,
      trivial, Machine.everyStep_nil _ _ _⟩
    exact ⟨rfl, some 5, rfl, by rintro _ ⟨⟩ _ rfl; rfl⟩
  sent := ⟨1, 1, by decide +kernel⟩
  numbered := by decide +kernel
  leaves := by
    rintro _ ⟨⟩
    rfl
  upToDate := by decide +kernel
  waits := by
    intro reached within
    obtain rfl : reached = [] := List.prefix_nil.mp within
    exact ⟨by decide +kernel, 1, some resumedNotes.resumed,
      resumedNotes.accepted, by decide +kernel⟩

theorem watch_of_timely_events_resumedNotes :
    let watch := Machine.run (Watch.next counted) .start resumedNotes.steps
    (∀ entry ∈ watch.applied, entry.sentOn = entry.acceptedOn)
      ∧ ∃ since, watch.reported = [5] ++ since
        ∧ (Machine.run (Watch.next counted) .start
            (resumedNotes.wholeSteps resumedNotes.wholeAnswer)).reported
          = [5] ++ 5 :: since := by
  have timely : Machine.EveryStep (Watch.next counted) Watch.Timely .start
      resumedNotes.steps := by
    decide +kernel
  have reported : resumedNotes.before.reported = [5] := by decide +kernel
  rcases watch_of_timely_events counted countedHost resumedNotes.steps timely
    with ⟨own, _, _, resumes⟩
  have resumed := resumes resumedNotes rfl upToDate_resumedNotes
    resumedNotes.wholeAnswer (.inl rfl)
  rw [reported] at resumed
  exact ⟨own, resumed⟩

/--
An event of a lost connection that arrives after the loss is kept for the next
subscription, and applied where that has its id.
-/
theorem late_event_applied :
    ¬ ∀ entry ∈ (Machine.run (Watch.next counted) .start
        (followedUntilLost
          ++ [.event
              { event := .snapshot 1 7 { projection := "notes", value := 9 }
                  none
                sentOn := 0
                returns := true },
            .connection "connected", .send 1,
            .accept 1 { subscriptionId := 1, revision := 1, upToDate := false },
            .proceed 1])).applied,
      entry.sentOn = entry.acceptedOn := by
  decide +kernel

end Clerkenwell.Client
