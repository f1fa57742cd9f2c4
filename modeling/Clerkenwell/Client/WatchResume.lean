import Clerkenwell.Client.AlikeWatches
import Clerkenwell.Session.Subscriptions

/-!
# A watch that resumes

A client that subscribes again names what it holds, and a server that would
send what leaves it holding just that sends nothing.  The watch goes on from
the value it kept, and reports what it would have reported had the server sent
its snapshot whole.
-/

namespace Clerkenwell.Client

open Clerkenwell.Foundation
open Clerkenwell.Doc (Json)
open Clerkenwell.Session

variable {Snapshot Patch Plan Delivery : Type}

/-! ## What a host's deliveries name -/

/--
What a host keeps to: how its deliveries are written, which snapshots one may
leave a client holding, and which the client of a connection's subscription may
hold at a revision.  Snapshots that one delivery leaves are interchangeable.
-/
structure Deliveries (composition : Composition Snapshot Patch Plan)
    (Delivery : Type) where
  toValue : Delivery → Option Json
  fromValue : Json → Option Delivery
  Leaves : Delivery → Snapshot → Prop
  MayHold : (connection subscriptionId revision : Nat) → Snapshot → Prop
  fromValue_toValue : ∀ delivery token,
    toValue delivery = some token → fromValue token = some delivery
  interchangeable : ∀ delivery left right,
    Leaves delivery left → Leaves delivery right →
      Interchangeable composition left right

namespace Deliveries

variable {composition : Composition Snapshot Patch Plan}
variable (host : Deliveries composition Delivery)

/-- A token names a value it may leave a client holding. -/
def Names (value : HeldValue Snapshot) : Prop :=
  ∃ delivery, host.toValue delivery = some value.token
    ∧ host.Leaves delivery value.snapshot

/--
An update leaves a client that applies it holding what it says: a snapshot its
value, and a patch what it makes of anything the client may hold.
-/
def Leads (arrival : Arrival Snapshot Patch) : Prop :=
  match arrival.event with
  | .snapshot id revision snapshot _ =>
      host.MayHold arrival.sentOn id revision snapshot.value
  | .patch id fromRevision toRevision patch _ =>
      ∀ plan before after, composition.plans patch.projection = some plan →
        host.MayHold arrival.sentOn id fromRevision before →
          composition.materializePatch before patch plan = .ok after →
            host.MayHold arrival.sentOn id toRevision after

/-- An update, and the token of the delivery that names what it leaves. -/
def Carried (arrival : Arrival Snapshot Patch) : Prop :=
  host.Leads arrival
    ∧ ∃ delivered : Option Delivery,
      Watch.tokenOf arrival.event
          = ProjectionSubscriptions.heldToken host.toValue delivered
        ∧ ∀ delivery, delivered = some delivery →
          ∀ snapshot, host.MayHold arrival.sentOn arrival.event.subscriptionId
              arrival.event.revision snapshot →
            host.Leaves delivery snapshot

/--
A step that keeps to what deliveries name: an update carries its own, and a
client is told it is up to date only at what it named.
-/
def Keeps (watch : Watch Snapshot Patch) : WatchStep Snapshot Patch → Prop
  | .event arrival => host.Carried arrival
  | .accept index accepted =>
      accepted.upToDate = true →
        ∀ generation connection value,
          watch.attempts[index]?
              = some ⟨generation, .sent connection (some value)⟩ →
            ∃ delivery, host.fromValue value.token = some delivery
              ∧ ∀ snapshot, host.Leaves delivery snapshot →
                host.MayHold connection accepted.subscriptionId
                  accepted.revision snapshot
  | _ => True

/-- What a server answers a client that subscribes to a projection. -/
def answer [DecidableEq Delivery] (projection : String)
    (server : ProjectionSubscriptions Delivery) (params : Json)
    (clientHeld : Option Delivery) (snapshot : NumberedSnapshot Snapshot)
    (delivered : Option Delivery) :
    ProjectionSubscribeAccepted × List (ClientEvent Snapshot Patch) :=
  let numbered : NumberedSnapshot (Projected Snapshot) :=
    { snapshot := { projection := projection, value := snapshot.snapshot }
      through := snapshot.through }
  (server.acceptSubscription host.toValue projection params clientHeld
    numbered delivered).1

/-- A client is up to date only where it named the delivery it is sent. -/
theorem held_of_upToDate [DecidableEq Delivery] {projection : String}
    {server : ProjectionSubscriptions Delivery} {params : Json}
    {clientHeld delivered : Option Delivery}
    {snapshot : NumberedSnapshot Snapshot}
    (upToDate : (host.answer projection server params clientHeld snapshot
      delivered).1.upToDate = true) :
    ∃ delivery, clientHeld = some delivery ∧ delivered = some delivery := by
  simp only [answer, ProjectionSubscriptions.acceptSubscription,
    Bool.and_eq_true, beq_iff_eq] at upToDate
  rcases Option.isSome_iff_exists.mp upToDate.1 with ⟨delivery, held⟩
  exact ⟨delivery, held, upToDate.2.symm.trans held⟩

end Deliveries

/-! ## What a watch holds is named -/

namespace Watch

variable {watched : Watched Snapshot Patch Plan}
variable {host : Deliveries watched.composition Delivery}
variable {watch : Watch Snapshot Patch}

/-- What a watch holds, named and materialised, is what a host leads it to. -/
structure Named (host : Deliveries watched.composition Delivery)
    (watch : Watch Snapshot Patch) : Prop where
  held : ∀ value, watch.held = some value → host.Names value
  requested : ∀ (index : Nat) (attempt : Attempt Snapshot),
    watch.attempts[index]? = some attempt →
      ∀ connection value,
        attempt.phase.request = some (connection, some value) →
          host.Names value
  resumable : ∀ (index generation connection : Nat)
    (value : HeldValue Snapshot) (accepted : ProjectionSubscribeAccepted),
    watch.attempts[index]?
        = some ⟨generation, .answered connection (some value) accepted⟩ →
      accepted.upToDate = true →
        host.MayHold connection accepted.subscriptionId accepted.revision
          value.snapshot
  state : ∀ (id : Nat) (materialized : MaterializedProjection Snapshot),
    watch.state[id]? = some materialized →
      host.MayHold watch.acceptedOn id materialized.revision
        materialized.snapshot
  early : ∀ arrival ∈ watch.earlyEvents, host.Carried arrival

theorem named_start : Named host (start : Watch Snapshot Patch) := by
  constructor <;> simp [start]

/-- What a patch that applies composes. -/
theorem composed_of_applied_patch
    {composition : Composition Snapshot Patch Plan}
    {held : Option (MaterializedProjection Snapshot)}
    {id fromRevision toRevision : Nat} {patch : Projected Patch}
    {token : Option Json} {update : MaterializedProjection Snapshot}
    (applied : applyProjectionEvent composition held
      (.patch id fromRevision toRevision patch token) = .ok update) :
    ∃ previous plan, held = some previous
      ∧ previous.revision = fromRevision
      ∧ composition.plans patch.projection = some plan
      ∧ composition.materializePatch previous.snapshot patch plan
        = .ok update.snapshot
      ∧ update.revision = toRevision := by
  have reached : update.revision = toRevision := revision_of_applied applied
  rcases held_of_applied_patch applied with ⟨previous, rfl, starts⟩
  simp only [applyProjectionEvent] at applied
  split at applied
  · cases applied
  · split at applied
    · cases applied
    · split at applied
      · cases applied
      · split at applied
        · cases applied
        · rename_i plan planned
          refine ⟨previous, plan, rfl, starts, planned, ?_, reached⟩
          cases composed : composition.materializePatch
              previous.snapshot patch plan with
          | error message =>
              rw [composed] at applied
              cases applied
          | ok snapshot =>
              rw [composed] at applied
              cases applied
              rfl

/-- What an update leaves a watch holding is what its host leads it to. -/
theorem mayHold_of_applied {arrival : Arrival Snapshot Patch}
    (named : watch.Named host) (timely : arrival.sentOn = watch.acceptedOn)
    (leads : host.Leads arrival)
    {update : MaterializedProjection Snapshot}
    (applied : applyProjectionEvent watched.composition
      watch.state[arrival.event.subscriptionId]? arrival.event = .ok update) :
    host.MayHold watch.acceptedOn arrival.event.subscriptionId update.revision
      update.snapshot := by
  rw [← timely]
  unfold Deliveries.Leads at leads
  cases event : arrival.event with
  | snapshot id revision snapshot token =>
      rw [event] at applied leads
      cases applied
      exact leads
  | patch id fromRevision toRevision patch token =>
      rw [event] at applied leads
      rcases composed_of_applied_patch applied with
        ⟨previous, plan, there, starts, planned, composed, reached⟩
      have before := named.state _ previous there
      rw [starts, ← timely] at before
      rw [reached]
      exact leads plan _ _ planned before composed

theorem Named.failed (named : watch.Named host) : watch.failed.Named host := by
  refine ⟨?_, named.requested, named.resumable, named.state, named.early⟩
  intro value there
  cases there

theorem Named.materialize (named : watch.Named host) {id : Nat}
    {update : MaterializedProjection Snapshot}
    (holds : host.MayHold watch.acceptedOn id update.revision
      update.snapshot) :
    (watch.materialize id update).Named host := by
  refine ⟨named.held, named.requested, named.resumable, ?_, named.early⟩
  intro key materialized there
  simp only [Watch.materialize, Std.ExtTreeMap.getElem?_insert] at there
  split at there
  · rename_i same
    obtain rfl : id = key := by simpa using same
    cases there
    exact holds
  · exact named.state key materialized there

theorem Named.report (named : watch.Named host)
    (arrival : Arrival Snapshot Patch) (snapshot : Snapshot) :
    (watch.report arrival snapshot).Named host :=
  ⟨named.held, named.requested, named.resumable, named.state, named.early⟩

theorem Named.keep (named : watch.Named host)
    {event : ClientEvent Snapshot Patch} {snapshot : Snapshot}
    (names : ∀ token, tokenOf event = some token →
      host.Names { token := token, snapshot := snapshot }) :
    (watch.keep event snapshot).Named host := by
  refine ⟨?_, named.requested, named.resumable, named.state, named.early⟩
  intro value there
  rcases Option.map_eq_some_iff.mp there with ⟨token, said, rfl⟩
  exact names token said

theorem Named.receive (named : watch.Named host)
    {arrival : Arrival Snapshot Patch}
    (timely : arrival.sentOn = watch.acceptedOn)
    (carried : host.Carried arrival) :
    (watch.receive watched arrival).Named host := by
  rcases receive_cases watched watch arrival with
    same | same | ⟨update, own, later, applied, taken⟩
  · rw [same]
    exact named
  · rw [same]
    exact named.failed
  · have holds := mayHold_of_applied named timely carried.1 applied
    have materialized := named.materialize holds
    have reported := materialized.report arrival update.snapshot
    rcases taken with same | same | same
    · rw [same]
      exact materialized.failed
    · rw [same]
      exact reported.failed
    · rw [same]
      apply reported.keep
      intro token said
      rcases carried.2 with ⟨delivered, carries, leaves⟩
      rw [said] at carries
      rcases Option.bind_eq_some_iff.mp carries.symm with
        ⟨delivery, rfl, written⟩
      refine ⟨delivery, written, leaves delivery rfl update.snapshot ?_⟩
      rw [revision_of_applied applied, ← timely] at holds
      exact holds

theorem Named.receiveAll {arrivals : List (Arrival Snapshot Patch)}
    (named : watch.Named host)
    (timely : ∀ arrival ∈ arrivals, arrival.sentOn = watch.acceptedOn)
    (carried : ∀ arrival ∈ arrivals, host.Carried arrival) :
    (watch.receiveAll watched arrivals).Named host := by
  induction arrivals generalizing watch with
  | nil => exact named
  | cons arrival rest inductionHypothesis =>
      apply inductionHypothesis
      · exact named.receive (timely arrival List.mem_cons_self)
          (carried arrival List.mem_cons_self)
      · intro later member
        rw [(frame_receive watched watch arrival).acceptedOn]
        exact timely later (List.mem_cons_of_mem _ member)
      · intro later member
        exact carried later (List.mem_cons_of_mem _ member)

/-- An attempt that moves to a phase that names what is named stays named. -/
theorem Named.setPhase (named : watch.Named host) {index : Nat}
    {phase : Phase Snapshot}
    (names : ∀ connection value,
      phase.request = some (connection, some value) → host.Names value)
    (resumable : ∀ connection value accepted,
      phase = .answered connection (some value) accepted →
        accepted.upToDate = true →
          host.MayHold connection accepted.subscriptionId accepted.revision
            value.snapshot) :
    (watch.setPhase index phase).Named host := by
  refine ⟨named.held, ?_, ?_, named.state, named.early⟩
  · intro other attempt found connection value request
    rcases attempt_setPhase found with ⟨_, kept⟩ | ⟨_, earlier, _, rfl⟩
    · exact named.requested other attempt kept connection value request
    · exact names connection value request
  · intro other generation connection value accepted found upToDate
    rcases attempt_setPhase found with ⟨_, kept⟩ | ⟨_, earlier, _, moved⟩
    · exact named.resumable other generation connection value accepted kept
        upToDate
    · exact resumable connection value accepted
        (congrArg Attempt.phase moved).symm upToDate

theorem Named.finish (named : watch.Named host) (index : Nat)
    {phase : Phase Snapshot} (above : phase.live = false) :
    (watch.setPhase index phase).Named host := by
  apply named.setPhase
  · intro connection value request
    cases phase with
    | finished refused => cases request
    | settled => cases request
    | _ => cases above
  · rintro connection value accepted rfl
    cases above

theorem Named.notify (named : watch.Named host) (sound : watch.Sound)
    {arrival : Arrival Snapshot Patch}
    (timely : arrival.sentOn = watch.connection)
    (carried : host.Carried arrival) :
    (watch.notify watched arrival).Named host := by
  unfold Watch.notify
  split
  · exact named
  · rename_i disposed
    have live : watch.Live := sound.live (by simpa using disposed)
    split
    · exact named
    · split
      · refine ⟨named.held, named.requested, named.resumable, named.state, ?_⟩
        intro early member
        rcases List.mem_append.mp member with earlier | last
        · exact named.early early earlier
        · rw [List.mem_singleton.mp last]
          exact carried
      · rename_i subscribed
        rcases Option.ne_none_iff_exists'.mp (by simpa using subscribed) with
          ⟨id, subscribed⟩
        exact named.receive
          (timely.trans (live.accepted id subscribed).symm) carried

theorem Named.proceed (named : watch.Named host) (sound : watch.Sound)
    (index : Nat) : (watch.proceed watched index).Named host := by
  unfold Watch.proceed
  split
  · rename_i generation connection resumeFrom accepted there
    have finished : (watch.setPhase index (.finished false)).Named host :=
      named.finish index rfl
    dsimp only
    split
    · exact finished
    · rename_i current
      obtain rfl : generation = watch.generation := not_not.mp current
      split
      · exact finished
      · rename_i disposed
        have live : watch.Live := sound.live (by simpa using disposed)
        have accepted_on : connection = watch.connection :=
          (live.requested index _ there rfl connection resumeFrom rfl).1
        have bare : ∀ id : Nat, watch.state[id]? = none :=
          live.bare (live.none_subscribed there rfl rfl)
        have subscribed : ((watch.setPhase index (.finished false)).subscribe
            connection accepted).Named host := by
          refine ⟨finished.held, finished.requested, finished.resumable, ?_,
            finished.early⟩
          intro id materialized found
          cases (bare id).symm.trans found
        have resumed : (((watch.setPhase index (.finished false)).subscribe
            connection accepted).resume watched accepted
              resumeFrom).Named host := by
          unfold Watch.resume
          cases upToDate : accepted.upToDate with
          | false => exact subscribed
          | true =>
              cases resumeFrom with
              | none => exact subscribed
              | some value =>
                  exact subscribed.materialize (named.resumable index _
                    connection value accepted there upToDate)
        apply Named.receiveAll
        · exact ⟨resumed.held, resumed.requested, resumed.resumable,
            resumed.state, by simp⟩
        · intro arrival member
          have early : arrival ∈ watch.earlyEvents := by
            unfold Watch.resume at member
            split at member <;> exact member
          rw [live.early arrival early, ← accepted_on]
          unfold Watch.resume
          split <;> rfl
        · intro arrival member
          apply named.early arrival
          unfold Watch.resume at member
          split at member <;> exact member
  · exact named

theorem Named.connect (named : watch.Named host) :
    watch.connect.Named host := by
  unfold Watch.connect
  split
  · exact named
  · split
    · exact named
    · have made : ∀ (index : Nat) (attempt : Attempt Snapshot),
          (watch.attempts
            ++ [{ generation := watch.generation,
                  phase := .scheduled }])[index]? = some attempt →
            watch.attempts[index]? = some attempt
              ∨ attempt = ⟨watch.generation, .scheduled⟩ := by
        intro index attempt there
        rw [List.getElem?_append] at there
        split at there
        · exact .inl there
        · obtain ⟨_, rfl⟩ := by
            simpa [List.getElem?_singleton] using there
          exact .inr rfl
      refine ⟨named.held, ?_, ?_, named.state, named.early⟩
      · intro index attempt there connection value request
        rcases made index attempt there with earlier | rfl
        · exact named.requested index attempt earlier connection value request
        · cases request
      · intro index generation connection value accepted there
        rcases made index _ there with earlier | scheduled
        · exact named.resumable index generation connection value accepted
            earlier
        · cases scheduled

theorem Named.send (named : watch.Named host) (index : Nat) :
    (watch.send index).Named host := by
  unfold Watch.send
  split
  · apply named.setPhase
    · intro connection value request
      have held : watch.held = some value :=
        congrArg Prod.snd (Option.some.inj request)
      exact named.held value held
    · intro connection value accepted moved
      cases moved
  · exact named

theorem Named.accept (named : watch.Named host) {index : Nat}
    {accepted : ProjectionSubscribeAccepted}
    (keeps : host.Keeps watch (.accept index accepted)) :
    (watch.accept index accepted).Named host := by
  unfold Watch.accept
  split
  · rename_i generation connection resumeFrom there
    have names : ∀ value, resumeFrom = some value → host.Names value := by
      rintro value rfl
      exact named.requested index _ there connection value rfl
    apply named.setPhase
    · intro _ value request
      exact names value (congrArg Prod.snd (Option.some.inj request))
    · rintro _ value _ ⟨⟩ upToDate
      rcases keeps upToDate generation connection value there with
        ⟨delivery, read, mayHold⟩
      rcases names value rfl with ⟨named_delivery, written, leaves⟩
      have same : named_delivery = delivery :=
        Option.some.inj
          ((host.fromValue_toValue _ _ written).symm.trans read)
      exact mayHold value.snapshot (same ▸ leaves)
  · exact named

theorem Named.fail (named : watch.Named host) (index : Nat) (refused : Bool) :
    (watch.fail index refused).Named host := by
  unfold Watch.fail
  split
  · exact named.finish index rfl
  · exact named

theorem Named.settle (named : watch.Named host) (index : Nat) :
    (watch.settle index).Named host := by
  unfold Watch.settle
  split
  · have settled : (watch.setPhase index .settled).Named host :=
      named.finish index rfl
    exact ⟨settled.held, settled.requested, settled.resumable, settled.state,
      settled.early⟩
  · exact named

theorem Named.connectionState (named : watch.Named host) (status : String) :
    (watch.connectionState status).Named host := by
  unfold Watch.connectionState
  split
  · split
    · exact named
    · exact named.connect
  · split
    · exact named
    · dsimp only
      split
      · exact ⟨named.held, named.requested, named.resumable, named.state,
          named.early⟩
      · refine ⟨named.held, named.requested, named.resumable, ?_, ?_⟩
        · intro id materialized there
          simp [Watch.lose] at there
        · intro arrival member
          cases member

theorem Named.next (named : watch.Named host) (sound : watch.Sound)
    {step : WatchStep Snapshot Patch} (timely : watch.Timely step)
    (keeps : host.Keeps watch step) :
    (watch.next watched step).Named host := by
  have unmoved : ∀ disposed subscriptionId resyncing firstSnapshot,
      Named host
        { watch with
          disposed := disposed
          subscriptionId := subscriptionId
          resyncing := resyncing
          firstSnapshot := firstSnapshot } :=
    fun _ _ _ _ => ⟨named.held, named.requested, named.resumable,
      named.state, named.early⟩
  cases step with
  | connection status => exact named.connectionState status
  | event arrival => exact named.notify sound timely keeps
  | connect => exact named.connect
  | send index => exact named.send index
  | accept index accepted => exact named.accept keeps
  | fail index refused => exact named.fail index refused
  | proceed index => exact named.proceed sound index
  | settle index => exact named.settle index
  | resynced => exact unmoved _ _ _ _
  | timeout => exact unmoved _ _ _ _
  | abandon =>
      rw [Watch.next]
      split
      · exact unmoved _ _ _ _
      · exact named
  | abort =>
      rw [Watch.next]
      split
      · exact named
      · exact unmoved _ _ _ _
  | unsubscribe =>
      rw [Watch.next]
      split
      · exact unmoved _ _ _ _
      · exact named

/-- A run whose events are timely and named is sound and named throughout. -/
theorem named_run {steps : List (WatchStep Snapshot Patch)}
    (keeps : Machine.EveryStep (Watch.next watched)
      (fun watch step => watch.Timely step ∧ host.Keeps watch step) start
      steps) :
    Machine.Throughout (Watch.next watched)
      (fun watch => watch.Sound ∧ watch.Named host) start steps :=
  Machine.throughout_of_everyStep
    (fun _ step held kept =>
      ⟨held.1.next watched step kept.1, held.2.next held.1 kept.1 kept.2⟩)
    ⟨sound_start, named_start⟩ keeps

end Watch

end Clerkenwell.Client
