import Clerkenwell.Client.ProjectionWatch

/-!
# A watch keeps to one connection

Where every event arrives while the connection it was sent on is in force, a
watch applies only events of the connection its subscription was accepted on,
in the order of their revisions, whichever order its callbacks come in.
-/

namespace Clerkenwell.Client

open Clerkenwell.Foundation
open Clerkenwell.Doc (Json)
open Clerkenwell.Session

/-! ## How far an attempt is -/

namespace Phase

variable {Snapshot : Type}

/-- An attempt that may yet send, be answered or go on. -/
def live : Phase Snapshot → Bool
  | .scheduled | .sent _ _ | .answered _ _ _ => true
  | .finished _ | .settled => false

/-- An attempt whose handlers have not run. -/
def unsettled : Phase Snapshot → Bool
  | .settled => false
  | _ => true

/-- The connection an attempt's request was sent on, and what it named. -/
def request : Phase Snapshot → Option (Nat × Option (HeldValue Snapshot))
  | .sent connection resumeFrom => some (connection, resumeFrom)
  | .answered connection resumeFrom _ => some (connection, resumeFrom)
  | _ => none

theorem unsettled_of_live {phase : Phase Snapshot} (alive : phase.live) :
    phase.unsettled := by
  cases phase <;> first | rfl | cases alive

end Phase

theorem First.resolve_ne_pending (first : First) :
    first.resolve ≠ .pending := by
  cases first <;> simp [First.resolve]

theorem First.reject_ne_pending (first : First) :
    first.reject ≠ .pending := by
  cases first <;> simp [First.reject]

/-- The later of two events is of a later connection, or of a later revision. -/
def AppliedEvent.Before {Snapshot Patch : Type}
    (earlier later : AppliedEvent Snapshot Patch) : Prop :=
  earlier.acceptedOn < later.acceptedOn
    ∨ (earlier.acceptedOn = later.acceptedOn
      ∧ earlier.event.subscriptionId = later.event.subscriptionId
      ∧ earlier.event.revision < later.event.revision)

namespace Watch

variable {Snapshot Patch Plan : Type}
variable {watch : Watch Snapshot Patch}

/-! ## What each part of a watch stays in step with -/

/-- What a watch applied is in order. -/
structure InOrder (watch : Watch Snapshot Patch) : Prop where
  own : ∀ entry ∈ watch.applied, entry.sentOn = entry.acceptedOn
  past : ∀ entry ∈ watch.applied, entry.acceptedOn ≤ watch.connection
  increasing : watch.applied.Pairwise AppliedEvent.Before

/-- A watch that is not disposed follows the connection in force. -/
structure Live (watch : Watch Snapshot Patch) : Prop where
  generation : watch.generation = watch.connection
  early : ∀ arrival ∈ watch.earlyEvents, arrival.sentOn = watch.connection
  accepted : ∀ id, watch.subscriptionId = some id →
    watch.acceptedOn = watch.connection
  older : ∀ (index : Nat) (attempt : Attempt Snapshot),
    watch.attempts[index]? = some attempt →
      attempt.generation ≤ watch.generation
  only : ∀ (index : Nat) (attempt : Attempt Snapshot),
    watch.attempts[index]? = some attempt →
      attempt.generation = watch.generation → attempt.phase.unsettled →
        watch.connecting = some index
  done : ∀ id, watch.subscriptionId = some id →
    ∀ (index : Nat) (attempt : Attempt Snapshot),
      watch.attempts[index]? = some attempt →
        attempt.generation = watch.generation → attempt.phase.live = false
  requested : ∀ (index : Nat) (attempt : Attempt Snapshot),
    watch.attempts[index]? = some attempt →
      attempt.generation = watch.generation →
        ∀ connection resumeFrom,
          attempt.phase.request = some (connection, resumeFrom) →
            connection = watch.connection ∧ resumeFrom = watch.held
  bare : watch.subscriptionId = none → ∀ id : Nat, watch.state[id]? = none
  first : ∀ value, watch.held = some value →
    watch.firstSnapshot ≠ .pending
  following : ∀ entry ∈ watch.applied,
    entry.acceptedOn = watch.connection →
      watch.subscriptionId = some entry.event.subscriptionId
        ∧ ∃ materialized,
          watch.state[entry.event.subscriptionId]? = some materialized
            ∧ entry.event.revision ≤ materialized.revision

/-- What holds of a watch through a run. -/
structure Sound (watch : Watch Snapshot Patch) : Prop where
  inOrder : watch.InOrder
  live : watch.disposed = false → watch.Live

theorem sound_start : (start : Watch Snapshot Patch).Sound := by
  constructor
  · constructor <;> simp [start]
  · intro _
    constructor <;> simp [start]

/-- An event that arrives while the connection it was sent on is in force. -/
def Timely (watch : Watch Snapshot Patch) : WatchStep Snapshot Patch → Prop
  | .event arrival => arrival.sentOn = watch.connection
  | _ => True

instance (watch : Watch Snapshot Patch) (step : WatchStep Snapshot Patch) :
    Decidable (watch.Timely step) := by
  cases step <;> unfold Timely <;> infer_instance

/-! ## Events -/

variable (watched : Watched Snapshot Patch Plan)

/--
What receiving an event does: it is passed over, it fails, or it is applied,
and then the caller's handler returns or throws.
-/
theorem receive_cases (watch : Watch Snapshot Patch)
    (arrival : Arrival Snapshot Patch) :
    watch.receive watched arrival = watch
      ∨ watch.receive watched arrival = watch.failed
      ∨ ∃ update,
        watch.subscriptionId = some arrival.event.subscriptionId
          ∧ (∀ previous,
            watch.state[arrival.event.subscriptionId]? = some previous →
              previous.revision < arrival.event.revision)
          ∧ applyProjectionEvent watched.composition
              watch.state[arrival.event.subscriptionId]? arrival.event
            = .ok update
          ∧ (watch.receive watched arrival
              = (watch.materialize arrival.event.subscriptionId
                  update).failed
            ∨ watch.receive watched arrival
              = ((watch.materialize arrival.event.subscriptionId
                  update).report arrival update.snapshot).failed
            ∨ watch.receive watched arrival
              = ((watch.materialize arrival.event.subscriptionId
                  update).report arrival update.snapshot).keep
                    arrival.event update.snapshot) := by
  unfold receive
  dsimp only
  split
  · exact .inl rfl
  · rename_i subscribed
    split
    · exact .inl rfl
    · rename_i later
      cases result : applyProjectionEvent watched.composition
          watch.state[arrival.event.subscriptionId]? arrival.event with
      | error message => exact .inr (.inl rfl)
      | ok update =>
          refine .inr (.inr ⟨update, not_not.mp subscribed, ?_, rfl, ?_⟩)
          · intro previous there
            simpa [there] using later
          · dsimp only
            split
            · exact .inl rfl
            · split
              · exact .inr (.inr rfl)
              · exact .inr (.inl rfl)

theorem Sound.failed (sound : watch.Sound) (disposed : watch.disposed = false)
    {id : Nat} (subscribed : watch.subscriptionId = some id) :
    watch.failed.Sound := by
  constructor
  · exact ⟨sound.inOrder.own, sound.inOrder.past, sound.inOrder.increasing⟩
  · intro _
    have live : watch.Live := sound.live disposed
    refine ⟨live.generation, live.early, live.accepted, live.older, live.only,
      live.done, ?_, live.bare, ?_, live.following⟩
    · intro index attempt there current connection resumeFrom request
      have dead : attempt.phase.live = false :=
        live.done id subscribed index attempt there current
      cases phase : attempt.phase <;> simp_all [Phase.live, Phase.request]
    · intro value there
      cases there

/-- Materialising a later update of the subscription keeps a watch sound. -/
theorem Sound.materialize (sound : watch.Sound)
    (disposed : watch.disposed = false) {id : Nat}
    (subscribed : watch.subscriptionId = some id)
    {update : MaterializedProjection Snapshot}
    (later : ∀ previous, watch.state[id]? = some previous →
      previous.revision ≤ update.revision) :
    (watch.materialize id update).Sound := by
  constructor
  · exact ⟨sound.inOrder.own, sound.inOrder.past, sound.inOrder.increasing⟩
  · intro _
    have live : watch.Live := sound.live disposed
    refine ⟨live.generation, live.early, live.accepted, live.older, live.only,
      live.done, live.requested, ?_, live.first, ?_⟩
    · intro absent
      cases subscribed.symm.trans absent
    · intro entry member current
      rcases live.following entry member current with
        ⟨follows, materialized, there, covered⟩
      cases subscribed.symm.trans follows
      refine ⟨follows, update, ?_, covered.trans (later _ there)⟩
      simp [Watch.materialize]

/-- Reporting an update that was just materialised keeps a watch sound. -/
theorem Sound.report {arrival : Arrival Snapshot Patch}
    (sound : watch.Sound) (disposed : watch.disposed = false)
    (timely : arrival.sentOn = watch.connection)
    (subscribed :
      watch.subscriptionId = some arrival.event.subscriptionId)
    {update : MaterializedProjection Snapshot}
    (there : watch.state[arrival.event.subscriptionId]? = some update)
    (revision : update.revision = arrival.event.revision)
    (later : ∀ entry ∈ watch.applied,
      entry.acceptedOn = watch.connection →
        entry.event.revision < arrival.event.revision)
    (snapshot : Snapshot) :
    (watch.report arrival snapshot).Sound := by
  have live : watch.Live := sound.live disposed
  have accepted : watch.acceptedOn = watch.connection :=
    live.accepted _ subscribed
  constructor
  · constructor
    · intro entry member
      rcases List.mem_append.mp member with earlier | last
      · exact sound.inOrder.own entry earlier
      · rw [List.mem_singleton.mp last]
        exact timely.trans accepted.symm
    · intro entry member
      rcases List.mem_append.mp member with earlier | last
      · exact sound.inOrder.past entry earlier
      · rw [List.mem_singleton.mp last]
        exact accepted.le
    · apply List.pairwise_append.mpr
      refine ⟨sound.inOrder.increasing, List.pairwise_singleton _ _, ?_⟩
      intro entry member last is_last
      rw [List.mem_singleton.mp is_last]
      by_cases current : entry.acceptedOn = watch.connection
      · apply Or.inr
        refine ⟨current.trans accepted.symm, ?_, later entry member current⟩
        have follows := (live.following entry member current).1
        exact Option.some.inj (follows.symm.trans subscribed)
      · apply Or.inl
        show entry.acceptedOn < watch.acceptedOn
        have past := sound.inOrder.past entry member
        omega
  · intro _
    refine ⟨live.generation, live.early, live.accepted, live.older, live.only,
      live.done, live.requested, live.bare, live.first, ?_⟩
    intro entry member current
    rcases List.mem_append.mp member with earlier | last
    · exact live.following entry earlier current
    · rw [List.mem_singleton.mp last]
      exact ⟨subscribed, update, there, revision.ge⟩

theorem Sound.keep (sound : watch.Sound) (disposed : watch.disposed = false)
    {id : Nat} (subscribed : watch.subscriptionId = some id)
    (event : ClientEvent Snapshot Patch) (snapshot : Snapshot) :
    (watch.keep event snapshot).Sound := by
  constructor
  · exact ⟨sound.inOrder.own, sound.inOrder.past, sound.inOrder.increasing⟩
  · intro _
    have live : watch.Live := sound.live disposed
    refine ⟨live.generation, live.early, live.accepted, live.older, live.only,
      live.done, ?_, live.bare, ?_, live.following⟩
    · intro index attempt there current connection resumeFrom request
      have dead : attempt.phase.live = false :=
        live.done id subscribed index attempt there current
      cases phase : attempt.phase <;> simp_all [Phase.live, Phase.request]
    · intro value _
      exact First.resolve_ne_pending _

/-- What no event changes. -/
structure Frame (before after : Watch Snapshot Patch) : Prop where
  disposed : after.disposed = before.disposed
  generation : after.generation = before.generation
  subscriptionId : after.subscriptionId = before.subscriptionId
  connecting : after.connecting = before.connecting
  earlyEvents : after.earlyEvents = before.earlyEvents
  attempts : after.attempts = before.attempts
  connection : after.connection = before.connection
  acceptedOn : after.acceptedOn = before.acceptedOn

theorem frame_receive (watch : Watch Snapshot Patch)
    (arrival : Arrival Snapshot Patch) :
    Frame watch (watch.receive watched arrival) := by
  rcases receive_cases watched watch arrival with
    same | same | ⟨update, _, _, _, same | same | same⟩ <;>
  · rw [same]
    constructor <;> rfl

theorem Sound.receive (sound : watch.Sound)
    (disposed : watch.disposed = false)
    (subscribed : ∃ id, watch.subscriptionId = some id)
    {arrival : Arrival Snapshot Patch}
    (timely : arrival.sentOn = watch.connection) :
    (watch.receive watched arrival).Sound := by
  rcases subscribed with ⟨id, subscribed⟩
  rcases receive_cases watched watch arrival with
    same | same | ⟨update, own, later, applied, taken⟩
  · rw [same]
    exact sound
  · rw [same]
    exact sound.failed disposed subscribed
  · have revision : update.revision = arrival.event.revision :=
      revision_of_applied applied
    have materialized :
        (watch.materialize arrival.event.subscriptionId update).Sound := by
      apply sound.materialize disposed own
      intro previous there
      rw [revision]
      exact (later previous there).le
    have reported : ((watch.materialize arrival.event.subscriptionId
        update).report arrival update.snapshot).Sound := by
      apply materialized.report disposed timely own _ revision
      · intro entry member current
        rcases (sound.live disposed).following entry member current with
          ⟨follows, previous, there, covered⟩
        have same : arrival.event.subscriptionId
            = entry.event.subscriptionId :=
          Option.some.inj (own.symm.trans follows)
        rw [← same] at there
        exact lt_of_le_of_lt covered (later previous there)
      · simp [Watch.materialize]
    rcases taken with same | same | same
    · rw [same]
      exact materialized.failed disposed own
    · rw [same]
      exact reported.failed disposed own
    · rw [same]
      exact reported.keep disposed own _ _

theorem Sound.receiveAll {arrivals : List (Arrival Snapshot Patch)}
    (sound : watch.Sound) (disposed : watch.disposed = false)
    (subscribed : ∃ id, watch.subscriptionId = some id)
    (timely : ∀ arrival ∈ arrivals, arrival.sentOn = watch.connection) :
    (watch.receiveAll watched arrivals).Sound := by
  induction arrivals generalizing watch with
  | nil => exact sound
  | cons arrival rest inductionHypothesis =>
      have frame := frame_receive watched watch arrival
      apply inductionHypothesis
      · exact sound.receive watched disposed subscribed
          (timely arrival List.mem_cons_self)
      · rw [frame.disposed]
        exact disposed
      · rw [frame.subscriptionId]
        exact subscribed
      · intro later member
        rw [frame.connection]
        exact timely later (List.mem_cons_of_mem _ member)

theorem Sound.notify (sound : watch.Sound) {arrival : Arrival Snapshot Patch}
    (timely : arrival.sentOn = watch.connection) :
    (watch.notify watched arrival).Sound := by
  unfold Watch.notify
  split
  · exact sound
  · rename_i disposed
    have disposed : watch.disposed = false := by simpa using disposed
    split
    · exact sound
    · split
      · constructor
        · exact ⟨sound.inOrder.own, sound.inOrder.past,
            sound.inOrder.increasing⟩
        · intro _
          have live : watch.Live := sound.live disposed
          refine ⟨live.generation, ?_, live.accepted, live.older, live.only,
            live.done, live.requested, live.bare, live.first, live.following⟩
          intro early member
          rcases List.mem_append.mp member with earlier | last
          · exact live.early early earlier
          · rw [List.mem_singleton.mp last]
            exact timely
      · rename_i subscribed
        exact sound.receive watched disposed
          (Option.ne_none_iff_exists'.mp (by simpa using subscribed)) timely

/-! ## Attempts -/

/-- An attempt after one of them moved to a phase. -/
theorem attempt_setPhase {index moved : Nat} {attempt : Attempt Snapshot}
    {phase : Phase Snapshot}
    (there : (watch.setPhase moved phase).attempts[index]? = some attempt) :
    (index ≠ moved ∧ watch.attempts[index]? = some attempt)
      ∨ (index = moved ∧ ∃ earlier, watch.attempts[moved]? = some earlier
        ∧ attempt = { earlier with phase := phase }) := by
  simp only [setPhase, List.getElem?_modify] at there
  cases found : watch.attempts[index]? with
  | none =>
      rw [found] at there
      cases there
  | some earlier =>
      rw [found] at there
      have was := Option.some.inj there
      by_cases same : moved = index
      · subst same
        exact .inr ⟨rfl, earlier, found, by simpa using was.symm⟩
      · have kept : earlier = attempt := by simpa [same] using was
        exact .inl ⟨Ne.symm same, congrArg some kept⟩

/--
An attempt that moves to a phase which is live, unsettled or requested only
where its last one was keeps a watch sound.
-/
theorem Sound.setPhase (sound : watch.Sound) {index generation : Nat}
    {earlier phase : Phase Snapshot}
    (there : watch.attempts[index]? = some ⟨generation, earlier⟩)
    (unsettled : phase.unsettled → earlier.unsettled)
    (alive : phase.live → earlier.live)
    (request : watch.disposed = false → generation = watch.generation →
      ∀ connection resumeFrom, phase.request = some (connection, resumeFrom) →
        connection = watch.connection ∧ resumeFrom = watch.held) :
    (watch.setPhase index phase).Sound := by
  constructor
  · exact ⟨sound.inOrder.own, sound.inOrder.past, sound.inOrder.increasing⟩
  · intro disposed
    have live : watch.Live := sound.live disposed
    refine ⟨live.generation, live.early, live.accepted, ?_, ?_, ?_, ?_,
      live.bare, live.first, live.following⟩
    · intro other attempt found
      rcases attempt_setPhase found with ⟨_, kept⟩ | ⟨rfl, made, was, rfl⟩
      · exact live.older other attempt kept
      · exact live.older other made was
    · intro other attempt found current
      rcases attempt_setPhase found with ⟨_, kept⟩ | ⟨rfl, made, was, rfl⟩
      · exact live.only other attempt kept current
      · cases there.symm.trans was
        exact fun open_now => live.only other _ there current
          (unsettled open_now)
    · intro id subscribed other attempt found current
      rcases attempt_setPhase found with ⟨_, kept⟩ | ⟨rfl, made, was, rfl⟩
      · exact live.done id subscribed other attempt kept current
      · cases there.symm.trans was
        have dead : earlier.live = false :=
          live.done id subscribed other _ there current
        show phase.live = false
        by_contra still
        have was_live : earlier.live = true := alive (by simpa using still)
        rw [dead] at was_live
        cases was_live
    · intro other attempt found current
      rcases attempt_setPhase found with ⟨_, kept⟩ | ⟨rfl, made, was, rfl⟩
      · exact live.requested other attempt kept current
      · cases there.symm.trans was
        exact request disposed current

theorem Sound.send (sound : watch.Sound) (index : Nat) :
    (watch.send index).Sound := by
  unfold Watch.send
  split
  · rename_i generation there
    apply sound.setPhase there (fun _ => rfl) (fun _ => rfl)
    intro disposed current connection resumeFrom request
    cases request
    exact ⟨rfl, rfl⟩
  · exact sound

theorem Sound.accept (sound : watch.Sound) (index : Nat)
    (accepted : ProjectionSubscribeAccepted) :
    (watch.accept index accepted).Sound := by
  unfold Watch.accept
  split
  · rename_i generation connection resumeFrom there
    apply sound.setPhase there (fun _ => rfl) (fun _ => rfl)
    intro disposed
    exact (sound.live disposed).requested index _ there
  · exact sound

theorem Sound.fail (sound : watch.Sound) (index : Nat) (refused : Bool) :
    (watch.fail index refused).Sound := by
  unfold Watch.fail
  split
  · rename_i generation connection resumeFrom there
    apply sound.setPhase there (fun _ => rfl)
    · intro alive
      cases alive
    · intro _ _ _ _ request
      cases request
  · exact sound

theorem Sound.settle (sound : watch.Sound) (index : Nat) :
    (watch.settle index).Sound := by
  unfold Watch.settle
  split
  · rename_i generation refused there
    have settled : (watch.setPhase index .settled).Sound := by
      apply sound.setPhase there
      · intro unsettled
        cases unsettled
      · intro alive
        cases alive
      · intro _ _ _ _ request
        cases request
    constructor
    · exact ⟨settled.inOrder.own, settled.inOrder.past,
        settled.inOrder.increasing⟩
    · intro disposed
      have live := settled.live disposed
      refine ⟨live.generation, live.early, live.accepted, live.older, ?_,
        live.done, live.requested, live.bare, ?_, live.following⟩
      · intro other attempt found current unsettled
        have connecting : watch.connecting = some other :=
          live.only other attempt found current unsettled
        dsimp only
        split
        · rename_i this_one
          have own : watch.connecting = some index :=
            (sound.live disposed).only index _ there this_one rfl
          cases own.symm.trans connecting
          rcases attempt_setPhase found with ⟨differs, _⟩ | ⟨_, made, _, rfl⟩
          · exact absurd rfl differs
          · cases unsettled
        · exact connecting
      · intro value held
        dsimp only
        split
        · exact First.reject_ne_pending _
        · exact live.first value held
  · exact sound

theorem Sound.connect (sound : watch.Sound) : watch.connect.Sound := by
  unfold Watch.connect
  split
  · exact sound
  · rename_i free
    split
    · exact sound
    · rename_i idle
      constructor
      · exact ⟨sound.inOrder.own, sound.inOrder.past,
          sound.inOrder.increasing⟩
      · intro disposed
        have live : watch.Live := sound.live disposed
        have unsubscribed : watch.subscriptionId = none := by
          cases subscribed : watch.subscriptionId with
          | none => rfl
          | some id => exact absurd (by simp [subscribed]) free
        have made : ∀ (index : Nat) (attempt : Attempt Snapshot),
            (watch.attempts
              ++ [{ generation := watch.generation,
                    phase := .scheduled }])[index]? = some attempt →
              watch.attempts[index]? = some attempt
                ∨ (index = watch.attempts.length
                  ∧ attempt = ⟨watch.generation, .scheduled⟩) := by
          intro index attempt there
          rw [List.getElem?_append] at there
          split at there
          · exact .inl there
          · obtain ⟨at_end, rfl⟩ := by
              simpa [List.getElem?_singleton] using there
            exact .inr ⟨by omega, rfl⟩
        refine ⟨live.generation, live.early, live.accepted, ?_, ?_, ?_, ?_,
          live.bare, live.first, live.following⟩
        · intro index attempt there
          rcases made index attempt there with earlier | ⟨_, rfl⟩
          · exact live.older index attempt earlier
          · exact le_rfl
        · intro index attempt there current unsettled
          rcases made index attempt there with earlier | ⟨rfl, rfl⟩
          · have busy := live.only index attempt earlier current unsettled
            simp [busy] at idle
          · rfl
        · intro id subscribed
          cases unsubscribed.symm.trans subscribed
        · intro index attempt there current connection resumeFrom request
          rcases made index attempt there with earlier | ⟨rfl, rfl⟩
          · exact live.requested index attempt earlier current connection
              resumeFrom request
          · cases request

/-! ## Going on -/

/-- A live attempt of a watch's generation is its only unsettled one. -/
theorem Live.none_subscribed (live : watch.Live) {index : Nat}
    {attempt : Attempt Snapshot}
    (there : watch.attempts[index]? = some attempt)
    (current : attempt.generation = watch.generation)
    (alive : attempt.phase.live) : watch.subscriptionId = none := by
  cases subscribed : watch.subscriptionId with
  | none => rfl
  | some id =>
      have dead := live.done id subscribed index attempt there current
      rw [dead] at alive
      cases alive

/-- Nothing was applied on a connection with no subscription yet. -/
theorem Live.none_applied (live : watch.Live)
    (unsubscribed : watch.subscriptionId = none) :
    ∀ entry ∈ watch.applied, entry.acceptedOn ≠ watch.connection := by
  intro entry member current
  cases unsubscribed.symm.trans (live.following entry member current).1

/-- A watch that follows the subscription its only live attempt was given. -/
theorem Sound.subscribe (sound : watch.Sound)
    (disposed : watch.disposed = false) {index connection : Nat}
    {resumeFrom : Option (HeldValue Snapshot)}
    {accepted : ProjectionSubscribeAccepted}
    (there : watch.attempts[index]?
      = some ⟨watch.generation, .answered connection resumeFrom accepted⟩) :
    ((watch.setPhase index (.finished false)).subscribe connection
      accepted).Sound := by
  have live : watch.Live := sound.live disposed
  have finished : (watch.setPhase index (.finished false)).Sound := by
    apply sound.setPhase there (fun _ => rfl)
    · intro alive
      cases alive
    · intro _ _ _ _ request
      cases request
  have unsubscribed : watch.subscriptionId = none :=
    live.none_subscribed there rfl rfl
  constructor
  · exact ⟨finished.inOrder.own, finished.inOrder.past,
      finished.inOrder.increasing⟩
  · intro _
    have live_finished := finished.live disposed
    refine ⟨live.generation, live.early, ?_, live_finished.older,
      live_finished.only, ?_, live_finished.requested, ?_, live.first, ?_⟩
    · intro id _
      exact (live.requested index _ there rfl connection resumeFrom rfl).1
    · intro id _ other attempt found current
      by_contra alive
      have alive : attempt.phase.live = true := by simpa using alive
      have connecting : watch.connecting = some other :=
        live_finished.only other attempt found current
          (Phase.unsettled_of_live alive)
      have own : watch.connecting = some index :=
        live.only index _ there rfl rfl
      cases own.symm.trans connecting
      rcases attempt_setPhase found with ⟨differs, _⟩ | ⟨_, made, _, rfl⟩
      · exact differs rfl
      · cases alive
    · intro absent
      cases absent
    · intro entry member current
      exact absurd current (live.none_applied unsubscribed entry member)

theorem Sound.resume (sound : watch.Sound)
    (disposed : watch.disposed = false)
    {accepted : ProjectionSubscribeAccepted}
    (subscribed : watch.subscriptionId = some accepted.subscriptionId)
    (bare : ∀ id : Nat, watch.state[id]? = none)
    (resumeFrom : Option (HeldValue Snapshot)) :
    (watch.resume watched accepted resumeFrom).Sound := by
  unfold Watch.resume
  split
  · apply sound.materialize disposed subscribed
    intro previous there
    rw [bare] at there
    cases there
  · exact sound

theorem Sound.flush (sound : watch.Sound) (disposed : watch.disposed = false)
    (subscribed : ∃ id, watch.subscriptionId = some id) :
    (watch.flush watched).Sound := by
  have live : watch.Live := sound.live disposed
  have emptied : ({ watch with earlyEvents := [] } :
      Watch Snapshot Patch).Sound := by
    constructor
    · exact ⟨sound.inOrder.own, sound.inOrder.past, sound.inOrder.increasing⟩
    · intro _
      refine ⟨live.generation, ?_, live.accepted, live.older, live.only,
        live.done, live.requested, live.bare, live.first, live.following⟩
      intro arrival member
      cases member
  exact emptied.receiveAll watched disposed subscribed live.early

theorem Sound.proceed (sound : watch.Sound) (index : Nat) :
    (watch.proceed watched index).Sound := by
  unfold Watch.proceed
  split
  · rename_i generation connection resumeFrom accepted there
    have finished : (watch.setPhase index (.finished false)).Sound := by
      apply sound.setPhase there (fun _ => rfl)
      · intro alive
        cases alive
      · intro _ _ _ _ request
        cases request
    dsimp only
    split
    · exact finished
    · rename_i current
      obtain rfl : generation = watch.generation := not_not.mp current
      split
      · exact finished
      · rename_i disposed
        have disposed : watch.disposed = false := by simpa using disposed
        have bare : ∀ id : Nat, watch.state[id]? = none :=
          (sound.live disposed).bare
            ((sound.live disposed).none_subscribed there rfl rfl)
        have resumed :
            ((((watch.setPhase index (.finished false)).subscribe connection
              accepted).resume watched accepted resumeFrom)).Sound :=
          (sound.subscribe disposed there).resume watched disposed rfl bare
            resumeFrom
        apply resumed.flush watched
        · unfold Watch.resume
          split <;> exact disposed
        · unfold Watch.resume
          split <;> exact ⟨_, rfl⟩
  · exact sound

/-! ## The connection -/

theorem Sound.lose (sound : watch.Sound) :
    ({ watch with connection := watch.connection + 1 } :
      Watch Snapshot Patch).lose.Sound := by
  constructor
  · refine ⟨sound.inOrder.own, ?_, sound.inOrder.increasing⟩
    intro entry member
    exact Nat.le_succ_of_le (sound.inOrder.past entry member)
  · intro disposed
    have live : watch.Live := sound.live disposed
    have earlier : ∀ (index : Nat) (attempt : Attempt Snapshot),
        watch.attempts[index]? = some attempt →
          attempt.generation ≠ watch.generation + 1 := by
      intro index attempt there
      have := live.older index attempt there
      omega
    constructor
    · exact congrArg (· + 1) live.generation
    · intro arrival member
      cases member
    · intro id subscribed
      cases subscribed
    · intro index attempt there
      exact Nat.le_succ_of_le (live.older index attempt there)
    · intro index attempt there current
      exact absurd current (earlier index attempt there)
    · intro id subscribed
      cases subscribed
    · intro index attempt there current
      exact absurd current (earlier index attempt there)
    · intro _ id
      simp [Watch.lose]
    · exact live.first
    · intro entry member current
      have past := sound.inOrder.past entry member
      have current : entry.acceptedOn = watch.connection + 1 := current
      omega

theorem Sound.connectionState (sound : watch.Sound) (status : String) :
    (watch.connectionState status).Sound := by
  unfold Watch.connectionState
  split
  · split
    · exact sound
    · exact sound.connect
  · split
    · exact sound
    · dsimp only
      split
      · rename_i disposed
        constructor
        · refine ⟨sound.inOrder.own, ?_, sound.inOrder.increasing⟩
          intro entry member
          exact Nat.le_succ_of_le (sound.inOrder.past entry member)
        · intro kept
          rw [disposed] at kept
          cases kept
      · exact sound.lose

/-! ## Every run -/

/-- A watch whose disposal or first snapshot alone changes stays sound. -/
theorem Sound.disposed (sound : watch.Sound) {changed : Watch Snapshot Patch}
    (applied : changed.applied = watch.applied)
    (connection : changed.connection = watch.connection)
    (disposed : changed.disposed = true) : changed.Sound := by
  constructor
  · constructor
    · rw [applied]
      exact sound.inOrder.own
    · rw [applied, connection]
      exact sound.inOrder.past
    · rw [applied]
      exact sound.inOrder.increasing
  · intro kept
    rw [disposed] at kept
    cases kept

theorem Sound.next (sound : watch.Sound) (step : WatchStep Snapshot Patch)
    (timely : watch.Timely step) : (watch.next watched step).Sound := by
  cases step with
  | connection status => exact sound.connectionState status
  | event arrival => exact sound.notify watched timely
  | connect => exact sound.connect
  | send index => exact sound.send index
  | accept index accepted => exact sound.accept index accepted
  | fail index refused => exact sound.fail index refused
  | proceed index => exact sound.proceed watched index
  | settle index => exact sound.settle index
  | resynced =>
      constructor
      · exact ⟨sound.inOrder.own, sound.inOrder.past,
          sound.inOrder.increasing⟩
      · intro disposed
        have live : watch.Live := sound.live disposed
        exact ⟨live.generation, live.early, live.accepted, live.older,
          live.only, live.done, live.requested, live.bare, live.first,
          live.following⟩
  | timeout =>
      constructor
      · exact ⟨sound.inOrder.own, sound.inOrder.past,
          sound.inOrder.increasing⟩
      · intro disposed
        have live : watch.Live := sound.live disposed
        exact ⟨live.generation, live.early, live.accepted, live.older,
          live.only, live.done, live.requested, live.bare,
          fun _ _ => First.reject_ne_pending _, live.following⟩
  | abandon =>
      rw [Watch.next]
      split
      · exact sound.disposed rfl rfl rfl
      · exact sound
  | abort =>
      rw [Watch.next]
      split
      · exact sound
      · exact sound.disposed rfl rfl rfl
  | unsubscribe =>
      rw [Watch.next]
      split
      · exact sound.disposed rfl rfl rfl
      · exact sound

/-- Every watch a run with timely events reaches is sound. -/
theorem sound_run {steps : List (WatchStep Snapshot Patch)}
    (timely : Machine.EveryStep (Watch.next watched) Timely start steps) :
    Machine.Throughout (Watch.next watched) Sound start steps :=
  Machine.throughout_of_everyStep
    (fun _ step sound timely => sound.next watched step timely) sound_start
    timely

end Watch

end Clerkenwell.Client
