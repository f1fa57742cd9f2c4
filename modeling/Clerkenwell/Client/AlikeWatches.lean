import Clerkenwell.Client.OneConnection

/-!
# Watches that report alike

Two snapshots are interchangeable when every patch takes both to one value, as
two values a host's delivery names are.  Watches that differ only in such
snapshots report the same values from then on, whichever steps follow.
-/

namespace Clerkenwell.Client

open Clerkenwell.Foundation
open Clerkenwell.Doc (Json)
open Clerkenwell.Session

variable {Snapshot Patch Plan : Type}

/-- Every patch takes either of two snapshots to the same value. -/
def Interchangeable (composition : Composition Snapshot Patch Plan)
    (left right : Snapshot) : Prop :=
  ∀ patch plan, composition.materializePatch left patch plan
    = composition.materializePatch right patch plan

variable {composition : Composition Snapshot Patch Plan}

theorem Interchangeable.refl (snapshot : Snapshot) :
    Interchangeable composition snapshot snapshot :=
  fun _ _ => rfl

/-! ## Parts that are alike -/

/-- Two materialised projections of one revision. -/
structure AlikeMaterialized (composition : Composition Snapshot Patch Plan)
    (left right : MaterializedProjection Snapshot) : Prop where
  projection : right.projection = left.projection
  subscriptionId : right.subscriptionId = left.subscriptionId
  revision : right.revision = left.revision
  snapshot : Interchangeable composition left.snapshot right.snapshot

theorem AlikeMaterialized.refl
    (materialized : MaterializedProjection Snapshot) :
    AlikeMaterialized composition materialized materialized :=
  ⟨rfl, rfl, rfl, .refl _⟩

structure AlikeHeld (composition : Composition Snapshot Patch Plan)
    (left right : HeldValue Snapshot) : Prop where
  token : right.token = left.token
  snapshot : Interchangeable composition left.snapshot right.snapshot

/-- Two attempts that came as far, and named the same token. -/
inductive AlikePhase (composition : Composition Snapshot Patch Plan) :
    Phase Snapshot → Phase Snapshot → Prop where
  | scheduled : AlikePhase composition .scheduled .scheduled
  | sent (connection : Nat) {left right : Option (HeldValue Snapshot)}
      (held : Option.Rel (AlikeHeld composition) left right) :
      AlikePhase composition (.sent connection left) (.sent connection right)
  | answered (connection : Nat) {left right : Option (HeldValue Snapshot)}
      (accepted : ProjectionSubscribeAccepted)
      (held : Option.Rel (AlikeHeld composition) left right) :
      AlikePhase composition (.answered connection left accepted)
        (.answered connection right accepted)
  | finished (refused : Bool) :
      AlikePhase composition (.finished refused) (.finished refused)
  | settled : AlikePhase composition .settled .settled

structure AlikeAttempt (composition : Composition Snapshot Patch Plan)
    (left right : Attempt Snapshot) : Prop where
  generation : right.generation = left.generation
  phase : AlikePhase composition left.phase right.phase

theorem rel_refl {Value : Type} {relation : Value → Value → Prop}
    (reflexive : ∀ value, relation value value) (value : Option Value) :
    Option.Rel relation value value := by
  cases value with
  | none => exact .none
  | some value => exact .some (reflexive value)

theorem rel_map {Value : Type} {relation : Value → Value → Prop}
    {one other : Option Value} {change_one change_other : Value → Value}
    (related : Option.Rel relation one other)
    (kept : ∀ left right, relation left right →
      relation (change_one left) (change_other right)) :
    Option.Rel relation (change_one <$> one) (change_other <$> other) := by
  cases related with
  | none => exact .none
  | some related => exact .some (kept _ _ related)

theorem AlikePhase.refl (phase : Phase Snapshot) :
    AlikePhase composition phase phase := by
  have held : ∀ value : Option (HeldValue Snapshot),
      Option.Rel (AlikeHeld composition) value value :=
    rel_refl fun _ => ⟨rfl, .refl _⟩
  cases phase with
  | scheduled => exact .scheduled
  | sent connection resumeFrom => exact .sent connection (held resumeFrom)
  | answered connection resumeFrom accepted =>
      exact .answered connection accepted (held resumeFrom)
  | finished refused => exact .finished refused
  | settled => exact .settled

/--
Watches that are alike, and reported the same values since one had applied
`left` and the other `right`.
-/
structure Alike (composition : Composition Snapshot Patch Plan)
    (left right : List (AppliedEvent Snapshot Patch))
    (one other : Watch Snapshot Patch) : Prop where
  disposed : other.disposed = one.disposed
  generation : other.generation = one.generation
  subscriptionId : other.subscriptionId = one.subscriptionId
  connecting : other.connecting = one.connecting
  resyncing : other.resyncing = one.resyncing
  earlyEvents : other.earlyEvents = one.earlyEvents
  firstSnapshot : other.firstSnapshot = one.firstSnapshot
  connection : other.connection = one.connection
  acceptedOn : other.acceptedOn = one.acceptedOn
  attempted : other.attempts.length = one.attempts.length
  attempts : ∀ index : Nat, Option.Rel (AlikeAttempt composition)
    one.attempts[index]? other.attempts[index]?
  state : ∀ id : Nat, Option.Rel (AlikeMaterialized composition)
    one.state[id]? other.state[id]?
  held : Option.Rel (AlikeHeld composition) one.held other.held
  applied : ∃ since, one.applied = left ++ since
    ∧ other.applied = right ++ since

/-! ## Events -/

theorem past_alike {one other : Option (MaterializedProjection Snapshot)}
    (alike : Option.Rel (AlikeMaterialized composition) one other)
    (revision : Nat) :
    (other.any fun previous => decide (revision ≤ previous.revision))
      = one.any fun previous => decide (revision ≤ previous.revision) := by
  cases alike with
  | none => rfl
  | some same =>
      simp only [Option.any_some]
      rw [same.revision]

/-- An update does the same to two projections that are alike. -/
theorem applyProjectionEvent_alike
    {one other : Option (MaterializedProjection Snapshot)}
    (alike : Option.Rel (AlikeMaterialized composition) one other)
    (event : ClientEvent Snapshot Patch) :
    applyProjectionEvent composition other event
      = applyProjectionEvent composition one event := by
  cases alike with
  | none => rfl
  | some alike =>
      rename_i held_one held_other
      obtain ⟨projection, subscriptionId, revision, snapshot⟩ := alike
      cases held_one
      cases held_other
      cases projection
      cases subscriptionId
      cases revision
      cases event with
      | snapshot id revision snapshot token => rfl
      | patch id fromRevision toRevision patch token =>
          simp only [applyProjectionEvent]
          have composed := snapshot patch
          split
          · rfl
          · split
            · rfl
            · split
              · rfl
              · split
                · rfl
                · rename_i plan planned
                  rw [← composed plan]

namespace Alike

variable {watched : Watched Snapshot Patch Plan}
variable {left right : List (AppliedEvent Snapshot Patch)}
variable {one other : Watch Snapshot Patch}

theorem failed (alike : Alike composition left right one other) :
    Alike composition left right one.failed other.failed := by
  refine { alike with resyncing := ?_, held := .none }
  show (other.resyncing || other.subscriptionId.isSome)
    = (one.resyncing || one.subscriptionId.isSome)
  rw [alike.resyncing, alike.subscriptionId]

theorem materialize (alike : Alike composition left right one other)
    (id : Nat) {taken_one taken_other : MaterializedProjection Snapshot}
    (taken : AlikeMaterialized composition taken_one taken_other) :
    Alike composition left right (one.materialize id taken_one)
      (other.materialize id taken_other) := by
  refine { alike with state := ?_ }
  intro key
  simp only [Watch.materialize, Std.ExtTreeMap.getElem?_insert]
  split
  · exact .some taken
  · exact alike.state key

theorem report (alike : Alike composition left right one other)
    (arrival : Arrival Snapshot Patch) (snapshot : Snapshot) :
    Alike composition left right (one.report arrival snapshot)
      (other.report arrival snapshot) := by
  refine { alike with applied := ?_ }
  rcases alike.applied with ⟨since, since_one, since_other⟩
  let entry : AppliedEvent Snapshot Patch :=
    { event := arrival.event
      sentOn := arrival.sentOn
      acceptedOn := one.acceptedOn
      snapshot := snapshot }
  refine ⟨since ++ [entry], ?_, ?_⟩
  · simp only [Watch.report, since_one, List.append_assoc, entry]
  · simp only [Watch.report, since_other, List.append_assoc, alike.acceptedOn,
      entry]

theorem keep (alike : Alike composition left right one other)
    (event : ClientEvent Snapshot Patch) (snapshot : Snapshot) :
    Alike composition left right (one.keep event snapshot)
      (other.keep event snapshot) := by
  refine { alike with firstSnapshot := ?_, held := ?_ }
  · exact congrArg First.resolve alike.firstSnapshot
  · exact rel_refl (fun _ => ⟨rfl, .refl _⟩) _

theorem receive
    (alike : Alike watched.composition left right one other)
    (arrival : Arrival Snapshot Patch) :
    Alike watched.composition left right (one.receive watched arrival)
      (other.receive watched arrival) := by
  unfold Watch.receive
  rw [alike.subscriptionId]
  dsimp only
  split
  · exact alike
  · have there := alike.state arrival.event.subscriptionId
    rw [past_alike there, applyProjectionEvent_alike there]
    split
    · exact alike
    · split
      · exact alike.failed
      · rename_i update _
        have materialized := alike.materialize arrival.event.subscriptionId
          (AlikeMaterialized.refl update)
        split
        · exact materialized.failed
        · split
          · exact (materialized.report arrival update.snapshot).keep
              arrival.event update.snapshot
          · exact (materialized.report arrival update.snapshot).failed

theorem receiveAll
    (alike : Alike watched.composition left right one other)
    (arrivals : List (Arrival Snapshot Patch)) :
    Alike watched.composition left right (one.receiveAll watched arrivals)
      (other.receiveAll watched arrivals) :=
  List.foldl_rel alike fun arrival _ _ _ same => same.receive arrival

theorem notify
    (alike : Alike watched.composition left right one other)
    (arrival : Arrival Snapshot Patch) :
    Alike watched.composition left right (one.notify watched arrival)
      (other.notify watched arrival) := by
  unfold Watch.notify
  rw [alike.disposed, alike.subscriptionId]
  split
  · exact alike
  · split
    · exact alike
    · split
      · refine { alike with
          disposed := rfl
          subscriptionId := rfl
          earlyEvents := ?_ }
        exact congrArg (· ++ [arrival]) alike.earlyEvents
      · exact alike.receive arrival

/-! ## Attempts -/

theorem setPhase (alike : Alike composition left right one other)
    (index : Nat) {phase_one phase_other : Phase Snapshot}
    (phase : AlikePhase composition phase_one phase_other) :
    Alike composition left right (one.setPhase index phase_one)
      (other.setPhase index phase_other) := by
  refine { alike with attempted := ?_, attempts := ?_ }
  · simp only [Watch.setPhase, List.length_modify, alike.attempted]
  · intro key
    simp only [Watch.setPhase, List.getElem?_modify]
    apply rel_map (alike.attempts key)
    intro attempt_one attempt_other same
    split
    · exact ⟨same.generation, phase⟩
    · exact same

theorem connect (alike : Alike composition left right one other) :
    Alike composition left right one.connect other.connect := by
  unfold Watch.connect
  rw [alike.disposed, alike.subscriptionId, alike.connecting]
  split
  · exact alike
  · split
    · exact alike
    · refine { alike with
        disposed := rfl
        subscriptionId := rfl
        connecting := ?_
        attempted := ?_
        attempts := ?_ }
      · exact congrArg some alike.attempted
      · simp only [List.length_append, alike.attempted, List.length_singleton]
      · intro key
        simp only [List.getElem?_append, alike.attempted]
        split
        · exact alike.attempts key
        · rw [alike.generation]
          exact rel_refl (fun _ => ⟨rfl, .refl _⟩) _

/-- An attempt of one of two watches that are alike is the other's as well. -/
theorem attempt_cases (alike : Alike composition left right one other)
    (index : Nat) :
    (one.attempts[index]? = none ∧ other.attempts[index]? = none)
      ∨ ∃ generation phase_one phase_other,
        one.attempts[index]? = some ⟨generation, phase_one⟩
          ∧ other.attempts[index]? = some ⟨generation, phase_other⟩
          ∧ AlikePhase composition phase_one phase_other := by
  have there := alike.attempts index
  cases made_one : one.attempts[index]? with
  | none =>
      rw [made_one] at there
      cases made_other : other.attempts[index]? with
      | none => exact .inl ⟨rfl, rfl⟩
      | some attempt =>
          rw [made_other] at there
          cases there
  | some attempt =>
      rw [made_one] at there
      cases made_other : other.attempts[index]? with
      | none =>
          rw [made_other] at there
          cases there
      | some counterpart =>
          rw [made_other] at there
          cases there with
          | some same =>
              refine .inr ⟨attempt.generation, attempt.phase,
                counterpart.phase, rfl, ?_, same.phase⟩
              rw [← same.generation]

theorem send (alike : Alike composition left right one other) (index : Nat) :
    Alike composition left right (one.send index) (other.send index) := by
  unfold Watch.send
  rcases alike.attempt_cases index with ⟨none_one, none_other⟩ |
      ⟨generation, phase_one, phase_other, some_one, some_other, same⟩
  · rw [none_one, none_other]
    exact alike
  · rw [some_one, some_other]
    cases same with
    | scheduled =>
        apply alike.setPhase
        rw [alike.connection]
        exact .sent _ alike.held
    | _ => exact alike

theorem accept (alike : Alike composition left right one other) (index : Nat)
    (accepted : ProjectionSubscribeAccepted) :
    Alike composition left right (one.accept index accepted)
      (other.accept index accepted) := by
  unfold Watch.accept
  rcases alike.attempt_cases index with ⟨none_one, none_other⟩ |
      ⟨generation, phase_one, phase_other, some_one, some_other, same⟩
  · rw [none_one, none_other]
    exact alike
  · rw [some_one, some_other]
    cases same with
    | sent connection held =>
        exact alike.setPhase index (.answered connection accepted held)
    | _ => exact alike

theorem fail (alike : Alike composition left right one other) (index : Nat)
    (refused : Bool) :
    Alike composition left right (one.fail index refused)
      (other.fail index refused) := by
  unfold Watch.fail
  rcases alike.attempt_cases index with ⟨none_one, none_other⟩ |
      ⟨generation, phase_one, phase_other, some_one, some_other, same⟩
  · rw [none_one, none_other]
    exact alike
  · rw [some_one, some_other]
    cases same with
    | sent connection held => exact alike.setPhase index (.finished refused)
    | _ => exact alike

theorem settle (alike : Alike composition left right one other)
    (index : Nat) :
    Alike composition left right (one.settle index) (other.settle index) := by
  unfold Watch.settle
  rcases alike.attempt_cases index with ⟨none_one, none_other⟩ |
      ⟨generation, phase_one, phase_other, some_one, some_other, same⟩
  · rw [none_one, none_other]
    exact alike
  · rw [some_one, some_other]
    cases same with
    | finished refused =>
        refine { alike.setPhase index (AlikePhase.settled) with
          connecting := ?_
          firstSnapshot := ?_ }
        · dsimp only
          rw [alike.generation, alike.connecting]
        · dsimp only
          rw [alike.firstSnapshot]
    | _ => exact alike

theorem subscribe (alike : Alike composition left right one other)
    (connection : Nat) (accepted : ProjectionSubscribeAccepted) :
    Alike composition left right (one.subscribe connection accepted)
      (other.subscribe connection accepted) :=
  { alike with subscriptionId := rfl, acceptedOn := rfl }

theorem resume (alike : Alike watched.composition left right one other)
    (accepted : ProjectionSubscribeAccepted)
    {held_one held_other : Option (HeldValue Snapshot)}
    (held : Option.Rel (AlikeHeld watched.composition) held_one held_other) :
    Alike watched.composition left right
      (one.resume watched accepted held_one)
      (other.resume watched accepted held_other) := by
  unfold Watch.resume
  cases accepted.upToDate with
  | false => exact alike
  | true =>
      cases held with
      | none => exact alike
      | some same =>
          exact alike.materialize accepted.subscriptionId
            ⟨rfl, rfl, rfl, same.snapshot⟩

theorem flush (alike : Alike watched.composition left right one other) :
    Alike watched.composition left right (one.flush watched)
      (other.flush watched) := by
  have emptied : Alike watched.composition left right
      { one with earlyEvents := [] } { other with earlyEvents := [] } :=
    { alike with earlyEvents := rfl }
  unfold Watch.flush
  rw [alike.earlyEvents]
  exact emptied.receiveAll one.earlyEvents

theorem proceed (alike : Alike watched.composition left right one other)
    (index : Nat) :
    Alike watched.composition left right (one.proceed watched index)
      (other.proceed watched index) := by
  unfold Watch.proceed
  rcases alike.attempt_cases index with ⟨none_one, none_other⟩ |
      ⟨generation, phase_one, phase_other, some_one, some_other, same⟩
  · rw [none_one, none_other]
    exact alike
  · rw [some_one, some_other]
    cases same with
    | answered connection accepted held =>
        have finished := alike.setPhase index (.finished false)
        dsimp only
        rw [alike.generation, alike.disposed]
        split
        · exact finished
        · split
          · exact finished
          · exact ((finished.subscribe connection accepted).resume accepted
              held).flush
    | _ => exact alike

/-! ## The connection, and every run -/

theorem lose (alike : Alike composition left right one other) :
    Alike composition left right
      { one with connection := one.connection + 1 }.lose
      { other with connection := other.connection + 1 }.lose :=
  { alike with
    generation := congrArg (· + 1) alike.generation
    subscriptionId := rfl
    connecting := rfl
    resyncing := rfl
    earlyEvents := rfl
    connection := congrArg (· + 1) alike.connection
    state := fun _ => rel_refl .refl _ }

theorem connectionState (alike : Alike composition left right one other)
    (status : String) :
    Alike composition left right (one.connectionState status)
      (other.connectionState status) := by
  unfold Watch.connectionState
  rw [alike.disposed]
  split
  · split
    · exact alike
    · exact alike.connect
  · split
    · exact alike
    · dsimp only
      split
      · exact
          { alike with
            disposed := rfl
            connection := congrArg (· + 1) alike.connection }
      · exact { alike.lose with disposed := rfl }

/-- Every step takes watches that are alike to watches that are. -/
theorem next (alike : Alike watched.composition left right one other)
    (step : WatchStep Snapshot Patch) :
    Alike watched.composition left right (one.next watched step)
      (other.next watched step) := by
  have rejected := congrArg First.reject alike.firstSnapshot
  cases step with
  | connection status => exact alike.connectionState status
  | event arrival => exact alike.notify arrival
  | connect => exact alike.connect
  | send index => exact alike.send index
  | accept index accepted => exact alike.accept index accepted
  | fail index refused => exact alike.fail index refused
  | proceed index => exact alike.proceed index
  | settle index => exact alike.settle index
  | resynced => exact { alike with resyncing := rfl }
  | timeout => exact { alike with firstSnapshot := rejected }
  | abandon =>
      simp only [Watch.next, alike.firstSnapshot]
      split
      · exact { alike with disposed := rfl, firstSnapshot := rfl }
      · exact alike
  | abort =>
      simp only [Watch.next, alike.disposed]
      split
      · exact alike
      · exact
          { alike with
            disposed := rfl
            firstSnapshot := rejected
            subscriptionId := rfl }
  | unsubscribe =>
      simp only [Watch.next, alike.firstSnapshot]
      split
      · exact { alike with disposed := rfl, firstSnapshot := rfl }
      · exact alike

/-- Watches that are alike report the same values from then on. -/
theorem run (alike : Alike watched.composition left right one other)
    (steps : List (WatchStep Snapshot Patch)) :
    Alike watched.composition left right
      (Machine.run (Watch.next watched) one steps)
      (Machine.run (Watch.next watched) other steps) :=
  List.foldl_rel alike fun step _ _ _ same => same.next step

end Alike

end Clerkenwell.Client
