import Clerkenwell.Client.LocalIntent

/-!
# Blocks under settlements and connectivity

A session blocked for a migration, a dependency, a resynchronisation or a
recovery holds its draft until its block is resolved.  Connectivity and an
accepted baseline respect the block.  The settlement of an operation queued
before it does not look at the status it replaces: an acknowledgement, a
rejection or a supersession of such an operation unblocks the session.
-/

namespace Clerkenwell.Client

open Clerkenwell.Foundation

/-- The statuses of a block that holds the draft. -/
def HoldsDraft (status : AuthoringSessionStatus) : Prop :=
  status = .resyncRequired ∨ status = .recoveryRequired
    ∨ status = .migrationBlocked ∨ status = .dependencyBlocked

/-- The transitions of connectivity, settlements and accepted baselines. -/
inductive AuthoringTransition.Settles : AuthoringTransition → Prop where
  | disconnect : Settles .disconnect
  | reconnect : Settles .reconnect
  | acknowledge (operationId : String) (document : Document)
      (acceptedRevision : String) :
      Settles (.acknowledge operationId document acceptedRevision)
  | reject (operationId category message : String) (retryable : Bool) :
      Settles (.reject operationId category message retryable)
  | supersede : Settles .supersede
  | adopt (baseline : Document) (draft : Option Document)
      (acceptedRevision : Option String) (validation : JsValue) :
      Settles (.adopt baseline draft acceptedRevision validation)

/-- The transitions that resolve a block, or set another. -/
inductive AuthoringTransition.Resolves : AuthoringTransition → Prop where
  | replaceHistory (accepted : Document) (acceptedRevision : String) :
      Resolves (.replaceHistory accepted acceptedRevision)
  | discard : Resolves .discard
  | block (reason : AuthoringBlock) : Resolves (.block reason)

/-- An operation of the queue has the id. -/
def Queues (session : AuthoringSession) (operationId : String) : Prop :=
  ∃ operation ∈ session.queuedOperations,
    operation.operationId = operationId

/--
The settlements that lift a block: those of an operation queued before it.  A
rejection keeps a session that must resynchronise, and one that must from then
on.
-/
def Unblocks (session : AuthoringSession) :
    AuthoringTransition → Prop
  | .acknowledge operationId _ _ => Queues session operationId
  | .reject operationId category _ _ =>
      Queues session operationId ∧ category ≠ resyncRequired
        ∧ session.status ≠ .resyncRequired
  | .supersede =>
      ∃ operation ∈ session.queuedOperations, operation.state = .blocked
  | _ => False

/-- A session is as blocked as it was, over the draft it had. -/
structure StaysBlocked (start session : AuthoringSession) : Prop where
  held : HoldsDraft session.status
  draft : session.draft = start.draft
  resync : start.status = .resyncRequired →
    session.status = .resyncRequired

/-! ## What a queue holds -/

theorem find_queued_iff (session : AuthoringSession) (operationId : String) :
    (session.queuedOperations.find?
        fun candidate => candidate.operationId == operationId).isSome = true
      ↔ Queues session operationId := by
  simp [Queues, List.find?_isSome]

theorem requireQueuedOperation_error
    {session : AuthoringSession} {operationId : String}
    (absent : ¬ Queues session operationId) :
    ∃ message, requireQueuedOperation session operationId
      = .error message := by
  rw [← find_queued_iff, Bool.not_eq_true, Option.isSome_eq_false_iff,
    Option.isNone_iff_eq_none] at absent
  rw [requireQueuedOperation, absent]
  exact ⟨_, rfl⟩

theorem requireQueuedOperation_ok
    {session : AuthoringSession} {operationId : String}
    (queued : Queues session operationId) :
    ∃ operation, requireQueuedOperation session operationId
      = .ok operation := by
  rw [← find_queued_iff] at queued
  obtain ⟨operation, found⟩ := Option.isSome_iff_exists.mp queued
  rw [requireQueuedOperation, found]
  exact ⟨operation, rfl⟩

/-! ## What each settlement does to a block -/

section Settlements

variable {session : AuthoringSession}

theorem HoldsDraft.mem_blockedStatuses (held : HoldsDraft session.status) :
    session.status ∈ blockedStatuses := by
  rcases held with held | held | held | held <;> rw [held] <;> decide

theorem HoldsDraft.not_modifiable (held : HoldsDraft session.status) :
    session.status ∉ modifiableStatuses := by
  rcases held with held | held | held | held <;> rw [held] <;> decide

theorem requireStatus_error
    {transition : String} {allowed : List AuthoringSessionStatus}
    (refused : session.status ∉ allowed) :
    ∃ message, requireStatus session transition allowed = .error message := by
  rw [requireStatus, if_neg refused]
  exact ⟨_, rfl⟩

theorem disconnect_of_held (held : HoldsDraft session.status) :
    nextSession session .disconnect = session := by
  show disconnectAuthoringSession session = session
  rw [disconnectAuthoringSession, if_pos held.mem_blockedStatuses]

theorem reconnect_of_held (held : HoldsDraft session.status) :
    nextSession session .reconnect = session := by
  obtain ⟨message, refused⟩ :
      ∃ message, requireStatus session "reconnect"
        [.disconnectedReadable, .offlineModified] = .error message := by
    apply requireStatus_error
    rcases held with held | held | held | held <;> rw [held] <;> decide
  simp [nextSession, AuthoringTransition.apply, reconnectAuthoringSession,
    refused, bind, Except.bind]

theorem adopt_of_held (held : HoldsDraft session.status)
    (baseline : Document) (draft : Option Document)
    (acceptedRevision : Option String) (validation : JsValue) :
    nextSession session (.adopt baseline draft acceptedRevision validation)
      = session := by
  have refused : authoringSessionAcceptsDraft session = false := by
    simpa [authoringSessionAcceptsDraft] using held.not_modifiable
  simp [nextSession, AuthoringTransition.apply, adoptAuthoringBaseline,
    refused]

theorem acknowledge_of_absent
    {operationId : String} (absent : ¬ Queues session operationId)
    (document : Document) (acceptedRevision : String) :
    nextSession session (.acknowledge operationId document acceptedRevision)
      = session := by
  rw [← find_queued_iff, Bool.not_eq_true, Option.isSome_eq_false_iff,
    Option.isNone_iff_eq_none] at absent
  simp only [nextSession, AuthoringTransition.apply,
    acknowledgeAuthoringOperation, absent]
  split_ifs <;> rfl

/-- An acknowledged operation leaves a status that holds no draft. -/
theorem acknowledge_of_queued
    {operationId : String} (queued : Queues session operationId)
    (document : Document) (acceptedRevision : String) :
    ¬ HoldsDraft (nextSession session
      (.acknowledge operationId document acceptedRevision)).status := by
  rw [← find_queued_iff] at queued
  obtain ⟨operation, found⟩ := Option.isSome_iff_exists.mp queued
  simp only [nextSession, AuthoringTransition.apply,
    acknowledgeAuthoringOperation, found]
  split_ifs <;> simp [HoldsDraft]

theorem reject_of_absent
    {operationId : String} (absent : ¬ Queues session operationId)
    (category message : String) (retryable : Bool) :
    nextSession session (.reject operationId category message retryable)
      = session := by
  obtain ⟨unknown, refused⟩ := requireQueuedOperation_error absent
  simp [nextSession, AuthoringTransition.apply, rejectAuthoringOperation,
    refused, bind, Except.bind]

/-- A rejection keeps the draft, and sets one of two statuses. -/
theorem reject_of_queued
    {operationId : String} (queued : Queues session operationId)
    (category message : String) (retryable : Bool) :
    (nextSession session
        (.reject operationId category message retryable)).draft
          = session.draft
      ∧ (nextSession session
          (.reject operationId category message retryable)).status
        = if category = resyncRequired
            ∨ session.status = .resyncRequired then
          .resyncRequired
        else
          .commitRejected := by
  obtain ⟨operation, found⟩ := requireQueuedOperation_ok queued
  simp [nextSession, AuthoringTransition.apply, rejectAuthoringOperation,
    found, bind, Except.bind, pure, Except.pure]

theorem supersede_of_unblocked
    (unblocked : ∀ operation ∈ session.queuedOperations,
      operation.state ≠ .blocked) :
    nextSession session .supersede = session := by
  have remaining : session.queuedOperations.filter
      (fun operation => operation.state != .blocked)
        = session.queuedOperations := by
    rw [List.filter_eq_self]
    intro operation member
    simpa using unblocked operation member
  simp [nextSession, AuthoringTransition.apply,
    supersedeBlockedAuthoringOperations, remaining]

/-- Superseding a blocked operation leaves a status that holds no draft. -/
theorem supersede_of_blocked
    (blocked : ∃ operation ∈ session.queuedOperations,
      operation.state = .blocked) :
    ¬ HoldsDraft (nextSession session .supersede).status := by
  obtain ⟨operation, member, blocked⟩ := blocked
  have fewer : (session.queuedOperations.filter
      (fun operation => operation.state != .blocked)).length
        ≠ session.queuedOperations.length := by
    intro same
    rw [List.length_filter_eq_length_iff] at same
    simpa [blocked] using same operation member
  simp only [nextSession, AuthoringTransition.apply,
    supersedeBlockedAuthoringOperations, fewer, if_false]
  split_ifs <;> simp [HoldsDraft]

end Settlements

/-! ## One step, and a run -/

/-- A settlement keeps a block exactly when it is not one that lifts it. -/
theorem staysBlocked_iff
    {start session : AuthoringSession} {transition : AuthoringTransition}
    (stays : StaysBlocked start session) (settles : transition.Settles) :
    StaysBlocked start (nextSession session transition)
      ↔ ¬ Unblocks session transition := by
  have unchanged : nextSession session transition = session →
      ¬ Unblocks session transition →
        (StaysBlocked start (nextSession session transition)
          ↔ ¬ Unblocks session transition) := by
    intro same keeps
    rw [same]
    exact iff_of_true stays keeps
  have lifted : ¬ HoldsDraft (nextSession session transition).status →
      Unblocks session transition →
        (StaysBlocked start (nextSession session transition)
          ↔ ¬ Unblocks session transition) := by
    intro released unblocks
    exact iff_of_false (fun blocked => released blocked.held)
      (fun keeps => keeps unblocks)
  cases settles with
  | disconnect => exact unchanged (disconnect_of_held stays.held) id
  | reconnect => exact unchanged (reconnect_of_held stays.held) id
  | adopt baseline draft acceptedRevision validation =>
      exact unchanged
        (adopt_of_held stays.held baseline draft acceptedRevision validation)
        id
  | acknowledge operationId document acceptedRevision =>
      by_cases queued : Queues session operationId
      · exact lifted
          (acknowledge_of_queued queued document acceptedRevision) queued
      · exact unchanged
          (acknowledge_of_absent queued document acceptedRevision) queued
  | reject operationId category message retryable =>
      by_cases queued : Queues session operationId
      · obtain ⟨draft, status⟩ :=
          reject_of_queued queued category message retryable
        by_cases resync : category = resyncRequired
            ∨ session.status = .resyncRequired
        · rw [if_pos resync] at status
          refine iff_of_true ?_ ?_
          · exact
              { held := Or.inl status
                draft := draft.trans stays.draft
                resync := fun _ => status }
          · rintro ⟨-, category_ne, status_ne⟩
            exact resync.elim category_ne status_ne
        · rw [if_neg resync] at status
          rw [not_or] at resync
          refine lifted ?_ ⟨queued, resync⟩
          simp [status, HoldsDraft]
      · refine unchanged
          (reject_of_absent queued category message retryable) ?_
        rintro ⟨there, -⟩
        exact queued there
  | supersede =>
      by_cases blocked : ∃ operation ∈ session.queuedOperations,
          operation.state = .blocked
      · exact lifted (supersede_of_blocked blocked) blocked
      · refine unchanged (supersede_of_unblocked ?_) blocked
        intro operation member state
        exact blocked ⟨operation, member, state⟩

/-- A transition of connectivity, a settlement or an accepted baseline. -/
abbrev Settlement := { transition : AuthoringTransition // transition.Settles }

/-- The session after a settlement; one that throws leaves it as it was. -/
def settle (session : AuthoringSession) (settlement : Settlement) :
    AuthoringSession :=
  nextSession session settlement.val

/--
A session that must resynchronise stops being one by a transition that
resolves no block exactly when the transition settles an operation.
-/
theorem leaves_resync_iff
    {session : AuthoringSession} (resync : session.status = .resyncRequired)
    (transition : AuthoringTransition) :
    ((nextSession session transition).status ≠ .resyncRequired
        ∧ ¬ transition.Resolves)
      ↔ Unblocks session transition := by
  have held : HoldsDraft session.status := Or.inl resync
  have modifiable := held.not_modifiable
  have stays : StaysBlocked session session := ⟨held, rfl, fun _ => resync⟩
  have kept : nextSession session transition = session →
      ¬ ((nextSession session transition).status ≠ .resyncRequired
        ∧ ¬ transition.Resolves) := by
    rintro same ⟨leaves, -⟩
    rw [same] at leaves
    exact leaves resync
  have refused : ∀ {transition : String}
      {allowed : List AuthoringSessionStatus}, .resyncRequired ∉ allowed →
        ∃ message, requireStatus session transition allowed
          = .error message := by
    intro transition allowed outside
    apply requireStatus_error
    rwa [resync]
  have settled : transition.Settles → ¬ transition.Resolves →
      (((nextSession session transition).status ≠ .resyncRequired
          ∧ ¬ transition.Resolves)
        ↔ Unblocks session transition) := by
    intro settles unresolved
    rw [← not_iff_not, ← staysBlocked_iff stays settles]
    constructor
    · intro remains
      have status : (nextSession session transition).status
          = .resyncRequired := by
        by_contra leaves
        exact remains ⟨leaves, unresolved⟩
      rw [staysBlocked_iff stays settles]
      intro unblocks
      cases settles with
      | disconnect => exact unblocks
      | reconnect => exact unblocks
      | adopt baseline draft acceptedRevision validation => exact unblocks
      | acknowledge operationId document acceptedRevision =>
          exact acknowledge_of_queued unblocks document acceptedRevision
            (Or.inl status)
      | reject operationId category message retryable =>
          exact unblocks.2.2 resync
      | supersede => exact supersede_of_blocked unblocks (Or.inl status)
    · rintro blocked ⟨leaves, -⟩
      exact leaves (blocked.resync resync)
  cases transition with
  | modify draft validation =>
      obtain ⟨message, refuses⟩ :=
        @refused "modify" modifiableStatuses (by decide)
      apply iff_of_false
      · apply kept
        simp [nextSession, AuthoringTransition.apply, modifyAuthoringSession,
          refuses, bind, Except.bind]
      · exact id
  | queue operation =>
      obtain ⟨message, refuses⟩ :=
        @refused "queue"
          [.modified, .commitPending, .offlineModified, .commitRejected,
            .policyConflict] (by decide)
      apply iff_of_false
      · apply kept
        simp [nextSession, AuthoringTransition.apply,
          queueAuthoringOperation, refuses, bind, Except.bind]
      · exact id
  | beginReplay operationId =>
      obtain ⟨message, refuses⟩ :=
        @refused "replay"
          [.commitPending, .offlineModified, .commitRejected, .replaying]
          (by decide)
      apply iff_of_false
      · apply kept
        simp [nextSession, AuthoringTransition.apply, beginAuthoringReplay,
          refuses, bind, Except.bind]
      · exact id
  | acknowledge operationId document acceptedRevision =>
      exact settled (.acknowledge ..) (by rintro ⟨⟩)
  | adopt baseline draft acceptedRevision validation =>
      exact settled (.adopt ..) (by rintro ⟨⟩)
  | reject operationId category message retryable =>
      exact settled (.reject ..) (by rintro ⟨⟩)
  | supersede => exact settled .supersede (by rintro ⟨⟩)
  | disconnect => exact settled .disconnect (by rintro ⟨⟩)
  | reconnect => exact settled .reconnect (by rintro ⟨⟩)
  | replaceHistory accepted acceptedRevision =>
      apply iff_of_false
      · rintro ⟨-, unresolved⟩
        exact unresolved (.replaceHistory ..)
      · exact id
  | discard =>
      apply iff_of_false
      · rintro ⟨-, unresolved⟩
        exact unresolved .discard
      · exact id
  | block reason =>
      apply iff_of_false
      · rintro ⟨-, unresolved⟩
        exact unresolved (.block reason)
      · exact id

/--
Throughout any run of settlements and connectivity a session stays blocked
over its draft exactly when no step settles an operation queued before the
block, but for a rejection of one that must resynchronise.  And it leaves
`resyncRequired` by a transition that resolves no block exactly by such a
step.
-/
theorem blocks_outlive_settlements_iff
    {start : AuthoringSession} (held : HoldsDraft start.status)
    (settlements : List Settlement) :
    (Machine.Throughout settle (StaysBlocked start) start settlements
        ↔ Machine.EveryStep settle
            (fun session settlement => ¬ Unblocks session settlement.val)
            start settlements)
      ∧ (start.status = .resyncRequired → ∀ transition,
          ((nextSession start transition).status ≠ .resyncRequired
              ∧ ¬ transition.Resolves)
            ↔ Unblocks start transition) := by
  constructor
  · apply Machine.throughout_iff_everyStep
    · intro session settlement stays
      exact staysBlocked_iff stays settlement.property
    · exact ⟨held, rfl, id⟩
  · exact leaves_resync_iff

/-- The note's edit as an operation to send. -/
def editOperation (operationId : String) : AuthoringOperation where
  operationId := operationId
  schemaVersion := 1
  exchangeMode := .incremental
  baseRevision := "r1"
  updateBase64 := none
  document := none
  rejectionCategory := none

/-- A session held for recovery with one operation queued. -/
def recoveringSession : AuthoringSession :=
  Machine.run nextSession editedSession
    [.queue (editOperation "o1"), .block .recoveryRequired]

theorem blocks_outlive_connectivity :
    Machine.Throughout settle (StaysBlocked recoveringSession)
      recoveringSession [⟨.disconnect, .disconnect⟩, ⟨.reconnect, .reconnect⟩]
      := by
  have held : HoldsDraft recoveringSession.status := Or.inr (Or.inl rfl)
  rw [(blocks_outlive_settlements_iff held _).1]
  simp only [Machine.everyStep_cons, Machine.everyStep_nil, and_true]
  exact ⟨id, id⟩

/-- Accepting the operation lets a session held for recovery be edited. -/
theorem acknowledgement_lifts_block :
    Started editedSession
      ∧ HoldsDraft recoveringSession.status
      ∧ (nextSession recoveringSession
          (.acknowledge "o1" editedSession.baseline "r2")).status = .modified
      ∧ ¬ Machine.Throughout settle (StaysBlocked recoveringSession)
          recoveringSession
          [⟨.acknowledge "o1" editedSession.baseline "r2",
            .acknowledge ..⟩] := by
  have status : (nextSession recoveringSession
      (.acknowledge "o1" editedSession.baseline "r2")).status = .modified := by
    decide +kernel
  refine ⟨editedSession_started, Or.inr (Or.inl rfl), status, ?_⟩
  intro throughout
  have blocked := (throughout _ List.prefix_rfl).held
  change HoldsDraft (nextSession recoveringSession
    (.acknowledge "o1" editedSession.baseline "r2")).status at blocked
  rw [status] at blocked
  simp [HoldsDraft] at blocked

end Clerkenwell.Client
