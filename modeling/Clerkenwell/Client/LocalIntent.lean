import Clerkenwell.Client.AuthoringPersistence
import Clerkenwell.Foundation.Machine

/-!
# Local intent of an authoring session

A session holds local intent when its draft differs from its baseline or an
operation waits in its queue.  This module runs a session through any list of
transitions and asks whether the intent it holds is always one that requires
durable restoration.

Every transition but one keeps that property.  Disconnecting a session that is
already `offlineModified` leaves it `disconnectedReadable`, whatever its draft
holds, so a second disconnect over an empty queue is the one step that can
class local intent as disposable.
-/

namespace Clerkenwell.Client

open Clerkenwell.Foundation

/-! ## Runs of transitions -/

/-- One transition of a session, with what its caller gives. -/
inductive AuthoringTransition where
  | modify (draft : Document) (validation : Option JsValue)
  | queue (operation : AuthoringOperation)
  | beginReplay (operationId : String)
  | acknowledge (operationId : String) (document : Document)
      (acceptedRevision : String)
  | adopt (baseline : Document) (draft : Option Document)
      (acceptedRevision : Option String) (validation : JsValue)
  | replaceHistory (accepted : Document) (acceptedRevision : String)
  | discard
  | reject (operationId category message : String) (retryable : Bool)
  | supersede
  | disconnect
  | reconnect
  | block (reason : AuthoringBlock)

/-- What a transition makes of a session, or the error it throws. -/
def AuthoringTransition.apply
    (session : AuthoringSession) :
    AuthoringTransition → Except String AuthoringSession
  | .modify draft validation =>
      modifyAuthoringSession session draft validation
  | .queue operation => queueAuthoringOperation session operation
  | .beginReplay operationId => beginAuthoringReplay session operationId
  | .acknowledge operationId document acceptedRevision =>
      acknowledgeAuthoringOperation session operationId document
        acceptedRevision
  | .adopt baseline draft acceptedRevision validation =>
      .ok (adoptAuthoringBaseline session baseline draft acceptedRevision
        validation)
  | .replaceHistory accepted acceptedRevision =>
      .ok (replaceAuthoringHistory session accepted acceptedRevision)
  | .discard => .ok (discardAuthoringChanges session)
  | .reject operationId category message retryable =>
      rejectAuthoringOperation session operationId category message retryable
  | .supersede => .ok (supersedeBlockedAuthoringOperations session)
  | .disconnect => .ok (disconnectAuthoringSession session)
  | .reconnect => reconnectAuthoringSession session
  | .block reason => .ok (blockAuthoringSession session reason)

/-- The session after a transition; one that throws leaves it as it was. -/
def nextSession
    (session : AuthoringSession)
    (transition : AuthoringTransition) :
    AuthoringSession :=
  match transition.apply session with
  | .ok next => next
  | .error _ => session

/-- A session as `bootstrapAuthoringSession` or `startAuthoringSession` makes it. -/
inductive Started : AuthoringSession → Prop where
  | bootstrapped (resource : AuthoringResourceIdentity)
      (policy : AuthoringPolicy) (schemaVersion : Nat)
      (acceptedRevision : String)
      (supportedExchangeModes : List AuthoringExchangeMode)
      (document : Document) (validation : JsValue) :
      Started
        (bootstrapAuthoringSession resource policy schemaVersion
          acceptedRevision supportedExchangeModes document validation)
  | started (resource : AuthoringResourceIdentity)
      (policy : AuthoringPolicy) (schemaVersion : Nat)
      (acceptedRevision : String)
      (supportedExchangeModes : List AuthoringExchangeMode)
      (baseline draft : Document) (validation : JsValue) :
      Started
        (startAuthoringSession resource policy schemaVersion
          acceptedRevision supportedExchangeModes baseline draft validation)

/-! ## Local intent -/

/-- The draft differs from the baseline, or an operation is queued. -/
def LocalIntent (session : AuthoringSession) : Prop :=
  documentsEqual session.baseline session.draft = false
    ∨ session.queuedOperations ≠ []

/-- Local intent a reload would lose is classed, answered and kept as such. -/
structure IntentKept (session : AuthoringSession) : Prop where
  durable : LocalIntent session →
    authoringSessionRequiresDurableRestoration session = true
  leave : LocalIntent session → ∀ available,
    authoringLeaveDecision session available ≠ .allow .notRequired
  persisted : LocalIntent session → ∀ runtime id,
    (id, session) ∈ runtime.sessions →
      (id, toPersistedSession session) ∈ (toPersistedRuntime runtime).sessions

/-- A status whose session a reload is taken to hand back in full. -/
def Disposable (status : AuthoringSessionStatus) : Prop :=
  status = .clean ∨ status = .live ∨ status = .disconnectedReadable

theorem requiresDurableRestoration_eq_true_iff (session : AuthoringSession) :
    authoringSessionRequiresDurableRestoration session = true ↔
      session.queuedOperations ≠ [] ∨ ¬ Disposable session.status := by
  cases queue : session.queuedOperations with
  | nil =>
      simp [authoringSessionRequiresDurableRestoration, queue, Disposable,
        and_assoc]
  | cons first rest =>
      simp [authoringSessionRequiresDurableRestoration, queue]

/-- A disposable session with an empty queue has its baseline as its draft. -/
theorem intentKept_iff (session : AuthoringSession) :
    IntentKept session ↔
      (Disposable session.status → session.queuedOperations = [] →
        documentsEqual session.baseline session.draft = true) := by
  constructor
  · intro kept disposable empty
    by_contra differs
    have durable := kept.durable (Or.inl (by simpa using differs))
    rcases (requiresDurableRestoration_eq_true_iff session).mp durable with
      queued | unfinished
    · exact queued empty
    · exact unfinished disposable
  · intro equal
    have durable : LocalIntent session →
        authoringSessionRequiresDurableRestoration session = true := by
      intro intent
      rw [requiresDurableRestoration_eq_true_iff]
      by_contra neither
      rw [not_or, not_not, not_not] at neither
      have same := equal neither.2 neither.1
      rcases intent with differs | queued
      · rw [same] at differs
        cases differs
      · exact queued neither.1
    exact
      { durable := durable
        leave := by
          intro intent available
          cases available <;>
            simp [authoringLeaveDecision, durable intent]
        persisted := by
          intro intent runtime id held
          exact toPersistedRuntime_mem held (durable intent) }

theorem IntentKept.of_equal
    {session : AuthoringSession}
    (equal : documentsEqual session.baseline session.draft = true) :
    IntentKept session :=
  (intentKept_iff session).mpr fun _ _ => equal

theorem IntentKept.of_queued
    {session : AuthoringSession}
    (queued : session.queuedOperations ≠ []) :
    IntentKept session :=
  (intentKept_iff session).mpr fun _ empty => absurd empty queued

theorem IntentKept.of_unfinished
    {session : AuthoringSession}
    (unfinished : ¬ Disposable session.status) :
    IntentKept session :=
  (intentKept_iff session).mpr fun disposable _ =>
    absurd disposable unfinished

/-! ## What each transition does to local intent -/

/--
A session of a run: its intent is kept, and it is not `bootstrapping`, a
status no transition sets.
-/
structure Tracked (session : AuthoringSession) : Prop where
  kept : IntentKept session
  begun : session.status ≠ .bootstrapping

theorem modify_tracked
    {session next : AuthoringSession} {draft : Document}
    {validation : Option JsValue}
    (modified : modifyAuthoringSession session draft validation = .ok next) :
    Tracked next := by
  cases guard : requireStatus session "modify" modifiableStatuses with
  | error message =>
      simp [modifyAuthoringSession, guard, bind, Except.bind] at modified
  | ok _ =>
      simp only [modifyAuthoringSession, guard, bind, Except.bind, pure,
        Except.pure, Except.ok.injEq] at modified
      subst modified
      constructor
      · rw [intentKept_iff]
        intro disposable empty
        simp only at empty
        by_contra differs
        simp only [cloneDocument_eq, Bool.not_eq_true] at differs
        simp [empty, differs, Disposable] at disposable
        split at disposable <;> simp_all
      · simp only
        split_ifs <;> simp

theorem queue_tracked
    {session next : AuthoringSession} {operation : AuthoringOperation}
    (tracked : Tracked session)
    (queued : queueAuthoringOperation session operation = .ok next) :
    Tracked next := by
  unfold queueAuthoringOperation at queued
  cases guard : requireStatus session "queue"
      [.modified, .commitPending, .offlineModified, .commitRejected,
        .policyConflict] with
  | error message => simp [guard, bind, Except.bind] at queued
  | ok _ =>
      simp only [guard, bind, Except.bind, pure, Except.pure] at queued
      split at queued
      · -- The operation is queued already, so the session is unchanged.
        cases queued
        exact tracked
      · cases queued
        constructor
        · exact IntentKept.of_queued (by simp)
        · simp only
          split_ifs <;> simp

theorem beginReplay_tracked
    {session next : AuthoringSession} {operationId : String}
    (replaying : beginAuthoringReplay session operationId = .ok next) :
    Tracked next := by
  unfold beginAuthoringReplay at replaying
  cases guard : requireStatus session "replay"
      [.commitPending, .offlineModified, .commitRejected, .replaying] with
  | error message => simp [guard, bind, Except.bind] at replaying
  | ok _ =>
      cases found : requireQueuedOperation session operationId with
      | error message =>
          simp [guard, found, bind, Except.bind] at replaying
      | ok operation =>
          simp only [guard, found, bind, Except.bind, pure,
            Except.pure] at replaying
          split at replaying
          · cases replaying
          · cases replaying
            exact
              { kept := IntentKept.of_unfinished (by simp [Disposable])
                begun := by simp }

theorem acknowledge_tracked
    {session next : AuthoringSession} {operationId acceptedRevision : String}
    {document : Document}
    (tracked : Tracked session)
    (acknowledged :
      acknowledgeAuthoringOperation session operationId document
        acceptedRevision = .ok next) :
    Tracked next := by
  unfold acknowledgeAuthoringOperation at acknowledged
  split at acknowledged
  · split at acknowledged
    · cases acknowledged
      exact tracked
    · cases acknowledged
  · cases acknowledged
    constructor
    · rw [intentKept_iff]
      intro disposable empty
      simp only at empty disposable
      simp only [empty, List.length_nil, lt_self_iff_false,
        if_false] at disposable
      cases same : documentsEqual document session.draft with
      | true => simpa [same] using documentsEqual_refl document
      | false => simp [same, Disposable] at disposable
    · simp only
      split_ifs <;> simp

theorem adopt_tracked
    {session : AuthoringSession} (tracked : Tracked session)
    (baseline : Document) (draft : Option Document)
    (acceptedRevision : Option String) (validation : JsValue) :
    Tracked
      (adoptAuthoringBaseline session baseline draft acceptedRevision
        validation) := by
  unfold adoptAuthoringBaseline
  split
  · exact tracked
  · constructor
    · rw [intentKept_iff]
      intro disposable _
      by_contra differs
      simp only [cloneDocument_eq] at differs
      simp [differs, Disposable] at disposable
    · simp only
      split_ifs <;> simp

theorem replaceHistory_tracked
    (session : AuthoringSession) (accepted : Document)
    (acceptedRevision : String) :
    Tracked (replaceAuthoringHistory session accepted acceptedRevision) := by
  unfold replaceAuthoringHistory
  simp only
  split
  · exact
      { kept := IntentKept.of_equal (documentsEqual_refl accepted)
        begun := by simp }
  · split
    · constructor
      · rw [intentKept_iff]
        intro disposable _
        by_contra differs
        simp only [cloneDocument_eq] at differs
        simp [differs, Disposable] at disposable
      · simp only
        split_ifs <;> simp
    · exact
        { kept := IntentKept.of_unfinished (by simp [Disposable])
          begun := by simp }

theorem discard_tracked (session : AuthoringSession) :
    Tracked (discardAuthoringChanges session) where
  kept := IntentKept.of_equal (documentsEqual_refl session.baseline)
  begun := by simp [discardAuthoringChanges]

theorem reject_tracked
    {session next : AuthoringSession}
    {operationId category message : String} {retryable : Bool}
    (rejected :
      rejectAuthoringOperation session operationId category message retryable =
        .ok next) :
    Tracked next := by
  unfold rejectAuthoringOperation at rejected
  cases found : requireQueuedOperation session operationId with
  | error unknown => simp [found, bind, Except.bind] at rejected
  | ok operation =>
      simp only [found, bind, Except.bind, pure, Except.pure,
        Except.ok.injEq] at rejected
      subst rejected
      constructor
      · apply IntentKept.of_unfinished
        simp only
        split_ifs <;> simp [Disposable]
      · simp only
        split_ifs <;> simp

theorem supersede_tracked
    {session : AuthoringSession} (tracked : Tracked session) :
    Tracked (supersedeBlockedAuthoringOperations session) := by
  unfold supersedeBlockedAuthoringOperations
  simp only
  split
  · exact tracked
  · constructor
    · rw [intentKept_iff]
      intro disposable empty
      simp only at empty disposable
      by_contra differs
      simp [empty, differs, Disposable] at disposable
    · simp only
      split_ifs <;> simp

theorem reconnect_tracked
    {session next : AuthoringSession}
    (reconnected : reconnectAuthoringSession session = .ok next) :
    Tracked next := by
  unfold reconnectAuthoringSession at reconnected
  cases guard : requireStatus session "reconnect"
      [.disconnectedReadable, .offlineModified] with
  | error message => simp [guard, bind, Except.bind] at reconnected
  | ok _ =>
      simp only [guard, bind, Except.bind, pure, Except.pure,
        Except.ok.injEq] at reconnected
      subst reconnected
      constructor
      · rw [intentKept_iff]
        intro disposable empty
        simp only at empty disposable
        by_contra differs
        simp [empty, differs, Disposable] at disposable
      · simp only
        split_ifs <;> simp

theorem block_tracked
    (session : AuthoringSession) (reason : AuthoringBlock) :
    Tracked (blockAuthoringSession session reason) where
  kept := IntentKept.of_unfinished (by
    cases reason <;>
      simp [blockAuthoringSession, AuthoringBlock.status, Disposable])
  begun := by
    cases reason <;> simp [blockAuthoringSession, AuthoringBlock.status]

/--
The step that classes local intent as disposable: a disconnect of a session
already offline, whose queue is empty and whose draft differs.
-/
structure LosesIntent
    (session : AuthoringSession)
    (transition : AuthoringTransition) : Prop where
  disconnects : transition = .disconnect
  offline : session.status = .offlineModified
  empty : session.queuedOperations = []
  differs : documentsEqual session.baseline session.draft = false

theorem disconnect_begun
    {session : AuthoringSession} (tracked : Tracked session) :
    (disconnectAuthoringSession session).status ≠ .bootstrapping := by
  unfold disconnectAuthoringSession
  split
  · exact tracked.begun
  · simp only
    split_ifs <;> simp

/-- Disconnecting keeps the intent of every session but an offline one's. -/
theorem disconnect_kept_iff
    {session : AuthoringSession} (tracked : Tracked session) :
    IntentKept (disconnectAuthoringSession session) ↔
      ¬ LosesIntent session .disconnect := by
  have equal := (intentKept_iff session).mp tracked.kept
  have begun := tracked.begun
  rw [intentKept_iff]
  constructor
  · intro kept loses
    have same := kept
      (by simp [disconnectAuthoringSession, blockedStatuses, loses.offline,
        Disposable])
      (by simpa [disconnectAuthoringSession, blockedStatuses, loses.offline]
        using loses.empty)
    rw [disconnectAuthoringSession] at same
    split at same <;> simp [loses.differs] at same
  · intro safe disposable empty
    unfold disconnectAuthoringSession at disposable empty ⊢
    split at disposable
    · rename_i blocked
      simp only [if_pos blocked] at empty ⊢
      exact equal disposable empty
    · rename_i unblocked
      simp only [if_neg unblocked] at disposable empty ⊢
      by_contra differs
      rw [Bool.not_eq_true] at differs
      -- What remains is the one status a disconnect takes for clean.
      cases status : session.status <;>
        simp_all [Disposable, blockedStatuses]
      exact safe ⟨rfl, status, empty, differs⟩

/-! ## One step, and a run -/

/-- A step from a tracked session keeps its intent exactly when it may. -/
theorem nextSession_tracked_iff
    (session : AuthoringSession) (transition : AuthoringTransition)
    (tracked : Tracked session) :
    Tracked (nextSession session transition) ↔
      ¬ LosesIntent session transition := by
  by_cases disconnects : transition = .disconnect
  · subst disconnects
    change Tracked (disconnectAuthoringSession session) ↔ _
    rw [← disconnect_kept_iff tracked]
    exact ⟨Tracked.kept, fun kept => ⟨kept, disconnect_begun tracked⟩⟩
  · have safe : ¬ LosesIntent session transition :=
      fun loses => disconnects loses.disconnects
    refine iff_of_true ?_ safe
    unfold nextSession
    cases applied : transition.apply session with
    | error _ => exact tracked
    | ok next =>
        simp only
        cases transition with
        | modify draft validation => exact modify_tracked applied
        | queue operation => exact queue_tracked tracked applied
        | beginReplay operationId => exact beginReplay_tracked applied
        | acknowledge operationId document acceptedRevision =>
            exact acknowledge_tracked tracked applied
        | adopt baseline draft acceptedRevision validation =>
            cases applied
            exact adopt_tracked tracked baseline draft acceptedRevision
              validation
        | replaceHistory accepted acceptedRevision =>
            cases applied
            exact replaceHistory_tracked session accepted acceptedRevision
        | discard =>
            cases applied
            exact discard_tracked session
        | reject operationId category message retryable =>
            exact reject_tracked applied
        | supersede =>
            cases applied
            exact supersede_tracked tracked
        | disconnect => exact absurd rfl disconnects
        | reconnect => exact reconnect_tracked applied
        | block reason =>
            cases applied
            exact block_tracked session reason

theorem started_tracked
    {session : AuthoringSession} (started : Started session) :
    Tracked session := by
  cases started with
  | bootstrapped resource policy schemaVersion acceptedRevision modes
      document validation =>
      exact
        { kept := IntentKept.of_equal (documentsEqual_refl document)
          begun := by simp [bootstrapAuthoringSession] }
  | started resource policy schemaVersion acceptedRevision modes baseline
      draft validation =>
      constructor
      · rw [intentKept_iff]
        intro disposable _
        by_contra differs
        simp only [startAuthoringSession, cloneDocument_eq] at differs
        simp [startAuthoringSession, differs, Disposable] at disposable
      · simp only [startAuthoringSession]
        split_ifs <;> simp

/-- No transition makes a session that has begun a `bootstrapping` one. -/
theorem nextSession_begun
    {session : AuthoringSession} (begun : session.status ≠ .bootstrapping)
    (kept : IntentKept session) (transition : AuthoringTransition) :
    (nextSession session transition).status ≠ .bootstrapping := by
  have tracked : Tracked session := { kept := kept, begun := begun }
  by_cases loses : LosesIntent session transition
  · rw [loses.disconnects]
    exact disconnect_begun tracked
  · exact ((nextSession_tracked_iff session transition tracked).mpr loses).begun

/--
Local intent is kept throughout a run exactly when no step of it disconnects
an already offline session whose draft is its only local intent.
-/
theorem localIntent_kept_iff
    {start : AuthoringSession} (started : Started start)
    (transitions : List AuthoringTransition) :
    Machine.Throughout nextSession IntentKept start transitions ↔
      Machine.EveryStep nextSession
        (fun session transition => ¬ LosesIntent session transition)
        start transitions := by
  have tracked : Tracked start := started_tracked started
  rw [← Machine.throughout_iff_everyStep nextSession_tracked_iff tracked]
  constructor
  · intro kept reached
    induction reached using List.reverseRecOn with
    | nil => exact fun _ => tracked
    | append_singleton earlier transition inductionHypothesis =>
        intro within
        have before : Tracked (Machine.run nextSession start earlier) :=
          inductionHypothesis
            ((List.prefix_append earlier [transition]).trans within)
        refine ⟨kept _ within, ?_⟩
        rw [Machine.run_append_singleton]
        exact nextSession_begun before.begun before.kept transition
  · exact fun throughout reached within => (throughout reached within).kept

/-- A session started over an accepted document with an edited draft. -/
def editedSession : AuthoringSession :=
  startAuthoringSession
    { entity := "note", resourceKey := "n1" } .collaborative 1 "r1"
    [.incremental]
    ⟨.object [("text", .string "accepted")], by
      simp [JsValue.OwnMembers, JsValue.OwnEntries]⟩
    ⟨.object [("text", .string "edited")], by
      simp [JsValue.OwnMembers, JsValue.OwnEntries]⟩
    (.object [])

theorem editedSession_started :
    Started editedSession :=
  Started.started ..

theorem localIntent_kept_reconnecting :
    Machine.Throughout nextSession IntentKept editedSession
      [.disconnect, .reconnect, .disconnect] := by
  rw [localIntent_kept_iff editedSession_started]
  simp only [Machine.everyStep_cons, Machine.everyStep_nil, and_true]
  refine ⟨?_, ?_, ?_⟩
  · rintro ⟨_, offline, _, _⟩
    cases offline
  · rintro ⟨disconnects, _, _, _⟩
    cases disconnects
  · rintro ⟨_, offline, _, _⟩
    revert offline
    decide

/-- Two disconnects in a row class the edited draft as disposable. -/
theorem second_disconnect_loses_draft :
    Started editedSession ∧
      ¬ Machine.Throughout nextSession IntentKept editedSession
        [.disconnect, .disconnect] := by
  refine ⟨editedSession_started, fun kept => ?_⟩
  have last := (kept [.disconnect, .disconnect] List.prefix_rfl).durable
    (Or.inl (by decide))
  revert last
  decide

end Clerkenwell.Client
