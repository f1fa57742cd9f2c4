import Clerkenwell.Client.JsonEquality
import Clerkenwell.Client.LocalIntent
import Mathlib.Data.List.Nodup

/-!
# What an acknowledgement settles

A session's draft is edited while its queued operations are sent, rejected and
acknowledged in any order.  An acknowledgement settles the operation it is
about: the draft still holds the last edit, and the other operations stay.
-/

namespace Clerkenwell.Client

open Clerkenwell.Foundation

theorem documentsEqual_symm {left right : Document}
    (same : documentsEqual left right = true) :
    documentsEqual right left = true :=
  areJsonValuesEqual_symm _ _ left.property right.property same

theorem documentsEqual_trans {left middle right : Document}
    (same : documentsEqual left middle = true)
    (later : documentsEqual middle right = true) :
    documentsEqual left right = true :=
  areJsonValuesEqual_trans _ _ _ left.property middle.property right.property
    same later

/-! ## Runs of edits and commits -/

/-- An edit of a session's draft, or a step of one of its commits. -/
inductive CommitStep where
  | modify (draft : Document) (validation : Option JsValue)
  | queue (operation : AuthoringOperation)
  | beginReplay (operationId : String)
  | acknowledge (operationId : String) (document : Document)
      (acceptedRevision : String)
  | reject (operationId category message : String) (retryable : Bool)

def CommitStep.transition : CommitStep → AuthoringTransition
  | .modify draft validation => .modify draft validation
  | .queue operation => .queue operation
  | .beginReplay operationId => .beginReplay operationId
  | .acknowledge operationId document acceptedRevision =>
      .acknowledge operationId document acceptedRevision
  | .reject operationId category message retryable =>
      .reject operationId category message retryable

/-- A session, and the last edit it took. -/
structure EditedSession where
  session : AuthoringSession
  edit : Document

namespace EditedSession

/-- A session before any edit. -/
def begin_ (session : AuthoringSession) : EditedSession where
  session := session
  edit := session.draft

def next (edited : EditedSession) (step : CommitStep) : EditedSession where
  session := nextSession edited.session step.transition
  edit :=
    match step with
    | .modify draft validation =>
        match modifyAuthoringSession edited.session draft validation with
        | .ok _ => draft
        | .error _ => edited.edit
    | _ => edited.edit

end EditedSession

/-! ## What each step keeps -/

/-- The ids of a session's queued operations. -/
def queuedIds (session : AuthoringSession) : List String :=
  session.queuedOperations.map QueuedAuthoringOperation.operationId

theorem modify_keeps {session next : AuthoringSession} {draft : Document}
    {validation : Option JsValue}
    (modified : modifyAuthoringSession session draft validation = .ok next) :
    next.draft = draft ∧ queuedIds next = queuedIds session := by
  unfold modifyAuthoringSession at modified
  cases guard : requireStatus session "modify" modifiableStatuses with
  | error message => simp [guard, bind, Except.bind] at modified
  | ok _ =>
      simp only [guard, bind, Except.bind, pure, Except.pure] at modified
      cases modified
      exact ⟨rfl, rfl⟩

theorem queue_keeps {session next : AuthoringSession}
    {operation : AuthoringOperation}
    (queued : queueAuthoringOperation session operation = .ok next) :
    next.draft = session.draft
      ∧ (queuedIds next = queuedIds session
        ∨ operation.operationId ∉ queuedIds session
          ∧ queuedIds next
            = queuedIds session ++ [operation.operationId]) := by
  unfold queueAuthoringOperation at queued
  cases guard : requireStatus session "queue"
      [.modified, .commitPending, .offlineModified, .commitRejected,
        .policyConflict] with
  | error message => simp [guard, bind, Except.bind] at queued
  | ok _ =>
      simp only [guard, bind, Except.bind, pure, Except.pure] at queued
      split at queued
      · cases queued
        exact ⟨rfl, .inl rfl⟩
      · rename_i absent
        cases queued
        refine ⟨rfl, .inr ⟨?_, by simp [queuedIds]⟩⟩
        intro held
        obtain ⟨other, there, same⟩ := List.mem_map.mp held
        exact absent (List.any_eq_true.mpr ⟨other, there, by simp [same]⟩)

theorem beginReplay_keeps {session next : AuthoringSession}
    {operationId : String}
    (replaying : beginAuthoringReplay session operationId = .ok next) :
    next.draft = session.draft ∧ queuedIds next = queuedIds session := by
  unfold beginAuthoringReplay at replaying
  cases guard : requireStatus session "replay"
      [.commitPending, .offlineModified, .commitRejected, .replaying] with
  | error message => simp [guard, bind, Except.bind] at replaying
  | ok _ =>
      cases found : requireQueuedOperation session operationId with
      | error message =>
          simp [guard, found, bind, Except.bind] at replaying
      | ok operation =>
          simp only [guard, found, bind, Except.bind, pure,
            Except.pure] at replaying
          split at replaying
          · cases replaying
          · cases replaying
            refine ⟨rfl, ?_⟩
            simp only [queuedIds, List.map_map]
            apply List.map_congr_left
            intro candidate _
            simp only [Function.comp_apply]
            split <;> rfl

theorem reject_keeps {session next : AuthoringSession}
    {operationId category message : String} {retryable : Bool}
    (rejected : rejectAuthoringOperation session operationId category message
      retryable = .ok next) :
    next.draft = session.draft ∧ queuedIds next = queuedIds session := by
  unfold rejectAuthoringOperation at rejected
  cases found : requireQueuedOperation session operationId with
  | error message => simp [found, bind, Except.bind] at rejected
  | ok operation =>
      simp only [found, bind, Except.bind, pure, Except.pure] at rejected
      cases rejected
      refine ⟨rfl, ?_⟩
      simp only [queuedIds, List.map_map]
      apply List.map_congr_left
      intro candidate _
      simp only [Function.comp_apply]
      split <;> rfl

/-- What acknowledging a queued operation makes of a session. -/
structure SettledBy (session : AuthoringSession) (operationId : String)
    (document : Document) (acceptedRevision : String)
    (acknowledged : AuthoringSession) : Prop where
  revision : acknowledged.acceptedRevision = acceptedRevision
  baseline : acknowledged.baseline = document
  draft : documentsEqual acknowledged.draft session.draft = true
  accepted : documentsEqual document acknowledged.draft
    = documentsEqual document session.draft
  remaining : acknowledged.queuedOperations
    = session.queuedOperations.filter
        (fun candidate => candidate.operationId != operationId)

theorem acknowledge_settles {session : AuthoringSession}
    {operationId : String} (document : Document) (acceptedRevision : String)
    (queued : operationId ∈ queuedIds session) :
    ∃ acknowledged,
      acknowledgeAuthoringOperation session operationId document
          acceptedRevision = .ok acknowledged
        ∧ SettledBy session operationId document acceptedRevision
            acknowledged := by
  unfold acknowledgeAuthoringOperation
  cases found : session.queuedOperations.find?
      (fun candidate => candidate.operationId == operationId) with
  | none =>
      obtain ⟨operation, there, same⟩ := List.mem_map.mp queued
      exact absurd same
        (by simpa using List.find?_eq_none.mp found operation there)
  | some operation =>
      have same : operation.operationId = operationId := by
        simpa using List.find?_some found
      refine ⟨_, rfl, ?_⟩
      cases alike : documentsEqual document session.draft with
      | true =>
          exact
            { revision := rfl
              baseline := rfl
              draft := by simp [alike]
              accepted := by simp [alike, documentsEqual_refl]
              remaining := by simp [same] }
      | false =>
          exact
            { revision := rfl
              baseline := rfl
              draft := by simpa [alike] using documentsEqual_refl session.draft
              accepted := by simp [alike]
              remaining := by simp [same] }

/-- An operation that is not queued is never settled a second time. -/
theorem acknowledge_unqueued {session : AuthoringSession}
    {operationId : String} (document : Document) (acceptedRevision : String)
    (absent : operationId ∉ queuedIds session) :
    acknowledgeAuthoringOperation session operationId document acceptedRevision
      = if session.acceptedRevision = acceptedRevision
            ∧ documentsEqual session.baseline document then
          .ok session
        else
          .error ("Unknown queued authoring operation "
            ++ stringify operationId ++ ".") := by
  have unfound : session.queuedOperations.find?
      (fun candidate => candidate.operationId == operationId) = none := by
    rw [List.find?_eq_none]
    intro operation there same
    exact absent (List.mem_map.mpr ⟨operation, there, by simpa using same⟩)
  unfold acknowledgeAuthoringOperation
  rw [unfound]

theorem nextSession_unqueued {session : AuthoringSession}
    {operationId : String} (document : Document) (acceptedRevision : String)
    (absent : operationId ∉ queuedIds session) :
    nextSession session
        (.acknowledge operationId document acceptedRevision) = session := by
  unfold nextSession
  simp only [AuthoringTransition.apply,
    acknowledge_unqueued document acceptedRevision absent]
  split
  · rename_i kept
    split at kept
    · injection kept with same
      exact same.symm
    · cases kept
  · rfl

theorem SettledBy.unqueued {session acknowledged : AuthoringSession}
    {operationId acceptedRevision : String} {document : Document}
    (settled : SettledBy session operationId document acceptedRevision
      acknowledged) :
    operationId ∉ queuedIds acknowledged := by
  intro held
  obtain ⟨other, there, same⟩ := List.mem_map.mp held
  rw [settled.remaining, List.mem_filter] at there
  simp [same] at there

/-- The same outcome again finds the session it made, and keeps it. -/
theorem SettledBy.repeated {session acknowledged : AuthoringSession}
    {operationId acceptedRevision : String} {document : Document}
    (settled : SettledBy session operationId document acceptedRevision
      acknowledged) :
    acknowledgeAuthoringOperation acknowledged operationId document
      acceptedRevision = .ok acknowledged := by
  rw [acknowledge_unqueued document acceptedRevision settled.unqueued,
    if_pos ⟨settled.revision, by
      rw [settled.baseline]
      exact documentsEqual_refl document⟩]

theorem SettledBy.queuedIds {session acknowledged : AuthoringSession}
    {operationId acceptedRevision : String} {document : Document}
    (settled : SettledBy session operationId document acceptedRevision
      acknowledged) :
    queuedIds acknowledged
      = (queuedIds session).filter (fun queued => queued != operationId) := by
  simp only [Client.queuedIds, settled.remaining, List.filter_map]
  rfl

/-! ## The invariant of a run -/

/-- The draft holds the last edit, and no two queued operations share an id. -/
structure HoldsEdit (edited : EditedSession) : Prop where
  draft : documentsEqual edited.session.draft edited.edit = true
  distinct : (queuedIds edited.session).Nodup

theorem holdsEdit_begin {session : AuthoringSession}
    (started : Started session) :
    HoldsEdit (EditedSession.begin_ session) where
  draft := documentsEqual_refl session.draft
  distinct := by cases started <;> exact List.nodup_nil

theorem holdsEdit_next (edited : EditedSession) (step : CommitStep)
    (held : HoldsEdit edited) :
    HoldsEdit (edited.next step) := by
  cases step with
  | modify draft validation =>
      simp only [EditedSession.next, nextSession, CommitStep.transition,
        AuthoringTransition.apply]
      cases modified : modifyAuthoringSession edited.session draft
          validation with
      | error message => exact held
      | ok next =>
          obtain ⟨taken, kept⟩ := modify_keeps modified
          exact
            { draft := by
                simpa only [taken] using documentsEqual_refl draft
              distinct := by simpa only [kept] using held.distinct }
  | queue operation =>
      simp only [EditedSession.next, nextSession, CommitStep.transition,
        AuthoringTransition.apply]
      cases queued : queueAuthoringOperation edited.session operation with
      | error message => exact held
      | ok next =>
          obtain ⟨same, kept | ⟨fresh, kept⟩⟩ := queue_keeps queued
          · exact
              { draft := by simpa only [same] using held.draft
                distinct := by simpa only [kept] using held.distinct }
          · exact
              { draft := by simpa only [same] using held.draft
                distinct := by
                  simp only [kept, List.nodup_append]
                  refine ⟨held.distinct, List.nodup_singleton _, ?_⟩
                  intro first there second last
                  rw [List.mem_singleton] at last
                  rintro rfl
                  exact fresh (last ▸ there) }
  | beginReplay operationId =>
      simp only [EditedSession.next, nextSession, CommitStep.transition,
        AuthoringTransition.apply]
      cases replaying : beginAuthoringReplay edited.session operationId with
      | error message => exact held
      | ok next =>
          obtain ⟨same, kept⟩ := beginReplay_keeps replaying
          exact
            { draft := by simpa only [same] using held.draft
              distinct := by simpa only [kept] using held.distinct }
  | acknowledge operationId document acceptedRevision =>
      by_cases queued : operationId ∈ queuedIds edited.session
      · obtain ⟨acknowledged, made, settled⟩ :=
          acknowledge_settles document acceptedRevision queued
        simp only [EditedSession.next, nextSession, CommitStep.transition,
          AuthoringTransition.apply, made]
        exact
          { draft := documentsEqual_trans settled.draft held.draft
            distinct := by
              rw [settled.queuedIds]
              exact held.distinct.filter _ }
      · simp only [EditedSession.next, CommitStep.transition,
          nextSession_unqueued document acceptedRevision queued]
        exact held
  | reject operationId category message retryable =>
      simp only [EditedSession.next, nextSession, CommitStep.transition,
        AuthoringTransition.apply]
      cases rejected : rejectAuthoringOperation edited.session operationId
          category message retryable with
      | error message => exact held
      | ok next =>
          obtain ⟨same, kept⟩ := reject_keeps rejected
          exact
            { draft := by simpa only [same] using held.draft
              distinct := by simpa only [kept] using held.distinct }

theorem holdsEdit_run {session : AuthoringSession} (started : Started session)
    (steps : List CommitStep) :
    HoldsEdit
      (Machine.run EditedSession.next (EditedSession.begin_ session)
        steps) := by
  induction steps using List.reverseRecOn with
  | nil => exact holdsEdit_begin started
  | append_singleton earlier step inductionHypothesis =>
      rw [Machine.run_append_singleton]
      exact holdsEdit_next _ step inductionHypothesis

/-! ## Steps that leave an operation settled -/

/-- A step that does not queue an operation under the id. -/
def CommitStep.Leaves (operationId : String) : CommitStep → Prop
  | .queue operation => operation.operationId ≠ operationId
  | _ => True

theorem unqueued_next {edited : EditedSession} {operationId : String}
    (absent : operationId ∉ queuedIds edited.session) (step : CommitStep)
    (leaves : step.Leaves operationId) :
    operationId ∉ queuedIds (edited.next step).session := by
  simp only [EditedSession.next]
  cases step with
  | modify draft validation =>
      simp only [nextSession, CommitStep.transition, AuthoringTransition.apply]
      split
      · rename_i modified
        rwa [(modify_keeps modified).right]
      · exact absent
  | queue operation =>
      simp only [nextSession, CommitStep.transition, AuthoringTransition.apply]
      split
      · rename_i queued
        obtain ⟨_, kept | ⟨_, kept⟩⟩ := queue_keeps queued
        · rwa [kept]
        · rw [kept, List.mem_append, List.mem_singleton]
          rintro (there | same)
          · exact absent there
          · exact leaves same.symm
      · exact absent
  | beginReplay other =>
      simp only [nextSession, CommitStep.transition, AuthoringTransition.apply]
      split
      · rename_i replaying
        rwa [(beginReplay_keeps replaying).right]
      · exact absent
  | acknowledge other document acceptedRevision =>
      by_cases queued : other ∈ queuedIds edited.session
      · obtain ⟨acknowledged, made, settled⟩ :=
          acknowledge_settles document acceptedRevision queued
        simp only [nextSession, CommitStep.transition,
          AuthoringTransition.apply, made, settled.queuedIds, List.mem_filter]
        exact fun held => absent held.left
      · rwa [CommitStep.transition,
          nextSession_unqueued document acceptedRevision queued]
  | reject other category message retryable =>
      simp only [nextSession, CommitStep.transition, AuthoringTransition.apply]
      split
      · rename_i rejected
        rwa [(reject_keeps rejected).right]
      · exact absent

theorem unqueued_run {edited : EditedSession} {operationId : String}
    (absent : operationId ∉ queuedIds edited.session)
    (steps : List CommitStep)
    (leaves : ∀ step ∈ steps, step.Leaves operationId) :
    operationId ∉ queuedIds
      (Machine.run EditedSession.next edited steps).session := by
  induction steps generalizing edited with
  | nil => exact absent
  | cons step rest inductionHypothesis =>
      rw [List.forall_mem_cons] at leaves
      rw [Machine.run_cons]
      exact inductionHypothesis (unqueued_next absent step leaves.left)
        leaves.right

/-! ## What an acknowledgement keeps -/

/-- The operations around one whose id no other carries. -/
theorem filter_settled {before after : List QueuedAuthoringOperation}
    {operation : QueuedAuthoringOperation}
    (distinct : ((before ++ operation :: after).map
      QueuedAuthoringOperation.operationId).Nodup) :
    (before ++ operation :: after).filter
        (fun candidate => candidate.operationId != operation.operationId)
      = before ++ after := by
  rw [List.map_append, List.map_cons, List.nodup_middle, List.nodup_cons,
    ← List.map_append] at distinct
  have others : ∀ candidate ∈ before ++ after,
      (candidate.operationId != operation.operationId) = true := by
    intro candidate there
    rw [bne_iff_ne]
    intro same
    exact distinct.left (List.mem_map.mpr ⟨candidate, there, same⟩)
  simp only [List.forall_mem_append] at others
  rw [List.filter_append, List.filter_eq_self.mpr others.left,
    List.filter_cons_of_neg (by simp), List.filter_eq_self.mpr others.right]

/--
An acknowledgement of a queued operation, of any run, leaves a draft alike to
the last edit and takes only that operation out of the queue; the same outcome
changes nothing again, then or after any steps that do not queue the operation
anew.
-/
theorem acknowledgement_keepsEdits {start : AuthoringSession}
    (started : Started start) (steps : List CommitStep)
    {operation : QueuedAuthoringOperation}
    (queued : operation ∈
      (Machine.run EditedSession.next (EditedSession.begin_ start)
        steps).session.queuedOperations)
    (document : Document) (acceptedRevision : String) :
    let reached :=
      Machine.run EditedSession.next (EditedSession.begin_ start) steps
    ∃ acknowledged,
      acknowledgeAuthoringOperation reached.session operation.operationId
          document acceptedRevision = .ok acknowledged
        ∧ documentsEqual acknowledged.draft reached.edit = true
        ∧ (documentsEqual document acknowledged.draft = true
          ↔ documentsEqual document reached.edit = true)
        ∧ (∃ before after,
          reached.session.queuedOperations = before ++ operation :: after
            ∧ acknowledged.queuedOperations = before ++ after)
        ∧ acknowledgeAuthoringOperation acknowledged operation.operationId
            document acceptedRevision = .ok acknowledged
        ∧ ∀ later : List CommitStep,
          (∀ step ∈ later, step.Leaves operation.operationId) →
            let further :=
              (Machine.run EditedSession.next
                { session := acknowledged, edit := reached.edit }
                later).session
            nextSession further
                (.acknowledge operation.operationId document
                  acceptedRevision) = further := by
  intro reached
  have held : HoldsEdit reached := holdsEdit_run started steps
  have inQueue : operation.operationId ∈ queuedIds reached.session :=
    List.mem_map_of_mem queued
  obtain ⟨acknowledged, made, settled⟩ :=
    acknowledge_settles document acceptedRevision inQueue
  have draft : documentsEqual acknowledged.draft reached.edit = true :=
    documentsEqual_trans settled.draft held.draft
  refine ⟨acknowledged, made, draft, ⟨?_, ?_⟩, ?_, settled.repeated, ?_⟩
  · exact fun alike => documentsEqual_trans alike draft
  · exact fun alike => documentsEqual_trans alike (documentsEqual_symm draft)
  · obtain ⟨before, after, split⟩ := List.append_of_mem queued
    refine ⟨before, after, split, ?_⟩
    have distinct := held.distinct
    rw [queuedIds, split] at distinct
    rw [settled.remaining, split, filter_settled distinct]
  · intro later leaves
    exact nextSession_unqueued document acceptedRevision
      (@unqueued_run { session := acknowledged, edit := reached.edit } _
        settled.unqueued later leaves)

/-- One commit of the edited draft, captured before a later edit. -/
def capturedOperation : AuthoringOperation where
  operationId := "op1"
  schemaVersion := 1
  exchangeMode := .incremental
  baseRevision := "r1"
  updateBase64 := some "AA=="
  document := none
  rejectionCategory := none

theorem acknowledgement_keeps_later_edit :
    let later : Document :=
      ⟨.object [("text", .string "later")], by
        simp [JsValue.OwnMembers, JsValue.OwnEntries]⟩
    let reached :=
      Machine.run EditedSession.next (EditedSession.begin_ editedSession)
        [.queue capturedOperation, .beginReplay "op1", .modify later none]
    ∃ acknowledged,
      acknowledgeAuthoringOperation reached.session "op1"
          editedSession.draft "r2" = .ok acknowledged
        ∧ documentsEqual acknowledged.draft later = true := by
  intro later reached
  have kept := acknowledgement_keepsEdits editedSession_started
    [.queue capturedOperation, .beginReplay "op1", .modify later none]
    (List.mem_singleton_self _) editedSession.draft "r2"
  obtain ⟨acknowledged, made, draft, _⟩ := kept
  exact ⟨acknowledged, made, draft⟩

end Clerkenwell.Client
