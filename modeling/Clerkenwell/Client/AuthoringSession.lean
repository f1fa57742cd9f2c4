import Clerkenwell.Client.JsonValue

/-!
# The authoring state machine

The pure transitions of one authoring session, as `authoring-state-machine.ts`
writes them.  A transition that throws returns its error, and the session its
caller holds stays as it was.
-/

namespace Clerkenwell.Client

/-! ## The vocabulary of authoring -/

inductive AuthoringSessionStatus where
  | bootstrapping
  | live
  | clean
  | modified
  | commitPending
  | commitRejected
  | disconnectedReadable
  | offlineModified
  | replaying
  | migrationBlocked
  | dependencyBlocked
  | policyConflict
  | resyncRequired
  | recoveryRequired
deriving DecidableEq, Repr

/-- The status as the client spells it. -/
def AuthoringSessionStatus.spelling : AuthoringSessionStatus → String
  | .bootstrapping => "bootstrapping"
  | .live => "live"
  | .clean => "clean"
  | .modified => "modified"
  | .commitPending => "commitPending"
  | .commitRejected => "commitRejected"
  | .disconnectedReadable => "disconnectedReadable"
  | .offlineModified => "offlineModified"
  | .replaying => "replaying"
  | .migrationBlocked => "migrationBlocked"
  | .dependencyBlocked => "dependencyBlocked"
  | .policyConflict => "policyConflict"
  | .resyncRequired => "resyncRequired"
  | .recoveryRequired => "recoveryRequired"

inductive AuthoringExchangeMode where
  | incremental
  | bootstrap
  | optimisticDocument
deriving DecidableEq, Repr

inductive AuthoringPolicy where
  | collaborative
  | optimisticDocument
deriving DecidableEq, Repr

structure AuthoringResourceIdentity where
  entity : String
  resourceKey : String
deriving DecidableEq, Repr

inductive QueuedOperationState where
  | queued
  | sending
  | blocked
deriving DecidableEq, Repr

def QueuedOperationState.spelling : QueuedOperationState → String
  | .queued => "queued"
  | .sending => "sending"
  | .blocked => "blocked"

structure QueuedAuthoringOperation where
  operationId : String
  resource : AuthoringResourceIdentity
  schemaVersion : Nat
  exchangeMode : AuthoringExchangeMode
  baseRevision : String
  updateBase64 : Option String
  document : Option Document
  retryCount : Nat
  state : QueuedOperationState
  rejectionCategory : Option String

/-- The replica operations a collaborative draft materialises. -/
structure AuthoringDraftOperations where
  baseFrontierBase64 : String
  updateBase64 : String
  peerNonces : List String

structure AuthoringRejection where
  category : String
  message : String

structure AuthoringSession where
  resource : AuthoringResourceIdentity
  policy : AuthoringPolicy
  status : AuthoringSessionStatus
  schemaVersion : Nat
  acceptedRevision : String
  supportedExchangeModes : List AuthoringExchangeMode
  baseline : Document
  draft : Document
  validation : JsValue
  queuedOperations : List QueuedAuthoringOperation
  draftOperations : Option AuthoringDraftOperations
  lastRejection : Option AuthoringRejection

/--
The code a store refuses an import with when the importer must replace its
replica with one of the store's history.
-/
def resyncRequired : String :=
  "collaboration_resync_required"

def documentsEqual (left right : Document) : Bool :=
  areJsonValuesEqual left.val right.val

theorem documentsEqual_refl (document : Document) :
    documentsEqual document document = true :=
  areJsonValuesEqual_refl document.val document.property

/-- A deep copy of a document, which is the document. -/
def cloneDocument (document : Document) : Document :=
  ⟨JsValue.structuredClone document.val, document.property⟩

@[simp]
theorem cloneDocument_eq (document : Document) :
    cloneDocument document = document :=
  rfl

/-- `JSON.stringify` of a string. -/
def stringify (text : String) : String :=
  "\"" ++ String.join (text.toList.map escape) ++ "\""
where
  escape (character : Char) : String :=
    match character.toNat with
    | 8 => "\\b"
    | 9 => "\\t"
    | 10 => "\\n"
    | 12 => "\\f"
    | 13 => "\\r"
    | 34 => "\\\""
    | 92 => "\\\\"
    | code =>
        if code < 32 then
          "\\u00" ++ String.ofList
            [Nat.digitChar (code / 16), Nat.digitChar (code % 16)]
        else
          character.toString

/-! ## Starting a session -/

def bootstrapAuthoringSession
    (resource : AuthoringResourceIdentity)
    (policy : AuthoringPolicy)
    (schemaVersion : Nat)
    (acceptedRevision : String)
    (supportedExchangeModes : List AuthoringExchangeMode)
    (document : Document)
    (validation : JsValue) :
    AuthoringSession where
  resource := resource
  policy := policy
  status := .clean
  schemaVersion := schemaVersion
  acceptedRevision := acceptedRevision
  supportedExchangeModes := supportedExchangeModes
  baseline := cloneDocument document
  draft := cloneDocument document
  validation := validation.structuredClone
  queuedOperations := []
  draftOperations := none
  lastRejection := none

def startAuthoringSession
    (resource : AuthoringResourceIdentity)
    (policy : AuthoringPolicy)
    (schemaVersion : Nat)
    (acceptedRevision : String)
    (supportedExchangeModes : List AuthoringExchangeMode)
    (baseline draft : Document)
    (validation : JsValue) :
    AuthoringSession where
  resource := resource
  policy := policy
  status := if documentsEqual baseline draft then .clean else .modified
  schemaVersion := schemaVersion
  acceptedRevision := acceptedRevision
  supportedExchangeModes := supportedExchangeModes
  baseline := cloneDocument baseline
  draft := cloneDocument draft
  validation := validation.structuredClone
  queuedOperations := []
  draftOperations := none
  lastRejection := none

/-! ## Guards -/

/-- Statuses whose draft may change; a blocked session's draft stays as it is. -/
def modifiableStatuses : List AuthoringSessionStatus :=
  [.clean, .live, .modified, .commitPending, .replaying, .commitRejected,
    .disconnectedReadable, .offlineModified, .policyConflict]

def requireStatus
    (session : AuthoringSession)
    (transition : String)
    (allowed : List AuthoringSessionStatus) :
    Except String Unit :=
  if session.status ∈ allowed then
    .ok ()
  else
    .error ("Cannot " ++ transition ++ " an authoring session while it is "
      ++ session.status.spelling ++ ".")

def requireQueuedOperation
    (session : AuthoringSession)
    (operationId : String) :
    Except String QueuedAuthoringOperation :=
  match session.queuedOperations.find?
      (fun candidate => candidate.operationId == operationId) with
  | some operation => .ok operation
  | none =>
      .error ("Unknown queued authoring operation "
        ++ stringify operationId ++ ".")

/--
Whether a session holds something a reload cannot produce again: an operation
queued but not yet accepted, or a status of unfinished work.
-/
def authoringSessionRequiresDurableRestoration
    (session : AuthoringSession) :
    Bool :=
  if session.queuedOperations.length > 0 then
    true
  else
    session.status != .clean
      && session.status != .live
      && session.status != .disconnectedReadable

inductive AuthoringRestoration where
  | notRequired
  | durable
deriving DecidableEq, Repr

inductive AuthoringLeaveDecision where
  | allow (restoration : AuthoringRestoration)
  | confirmDiscard
deriving DecidableEq, Repr

def authoringLeaveDecision
    (session : AuthoringSession)
    (durableRestorationAvailable : Bool) :
    AuthoringLeaveDecision :=
  if !authoringSessionRequiresDurableRestoration session then
    .allow .notRequired
  else if durableRestorationAvailable then
    .allow .durable
  else
    .confirmDiscard

/-- Whether a session's draft may change right now. -/
def authoringSessionAcceptsDraft (session : AuthoringSession) : Bool :=
  decide (session.status ∈ modifiableStatuses)

/-! ## Transitions -/

def modifyAuthoringSession
    (session : AuthoringSession)
    (draft : Document)
    (validation : Option JsValue) :
    Except String AuthoringSession := do
  requireStatus session "modify" modifiableStatuses
  let draftMatchesBaseline := documentsEqual session.baseline draft
  let hasQueuedOperations := session.queuedOperations.length > 0
  return { session with
    status :=
      if session.status = .disconnectedReadable
          ∨ session.status = .offlineModified then
        if hasQueuedOperations ∨ !draftMatchesBaseline then
          .offlineModified
        else
          .disconnectedReadable
      else if hasQueuedOperations then
        .commitPending
      else if draftMatchesBaseline then
        .clean
      else
        .modified
    draft := cloneDocument draft
    validation := (validation.getD session.validation).structuredClone
    lastRejection := none }

/-- The members of a queued operation its caller gives. -/
structure AuthoringOperation where
  operationId : String
  schemaVersion : Nat
  exchangeMode : AuthoringExchangeMode
  baseRevision : String
  updateBase64 : Option String
  document : Option Document
  rejectionCategory : Option String

def queueAuthoringOperation
    (session : AuthoringSession)
    (operation : AuthoringOperation) :
    Except String AuthoringSession := do
  requireStatus session "queue"
    [.modified, .commitPending, .offlineModified, .commitRejected,
      .policyConflict]
  if session.queuedOperations.any
      (fun queued => queued.operationId == operation.operationId) then
    return session
  let queued : QueuedAuthoringOperation :=
    { operationId := operation.operationId
      schemaVersion := operation.schemaVersion
      exchangeMode := operation.exchangeMode
      baseRevision := operation.baseRevision
      updateBase64 := operation.updateBase64
      document := operation.document
      rejectionCategory := operation.rejectionCategory
      resource := session.resource
      retryCount := 0
      state := .queued }
  return { session with
    status :=
      if session.status = .offlineModified then
        .offlineModified
      else
        .commitPending
    queuedOperations := session.queuedOperations ++ [queued] }

def beginAuthoringReplay
    (session : AuthoringSession)
    (operationId : String) :
    Except String AuthoringSession := do
  requireStatus session "replay"
    [.commitPending, .offlineModified, .commitRejected, .replaying]
  let operation ← requireQueuedOperation session operationId
  if operation.state ≠ .queued then
    throw ("Cannot replay authoring operation " ++ stringify operationId
      ++ " while it is " ++ operation.state.spelling ++ ".")
  return { session with
    status := .replaying
    queuedOperations := session.queuedOperations.map fun candidate =>
      if candidate.operationId = operation.operationId then
        { candidate with state := .sending }
      else
        candidate }

def acknowledgeAuthoringOperation
    (session : AuthoringSession)
    (operationId : String)
    (document : Document)
    (acceptedRevision : String) :
    Except String AuthoringSession :=
  match session.queuedOperations.find?
      (fun candidate => candidate.operationId == operationId) with
  | none =>
      if session.acceptedRevision = acceptedRevision
          ∧ documentsEqual session.baseline document then
        .ok session
      else
        .error ("Unknown queued authoring operation "
          ++ stringify operationId ++ ".")
  | some operation =>
      let remaining := session.queuedOperations.filter
        (fun candidate => candidate.operationId != operation.operationId)
      let hasUncommittedChanges := !documentsEqual document session.draft
      let retainedDraft :=
        if hasUncommittedChanges then session.draft else document
      let hasReplayableOperation :=
        remaining.any (fun candidate => candidate.state != .blocked)
      let hasBlockedOperation :=
        remaining.any (fun candidate => candidate.state == .blocked)
      .ok { session with
        status :=
          if remaining.length > 0 then
            if hasReplayableOperation then
              .commitPending
            else if hasBlockedOperation then
              .commitRejected
            else
              .commitPending
          else if hasUncommittedChanges then
            .modified
          else
            .clean
        acceptedRevision := acceptedRevision
        baseline := cloneDocument document
        draft := cloneDocument retainedDraft
        queuedOperations := remaining
        lastRejection := none }

def resolveAuthoringDraftForBaselineAdoption
    (session : AuthoringSession)
    (nextBaseline : Document) :
    Document :=
  if documentsEqual session.baseline session.draft then
    nextBaseline
  else
    session.draft

/--
Take an accepted baseline.  A session that does not accept a draft holds its
baseline, draft and queued operations until its block is resolved.
-/
def adoptAuthoringBaseline
    (session : AuthoringSession)
    (baseline : Document)
    (draft : Option Document)
    (acceptedRevision : Option String)
    (validation : JsValue) :
    AuthoringSession :=
  if !authoringSessionAcceptsDraft session then
    session
  else
    let draft :=
      draft.getD (resolveAuthoringDraftForBaselineAdoption session baseline)
    { session with
      status := if documentsEqual baseline draft then .clean else .modified
      acceptedRevision := acceptedRevision.getD session.acceptedRevision
      baseline := cloneDocument baseline
      draft := cloneDocument draft
      validation := (validation.orElse session.validation).structuredClone
      queuedOperations := []
      lastRejection := none }

/--
A session whose replica is replaced by one of another history, `accepted`.
Operations of the old history are never sent.  Pending edits are kept when
`accepted` is the document they were made from; otherwise the session is held
for recovery with its draft.
-/
def replaceAuthoringHistory
    (session : AuthoringSession)
    (accepted : Document)
    (acceptedRevision : String) :
    AuthoringSession :=
  let replaced :=
    { session with
      acceptedRevision := acceptedRevision
      baseline := cloneDocument accepted
      queuedOperations := []
      lastRejection := none
      draftOperations := none }
  if !authoringSessionRequiresDurableRestoration session then
    { replaced with status := .clean, draft := cloneDocument accepted }
  else
    let editable :=
      authoringSessionAcceptsDraft session
        || session.status == .resyncRequired
    if editable && documentsEqual session.baseline accepted then
      { replaced with
        status :=
          if documentsEqual accepted session.draft then
            .clean
          else
            .modified }
    else
      { replaced with status := .recoveryRequired }

def discardAuthoringChanges (session : AuthoringSession) : AuthoringSession :=
  { session with
    status := .clean
    draft := cloneDocument session.baseline
    queuedOperations := []
    lastRejection := none }

def rejectAuthoringOperation
    (session : AuthoringSession)
    (operationId category message : String)
    (retryable : Bool) :
    Except String AuthoringSession := do
  let _ ← requireQueuedOperation session operationId
  let resync :=
    category == resyncRequired || session.status == .resyncRequired
  return { session with
    status := if resync then .resyncRequired else .commitRejected
    queuedOperations := session.queuedOperations.map fun candidate =>
      if candidate.operationId = operationId then
        { candidate with
          retryCount := candidate.retryCount + 1
          state := if retryable && !resync then .queued else .blocked
          rejectionCategory := some category }
      else
        candidate
    lastRejection := some { category := category, message := message } }

def supersedeBlockedAuthoringOperations
    (session : AuthoringSession) :
    AuthoringSession :=
  let remaining := session.queuedOperations.filter
    (fun operation => operation.state != .blocked)
  if remaining.length = session.queuedOperations.length then
    session
  else
    { session with
      status :=
        if remaining.length > 0 then
          .commitPending
        else if documentsEqual session.baseline session.draft then
          .clean
        else
          .modified
      queuedOperations := remaining
      lastRejection := none }

/-- What a session may be blocked for. -/
inductive AuthoringBlock where
  | migrationBlocked
  | dependencyBlocked
  | policyConflict
  | resyncRequired
  | recoveryRequired
deriving DecidableEq, Repr

/-- The status a block sets. -/
def AuthoringBlock.status : AuthoringBlock → AuthoringSessionStatus
  | .migrationBlocked => .migrationBlocked
  | .dependencyBlocked => .dependencyBlocked
  | .policyConflict => .policyConflict
  | .resyncRequired => .resyncRequired
  | .recoveryRequired => .recoveryRequired

def blockedStatuses : List AuthoringSessionStatus :=
  [.migrationBlocked, .dependencyBlocked, .policyConflict, .resyncRequired,
    .recoveryRequired]

/-- A blocked session stays blocked: connectivity never resolves a block. -/
def disconnectAuthoringSession (session : AuthoringSession) :
    AuthoringSession :=
  if session.status ∈ blockedStatuses then
    session
  else
    { session with
      status :=
        if session.status = .modified
            ∨ session.status = .commitPending
            ∨ session.status = .commitRejected
            ∨ session.status = .replaying then
          .offlineModified
        else
          .disconnectedReadable }

def reconnectAuthoringSession (session : AuthoringSession) :
    Except String AuthoringSession := do
  requireStatus session "reconnect" [.disconnectedReadable, .offlineModified]
  let hasReplayableOperation := session.queuedOperations.any
    (fun operation => operation.state == .queued)
  let hasBlockedOperation := session.queuedOperations.any
    (fun operation => operation.state == .blocked)
  return { session with
    status :=
      if hasReplayableOperation then
        .replaying
      else if hasBlockedOperation then
        .commitRejected
      else if documentsEqual session.baseline session.draft then
        .clean
      else
        .modified }

def blockAuthoringSession
    (session : AuthoringSession)
    (block : AuthoringBlock) :
    AuthoringSession :=
  { session with status := block.status }

end Clerkenwell.Client
