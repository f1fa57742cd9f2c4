import Clerkenwell.Store.Service

/-!
# Imports and edits

An import decides whether an update is committed: it recognises a retry, then
judges the update's history, peers, fence and policies against the accepted
document, and commits the document it leaves.  An edit and a text edit are
prepared as imports of the operations they write.  Every refusal is audited.
-/

namespace Clerkenwell.Store

open Clerkenwell.Foundation
open Clerkenwell.Doc

/-! ## Requests -/

inductive CollaborationExchangeMode where
  | incremental
  | bootstrap
deriving DecidableEq, Repr

/-- What an import is judged against when it commits. -/
inductive ImportFence where
  | etag (expected : String)
  | frontier
deriving DecidableEq, Repr

structure CollaborationImportRequest where
  document : CollaborationDocumentId
  schemaVersion : Nat
  operationId : String
  exchangeMode : CollaborationExchangeMode
  baseFrontierBase64 : String
  updateBase64 : String
  fence : ImportFence
  actor : Principal
  peerNonces : List String
  intent : Option String
deriving DecidableEq

/-- A principal's edit of a whole document, as it read it at `etag`. -/
structure CollaborationDocumentEdit where
  document : CollaborationDocumentId
  operationId : String
  edited : Json
  etag : String
  actor : Principal
  intent : Option String

/-- A principal's replacement of the text it read in one text field. -/
structure CollaborationTextEdit where
  document : CollaborationDocumentId
  operationId : String
  fieldPath : String
  identities : IdentityContext
  frontierBase64 : String
  read : String
  replacement : String
  actor : Principal
  intent : Option String

structure CollaborationImportResult where
  operationId : String
  duplicate : Bool
  schemaVersion : Nat
  version : CollaborationVersion
  acceptedFrontierBase64 : String
  missingUpdateBase64 : String
  etag : String
  materialized : Json
  generation : Nat
  peerId : String
  oplogVersion : String
  stateFrontiers : String
  updateBytes : Nat

/-- How an import recognises a retry of an operation the envelope retains. -/
inductive Retried where
  | byUpdate
  | byPrincipal
deriving DecidableEq, Repr

/-- Why an import was not committed. -/
inductive ImportFailure (Failure : Type) where
  | store (error : StoreError)
  | invalid (error : Failure)

/-! ## Refusals -/

section Refusals

variable (request : CollaborationImportRequest)

/-- The members every refusal of a request names its document by. -/
def refusalData (code : String) (detail : List (String × Json)) : Json :=
  jsonObject
    ([("code", .string code), ("entity", .string request.document.entity),
      ("resource_id", .string request.document.resourceId)] ++ detail)

def unsupportedSchemaVersion (plan : CollaborationEntitySpec) : StoreError :=
  (StoreError.invalidRequest
    (s!"Unsupported {request.document.entity} collaboration schema version "
      ++ s!"{request.schemaVersion}; expected {plan.schemaVersion}.")).withData
    (refusalData request "unsupported_collaboration_schema_version"
      [("actual", jsonNat request.schemaVersion),
       ("expected", jsonNat plan.schemaVersion)])

def emptyResourceIdentity : StoreError :=
  StoreError.invalidRequest
    "A collaboration resource identity must not be empty."

def emptyOperationId : StoreError :=
  (StoreError.invalidRequest
    ("A collaboration import requires a stable non-empty "
      ++ "operation_id.")).withData
    (refusalData request "invalid_collaboration_operation_id" [])

def invalidUpdateBase64 (message : String) : StoreError :=
  (StoreError.invalidRequest s!"Invalid update_base64: {message}").withData
    (refusalData request "invalid_collaboration_update" [])

def documentExists : StoreError :=
  (StoreError.conflict
    (s!"Collaborative {request.document.entity} document "
      ++ s!"\"{request.document.resourceId}\" already exists.")).withData
    (refusalData request "collaboration_document_exists"
      [("exchange_mode", .string "bootstrap"),
       ("draft_retained", .bool true)])

def notStored (document : CollaborationDocumentId)
    (detail : List (String × Json)) : StoreError :=
  (StoreError.notFound
    (s!"No collaborative {document.entity} document exists for "
      ++ s!"\"{document.resourceId}\".")).withData
    (jsonObject
      ([("code", .string "collaboration_document_not_found"),
        ("entity", .string document.entity),
        ("resource_id", .string document.resourceId)] ++ detail))

def peerNotAllocated (peers : List String) : StoreError :=
  let listed := Text.join ", " peers
  (StoreError.invalidRequest
    (s!"The update for {request.document.entity}/"
      ++ s!"{request.document.resourceId} holds operations under peers "
      ++ s!"{listed} that were not allocated to "
      ++ s!"{request.actor.id}.")).withData
    (refusalData request "collaboration_peer_not_allocated"
      [("peers", jsonStrings peers), ("draft_retained", .bool true)])

def creationPolicyConflict (conflicts : List String) : StoreError :=
  let listed := Text.join ", " conflicts
  (StoreError.conflict
    (s!"The {request.document.entity} created by {request.actor.id} "
      ++ s!"conflicts with the policy of: {listed}.")).withData
    (refusalData request "conflict"
      [("conflict_kind", .string "collaboration_policy"),
       ("conflict_paths", jsonStrings conflicts),
       ("draft_retained", .bool true)])

def revisionConflict (plan : CollaborationEntitySpec) (current : Json)
    (currentEtag expectedEtag : String) : StoreError :=
  (StoreError.conflict
    (s!"{request.document.entity} \"{request.document.resourceId}\" has "
      ++ "advanced since the caller read it.")).withData
    (refusalData request "conflict"
      [("conflict_kind", .string "collaboration_revision"),
       ("current", current), ("current_etag", .string currentEtag),
       ("expected_etag", .string expectedEtag),
       ("draft_retained", .bool true),
       (plan.idField, .string request.document.resourceId)])

def policyConflict (conflicts : List String) (current : Json)
    (currentEtag acceptedFrontier missingUpdate : String) : StoreError :=
  let listed := Text.join ", " conflicts
  (StoreError.conflict
    (s!"The {request.document.entity} edit by {request.actor.id} conflicts "
      ++ s!"with the policy of: {listed}.")).withData
    (refusalData request "conflict"
      [("conflict_kind", .string "collaboration_policy"),
       ("conflict_paths", jsonStrings conflicts),
       ("current", current), ("current_etag", .string currentEtag),
       ("base_frontier_base64", .string request.baseFrontierBase64),
       ("accepted_frontier_base64", .string acceptedFrontier),
       ("missing_update_base64", .string missingUpdate),
       ("draft_retained", .bool true)])

def commitContended : StoreError :=
  (StoreError.conflict
    (s!"Collaboration document {request.document.entity}/"
      ++ s!"{request.document.resourceId} changed repeatedly while "
      ++ "committing; the draft was retained.")).withData
    (refusalData request "collaboration_commit_contended"
      [("draft_retained", .bool true)])

end Refusals

section Import

variable {crates : StoreCrates} (port : PortContract) {Failure : Type}

/-- A store result in an import. -/
def orFailure {α : Type} (result : StoreResult α) :
    Except (ImportFailure Failure) α :=
  result.mapError ImportFailure.store

/-- A replica's result in an import. -/
def orImportFailure {α : Type} (document : CollaborationDocumentId)
    (result : ReplicaResult α) : Except (ImportFailure Failure) α :=
  orFailure (orStoreError document result)

/-- A store attempt in an import. -/
def within {α : Type} (attempt : Attempt crates StoreError α) :
    Attempt crates (ImportFailure Failure) α :=
  attempt.adapt ImportFailure.store

/-! ## Judging an import -/

/-- Refuses a request no document could be judged against. -/
def requireWellFormed (plan : CollaborationEntitySpec)
    (request : CollaborationImportRequest) : StoreResult Unit :=
  if request.schemaVersion ≠ plan.schemaVersion then
    .error (unsupportedSchemaVersion request plan)
  else if Text.isBlank request.document.resourceId then
    .error emptyResourceIdentity
  else if Text.isBlank request.operationId then
    .error (emptyOperationId request)
  else
    .ok ()

/-- The bytes of a request's update. -/
def importedUpdate (crates : StoreCrates)
    (request : CollaborationImportRequest) : StoreResult Bytes :=
  (crates.base64.decode request.updateBase64).mapError
    (invalidUpdateBase64 request)

/-- The accepted update a replica exports. -/
def exportedUpdate (document : CollaborationDocumentId)
    (replica : CollaborationReplica crates.toCrates) : StoreResult Bytes := do
  let encoded ← orStoreError document replica.exportUpdateBase64
  (crates.base64.decode encoded).mapError StoreError.internal

/-- The envelope of a document an import creates, before its commit. -/
def createdEnvelope (crates : StoreCrates)
    (request : CollaborationImportRequest) (incarnation : String)
    (acceptedUpdate : Bytes) : DurableCollaborationEnvelope where
  envelopeVersion := envelopeVersion
  entity := request.document.entity
  resourceId := request.document.resourceId
  incarnation := incarnation
  schemaVersion := request.schemaVersion
  generation := 0
  checkpointSequence := 0
  compactedThroughSequence := 0
  checkpointUpdateBase64 := crates.base64.encode acceptedUpdate
  checkpointSha256 := crates.sha256Hex acceptedUpdate
  checkpointBytes := acceptedUpdate.length
  retainedOperations := []
  peers := ∅

/--
The envelope an import is judged against: the one read, or, when an import
creates its document, one of the history the update is.
-/
def currentEnvelope (plan : CollaborationEntitySpec)
    (request : CollaborationImportRequest) (read : Option Held) :
    Attempt crates StoreError DurableCollaborationEnvelope :=
  match read, request.exchangeMode with
  | some _, .bootstrap => settled (.error (documentExists request))
  | some read, .incremental => pure read.envelope
  | none, .bootstrap => do
      let authoring ←
        settled (orStoreError request.document
          (CollaborationReplica.fromVersionedUpdateBase64 crates.toCrates
            plan request.schemaVersion request.updateBase64))
      let acceptedUpdate ←
        settled (exportedUpdate request.document authoring)
      let incarnation ← perform .uuid
      pure (createdEnvelope crates request incarnation acceptedUpdate)
  | none, .incremental =>
      settled (.error (notStored request.document
        [("exchange_mode", .string "incremental")]))

/-- Refuses peers that no nonce of a request names a block of for its actor. -/
def requireAllocatedPeers (crates : StoreCrates) (service : Service)
    (request : CollaborationImportRequest) (peers : List Nat) :
    StoreResult Unit :=
  let blocks := request.peerNonces.map fun nonce =>
    peerBase crates service.key request.actor request.document nonce
  let unallocated := peers.filter fun peer => !blocks.contains (blockOf peer)
  if unallocated.isEmpty then .ok ()
  else .error (peerNotAllocated request (unallocated.map toString))

/-- Refuses a created document that sets fields against its writer's policy. -/
def requireCreationPolicy (request : CollaborationImportRequest)
    (authoring : CollaborationReplica crates.toCrates) :
    StoreResult Unit := do
  let conflicts ←
    orStoreError request.document
      (authoring.policyConflictsForCreation request.actor.kind)
  if conflicts.isEmpty then .ok ()
  else .error (creationPolicyConflict request conflicts)

/-- Refuses a request fenced on an etag that is no longer the document's. -/
def requireFence (plan : CollaborationEntitySpec)
    (request : CollaborationImportRequest)
    (authoring : CollaborationReplica crates.toCrates)
    (currentEtag : String) : StoreResult Unit :=
  match request.fence with
  | .frontier => .ok ()
  | .etag expected =>
      if expected ≠ currentEtag then do
        let current ←
          orStoreError request.document
            (authoring.materializedDocument currentEtag)
        .error (revisionConflict request plan current currentEtag expected)
      else .ok ()

/-- Refuses an incremental update that changes fields against their policy. -/
def requireFieldPolicies (request : CollaborationImportRequest)
    (authoring : CollaborationReplica crates.toCrates)
    (currentEtag : String) : StoreResult Unit := do
  let document := request.document
  let conflicts ←
    orStoreError document
      (authoring.policyConflictsForIncrementalUpdate
        request.baseFrontierBase64 request.schemaVersion
        request.updateBase64 request.actor.kind)
  if conflicts.isEmpty then .ok ()
  else do
    let current ←
      orStoreError document (authoring.materializedDocument currentEtag)
    let missing ←
      orStoreError document
        (authoring.missingUpdateBase64 (some request.baseFrontierBase64)
          request.updateBase64)
    .error (policyConflict request conflicts current currentEtag
      authoring.acceptedFrontierBase64 missing)

/-- An import judged against a document: the commit it asks for. -/
structure JudgedImport (crates : StoreCrates) where
  authoring : CollaborationReplica crates.toCrates
  acceptedUpdate : Bytes
  materialized : Json
  commit : CollaborationCommit

/-- The peers of an update whose operations the document lacks. -/
def newPeers (crates : StoreCrates) (request : CollaborationImportRequest)
    (isNew : Bool) (authoring : CollaborationReplica crates.toCrates) :
    StoreResult (List Nat) :=
  orStoreError request.document
    (if isNew then
      CollaborationReplica.peersInUpdate crates.toCrates request.updateBase64
    else
      authoring.peersWithNewOperations request.updateBase64)

/-- A check made under a condition. -/
def requireIf {ε : Type} (condition : Bool) (check : Except ε Unit) :
    Except ε Unit :=
  if condition then check else .ok ()

/--
Judges an import against `current`, the envelope read or, when the document is
new, the one it would create.
-/
def judgeImport (service : Service) (plan : CollaborationEntitySpec)
    (request : CollaborationImportRequest) (update : Bytes) (isNew : Bool)
    (current : DurableCollaborationEnvelope)
    (validate : Json → Except Failure Unit) :
    Except (ImportFailure Failure) (JudgedImport crates) := do
  let document := request.document
  let incremental := decide (request.exchangeMode = .incremental)
  let held ← orFailure (loadAuthoringDocument crates plan document current)
  requireIf (!isNew)
    (orImportFailure document
      (held.requireRelatedHistory request.updateBase64))
  let peers ← orFailure (newPeers crates request isNew held)
  orFailure (requireAllocatedPeers crates service request peers)
  requireIf isNew (orFailure (requireCreationPolicy request held))
  let currentUpdate ← orFailure (current.checkpointUpdate crates document)
  let currentEtag := collaborationEtag crates currentUpdate
  orFailure (requireFence plan request held currentEtag)
  requireIf incremental
    (orImportFailure document
      (held.requireFrontierBase64 request.baseFrontierBase64))
  requireIf incremental
    (orFailure (requireFieldPolicies request held currentEtag))
  let frontierBefore := held.acceptedFrontierBase64
  let authoring ←
    orImportFailure document
      (held.adoptVersionedUpdateBase64 request.schemaVersion
        request.updateBase64)
  let acceptedUpdate ← orFailure (exportedUpdate document authoring)
  let materialized ←
    orImportFailure document
      (authoring.materializedDocument
        (collaborationEtag crates acceptedUpdate))
  (validate materialized).mapError ImportFailure.invalid
  return {
    authoring := authoring
    acceptedUpdate := acceptedUpdate
    materialized := materialized
    commit :=
      { document := document
        incarnation := if isNew then some current.incarnation else none
        schemaVersion := request.schemaVersion
        operationId := request.operationId
        actor := request.actor
        intent := request.intent
        peers := peers
        importedUpdate := update
        hasNewOperations :=
          frontierBefore ≠ authoring.acceptedFrontierBase64
        acceptedUpdate := acceptedUpdate
        frontierBefore := some frontierBefore
        frontierAfter := some authoring.acceptedFrontierBase64 } }

/-! ## Answering an import -/

/-- What an import reports once `accepted` holds its operation. -/
def importResult (request : CollaborationImportRequest) (accepted : Held)
    (authoring : CollaborationReplica crates.toCrates)
    (materialized : Json) (duplicate : Bool) :
    StoreResult CollaborationImportResult := do
  let acceptedUpdate ←
    accepted.envelope.checkpointUpdate crates request.document
  let missing ←
    orStoreError request.document
      (authoring.missingUpdateBase64
        (if request.exchangeMode = .incremental then
          some request.baseFrontierBase64 else none)
        request.updateBase64)
  let debug := authoring.debug
  return {
    operationId := request.operationId
    duplicate := duplicate
    schemaVersion := accepted.envelope.schemaVersion
    version := accepted.accepted
    acceptedFrontierBase64 := authoring.acceptedFrontierBase64
    missingUpdateBase64 := missing
    etag := collaborationEtag crates acceptedUpdate
    materialized := materialized
    generation := accepted.envelope.generation
    peerId := debug.peerId
    oplogVersion := debug.oplogVersion
    stateFrontiers := debug.stateFrontiers
    updateBytes := acceptedUpdate.length }

/-- Whether a retained operation is the one an import retries. -/
def isRetry (crates : StoreCrates) (retried : Retried)
    (request : CollaborationImportRequest) (update : Bytes)
    (retained : CollaborationOperation) : Bool :=
  match retried with
  | .byUpdate => retained.updateSha256 == crates.sha256Hex update
  | .byPrincipal => retained.actor == request.actor

/-- The answer of a retry: what its operation left. -/
def answerRetry (plan : CollaborationEntitySpec)
    (request : CollaborationImportRequest) (resident : Held) :
    Attempt crates StoreError CollaborationImportResult := do
  let authoring ← replica plan request.document resident
  let materialized ← materialized plan request.document resident
  settled (importResult request resident authoring materialized true)

/-- The operation of a request that a document read retains. -/
def retainedRetry (request : CollaborationImportRequest)
    (read : Option Held) : Option (Held × CollaborationOperation) :=
  read.bind fun resident =>
    (retainedOperation resident.envelope request.operationId).map
      fun retained => (resident, retained)

/-- Offers what a commit built to the document held, when there is one. -/
def offer (authoring : CollaborationReplica crates.toCrates)
    (materialized : Json) : Option Held → StoreProgram crates Unit
  | some held => do
      act (.offerReplica held.id authoring)
      act (.offerMaterialized held.id materialized)
  | none => pure ()

/-- Keeps what a commit built with the document held, when it is of it. -/
def offerBuilt (service : Service) (document : CollaborationDocumentId)
    (accepted : Held) (authoring : CollaborationReplica crates.toCrates)
    (materialized : Json) : StoreProgram crates Unit := do
  let held ← act (.resident service.residency (port.source document))
  offer authoring materialized
    (held.filter fun held =>
      held.envelope.generation == accepted.envelope.generation
        && held.envelope.checkpointSha256
          == accepted.envelope.checkpointSha256)

/-- The document an accepted or duplicate import reports. -/
def reportedDocument (plan : CollaborationEntitySpec)
    (document : CollaborationDocumentId) (accepted : Held)
    (judged : JudgedImport crates) :
    StoreResult (CollaborationReplica crates.toCrates × Json) := do
  let durableUpdate ← accepted.envelope.checkpointUpdate crates document
  if durableUpdate = judged.acceptedUpdate then
    return (judged.authoring, judged.materialized)
  else
    let durable ← loadAuthoringDocument crates plan document accepted.envelope
    let value ←
      orStoreError document
        (durable.materializedDocument
          (collaborationEtag crates durableUpdate))
    return (durable, value)

/-- Reports what a commit accepted, or holds already. -/
def reportCommit (service : Service) (plan : CollaborationEntitySpec)
    (request : CollaborationImportRequest) (judged : JudgedImport crates)
    (accepted : Held) (duplicate : Bool) :
    Attempt crates StoreError CollaborationImportResult := do
  let (authoring, materialized) ←
    settled (reportedDocument plan request.document accepted judged)
  always (offerBuilt port service request.document accepted authoring
    materialized)
  settled (importResult request accepted authoring materialized duplicate)

/-- Commits what an import asks for; `none` when another writer was first. -/
def commitImport (service : Service) (plan : CollaborationEntitySpec)
    (request : CollaborationImportRequest) (read : Option Held)
    (judged : JudgedImport crates) :
    Attempt crates StoreError (Option CollaborationImportResult) := do
  match ← commitOver port service read judged.commit with
  | .stale => return none
  | .accepted accepted =>
      some <$> reportCommit port service plan request judged accepted false
  | .duplicate accepted =>
      some <$> reportCommit port service plan request judged accepted true

/-- One attempt of an import; `none` when another writer was first. -/
def importAttempt (service : Service) (plan : CollaborationEntitySpec)
    (request : CollaborationImportRequest) (retried : Retried)
    (validate : Json → Except Failure Unit) (update : Bytes) :
    Attempt crates (ImportFailure Failure)
      (Option CollaborationImportResult) := do
  let read ← within (readEnvelope port service request.document)
  let current ← within (currentEnvelope plan request read)
  match retainedRetry request read with
  | some (resident, retained) =>
      if isRetry crates retried request update retained then
        some <$> within (answerRetry plan request resident)
      else
        settled (.error (.store
          (operationIdCollision request.document request.operationId)))
  | none => do
      let judged ←
        settled (judgeImport service plan request update read.isNone current
          validate)
      within (commitImport port service plan request read judged)

/-- The attempts of an import, until one is not lost to another writer. -/
def importAttempts (service : Service) (plan : CollaborationEntitySpec)
    (request : CollaborationImportRequest) (retried : Retried)
    (validate : Json → Except Failure Unit) (update : Bytes) :
    Nat → Attempt crates (ImportFailure Failure) CollaborationImportResult
  | 0 => settled (.error (.store (commitContended request)))
  | attempts + 1 => do
      match ← importAttempt port service plan request retried validate
          update with
      | some result => return result
      | none =>
          importAttempts service plan request retried validate update attempts

def importInternal (service : Service) (plan : CollaborationEntitySpec)
    (request : CollaborationImportRequest) (retried : Retried)
    (validate : Json → Except Failure Unit) :
    Attempt crates (ImportFailure Failure) CollaborationImportResult := do
  settled (orFailure (requireWellFormed plan request))
  let update ← settled (orFailure (importedUpdate crates request))
  importAttempts port service plan request retried validate update
    service.policy.attempts

/-! ## Auditing a refusal -/

/-- The milliseconds since the epoch. -/
def unixMs : Attempt crates StoreError Nat := do
  match ← perform .now with
  | some milliseconds => return milliseconds
  | none =>
      throw (StoreError.internal
        "second time provided was later than self")

def auditRequest (actor : Principal) (document : CollaborationDocumentId)
    (event : CollaborationAuditEvent) : Attempt crates StoreError Unit := do
  let timestamp ← unixMs
  ExceptT.mk (act (.appendAudit
    { timestampUnixMs := timestamp
      actor := actor
      entity := document.entity
      resourceId := document.resourceId
      event := event }))

/-- The record of a refusal that names its code. -/
def refusalEvent (crates : StoreCrates)
    (request : CollaborationImportRequest) (code : String)
    (conflictPaths : List String) : CollaborationAuditEvent :=
  .refusal request.operationId code request.baseFrontierBase64 conflictPaths
    (crates.sha256Hex (textBytes request.updateBase64))

def auditRefusal (request : CollaborationImportRequest) (code : String)
    (conflictPaths : List String) : Attempt crates StoreError Unit :=
  auditRequest request.actor request.document
    (refusalEvent crates request code conflictPaths)

/-- The code a store error is audited under. -/
def refusalCode (error : StoreError) : String :=
  match error.data.bind fun data => (data.index "code").asStr with
  | none => "collaboration_import_refused"
  | some code =>
      match error.data.bind fun data =>
          (data.index "conflict_kind").asStr with
      | some kind => if code = "conflict" then kind else code
      | none => code

/-- The conflicting paths a store error names. -/
def refusalPaths (error : StoreError) : List String :=
  ((error.data.bind fun data => (data.index "conflict_paths").asArray).getD
    []).filterMap Json.asStr

/-- A failure once its refusal is audited, or the failure to audit it. -/
def audited (ofStore : StoreError → Failure)
    (audit : Attempt crates StoreError Unit) (failure : Failure) :
    StoreProgram crates Failure := do
  match ← audit.run with
  | .ok () => pure failure
  | .error unaudited => pure (ofStore unaudited)

/-- The failure of a request, audited unless the store failed internally. -/
def refuse (ofStore : StoreError → Failure)
    (request : CollaborationImportRequest)
    (failure : ImportFailure Failure) : StoreProgram crates Failure :=
  match failure with
  | .store error =>
      if error.kind = .internal then
        pure (ofStore error)
      else
        audited ofStore
          (auditRefusal request (refusalCode error) (refusalPaths error))
          (ofStore error)
  | .invalid error =>
      audited ofStore
        (auditRefusal request "collaboration_document_invalid" []) error

def importRecognising (service : Service) (ofStore : StoreError → Failure)
    (plan : CollaborationEntitySpec) (request : CollaborationImportRequest)
    (retried : Retried) (validate : Json → Except Failure Unit) :
    Attempt crates Failure CollaborationImportResult :=
  ExceptT.mk do
    match ← (importInternal port service plan request retried validate :
        Attempt crates (ImportFailure Failure)
          CollaborationImportResult).run with
    | .ok result => pure (.ok result)
    | .error failure => do
        let refused ← refuse ofStore request failure
        pure (.error refused)

/-- Commits a request's update, made by its actor, or refuses it. -/
def importUpdate (service : Service) (ofStore : StoreError → Failure)
    (plan : CollaborationEntitySpec) (request : CollaborationImportRequest)
    (validate : Json → Except Failure Unit) :
    Attempt crates Failure CollaborationImportResult :=
  importRecognising port service ofStore plan request .byUpdate validate

/-! ## Edits -/

/-- The update of the operation an id names that a resident retains. -/
def retainedUpdate (resident : Held) (operationId : String) :
    Option String :=
  (retainedOperation resident.envelope operationId).map
    CollaborationOperation.updateBase64

/-- The request of an edit, before its operations are written. -/
def editRequest (plan : CollaborationEntitySpec)
    (edit : CollaborationDocumentEdit) : CollaborationImportRequest where
  document := edit.document
  schemaVersion := plan.schemaVersion
  operationId := edit.operationId
  exchangeMode := .incremental
  baseFrontierBase64 := ""
  updateBase64 := ""
  fence := .etag edit.etag
  actor := edit.actor
  peerNonces := []
  intent := edit.intent

/-- The request of a text edit, before its operations are written. -/
def textEditRequest (plan : CollaborationEntitySpec)
    (edit : CollaborationTextEdit) : CollaborationImportRequest where
  document := edit.document
  schemaVersion := plan.schemaVersion
  operationId := edit.operationId
  exchangeMode := .incremental
  baseFrontierBase64 := edit.frontierBase64
  updateBase64 := ""
  fence := .frontier
  actor := edit.actor
  peerNonces := []
  intent := edit.intent

/-- The operations between a replica's document and an edited one. -/
def editedUpdate (replica : CollaborationReplica crates.toCrates)
    (peer : Nat) (edited : Json) (baseFrontierBase64 : String) :
    ReplicaResult String := do
  let replica ← replica.setPeer peer
  let (replaced, replica) := replica.replaceDocument edited
  replaced
  replica.exportIncrementalUpdateBase64 baseFrontierBase64

/--
A request under preparation, which a failure leaves as far as it was filled.
-/
abbrev Preparation (crates : StoreCrates) (α : Type) :=
  ExceptT StoreError
    (StateT CollaborationImportRequest (StoreProgram crates)) α

/-- An attempt made while a request is prepared. -/
def preparing {α : Type} (attempt : Attempt crates StoreError α) :
    Preparation crates α :=
  ExceptT.mk fun request => do
    let result ← attempt.run
    pure (result, request)

/-- Fills part of a request. -/
def fill (change : CollaborationImportRequest → CollaborationImportRequest) :
    Preparation crates Unit :=
  ExceptT.mk fun request => pure (.ok (), change request)

/-- The update of a retained operation, or else the one that is written. -/
def retainedOr (resident : Held) (operationId : String)
    (written : Preparation crates String) : Preparation crates String :=
  match retainedUpdate resident operationId with
  | some retained => pure retained
  | none => written

/-- Fills a request with the operations an edit writes. -/
def prepareEdit (service : Service) (plan : CollaborationEntitySpec)
    (edit : CollaborationDocumentEdit) : Preparation crates Unit := do
  let document := edit.document
  match ← preparing (readEnvelope port service document) with
  | none => preparing (settled (.error (notStored document [])))
  | some resident => do
      let replica ←
        preparing (settled
          (loadAuthoringDocument crates plan document resident.envelope))
      let baseFrontier := replica.acceptedFrontierBase64
      fill fun request => { request with baseFrontierBase64 := baseFrontier }
      let block ←
        preparing (always (allocatePeers service edit.actor document))
      let update ←
        retainedOr resident edit.operationId
          (preparing (settled (orStoreError document
            (editedUpdate replica block.base edit.edited baseFrontier))))
      fill fun request =>
        { request with updateBase64 := update, peerNonces := [block.nonce] }

/-- Fills a request with the replacement a text edit writes. -/
def prepareTextEdit (service : Service) (plan : CollaborationEntitySpec)
    (edit : CollaborationTextEdit) : Preparation crates Unit := do
  let document := edit.document
  match ← preparing (readEnvelope port service document) with
  | none => preparing (settled (.error (notStored document [])))
  | some resident => do
      let block ←
        preparing (always (allocatePeers service edit.actor document))
      let update ←
        retainedOr resident edit.operationId do
          let replica ← preparing (replica plan document resident)
          preparing (settled (orStoreError document
            (replica.prepareTextReplacementAtFrontier edit.fieldPath
              edit.identities edit.frontierBase64 edit.read
              edit.replacement block.base)))
      fill fun request =>
        { request with updateBase64 := update, peerNonces := [block.nonce] }

/-- Imports a request once it is prepared, or refuses it as far as it was. -/
def importPrepared (service : Service) (ofStore : StoreError → Failure)
    (plan : CollaborationEntitySpec) (request : CollaborationImportRequest)
    (prepare : Preparation crates Unit)
    (validate : Json → Except Failure Unit) :
    Attempt crates Failure CollaborationImportResult :=
  ExceptT.mk do
    let (prepared, request) ← prepare.run request
    match prepared with
    | .ok () =>
        (importRecognising port service ofStore plan request .byPrincipal
          validate).run
    | .error error => do
        let refused ← refuse ofStore request (.store error)
        pure (.error refused)

def edit (service : Service) (ofStore : StoreError → Failure)
    (plan : CollaborationEntitySpec) (edit : CollaborationDocumentEdit)
    (validate : Json → Except Failure Unit) :
    Attempt crates Failure CollaborationImportResult :=
  importPrepared port service ofStore plan (editRequest plan edit)
    (prepareEdit port service plan edit) validate

def editText (service : Service) (ofStore : StoreError → Failure)
    (plan : CollaborationEntitySpec) (edit : CollaborationTextEdit)
    (validate : Json → Except Failure Unit) :
    Attempt crates Failure CollaborationImportResult :=
  importPrepared port service ofStore plan (textEditRequest plan edit)
    (prepareTextEdit port service plan edit) validate

end Import

end Clerkenwell.Store
