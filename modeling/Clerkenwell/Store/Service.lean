import Clerkenwell.Store.Port

/-!
# The collaboration service

The service reads, builds and judges every envelope.  It serves what its
residency holds while the port's stamp vouches for it, commits by a conditional
write of the envelope it built over the one it read, and announces every commit
it stored.
-/

namespace Clerkenwell.Store

open Clerkenwell.Foundation
open Clerkenwell.Doc

/-! ## A service -/

/-- How a service commits: the history kept, and the attempts of an import. -/
structure CommitPolicy where
  retainedOperations : Nat
  attempts : Nat
  attempts_pos : 0 < attempts

/-- A service; its clones share its residency. -/
structure Service where
  residency : Nat
  plans : List CollaborationEntitySpec
  policy : CommitPolicy
  key : Bytes
  source : String

/-- The principal the service's own writes are made by. -/
def Service.system (service : Service) : Principal :=
  { id := service.source, kind := .system }

/-! ## Failures of a replica -/

def replicaError (document : CollaborationDocumentId)
    (error : CollaborationReplicaError) : StoreError :=
  let named (code : String) : Json :=
    jsonObject
      [("code", .string code), ("entity", .string document.entity),
       ("resource_id", .string document.resourceId)]
  let resync (message : String) : StoreError :=
    (StoreError.conflict message).withData
      (jsonObject
        [("code", .string "conflict"),
         ("conflict_kind", .string "collaboration_resync_required"),
         ("entity", .string document.entity),
         ("resource_id", .string document.resourceId),
         ("draft_retained", .bool true)])
  match error with
  | .unrelatedHistory =>
      resync
        (s!"The collaboration update for {document.entity}/"
          ++ s!"{document.resourceId} holds a history built apart from the "
          ++ "document's; resynchronise without discarding the retained "
          ++ "draft.")
  | .unknownFrontier =>
      resync
        (s!"The collaboration frontier for {document.entity}/"
          ++ s!"{document.resourceId} is no longer available; resynchronise "
          ++ "without discarding the retained draft.")
  | .missingDependency =>
      (StoreError.conflict
        (s!"The collaboration update for {document.entity}/"
          ++ s!"{document.resourceId} has operations whose causal "
          ++ "dependencies are missing; the draft was retained.")).withData
        (jsonObject
          [("code", .string "collaboration_dependency_blocked"),
           ("entity", .string document.entity),
           ("resource_id", .string document.resourceId),
           ("draft_retained", .bool true)])
  | .textCaptureMismatch =>
      (StoreError.invalidRequest error.message).withData
        (named "collaboration_text_mismatch")
  | .invalidVersion _ _ =>
      (StoreError.invalidRequest error.message).withData
        (named "invalid_collaboration_version")
  | _ =>
      (StoreError.invalidRequest error.message).withData
        (named "invalid_collaboration_update")

/-- A replica's result as the store's. -/
def orStoreError {α : Type} (document : CollaborationDocumentId)
    (result : ReplicaResult α) : StoreResult α :=
  result.mapError (replicaError document)

section Service

variable {crates : StoreCrates} (port : PortContract)

/-- A program that may fail. -/
abbrev Attempt (crates : StoreCrates) (ε α : Type) :=
  ExceptT ε (StoreProgram crates) α

/-- The program of one action. -/
abbrev act (action : StoreAction crates) :
    StoreProgram crates action.Response :=
  Program.act action

/-- The attempt of one action that cannot fail. -/
def perform {ε : Type} (action : StoreAction crates) :
    Attempt crates ε action.Response :=
  ExceptT.lift (act action)

/-- The attempt of a program that cannot fail. -/
def always {ε α : Type} (program : StoreProgram crates α) :
    Attempt crates ε α :=
  ExceptT.lift program

/-- A result no action was needed for. -/
def settled {ε α : Type} (result : Except ε α) : Attempt crates ε α :=
  ExceptT.mk (.done result)

/-! ## Loading a document -/

def migrationRequired (plan : CollaborationEntitySpec)
    (document : CollaborationDocumentId) (message : String)
    (schemaVersion : Nat) : StoreError :=
  (StoreError.invalidRequest message).withData
    (jsonObject
      [("code", .string "collaboration_migration_required"),
       ("entity", .string document.entity),
       ("resource_id", .string document.resourceId),
       ("actual", jsonNat schemaVersion),
       ("expected", jsonNat plan.schemaVersion)])

/-- The replica of an envelope's checkpoint, of the plan's schema version. -/
def loadAuthoringDocument (crates : StoreCrates)
    (plan : CollaborationEntitySpec) (document : CollaborationDocumentId)
    (envelope : DurableCollaborationEnvelope) :
    StoreResult (CollaborationReplica crates.toCrates) := do
  if envelope.schemaVersion ≠ plan.schemaVersion then
    throw (migrationRequired plan document
      (s!"Collaboration state for {document.entity}/{document.resourceId} "
        ++ s!"uses schema version {envelope.schemaVersion}; expected "
        ++ s!"{plan.schemaVersion}.")
      envelope.schemaVersion)
  let update ← envelope.checkpointUpdate crates document
  orStoreError document
    (CollaborationReplica.fromVersionedUpdateBase64 crates.toCrates plan
      envelope.schemaVersion (crates.base64.encode update))

/-- The replica of the document a resident holds, built once. -/
def replica (plan : CollaborationEntitySpec)
    (document : CollaborationDocumentId) (resident : Held) :
    Attempt crates StoreError (CollaborationReplica crates.toCrates) :=
  ExceptT.mk
    (act (.replica resident.id
      (loadAuthoringDocument crates plan document resident.envelope)))

/-- The document a resident holds, materialised once. -/
def materialized (plan : CollaborationEntitySpec)
    (document : CollaborationDocumentId) (resident : Held) :
    Attempt crates StoreError Json := do
  let replica ← replica plan document resident
  ExceptT.mk
    (act (.materialized resident.id
      (orStoreError document
        (replica.materializedDocument resident.envelope.etag))))

/-! ## Residency -/

/-- `get_or_insert` of a replica another resident built, if it did. -/
def takeReplica (resident : Held) :
    Option (CollaborationReplica crates.toCrates) → StoreProgram crates Unit
  | some replica => act (.offerReplica resident.id replica)
  | none => pure ()

/-- `get_or_insert` of a document another resident materialised, if it did. -/
def takeMaterialized (resident : Held) :
    Option Json → StoreProgram crates Unit
  | some value => act (.offerMaterialized resident.id value)
  | none => pure ()

/-- Takes over what `earlier` built when it holds the same accepted state. -/
def inherit (resident earlier : Held) : StoreProgram crates Unit :=
  if earlier.envelope.checkpointSha256 ≠ resident.envelope.checkpointSha256
      ∨ earlier.envelope.schemaVersion ≠ resident.envelope.schemaVersion then
    pure ()
  else do
    let replica ← act (.builtReplica earlier.id)
    takeReplica resident replica
    let value ← act (.builtMaterialized earlier.id)
    takeMaterialized resident value

/-- A resident as it is first made. -/
def newResident (crates : StoreCrates) (source version : String)
    (stamp : Option String) (envelope : DurableCollaborationEnvelope)
    (peers : List (Nat × Nat)) : Resident crates where
  source := source
  version := version
  envelope := envelope
  accepted := { incarnation := envelope.incarnation, peers := peers }
  stamp := stamp
  replica := none
  materialized := none

/-- Takes over what the document a resident replaces built, if there is one. -/
def inheritFrom (resident : Held) : Option Held → StoreProgram crates Unit
  | some earlier => inherit resident earlier
  | none => pure ()

/-- Holds a resident at its source in place of what was held there. -/
def hold (service : Service) (resident : Resident crates) :
    StoreProgram crates Held := do
  let held ← act (.insert service.residency resident)
  inheritFrom held.1 held.2
  pure held.1

/-- What the bytes kept at a source are judged to hold. -/
def judge (crates : StoreCrates)
    (document : Option CollaborationDocumentId) (source : String)
    (bytes : Bytes) :
    StoreResult (DurableCollaborationEnvelope × List (Nat × Nat)) := do
  let envelope ← parseEnvelope crates document source bytes
  let peers ←
    match document with
    | some document => validateEnvelope crates document envelope
    | none => validateEnvelope crates envelope.document envelope
  return (envelope, peers)

/-- Whether the port's stamp vouches for what a resident holds. -/
def vouchedForBy (stamp : Option String) (held : Held) :
    StoreProgram crates Bool := do
  if stamp.isSome then
    let taken ← act (.residentStamp held.id)
    pure (taken == stamp)
  else
    pure false

/-- What is held, when the port's stamp vouches for it. -/
def vouched (held : Option Held) (stamp : Option String) :
    StoreProgram crates (Option Held) := do
  match held with
  | none => pure none
  | some held => do
      let vouches ← vouchedForBy stamp held
      pure (if vouches then some held else none)

/-- What bytes just read hold, once they are judged and held. -/
def judged (service : Service) (source : String)
    (document : Option CollaborationDocumentId) (stamp : Option String)
    (stored : StoredEnvelope) : Attempt crates StoreError (Option Held) := do
  let (envelope, peers) ←
    settled (judge crates document source stored.bytes)
  let resident ← always
    (hold service
      (newResident crates source stored.version stamp envelope peers))
  return some resident

/-- What is held, or was judged, of what was read in place of it. -/
def reread (service : Service) (source : String)
    (document : Option CollaborationDocumentId) (held : Option Held)
    (stamp : Option String) : Attempt crates StoreError (Option Held) := do
  let stored ← ExceptT.mk (act (.read source))
  match stored with
  | none => do
      perform (.forget service.residency source)
      return none
  | some stored =>
      match held.filter fun held => held.version == stored.version with
      | some held => do
          perform (.restamp held.id stamp)
          return some held
      | none => judged service source document stamp stored

/-- The document kept at a source as the service holds it. -/
def resident (service : Service) (source : String)
    (document : Option CollaborationDocumentId) :
    Attempt crates StoreError (Option Held) := do
  let held ← perform (.resident service.residency source)
  let stamp ← ExceptT.mk (act (.stamp source))
  let vouchedFor ← always (vouched held stamp)
  match vouchedFor with
  | some held => return some held
  | none => reread service source document held stamp

def readEnvelope (service : Service) (document : CollaborationDocumentId) :
    Attempt crates StoreError (Option Held) :=
  resident service (port.source document) (some document)

/-! ## Peers -/

/-- The nonce of a block of peers and the base they share. -/
structure PeerBlock where
  nonce : String
  base : Nat

/-- The low bits of a peer its writer chooses within its block. -/
def peerIndexBits : Nat :=
  16

/-- The bits of a block's base the key derives. -/
def derivedBits : Nat :=
  63 - peerIndexBits

/-- A number as eight bytes, the most significant first. -/
def bigEndian (value : Nat) : Bytes :=
  (List.range 8).map fun index => UInt8.ofNat (value >>> (8 * (7 - index)))

/-- Eight bytes as a number, the most significant first. -/
def ofBigEndian (bytes : Bytes) : Nat :=
  bytes.foldl (fun value byte => value * 256 + byte.toNat) 0

/-- The bytes of a text. -/
def textBytes (text : String) : Bytes :=
  text.toUTF8.toList

def kindName : ActorKind → String
  | .human => "human"
  | .agent => "agent"
  | .service => "service"
  | .system => "system"

/-- The base of the block a nonce names for a principal and a document. -/
def peerBase (crates : StoreCrates) (key : Bytes) (principal : Principal)
    (document : CollaborationDocumentId) (nonce : String) : Nat :=
  let fields :=
    [kindName principal.kind, principal.id, document.entity,
      document.resourceId, nonce]
  let message := fields.flatMap fun field =>
    bigEndian (textBytes field).length ++ textBytes field
  let digest := crates.hmacSha256 key message
  (ofBigEndian (digest.take 8) >>> (64 - derivedBits)) <<< peerIndexBits

/-- The base of the block a peer is in. -/
def blockOf (peer : Nat) : Nat :=
  (peer >>> peerIndexBits) <<< peerIndexBits

/-- A new block of peers for a principal to write a document under. -/
def allocatePeers (service : Service) (principal : Principal)
    (document : CollaborationDocumentId) :
    StoreProgram crates PeerBlock := do
  let uuid ← act .uuid
  let nonce := Text.replace uuid "-" ""
  pure
    { nonce := nonce
      base := peerBase crates service.key principal document nonce }

/-! ## Announcements -/

/-- Announces a change when the feed is heard. -/
def announce (service : Service) (kind : ChangeKind)
    (generation : Option Nat) (actor : Principal) (intent : Option String)
    (data : StoreProgram crates ChangeData) : StoreProgram crates Unit := do
  let heard ← act .isHeard
  if heard then
    let id ← act .uuid
    let time ← act .timestamp
    let data ← data
    act (.announce
      { id := id
        source := service.source
        kind := kind
        subject := s!"{data.entity}/{data.resourceId}"
        time := time
        generation := generation
        actor := actor
        intent := intent
        data := data })
  else
    pure ()

/-- The replica of an envelope, the one held when it is of the same state. -/
def replicaOf (plan : CollaborationEntitySpec)
    (envelope : DurableCollaborationEnvelope) (held : Option Held) :
    Attempt crates StoreError (CollaborationReplica crates.toCrates) :=
  match held.filter fun held =>
      held.envelope.checkpointSha256 == envelope.checkpointSha256
        && held.envelope.schemaVersion == envelope.schemaVersion with
  | some held => replica plan envelope.document held
  | none =>
      settled
        (loadAuthoringDocument crates plan envelope.document envelope)

/-- The accepted frontier an envelope holds, when its plan can read it. -/
def acceptedFrontier (service : Service)
    (envelope : DurableCollaborationEnvelope) :
    StoreProgram crates (Option String) :=
  match service.plans.find? fun plan => plan.name == envelope.entity with
  | none => pure none
  | some plan => do
      let held ←
        act (.resident service.residency (port.source envelope.document))
      let authoring ← (replicaOf plan envelope held).run
      pure (authoring.toOption.map fun authoring =>
        authoring.acceptedFrontierBase64)

/-! ## Committing -/

/-- One operation to commit over the envelope the service read. -/
structure CollaborationCommit where
  document : CollaborationDocumentId
  incarnation : Option String
  schemaVersion : Nat
  operationId : String
  actor : Principal
  intent : Option String
  peers : List Nat
  importedUpdate : Bytes
  hasNewOperations : Bool
  acceptedUpdate : Bytes
  frontierBefore : Option String
  frontierAfter : Option String

inductive CollaborationCommitOutcome where
  | accepted (resident : Held)
  | duplicate (resident : Held)
  | stale

/-- The last operations of a window, as many as a policy keeps. -/
def keepLast (kept : Nat) (operations : List CollaborationOperation) :
    List CollaborationOperation :=
  operations.drop (operations.length - kept)

/-- The bindings once a commit's peers are bound, those already bound as they were. -/
def bindPeers (peers : Bindings) (actor : Principal)
    (committed : List Nat) : Bindings :=
  committed.foldl
    (fun bound peer =>
      if bound.contains peer then bound else bound.insert peer actor)
    peers

/-- The sequence of the operation committed over an envelope. -/
def nextSequence (current : Option DurableCollaborationEnvelope) : Nat :=
  match current with
  | none => 1
  | some state => saturatingSucc state.checkpointSequence

/-- The operations the envelope after `current` retains. -/
def nextRetained (crates : StoreCrates) (policy : CommitPolicy)
    (current : Option DurableCollaborationEnvelope)
    (commit : CollaborationCommit) : List CollaborationOperation :=
  let earlier :=
    match current with
    | none => []
    | some state =>
        if state.schemaVersion ≠ commit.schemaVersion then []
        else state.retainedOperations
  keepLast policy.retainedOperations
    (earlier ++
      [CollaborationOperation.fromUpdate crates commit.operationId
        (nextSequence current) commit.schemaVersion commit.actor
        commit.intent commit.importedUpdate])

/--
The envelope `document` has once `commit` is accepted over `current`, its
history kept within the commit policy.  `incarnation` is the one it is given
when neither names one.
-/
def nextEnvelope (crates : StoreCrates) (policy : CommitPolicy)
    (current : Option DurableCollaborationEnvelope)
    (document : CollaborationDocumentId) (commit : CollaborationCommit)
    (incarnation : String) : DurableCollaborationEnvelope :=
  let sequence := nextSequence current
  let retained := nextRetained crates policy current commit
  let retainedFrom :=
    (retained.head?.map CollaborationOperation.sequence).getD sequence
  { envelopeVersion := envelopeVersion
    entity := document.entity
    resourceId := document.resourceId
    incarnation :=
      (commit.incarnation.or
        (current.map DurableCollaborationEnvelope.incarnation)).getD
          incarnation
    schemaVersion := commit.schemaVersion
    generation :=
      saturatingSucc
        ((current.map DurableCollaborationEnvelope.generation).getD 0)
    checkpointSequence := sequence
    compactedThroughSequence := retainedFrom - 1
    checkpointUpdateBase64 := crates.base64.encode commit.acceptedUpdate
    checkpointSha256 := crates.sha256Hex commit.acceptedUpdate
    checkpointBytes := commit.acceptedUpdate.length
    retainedOperations := retained
    peers :=
      bindPeers
        ((current.map DurableCollaborationEnvelope.peers).getD ∅)
        commit.actor commit.peers }

/-- The incarnation minted for an envelope that is given none. -/
def mintIncarnation (current : Option DurableCollaborationEnvelope)
    (commit : CollaborationCommit) : StoreProgram crates String :=
  match commit.incarnation, current with
  | none, none => act .uuid
  | _, _ => pure ""

/--
Stores an envelope as a document's if the stored version is still `expected`,
and returns the document as the service then holds it.
-/
def swap (service : Service) (document : CollaborationDocumentId)
    (expected : Option String) (envelope : DurableCollaborationEnvelope) :
    Attempt crates StoreError (Option Held) := do
  let peers ← settled (validateEnvelope crates document envelope)
  let bytes ←
    settled ((crates.toVecPretty envelope).mapError StoreError.internal)
  let version ←
    ExceptT.mk (act (.compareAndSwap document expected bytes))
  match version with
  | none => return none
  | some version => do
      let resident ← always
        (hold service
          (newResident crates (port.source document) version none envelope
            peers))
      return some resident

/-- Removes a document's envelope if its version is still `expected`. -/
def remove (service : Service) (document : CollaborationDocumentId)
    (expected : String) : Attempt crates StoreError Bool := do
  let removed ←
    ExceptT.mk (act (.compareAndRemove document expected))
  if removed then
    perform (.forget service.residency (port.source document))
  return removed

/-- The operation an envelope retains under an id. -/
def retainedOperation (envelope : DurableCollaborationEnvelope)
    (operationId : String) : Option CollaborationOperation :=
  envelope.retainedOperations.find? fun operation =>
    operation.operationId == operationId

def operationIdCollision (document : CollaborationDocumentId)
    (operationId : String) : StoreError :=
  (StoreError.invalidRequest
    (s!"Collaboration operation id {repr operationId} was reused for "
      ++ "another operation.")).withData
    (jsonObject
      [("code", .string "collaboration_operation_id_collision"),
       ("entity", .string document.entity),
       ("resource_id", .string document.resourceId),
       ("operation_id", .string operationId)])

/-- The peers of a commit an envelope binds to another principal. -/
def boundElsewhere (envelope : DurableCollaborationEnvelope)
    (commit : CollaborationCommit) : List Nat :=
  commit.peers.filter fun peer =>
    envelope.peers[peer]?.any fun bound => bound ≠ commit.actor

def peerBound (document : CollaborationDocumentId) (peers : List String) :
    StoreError :=
  let listed := Text.join ", " peers
  (StoreError.conflict
    (s!"Collaboration document {document.entity}/{document.resourceId} binds "
      ++ s!"peers {listed} to another principal.")).withData
    (jsonObject
      [("code", .string "collaboration_peer_bound"),
       ("entity", .string document.entity),
       ("resource_id", .string document.resourceId),
       ("peers", jsonStrings peers)])

/--
Whether a commit over what was read is a duplicate of what it holds, or
refused; `none` goes on to build its envelope.
-/
def judgeCommit (crates : StoreCrates) (current : Option Held)
    (commit : CollaborationCommit) :
    StoreResult (Option CollaborationCommitOutcome) :=
  match current with
  | none => .ok none
  | some read =>
      match retainedOperation read.envelope commit.operationId with
      | some existing =>
          if existing.updateSha256
              = crates.sha256Hex commit.importedUpdate then
            .ok (some (.duplicate read))
          else
            .error (operationIdCollision commit.document commit.operationId)
      | none =>
          if !commit.hasNewOperations
              || read.envelope.checkpointSha256
                == crates.sha256Hex commit.acceptedUpdate then
            .ok (some (.duplicate read))
          else
            let elsewhere := boundElsewhere read.envelope commit
            if elsewhere ≠ [] then
              .error (peerBound commit.document (elsewhere.map toString))
            else
              .ok none

/-- The frontier a commit leaves, read from its envelope when it names none. -/
def frontierLeft (service : Service) (commit : CollaborationCommit)
    (envelope : DurableCollaborationEnvelope) :
    StoreProgram crates (Option String) :=
  match commit.frontierAfter with
  | some frontier => pure (some frontier)
  | none => acceptedFrontier port service envelope

/-- Announces the commit that stored `envelope` over `current`. -/
def announceCommit (service : Service)
    (current : Option DurableCollaborationEnvelope)
    (commit : CollaborationCommit)
    (envelope : DurableCollaborationEnvelope) :
    StoreProgram crates Unit :=
  announce service .committed (some envelope.generation) commit.actor
    commit.intent do
      let frontierAfter ← frontierLeft port service commit envelope
      pure
        { entity := commit.document.entity
          resourceId := commit.document.resourceId
          etagBefore := current.map DurableCollaborationEnvelope.etag
          etagAfter := some envelope.etag
          frontierBefore := commit.frontierBefore
          frontierAfter := frontierAfter
          operationId := some commit.operationId }

/--
Appends a commit's operation to the envelope the service read, or reports it
as a duplicate of one that envelope already holds.
-/
def commitOver (service : Service) (current : Option Held)
    (commit : CollaborationCommit) :
    Attempt crates StoreError CollaborationCommitOutcome := do
  match ← settled (judgeCommit crates current commit) with
  | some outcome => return outcome
  | none => do
      let currentEnvelope := current.map Held.envelope
      let incarnation ← always (mintIncarnation currentEnvelope commit)
      let envelope :=
        nextEnvelope crates service.policy currentEnvelope commit.document
          commit incarnation
      let swapped ←
        swap port service commit.document (current.map Held.version) envelope
      match swapped with
      | none => return .stale
      | some accepted => do
          always (announceCommit port service currentEnvelope commit envelope)
          return .accepted accepted

end Service

end Clerkenwell.Store
