import Clerkenwell.Store.Import

/-!
# Creation, migration, repair and deletion

The service's own writes of a document: its seed, a rewrite of its history
under a new schema version, a repair that drops its retained operations, and
its deletion.  Seeding, migrating and deleting try again for as long as other
writers come first; `turns` is how often they may.
-/

namespace Clerkenwell.Store

open Clerkenwell.Foundation
open Clerkenwell.Doc

/-! ## Reads -/

/-- A stored document described without its accepted state. -/
structure CollaborationDocumentSummary where
  document : CollaborationDocumentId
  schemaVersion : Nat
  version : CollaborationVersion
  generation : Nat
  etag : String
  checkpointSha256 : String
  checkpointBytes : Nat
  checkpointSequence : Nat
  compactedThroughSequence : Nat
  retainedSequences : Option (Nat × Nat)
  retainedCount : Nat

/-- What a resident is. -/
def CollaborationDocumentSummary.of (resident : Held) :
    CollaborationDocumentSummary :=
  let envelope := resident.envelope
  let retained := envelope.retainedOperations
  { document := envelope.document
    schemaVersion := envelope.schemaVersion
    version := resident.accepted
    generation := envelope.generation
    etag := envelope.etag
    checkpointSha256 := envelope.checkpointSha256
    checkpointBytes := envelope.checkpointBytes
    checkpointSequence := envelope.checkpointSequence
    compactedThroughSequence := envelope.compactedThroughSequence
    retainedSequences := do
      let first ← retained.head?
      let last ← retained.getLast?
      return (first.sequence, last.sequence)
    retainedCount := retained.length }

/-- A document as one read found it. -/
structure CollaborationDocumentRead where
  summary : CollaborationDocumentSummary
  document : Json
  acceptedFrontierBase64 : String

section Recovery

variable {crates : StoreCrates} (port : PortContract) {Failure : Type}

def summary (service : Service) (document : CollaborationDocumentId) :
    Attempt crates StoreError (Option CollaborationDocumentSummary) := do
  let read ← readEnvelope port service document
  return read.map CollaborationDocumentSummary.of

/-- The summaries of the documents kept at a list of sources. -/
def summariesAt (service : Service) :
    List String →
      Attempt crates StoreError (List CollaborationDocumentSummary)
  | [] => return []
  | source :: rest => do
      let read ← resident service source none
      let later ← summariesAt service rest
      return (read.map CollaborationDocumentSummary.of).toList ++ later

/-- What every stored document of an entity is, in resource order. -/
def summaries (service : Service) (entity : String) :
    Attempt crates StoreError (List CollaborationDocumentSummary) := do
  let sources ← ExceptT.mk (act (.sources entity))
  let summaries ← summariesAt service sources
  return summaries.mergeSort fun left right =>
    decide (left.document.resourceId ≤ right.document.resourceId)

def readDocument (service : Service) (plan : CollaborationEntitySpec)
    (document : CollaborationDocumentId) :
    Attempt crates StoreError (Option CollaborationDocumentRead) := do
  match ← readEnvelope port service document with
  | none => return none
  | some resident => do
      let value ← materialized plan document resident
      let authoring ← replica plan document resident
      return some
        { document := value
          acceptedFrontierBase64 := authoring.acceptedFrontierBase64
          summary := CollaborationDocumentSummary.of resident }

/-! ## Deletion -/

/-- The version of the envelope bytes hold, when the store reads them. -/
def removedVersion (crates : StoreCrates)
    (document : CollaborationDocumentId)
    (deleted : Option DurableCollaborationEnvelope) :
    Option CollaborationVersion := do
  let envelope ← deleted
  let peers ← (validateEnvelope crates document envelope).toOption
  return { incarnation := envelope.incarnation, peers := peers }

/-- Removes a document's envelope, whatever it holds. -/
def delete (service : Service) (actor : Principal)
    (document : CollaborationDocumentId) :
    Nat → Attempt crates StoreError (Option CollaborationVersion)
  | 0 => ExceptT.mk .unfinished
  | turns + 1 => do
      let source := port.source document
      match ← ExceptT.mk (act (.read source)) with
      | none => return none
      | some stored => do
          if ← remove port service document stored.version then
            let deleted :=
              (parseEnvelope crates (some document) source
                stored.bytes).toOption
            always (announce service .deleted
              (deleted.map DurableCollaborationEnvelope.generation) actor
              none
              (pure
                { entity := document.entity
                  resourceId := document.resourceId
                  etagBefore :=
                    deleted.map DurableCollaborationEnvelope.etag
                  etagAfter := none
                  frontierBefore := none
                  frontierAfter := none
                  operationId := none }))
            return removedVersion crates document deleted
          else
            delete service actor document turns

/-! ## Repair -/

def missingState (document : CollaborationDocumentId) : StoreError :=
  StoreError.notFound
    (s!"No collaboration state exists for {document.entity}/"
      ++ s!"{document.resourceId}.")

/-- A document's stored bytes, which need not be a readable envelope. -/
def storedBytes (document : CollaborationDocumentId) :
    Attempt crates StoreError StoredEnvelope := do
  match ← ExceptT.mk (act (.read (port.source document))) with
  | some stored => return stored
  | none => throw (missingState document)

/-- Names recovery evidence by its reason without recording the reason. -/
def evidenceLabel (crates : StoreCrates) (reason : String) : String :=
  String.ofList ((crates.sha256Hex (textBytes reason)).toList.take 12)

def auditRecoveryRequest (actor : Principal)
    (action : CollaborationRecoveryAction)
    (document : CollaborationDocumentId) (reason : Option String)
    (destructive : Bool) : Attempt crates StoreError Unit :=
  auditRequest actor document
    (.recovery action
      (reason.map fun reason => crates.sha256Hex (textBytes reason))
      destructive)

/-- The envelope a repair leaves of one. -/
def repairedEnvelope (envelope : DurableCollaborationEnvelope) :
    DurableCollaborationEnvelope :=
  { envelope with
    retainedOperations := []
    compactedThroughSequence := envelope.checkpointSequence
    generation := saturatingSucc envelope.generation }

def repairContended (document : CollaborationDocumentId) : StoreError :=
  (StoreError.conflict
    (s!"Collaboration document {document.entity}/{document.resourceId} "
      ++ "changed while it was being repaired.")).withData
    (jsonObject
      [("code", .string "collaboration_repair_contended"),
       ("entity", .string document.entity),
       ("resource_id", .string document.resourceId)])

/--
Keeps the stored envelope as evidence, then drops its retained operations so
the document reads from its checkpoint alone.
-/
def repair (service : Service) (actor : Principal)
    (document : CollaborationDocumentId) (reason : String) :
    Attempt crates StoreError String := do
  auditRecoveryRequest actor .repair document (some reason) false
  let stored ← storedBytes port document
  let envelope ←
    settled
      ((parseEnvelope crates (some document) (port.source document)
        stored.bytes).mapError fun _ =>
          corruptState document
            "the envelope JSON cannot be repaired automatically")
  let _ ← settled (envelope.checkpointUpdate crates document)
  let evidence ←
    ExceptT.mk (act (.preserve document (evidenceLabel crates reason)
      stored.bytes))
  let frontierBefore ← always (acceptedFrontier port service envelope)
  let repaired := repairedEnvelope envelope
  match ← swap port service document (some stored.version) repaired with
  | none => throw (repairContended document)
  | some _ => do
      always (announce service .committed (some repaired.generation) actor
        none do
          let frontierAfter ← acceptedFrontier port service repaired
          pure
            { entity := document.entity
              resourceId := document.resourceId
              etagBefore := some envelope.etag
              etagAfter := some repaired.etag
              frontierBefore := frontierBefore
              frontierAfter := frontierAfter
              operationId := none })
      return evidence

/-! ## Creation -/

/-- The commit that seeds a document. -/
def seedCommit (crates : StoreCrates) (service : Service)
    (plan : CollaborationEntitySpec) (document : CollaborationDocumentId)
    (incarnation : Option String) (acceptedUpdate : Bytes)
    (peers : List Nat) : CollaborationCommit where
  document := document
  incarnation := incarnation
  schemaVersion := plan.schemaVersion
  operationId := s!"seed:{crates.sha256Hex acceptedUpdate}"
  actor := service.system
  intent := none
  peers := peers
  importedUpdate := acceptedUpdate
  hasNewOperations := true
  acceptedUpdate := acceptedUpdate
  frontierBefore := none
  frontierAfter := none

/-- The attempts of a seed, until the document is stored. -/
def seedAttempts (service : Service) (commit : CollaborationCommit) :
    Nat → Attempt crates StoreError Held
  | 0 => ExceptT.mk .unfinished
  | turns + 1 => do
      match ← readEnvelope port service commit.document with
      | some current => return current
      | none => do
          match ← commitOver port service none commit with
          | .accepted seeded => return seeded
          | .duplicate seeded => return seeded
          | .stale => seedAttempts service commit turns

/-- Stores an update as the first checkpoint of a document that has none. -/
def seed (service : Service) (plan : CollaborationEntitySpec)
    (document : CollaborationDocumentId) (incarnation : Option String)
    (acceptedUpdate : Bytes) (turns : Nat) :
    Attempt crates StoreError Held := do
  let peers ←
    settled (orStoreError document
      (CollaborationReplica.peersInUpdate crates.toCrates
        (crates.base64.encode acceptedUpdate)))
  seedAttempts port service
    (seedCommit crates service plan document incarnation acceptedUpdate
      peers) turns

/-- A store attempt in a call whose application may refuse the document. -/
def orElseStore {α : Type} (ofStore : StoreError → Failure)
    (attempt : Attempt crates StoreError α) : Attempt crates Failure α :=
  attempt.adapt ofStore

/-- The update a seed document is written as, once it is valid. -/
def seedUpdate (crates : StoreCrates) (ofStore : StoreError → Failure)
    (plan : CollaborationEntitySpec) (document : CollaborationDocumentId)
    (seed : Json) (peer : Nat) (validate : Json → Except Failure Unit) :
    Except Failure Bytes := do
  let ofReplica {α : Type} (result : ReplicaResult α) : Except Failure α :=
    (orStoreError document result).mapError ofStore
  let authoring ←
    ofReplica
      (CollaborationReplica.fromDocument crates.toCrates plan seed peer)
  let acceptedUpdate ←
    (exportedUpdate document authoring).mapError ofStore
  let materialized ←
    ofReplica
      (authoring.materializedDocument
        (collaborationEtag crates acceptedUpdate))
  validate materialized
  return acceptedUpdate

def bootstrap (service : Service) (ofStore : StoreError → Failure)
    (plan : CollaborationEntitySpec) (document : CollaborationDocumentId)
    (seedDocument : Json) (validate : Json → Except Failure Unit)
    (turns : Nat) : Attempt crates Failure CollaborationDocumentSummary := do
  match ← orElseStore ofStore (readEnvelope port service document) with
  | some current => return CollaborationDocumentSummary.of current
  | none => do
      let block ← always (allocatePeers service service.system document)
      let acceptedUpdate ←
        settled (seedUpdate crates ofStore plan document seedDocument
          block.base validate)
      let seeded ←
        orElseStore ofStore
          (seed port service plan document none acceptedUpdate turns)
      return CollaborationDocumentSummary.of seeded

def invalidIncarnation (document : CollaborationDocumentId) : StoreError :=
  (StoreError.invalidRequest
    "A collaboration incarnation must not be empty.").withData
    (jsonObject
      [("code", .string "invalid_collaboration_incarnation"),
       ("entity", .string document.entity),
       ("resource_id", .string document.resourceId)])

/-- An update as the history of a plan's document, once it is valid. -/
def checkedHistory (crates : StoreCrates) (ofStore : StoreError → Failure)
    (plan : CollaborationEntitySpec) (document : CollaborationDocumentId)
    (schemaVersion : Nat) (updateBase64 : String)
    (undecodable : String → StoreError)
    (validate : Json → Except Failure Unit) :
    Except Failure (CollaborationReplica crates.toCrates × Bytes) := do
  let ofReplica {α : Type} (result : ReplicaResult α) : Except Failure α :=
    (orStoreError document result).mapError ofStore
  let authoring ←
    ofReplica
      (CollaborationReplica.fromVersionedUpdateBase64 crates.toCrates plan
        schemaVersion updateBase64)
  let acceptedUpdate ←
    ((crates.base64.decode updateBase64).mapError undecodable).mapError
      ofStore
  let materialized ←
    ofReplica
      (authoring.materializedDocument
        (collaborationEtag crates acceptedUpdate))
  validate materialized
  return (authoring, acceptedUpdate)

/-- Creates a document holding the history an update is. -/
def bootstrapUpdate (service : Service) (ofStore : StoreError → Failure)
    (plan : CollaborationEntitySpec) (document : CollaborationDocumentId)
    (schemaVersion : Nat) (updateBase64 : String)
    (incarnation : Option String) (validate : Json → Except Failure Unit)
    (turns : Nat) : Attempt crates Failure CollaborationDocumentSummary := do
  match ← orElseStore ofStore (readEnvelope port service document) with
  | some current => return CollaborationDocumentSummary.of current
  | none => do
      if incarnation.any Text.isBlank then
        settled (.error (ofStore (invalidIncarnation document)))
      let (_, acceptedUpdate) ←
        settled (checkedHistory crates ofStore plan document schemaVersion
          updateBase64 StoreError.invalidRequest validate)
      let seeded ←
        orElseStore ofStore
          (seed port service plan document incarnation acceptedUpdate turns)
      return CollaborationDocumentSummary.of seeded

/-! ## Migration -/

/-- The id of the operation a migration commits. -/
def migrationOperationId (crates : StoreCrates) (fromSchemaVersion : Nat)
    (plan : CollaborationEntitySpec) (acceptedUpdate : Bytes) : String :=
  s!"migration:{fromSchemaVersion}-to-{plan.schemaVersion}:"
    ++ crates.sha256Hex acceptedUpdate

/-- The commit that rewrites a document's history over an envelope. -/
def migrationCommit (crates : StoreCrates) (service : Service)
    (plan : CollaborationEntitySpec) (document : CollaborationDocumentId)
    (fromSchemaVersion : Nat)
    (migrated : CollaborationReplica crates.toCrates)
    (acceptedUpdate : Bytes) (incarnation : String) (peers : List Nat) :
    CollaborationCommit where
  document := document
  incarnation := some incarnation
  schemaVersion := plan.schemaVersion
  operationId :=
    migrationOperationId crates fromSchemaVersion plan acceptedUpdate
  actor := service.system
  intent := none
  peers := peers
  importedUpdate := acceptedUpdate
  hasNewOperations := true
  acceptedUpdate := acceptedUpdate
  frontierBefore := none
  frontierAfter := some migrated.acceptedFrontierBase64

/-- The peers of a migrated update that an envelope does not bind. -/
def unboundPeers (crates : StoreCrates)
    (document : CollaborationDocumentId) (updateBase64 : String)
    (current : DurableCollaborationEnvelope) : StoreResult (List Nat) := do
  let peers ←
    orStoreError document
      (CollaborationReplica.peersInUpdate crates.toCrates updateBase64)
  return peers.filter fun peer => !current.peers.contains peer

/-- The attempts of a migration, until the plan's version is stored. -/
def migrateAttempts (service : Service) (plan : CollaborationEntitySpec)
    (document : CollaborationDocumentId) (fromSchemaVersion : Nat)
    (updateBase64 : String)
    (migrated : CollaborationReplica crates.toCrates)
    (acceptedUpdate : Bytes) : Nat → Attempt crates StoreError Held
  | 0 => ExceptT.mk .unfinished
  | turns + 1 => do
      match ← readEnvelope port service document with
      | none => throw (missingState document)
      | some read => do
          let current := read.envelope
          if current.schemaVersion = plan.schemaVersion then
            return read
          else if current.schemaVersion ≠ fromSchemaVersion then
            throw (migrationRequired plan document
              (s!"Collaboration state for {document.entity}/"
                ++ s!"{document.resourceId} uses schema version "
                ++ s!"{current.schemaVersion}; migration expects "
                ++ s!"{fromSchemaVersion}.")
              current.schemaVersion)
          else
            let peers ←
              settled (unboundPeers crates document updateBase64 current)
            let incarnation ← perform .uuid
            let commit :=
              migrationCommit crates service plan document fromSchemaVersion
                migrated acceptedUpdate incarnation peers
            match ← commitOver port service (some read) commit with
            | .accepted stored => return stored
            | .duplicate stored => return stored
            | .stale =>
                migrateAttempts service plan document fromSchemaVersion
                  updateBase64 migrated acceptedUpdate turns

def migrate (service : Service) (ofStore : StoreError → Failure)
    (plan : CollaborationEntitySpec) (document : CollaborationDocumentId)
    (fromSchemaVersion : Nat) (migratedUpdateBase64 : String)
    (validate : Json → Except Failure Unit) (turns : Nat) :
    Attempt crates Failure CollaborationDocumentSummary := do
  let (migrated, acceptedUpdate) ←
    settled (checkedHistory crates ofStore plan document plan.schemaVersion
      migratedUpdateBase64 StoreError.internal validate)
  let stored ←
    orElseStore ofStore
      (migrateAttempts port service plan document fromSchemaVersion
        migratedUpdateBase64 migrated acceptedUpdate turns)
  return CollaborationDocumentSummary.of stored

end Recovery

end Clerkenwell.Store
