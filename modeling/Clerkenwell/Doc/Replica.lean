import Clerkenwell.Doc.Policy

/-!
# Replicas

A replica executes one plan over a Loro document: it seeds and reads the
document, writes whole-document edits as the operations between two versions,
prepares text edits at a captured frontier, and judges concurrent edits
against each field's conflict policy.
-/

namespace Clerkenwell.Doc

open Clerkenwell.Foundation

/-- The revision a replica reads its own document at. -/
def replicaRevision : String :=
  "replica:materialized"

/-- The revision documents are judged at. -/
def policyRevision : String :=
  "replica:policy"

structure CollaborationReplicaDebug where
  peerId : String
  oplogVersion : String
  stateFrontiers : String

/-- A retained replica executing one generated entity plan. -/
structure CollaborationReplica (crates : Crates) where
  plan : CollaborationEntitySpec
  doc : crates.loro.LoroDoc
  baseline : Option Json

/-- A result of a crate, its failure made a replica's. -/
def orReplicaError {α : Type} (failure : String → CollaborationReplicaError)
    (result : Except String α) : ReplicaResult α :=
  result.mapError failure

variable {crates : Crates}

/-- The bytes a base64 argument holds. -/
def decodeBase64 (crates : Crates) (encoded : String) :
    ReplicaResult Bytes :=
  orReplicaError .invalidBase64 (crates.base64.decode encoded)

/-- The frontiers a base64 argument holds. -/
def decodeFrontiers (crates : Crates) (encoded : String) :
    ReplicaResult crates.loro.Frontiers := do
  let bytes ← decodeBase64 crates encoded
  orReplicaError .update (crates.loro.decodeFrontiers bytes)

/-- For each peer an update holds operations of, the counter after its last. -/
def updateEndVersion (crates : Crates) (updateBase64 : String) :
    ReplicaResult VersionVector := do
  let update ← decodeBase64 crates updateBase64
  orReplicaError .update (crates.loro.decodeImportBlobMeta update)

def requireSupportedSchemaVersion (plan : CollaborationEntitySpec)
    (schemaVersion : Nat) : ReplicaResult Unit :=
  if schemaVersion ≠ plan.schemaVersion then
    .error (.unsupportedSchemaVersion plan.name schemaVersion
      plan.schemaVersion)
  else .ok ()

/-- The document with an update imported, refused when part of it waits. -/
def importWhole (doc : crates.loro.LoroDoc) (updateBase64 : String) :
    ReplicaResult crates.loro.LoroDoc := do
  let update ← decodeBase64 crates updateBase64
  let (imported, status) ←
    orReplicaError .update (crates.loro.importUpdate doc update)
  if status.pending then .error .missingDependency else .ok imported

/-- The greatest value of `i32`. -/
def i32Max : Nat :=
  2 ^ 31 - 1

/-- The counter after the last operation a version names of a peer. -/
def counterNamed (peer counter : Nat) : ReplicaResult (Nat × Int) :=
  if counter ≤ i32Max then .ok (peer, (counter : Int))
  else .error (.invalidVersion peer counter)

namespace CollaborationReplica

/-- A replica holding `document`, written as operations under `peer`. -/
def fromDocument (crates : Crates) (plan : CollaborationEntitySpec)
    (document : Json) (peer : Nat) :
    ReplicaResult (CollaborationReplica crates) := do
  let document := withoutNullOptionals plan document
  validateDocument plan document
  let doc ←
    orReplicaError .update (crates.loro.setPeerId crates.loro.new peer)
  let (written, doc) :=
    (writeDocumentChanges plan .null document : Writing crates Unit).run doc
  written
  .ok { plan := plan, doc := doc, baseline := some document }

def fromVersionedUpdateBase64 (crates : Crates)
    (plan : CollaborationEntitySpec) (schemaVersion : Nat)
    (updateBase64 : String) :
    ReplicaResult (CollaborationReplica crates) := do
  requireSupportedSchemaVersion plan schemaVersion
  let doc ← importWhole crates.loro.new updateBase64
  let document ← materializeDocument plan doc replicaRevision
  .ok { plan := plan, doc := doc, baseline := some document }

/--
Writes `document` as the operations between it and the document the replica
holds, and answers with the replica it leaves.
-/
def replaceDocument (replica : CollaborationReplica crates)
    (document : Json) :
    ReplicaResult Unit × CollaborationReplica crates :=
  let document := withoutNullOptionals replica.plan document
  let baseline : ReplicaResult Json :=
    match replica.baseline with
    | some baseline => .ok baseline
    | none => materializeDocument replica.plan replica.doc replicaRevision
  match baseline with
  | .error error => (.error error, { replica with baseline := none })
  | .ok baseline =>
      let (written, doc) :=
        (writeDocumentChanges replica.plan baseline document :
          Writing crates Unit).run replica.doc
      match written with
      | .ok () =>
          (.ok (), { replica with doc := doc, baseline := some document })
      | .error error =>
          (.error error, { replica with doc := doc, baseline := none })

/-- Whether an update holds a root operation that `held` lacks. -/
def holdsUnrelatedRoot (scratch : crates.loro.LoroDoc)
    (held : VersionVector) : Bool :=
  (crates.loro.oplogVv scratch).keys.any fun peer =>
    (crates.loro.changeIsRoot scratch peer 0).getD false
      && !held.includesId peer 0

/--
Refuses an update holding a root the replica lacks: a change that depends on
nothing, so a history built apart from the replica's own.
-/
def requireRelatedHistory (replica : CollaborationReplica crates)
    (updateBase64 : String) : ReplicaResult Unit := do
  let update ← decodeBase64 crates updateBase64
  let (scratch, _) ←
    orReplicaError .update (crates.loro.importUpdate crates.loro.new update)
  if holdsUnrelatedRoot scratch (crates.loro.oplogVv replica.doc) then
    .error .unrelatedHistory
  else .ok ()

/-- Imports operations another writer made. -/
def adoptVersionedUpdateBase64 (replica : CollaborationReplica crates)
    (schemaVersion : Nat) (updateBase64 : String) :
    ReplicaResult (CollaborationReplica crates) := do
  requireSupportedSchemaVersion replica.plan schemaVersion
  replica.requireRelatedHistory updateBase64
  let doc ← importWhole replica.doc updateBase64
  .ok { replica with doc := doc, baseline := none }

/-- Writes the replica's later edits as operations under `peer`. -/
def setPeer (replica : CollaborationReplica crates) (peer : Nat) :
    ReplicaResult (CollaborationReplica crates) := do
  let doc ← orReplicaError .update (crates.loro.setPeerId replica.doc peer)
  .ok { replica with doc := doc }

/-- For each peer an update holds operations of, the counter after its last. -/
def versionOfUpdate (crates : Crates) (updateBase64 : String) :
    ReplicaResult (List (Nat × Nat)) := do
  let version ← updateEndVersion crates updateBase64
  version.toList.mapM fun (peer, endCounter) =>
    if 0 ≤ endCounter then .ok (peer, endCounter.toNat)
    else
      .error (.update s!"peer {peer} ends at counter {endCounter}")

/-- Every peer an update holds operations of, in ascending order. -/
def peersInUpdate (crates : Crates) (updateBase64 : String) :
    ReplicaResult (List Nat) := do
  let version ← versionOfUpdate crates updateBase64
  .ok (version.map Prod.fst)

/-- The peers an update holds operations of that the replica lacks. -/
def peersWithNewOperations (replica : CollaborationReplica crates)
    (updateBase64 : String) : ReplicaResult (List Nat) := do
  let held := crates.loro.oplogVv replica.doc
  let version ← updateEndVersion crates updateBase64
  .ok ((version.toList.filter fun (peer, endCounter) =>
    held.counter peer < endCounter).map Prod.fst)

def exportUpdateBase64 (replica : CollaborationReplica crates) :
    ReplicaResult String := do
  let update ←
    orReplicaError .encode (crates.loro.exportAllUpdates replica.doc)
  .ok (crates.base64.encode update)

/-- The version a frontier names, refused when the document lacks it. -/
def frontierVersion (doc : crates.loro.LoroDoc) (frontierBase64 : String) :
    ReplicaResult VersionVector := do
  let frontiers ← decodeFrontiers crates frontierBase64
  match crates.loro.frontiersToVv doc frontiers with
  | some version => .ok version
  | none => .error .unknownFrontier

/-- The operations of a document that a version lacks. -/
def exportSince (doc : crates.loro.LoroDoc) (version : VersionVector) :
    ReplicaResult String := do
  let update ←
    orReplicaError .encode (crates.loro.exportUpdates doc version)
  .ok (crates.base64.encode update)

def exportIncrementalUpdateBase64 (replica : CollaborationReplica crates)
    (acceptedFrontierBase64 : String) : ReplicaResult String := do
  let version ← frontierVersion replica.doc acceptedFrontierBase64
  exportSince replica.doc version

/--
The operations the replica holds that a peer holding a version lacks.  The
version may name peers and counters the replica has never seen.
-/
def exportUpdateSinceVersionBase64 (replica : CollaborationReplica crates)
    (version : List (Nat × Nat)) : ReplicaResult String := do
  let counters ←
    version.mapM fun (peer, counter) => counterNamed peer counter
  exportSince replica.doc
    (counters.foldr
      (fun (peer, counter) named => named.insert peer counter) ∅)

/--
The operations the document holds that a peer lacks, when the peer holds every
operation up to a base frontier and every operation of an update.
-/
def missingUpdateBase64 (replica : CollaborationReplica crates)
    (baseFrontierBase64 : Option String) (updateBase64 : String) :
    ReplicaResult String := do
  let known ←
    match baseFrontierBase64 with
    | some encoded => frontierVersion replica.doc encoded
    | none => .ok ∅
  let sent ← updateEndVersion crates updateBase64
  exportSince replica.doc (known.merge sent)

def acceptedFrontierBase64 (replica : CollaborationReplica crates) : String :=
  crates.base64.encode
    (crates.loro.encodeFrontiers (crates.loro.oplogFrontiers replica.doc))

def requireFrontierBase64 (replica : CollaborationReplica crates)
    (acceptedFrontierBase64 : String) : ReplicaResult Unit := do
  let _ ← frontierVersion replica.doc acceptedFrontierBase64
  .ok ()

/-- A branch of the document at a frontier. -/
def branchAt (doc : crates.loro.LoroDoc) (frontierBase64 : String) :
    ReplicaResult crates.loro.LoroDoc := do
  let frontiers ← decodeFrontiers crates frontierBase64
  match crates.loro.forkAt doc frontiers with
  | .ok branch => .ok branch
  | .error _ => .error .unknownFrontier

/--
Prepares the operations that replace exactly the captured text, written under
`peer`, without changing the replica.
-/
def prepareTextReplacementAtFrontier (replica : CollaborationReplica crates)
    (fieldPath : String) (identities : IdentityContext)
    (frontierBase64 expectedText replacement : String) (peer : Nat) :
    ReplicaResult String := do
  let branch ← branchAt replica.doc frontierBase64
  let branch ← orReplicaError .update (crates.loro.setPeerId branch peer)
  let text ← declaredText replica.plan branch fieldPath identities
  let _ ← declaredText replica.plan replica.doc fieldPath identities
  if crates.loro.textString branch text ≠ expectedText then
    .error .textCaptureMismatch
  else do
    let version := crates.loro.oplogVv branch
    let (replaced, branch) := (replaceAllText text replacement).run branch
    replaced
    exportSince (crates.loro.commit branch) version

def materializedDocument (replica : CollaborationReplica crates)
    (revision : String) : ReplicaResult Json :=
  materializeDocument replica.plan replica.doc revision

/-- The document at a base frontier, and with an update made from it. -/
def materializedDocumentsForIncrementalUpdate
    (replica : CollaborationReplica crates)
    (acceptedFrontierBase64 : String) (schemaVersion : Nat)
    (updateBase64 revision : String) : ReplicaResult (Json × Json) := do
  requireSupportedSchemaVersion replica.plan schemaVersion
  let base ← branchAt replica.doc acceptedFrontierBase64
  let client ← importWhole (crates.loro.fork base) updateBase64
  let baseDocument ← materializeDocument replica.plan base revision
  let clientDocument ← materializeDocument replica.plan client revision
  .ok (baseDocument, clientDocument)

/--
The declared fields an incremental update changes against their conflict
policy, judged against the concurrent edits the replica already holds.
-/
def policyConflictsForIncrementalUpdate
    (replica : CollaborationReplica crates)
    (baseFrontierBase64 : String) (schemaVersion : Nat)
    (updateBase64 : String) (kind : ActorKind) :
    ReplicaResult (List String) := do
  let (base, client) ←
    replica.materializedDocumentsForIncrementalUpdate baseFrontierBase64
      schemaVersion updateBase64 policyRevision
  let current ← replica.materializedDocument policyRevision
  .ok (conflictingFieldPaths replica.plan base client current kind)

/-- The declared fields a created document sets against a writer's policy. -/
def policyConflictsForCreation (replica : CollaborationReplica crates)
    (kind : ActorKind) : ReplicaResult (List String) := do
  let created ← replica.materializedDocument policyRevision
  .ok (creationConflictingFieldPaths replica.plan created kind)

def debug (replica : CollaborationReplica crates) :
    CollaborationReplicaDebug where
  peerId := toString (crates.loro.peerId replica.doc)
  oplogVersion := crates.loro.oplogVvDebug replica.doc
  stateFrontiers := crates.loro.stateFrontiersDebug replica.doc

end CollaborationReplica

end Clerkenwell.Doc
