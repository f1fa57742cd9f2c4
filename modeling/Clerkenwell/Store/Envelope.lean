import Clerkenwell.Doc.Replica

/-!
# The stored envelope

One envelope per document holds a checksummed checkpoint, a window of retained
operations, and the principal each peer's operations are made by.
`validate_envelope` is the check every envelope passes before it is held or
stored.
-/

namespace Clerkenwell.Store

open Clerkenwell.Foundation
open Clerkenwell.Doc

/-! ## Failures -/

/-- Why a store operation failed. -/
inductive StoreErrorKind where
  | notFound
  | invalidRequest
  | conflict
  | internal
deriving DecidableEq, Repr

/-- A store failure, with structured detail a caller can branch on. -/
structure StoreError where
  kind : StoreErrorKind
  message : String
  data : Option Json
deriving DecidableEq

namespace StoreError

def notFound (message : String) : StoreError :=
  { kind := .notFound, message := message, data := none }

def invalidRequest (message : String) : StoreError :=
  { kind := .invalidRequest, message := message, data := none }

def conflict (message : String) : StoreError :=
  { kind := .conflict, message := message, data := none }

def internal (message : String) : StoreError :=
  { kind := .internal, message := message, data := none }

def withData (error : StoreError) (data : Json) : StoreError :=
  { error with data := some data }

end StoreError

abbrev StoreResult := Except StoreError

/-- The object of the given members. -/
def jsonObject (members : List (String × Json)) : Json :=
  .object
    (members.foldl (fun held (key, value) => Members.insert held key value) [])

/-- A count as JSON. -/
def jsonNat (value : Nat) : Json :=
  .number (.integer value)

/-- A list of strings as JSON. -/
def jsonStrings (values : List String) : Json :=
  .array (values.map Json.string)

/-! ## Crates -/

structure CollaborationDocumentId where
  entity : String
  resourceId : String
deriving DecidableEq, Repr

/-- A retained operation and the commit that accepted it. -/
structure CollaborationOperation where
  operationId : String
  sequence : Nat
  schemaVersion : Nat
  actor : Principal
  intent : Option String
  updateBase64 : String
  updateSha256 : String
  updateBytes : Nat
deriving DecidableEq

/-- The principal each peer is bound to. -/
abbrev Bindings := Std.ExtTreeMap Nat Principal

structure DurableCollaborationEnvelope where
  envelopeVersion : Nat
  entity : String
  resourceId : String
  incarnation : String
  schemaVersion : Nat
  generation : Nat
  checkpointSequence : Nat
  compactedThroughSequence : Nat
  checkpointUpdateBase64 : String
  checkpointSha256 : String
  checkpointBytes : Nat
  retainedOperations : List CollaborationOperation
  peers : Bindings

/-- The envelope format this store reads and writes. -/
def envelopeVersion : Nat :=
  5

/--
The crates the store adds to a replica's: digests, keyed digests and the JSON
encoding of an envelope.  What an envelope is encoded as decodes to it, and
its version is the one its bytes declare.
-/
structure StoreCrates extends Crates where
  sha256Hex : Bytes → String
  hmacSha256 : Bytes → Bytes → Bytes
  toVecPretty : DurableCollaborationEnvelope → Except String Bytes
  /-- The envelope version bytes declare. -/
  declaredVersion : Bytes → Except String Nat
  fromSlice : Bytes → Except String DurableCollaborationEnvelope
  declaredVersion_toVecPretty : ∀ envelope bytes,
    toVecPretty envelope = .ok bytes →
      declaredVersion bytes = .ok envelope.envelopeVersion
  fromSlice_toVecPretty : ∀ envelope bytes,
    toVecPretty envelope = .ok bytes → fromSlice bytes = .ok envelope
  envelopeVersion_fromSlice : ∀ bytes declared envelope,
    declaredVersion bytes = .ok declared → fromSlice bytes = .ok envelope →
      envelope.envelopeVersion = declared

/-! ## Unsigned arithmetic -/

/-- The greatest value of `u64`. -/
def u64Max : Nat :=
  2 ^ 64 - 1

/-- `value.saturating_add(1)` of a `u64`. -/
def saturatingSucc (value : Nat) : Nat :=
  min (value + 1) u64Max

/-! ## Reading an envelope -/

def corruptState (document : CollaborationDocumentId) (message : String) :
    StoreError :=
  (StoreError.internal
    (s!"Collaboration state for {document.entity}/{document.resourceId} is "
      ++ s!"corrupt: {message}. Use collaboration recovery tooling to "
      ++ "inspect or quarantine it; authoritative state was not replaced "
      ++ "with an empty document.")).withData
    (jsonObject
      [("code", .string "collaboration_state_corrupt"),
       ("entity", .string document.entity),
       ("resource_id", .string document.resourceId),
       ("recovery_required", .bool true)])

section Envelope

variable (crates : StoreCrates)

/-- The update an encoded field holds, checked against its length and digest. -/
def checkedUpdate (encoded : String) (length : Nat) (digest : String)
    (undecodable : String → StoreError) (mismatched : StoreError) :
    StoreResult Bytes :=
  match crates.base64.decode encoded with
  | .error message => .error (undecodable message)
  | .ok update =>
      if update.length ≠ length ∨ crates.sha256Hex update ≠ digest then
        .error mismatched
      else
        .ok update

namespace CollaborationOperation

def fromUpdate (operationId : String) (sequence schemaVersion : Nat)
    (actor : Principal) (intent : Option String) (update : Bytes) :
    CollaborationOperation where
  operationId := operationId
  sequence := sequence
  schemaVersion := schemaVersion
  actor := actor
  intent := intent
  updateBase64 := crates.base64.encode update
  updateSha256 := crates.sha256Hex update
  updateBytes := update.length

def decode (operation : CollaborationOperation)
    (document : CollaborationDocumentId) : StoreResult Bytes :=
  checkedUpdate crates operation.updateBase64 operation.updateBytes
    operation.updateSha256
    (fun message =>
      corruptState document
        s!"operation {operation.operationId} is not valid base64: {message}")
    (corruptState document
      s!"operation {operation.operationId} failed checksum validation")

end CollaborationOperation

def checkpointEtag (checkpointSha256 : String) : String :=
  s!"loro:{checkpointSha256}"

def collaborationEtag (acceptedUpdate : Bytes) : String :=
  checkpointEtag (crates.sha256Hex acceptedUpdate)

namespace DurableCollaborationEnvelope

def checkpointUpdate (envelope : DurableCollaborationEnvelope)
    (document : CollaborationDocumentId) : StoreResult Bytes :=
  checkedUpdate crates envelope.checkpointUpdateBase64
    envelope.checkpointBytes envelope.checkpointSha256
    (fun message =>
      corruptState document s!"checkpoint is not valid base64: {message}")
    (corruptState document "checkpoint failed checksum validation")

/-- The etag of the accepted state the envelope holds. -/
def etag (envelope : DurableCollaborationEnvelope) : String :=
  checkpointEtag envelope.checkpointSha256

/-- The document the envelope names. -/
def document (envelope : DurableCollaborationEnvelope) :
    CollaborationDocumentId :=
  { entity := envelope.entity, resourceId := envelope.resourceId }

end DurableCollaborationEnvelope

/-- Why stored bytes are not an envelope this store reads. -/
inductive EnvelopeFault where
  | invalidJson (message : String)
  | unsupportedFormat (declared : Nat)

def EnvelopeFault.describe (fault : EnvelopeFault) (source : String) :
    String :=
  match fault with
  | .invalidJson message => s!"envelope {source} is invalid JSON: {message}"
  | .unsupportedFormat declared =>
      s!"envelope {source} is in unsupported format {declared}"

/-- Bytes as an envelope in the format this store reads. -/
def decodeEnvelope (bytes : Bytes) :
    Except EnvelopeFault DurableCollaborationEnvelope := do
  let declared ←
    (crates.declaredVersion bytes).mapError EnvelopeFault.invalidJson
  if declared ≠ envelopeVersion then
    .error (.unsupportedFormat declared)
  else
    (crates.fromSlice bytes).mapError EnvelopeFault.invalidJson

/-- Bytes as the envelope kept at a source, which `document` names if known. -/
def parseEnvelope (document : Option CollaborationDocumentId)
    (source : String) (bytes : Bytes) :
    StoreResult DurableCollaborationEnvelope :=
  (decodeEnvelope crates bytes).mapError fun fault =>
    let message := fault.describe source
    match document with
    | some document => corruptState document message
    | none => StoreError.internal s!"Collaboration {message}"

/-! ## The check of an envelope -/

/-- The sequence of a retained operation, checked after the one before it. -/
def checkOperation (document : CollaborationDocumentId)
    (envelope : DurableCollaborationEnvelope) (previousSequence : Nat)
    (operation : CollaborationOperation) : StoreResult Nat := do
  if operation.sequence ≤ previousSequence then
    throw (corruptState document
      "retained operation sequences are not strictly increasing")
  if operation.schemaVersion ≠ envelope.schemaVersion then
    throw (corruptState document
      (s!"operation {operation.operationId} uses schema version "
        ++ s!"{operation.schemaVersion}, envelope uses "
        ++ s!"{envelope.schemaVersion}"))
  let _ ← operation.decode crates document
  return operation.sequence

/-- The sequence after the retained operations, each checked in its turn. -/
def validateWindow (document : CollaborationDocumentId)
    (envelope : DurableCollaborationEnvelope) :
    StoreResult Nat :=
  envelope.retainedOperations.foldlM
    (checkOperation crates document envelope)
    envelope.compactedThroughSequence

/--
Checks `envelope` is `document`'s and whole, and returns, for each peer its
checkpoint holds operations of, the counter after its last one.
-/
def validateEnvelope (document : CollaborationDocumentId)
    (envelope : DurableCollaborationEnvelope) :
    StoreResult (List (Nat × Nat)) := do
  if envelope.entity ≠ document.entity
      ∨ envelope.resourceId ≠ document.resourceId then
    throw (corruptState document
      (s!"envelope identifies {envelope.entity}/{envelope.resourceId}, "
        ++ s!"expected {document.entity}/{document.resourceId}"))
  if envelope.schemaVersion = 0 then
    throw (corruptState document
      "collaboration schema version must be explicit")
  if Text.isBlank envelope.incarnation then
    throw (corruptState document "the envelope names no incarnation")
  let _ ← envelope.checkpointUpdate crates document
  let accepted ←
    (CollaborationReplica.versionOfUpdate crates.toCrates
      envelope.checkpointUpdateBase64).mapError fun error =>
        corruptState document error.message
  let unbound :=
    (accepted.map Prod.fst).filter fun peer => !envelope.peers.contains peer
  if unbound ≠ [] then
    let listed := Text.join ", " (unbound.map toString)
    throw (corruptState document
      s!"the operations of peers {listed} are bound to no principal")
  let lastSequence ← validateWindow crates document envelope
  if lastSequence ≠ envelope.checkpointSequence then
    throw (corruptState document
      "retained operation window does not end at the checkpoint sequence")
  return accepted

end Envelope

end Clerkenwell.Store
