import Clerkenwell.Store.Import

/-!
# Exchanges

A peer that names what it holds of a document is sent the operations it lacks,
or the whole accepted history when what it names is of another one.
-/

namespace Clerkenwell.Store

open Clerkenwell.Foundation
open Clerkenwell.Doc

/--
What a peer holds of a document, so that an authoring state sends it only the
operations it lacks.
-/
inductive CollaborationHeld where
  /-- Every operation up to an accepted frontier the peer read. -/
  | frontier (acceptedFrontierBase64 : String)
  /-- Every operation a version names. -/
  | version (version : CollaborationVersion)
deriving DecidableEq

/-- A document's accepted state as one peer receives it. -/
structure CollaborationAuthoringState where
  schemaVersion : Nat
  version : CollaborationVersion
  acceptedFrontierBase64 : String
  updateBase64 : String
  etag : String
  replacesHeld : Bool
deriving DecidableEq

section Exchange

variable {crates : StoreCrates} (port : PortContract)

/-- What a peer lacks of a resident, and whether it replaces what it holds. -/
def lacking (resident : Held)
    (authoring : CollaborationReplica crates.toCrates) :
    Option CollaborationHeld → ReplicaResult (String × Bool)
  | none => .ok (resident.envelope.checkpointUpdateBase64, false)
  | some (.frontier held) =>
      match authoring.exportIncrementalUpdateBase64 held with
      | .ok lacking => .ok (lacking, false)
      -- A frontier from another history places nothing the peer holds.
      | .error .unknownFrontier =>
          .ok (resident.envelope.checkpointUpdateBase64, true)
      | .error error => .error error
  | some (.version held) =>
      -- A version of another incarnation names nothing of this history.
      if held.incarnation ≠ resident.accepted.incarnation then
        .ok (resident.envelope.checkpointUpdateBase64, true)
      else do
        let lacking ← authoring.exportUpdateSinceVersionBase64 held.peers
        .ok (lacking, false)

/-- The accepted state of a resident for a peer. -/
def stateFor (resident : Held)
    (authoring : CollaborationReplica crates.toCrates)
    (held : Option CollaborationHeld) :
    ReplicaResult CollaborationAuthoringState := do
  let (update, replaces) ← lacking resident authoring held
  .ok
    { schemaVersion := resident.envelope.schemaVersion
      version := resident.accepted
      acceptedFrontierBase64 := authoring.acceptedFrontierBase64
      updateBase64 := update
      etag := resident.envelope.etag
      replacesHeld := replaces }

/-- The accepted state for a peer that holds what `held` names. -/
def authoringState (service : Service) (plan : CollaborationEntitySpec)
    (document : CollaborationDocumentId) (held : Option CollaborationHeld) :
    Attempt crates StoreError CollaborationAuthoringState := do
  match ← readEnvelope port service document with
  | none => settled (.error (notStored document []))
  | some resident => do
      let authoring ← replica plan document resident
      settled (orStoreError document (stateFor resident authoring held))

end Exchange

end Clerkenwell.Store
