import Clerkenwell.Foundation.Interleaving
import Clerkenwell.Store.Envelope

/-!
# The world the services share

Services run over one storage port, one residency each, the audit, a change
feed, and the sources of unique ids and of time.  Each access to one of them
is an atomic action, and `Answers` says what it may be answered.

A port's contract is stated over what it has kept at each source, newest
first.  A version names bytes and a stamp names the change of them it was
taken after, so two changes never share a stamp.  Any call of the port may
fail, and one that fails has changed nothing.
-/

namespace Clerkenwell.Store

open Clerkenwell.Foundation
open Clerkenwell.Doc

/-! ## What the world holds -/

/-- Stored bytes and the version a conditional write names them by. -/
structure StoredEnvelope where
  version : String
  bytes : Bytes
deriving DecidableEq

/-- Which history a document holds, and how far into it. -/
structure CollaborationVersion where
  incarnation : String
  peers : List (Nat × Nat)
deriving DecidableEq, Repr

inductive CollaborationRecoveryAction where
  | export
  | quarantine
  | repair
  | reindex
  | reset
deriving DecidableEq

/-- What an audited request asked for. -/
inductive CollaborationAuditEvent where
  | recovery (action : CollaborationRecoveryAction)
      (reasonSha256 : Option String) (destructive : Bool)
  | refusal (operationId code baseFrontierBase64 : String)
      (conflictPaths : List String) (updateBase64Sha256 : String)
deriving DecidableEq

structure CollaborationAuditRecord where
  timestampUnixMs : Nat
  actor : Principal
  entity : String
  resourceId : String
  event : CollaborationAuditEvent
deriving DecidableEq

inductive ChangeKind where
  | committed
  | deleted
deriving DecidableEq

/-- What a change did to its document's accepted state. -/
structure ChangeData where
  entity : String
  resourceId : String
  etagBefore : Option String
  etagAfter : Option String
  frontierBefore : Option String
  frontierAfter : Option String
  operationId : Option String

/-- One change to one document. -/
structure ChangeEvent where
  id : String
  source : String
  kind : ChangeKind
  subject : String
  time : String
  generation : Option Nat
  actor : Principal
  intent : Option String
  data : ChangeData

/--
A document as a service holds it.  `source` is where it is held for; the rest
is as it was read or stored, but for the stamp and what was built from it.
-/
structure Resident (crates : StoreCrates) where
  source : String
  version : String
  envelope : DurableCollaborationEnvelope
  accepted : CollaborationVersion
  stamp : Option String
  replica : Option (CollaborationReplica crates.toCrates)
  materialized : Option Json

/-- A held document as a reader of it has it: what no later step changes. -/
structure Held where
  id : Nat
  version : String
  envelope : DurableCollaborationEnvelope
  accepted : CollaborationVersion

/-- What a write left at a source, and who wrote it, when a service did. -/
structure Change (Agent : Type) where
  content : Option StoredEnvelope
  writer : Option Agent

structure World (crates : StoreCrates) (Agent : Type) where
  /-- What was written at each source, newest first. -/
  kept : String → List (Change Agent)
  evidence : List (CollaborationDocumentId × String × Bytes)
  audit : List CollaborationAuditRecord
  announced : List ChangeEvent
  /-- The unique ids given out. -/
  uuids : List String
  residents : List (Resident crates)
  /-- The resident each residency holds at a source. -/
  held : Nat → String → Option Nat

namespace World

variable {crates : StoreCrates} {Agent : Type}

/-- What is kept at a source. -/
def stored (world : World crates Agent) (source : String) :
    Option StoredEnvelope :=
  (world.kept source).head?.bind Change.content

/-- How often the bytes of a list of changes changed. -/
def byteChanges : List (Change Agent) → Nat
  | [] => 0
  | [_] => 1
  | newer :: older :: rest =>
      byteChanges (older :: rest)
        + if newer.content.map StoredEnvelope.bytes
            = older.content.map StoredEnvelope.bytes then 0 else 1

/-- How often the bytes kept at a source changed. -/
def moment (world : World crates Agent) (source : String) : Nat :=
  byteChanges (world.kept source)

/-- The world once a source holds something else. -/
def keep (world : World crates Agent) (source : String)
    (change : Change Agent) : World crates Agent :=
  { world with
    kept := Function.update world.kept source (change :: world.kept source) }

/-- The world with one resident changed. -/
def modifyResident (world : World crates Agent) (id : Nat)
    (change : Resident crates → Resident crates) : World crates Agent :=
  { world with residents := world.residents.modify id change }

/-- The world once a residency holds a resident, or none, at a source. -/
def hold (world : World crates Agent) (residency : Nat) (source : String)
    (id : Option Nat) : World crates Agent :=
  { world with
    held := fun other place =>
      if other = residency ∧ place = source then id
      else world.held other place }

/-- The world once a residency holds a new resident. -/
def insert (world : World crates Agent) (residency : Nat)
    (resident : Resident crates) : World crates Agent :=
  { world with residents := world.residents ++ [resident] }.hold residency
    resident.source (some world.residents.length)

end World

/-! ## The contract of a storage port -/

/--
How a port names what it keeps, and the errors its calls may fail with.  Each
document has a source of its own, a version names the bytes stored under it,
and a stamp the change of a source's bytes it was taken after.
-/
structure PortContract where
  source : CollaborationDocumentId → String
  source_injective : Function.Injective source
  bytes : String → String → Bytes
  moment : String → String → Nat
  Fails : StoreError → Prop

namespace PortContract

/-- Whether what a source holds carries the bytes its version names. -/
def Names (port : PortContract) (source : String)
    (content : Option StoredEnvelope) : Prop :=
  ∀ stored, content = some stored →
    port.bytes source stored.version = stored.bytes

end PortContract

/-! ## Actions -/

/-- One atomic access to what the services share. -/
inductive StoreAction (crates : StoreCrates) where
  | sources (entity : String)
  | read (source : String)
  | stamp (source : String)
  | compareAndSwap (document : CollaborationDocumentId)
      (expected : Option String) (bytes : Bytes)
  | compareAndRemove (document : CollaborationDocumentId)
      (expected : String)
  | preserve (document : CollaborationDocumentId) (label : String)
      (bytes : Bytes)
  | appendAudit (record : CollaborationAuditRecord)
  /-- `Residency::get`. -/
  | resident (residency : Nat) (source : String)
  /-- The insertion `Residency::hold` makes. -/
  | insert (residency : Nat) (resident : Resident crates)
  | forget (residency : Nat) (source : String)
  /-- The stamp of a resident. -/
  | residentStamp (id : Nat)
  | restamp (id : Nat) (stamp : Option String)
  /-- `Resident::replica`, with what its closure builds. -/
  | replica (id : Nat)
      (build : StoreResult (CollaborationReplica crates.toCrates))
  /-- `Resident::materialized`, with what its closure builds. -/
  | materialized (id : Nat) (build : StoreResult Json)
  | builtReplica (id : Nat)
  | builtMaterialized (id : Nat)
  | offerReplica (id : Nat) (replica : CollaborationReplica crates.toCrates)
  | offerMaterialized (id : Nat) (value : Json)
  /-- `Uuid::new_v4`, as it displays. -/
  | uuid
  /-- The milliseconds since the epoch, `none` before it. -/
  | now
  | timestamp
  | isHeard
  | announce (event : ChangeEvent)

/-- What each action is answered. -/
abbrev StoreAction.Response {crates : StoreCrates} :
    StoreAction crates → Type
  | .sources _ => StoreResult (List String)
  | .read _ => StoreResult (Option StoredEnvelope)
  | .stamp _ => StoreResult (Option String)
  | .compareAndSwap _ _ _ => StoreResult (Option String)
  | .compareAndRemove _ _ => StoreResult Bool
  | .preserve _ _ _ => StoreResult String
  | .appendAudit _ => StoreResult Unit
  | .resident _ _ => Option Held
  | .insert _ _ => Held × Option Held
  | .forget _ _ => Unit
  | .residentStamp _ => Option String
  | .restamp _ _ => Unit
  | .replica _ _ => StoreResult (CollaborationReplica crates.toCrates)
  | .materialized _ _ => StoreResult Json
  | .builtReplica _ => Option (CollaborationReplica crates.toCrates)
  | .builtMaterialized _ => Option Json
  | .offerReplica _ _ => Unit
  | .offerMaterialized _ _ => Unit
  | .uuid => String
  | .now => Option Nat
  | .timestamp => String
  | .isHeard => Bool
  | .announce _ => Unit

/-- A program over the services' world. -/
abbrev StoreProgram (crates : StoreCrates) (α : Type) :=
  Program (@StoreAction.Response crates) α

/-! ## Answers -/

section Answers

variable {crates : StoreCrates} {Agent : Type}

/-- What a reader has of a resident. -/
def Resident.held (resident : Resident crates) (id : Nat) : Held where
  id := id
  version := resident.version
  envelope := resident.envelope
  accepted := resident.accepted

/-- What a residency holds at a source. -/
def World.heldAt (world : World crates Agent) (residency : Nat)
    (source : String) : Option Held :=
  (world.held residency source).bind fun id =>
    (world.residents[id]?).map fun resident => resident.held id

/-- Whether no envelope kept anywhere is of an incarnation. -/
def World.Unused (world : World crates Agent) (incarnation : String) : Prop :=
  ∀ source, ∀ change ∈ world.kept source, ∀ stored envelope,
    change.content = some stored →
      crates.fromSlice stored.bytes = .ok envelope →
        envelope.incarnation ≠ incarnation

/-- A call of the port that failed. -/
def PortContract.Failed (port : PortContract) {α : Type}
    (response : StoreResult α) : Prop :=
  ∃ error, port.Fails error ∧ response = .error error

/--
What an action of `agent` may be answered in a world, and the world it leaves.
-/
def Answers (port : PortContract) (agent : Agent)
    (world : World crates Agent) :
    (action : StoreAction crates) → action.Response →
      World crates Agent → Prop
  | .sources _, response, after =>
      after = world ∧ (port.Failed response ∨ ∃ listed, response = .ok listed)
  | .read source, response, after =>
      after = world
        ∧ (port.Failed response ∨ response = .ok (world.stored source))
  | .stamp source, response, after =>
      after = world
        ∧ (port.Failed response ∨ response = .ok none
          ∨ ∃ token, response = .ok (some token)
              ∧ port.moment source token = world.moment source)
  | .compareAndSwap document expected bytes, response, after =>
      let source := port.source document
      (after = world ∧ (port.Failed response ∨ response = .ok none))
        ∨ ∃ version, response = .ok (some version)
            ∧ (world.stored source).map StoredEnvelope.version = expected
            ∧ port.bytes source version = bytes
            ∧ after = world.keep source
                { content := some { version := version, bytes := bytes }
                  writer := some agent }
  | .compareAndRemove document expected, response, after =>
      let source := port.source document
      (after = world ∧ (port.Failed response ∨ response = .ok false))
        ∨ (response = .ok true
            ∧ (world.stored source).map StoredEnvelope.version = some expected
            ∧ after = world.keep source
                { content := none, writer := some agent })
  | .preserve document label bytes, response, after =>
      (after = world ∧ port.Failed response)
        ∨ ∃ place, response = .ok place
            ∧ after = { world with
                evidence := world.evidence ++ [(document, label, bytes)] }
  | .appendAudit record, response, after =>
      (after = world ∧ port.Failed response)
        ∨ (response = .ok ()
            ∧ after = { world with audit := world.audit ++ [record] })
  | .resident residency source, response, after =>
      after = world ∧ response = world.heldAt residency source
  | .insert residency resident, response, after =>
      response =
          (resident.held world.residents.length,
            world.heldAt residency resident.source)
        ∧ after = world.insert residency resident
  | .forget residency source, _, after =>
      after = world.hold residency source none
  | .residentStamp id, response, after =>
      after = world
        ∧ response = (world.residents[id]?).bind Resident.stamp
  | .restamp id stamp, _, after =>
      after = world.modifyResident id fun resident =>
        { resident with stamp := stamp }
  | .replica id build, response, after =>
      match (world.residents[id]?).bind Resident.replica, build with
      | some replica, _ => response = .ok replica ∧ after = world
      | none, .error error => response = .error error ∧ after = world
      | none, .ok built =>
          response = .ok built
            ∧ after = world.modifyResident id fun resident =>
                { resident with replica := some built }
  | .materialized id build, response, after =>
      match (world.residents[id]?).bind Resident.materialized, build with
      | some value, _ => response = .ok value ∧ after = world
      | none, .error error => response = .error error ∧ after = world
      | none, .ok built =>
          response = .ok built
            ∧ after = world.modifyResident id fun resident =>
                { resident with materialized := some built }
  | .builtReplica id, response, after =>
      after = world
        ∧ response = (world.residents[id]?).bind Resident.replica
  | .builtMaterialized id, response, after =>
      after = world
        ∧ response = (world.residents[id]?).bind Resident.materialized
  | .offerReplica id replica, _, after =>
      after = world.modifyResident id fun resident =>
        { resident with replica := some (resident.replica.getD replica) }
  | .offerMaterialized id value, _, after =>
      after = world.modifyResident id fun resident =>
        { resident with
          materialized := some (resident.materialized.getD value) }
  | .uuid, response, after =>
      response ∉ world.uuids ∧ ¬ Text.isBlank response
        ∧ world.Unused response
        ∧ after = { world with uuids := response :: world.uuids }
  | .now, _, after => after = world
  | .timestamp, _, after => after = world
  | .isHeard, _, after => after = world
  | .announce event, _, after =>
      after = { world with announced := world.announced ++ [event] }

/-- A write of the kept bytes that no service made, of those that may be. -/
def OutOfBand (port : PortContract)
    (Bypass : String → Option StoredEnvelope → Prop)
    (world after : World crates Agent) : Prop :=
  ∃ source content, Bypass source content ∧ port.Names source content
    ∧ after = world.keep source { content := content, writer := none }

end Answers

end Clerkenwell.Store
