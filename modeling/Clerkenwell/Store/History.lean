import Clerkenwell.Store.Calls
import Clerkenwell.Doc.Operations

/-!
# The history of a document

What services do to a document, without the reads, attempts and residencies
they do it with: each write replaces what is stored by the envelope a call's
commit builds over it, by its repair, or by nothing.  A call's commit was
judged against the very envelope it replaces.
-/

namespace Clerkenwell.Store

open Clerkenwell.Foundation
open Clerkenwell.Doc

section History

variable (crates : StoreCrates) (port : PortContract)
variable {application : Application}

/-- Bytes hold a whole envelope, whose checkpoint is of a version. -/
structure Holds (bytes : Bytes) (envelope : DurableCollaborationEnvelope)
    (accepted : List (Nat × Nat)) : Prop where
  decoded : decodeEnvelope crates bytes = .ok envelope
  valid : validateEnvelope crates envelope.document envelope = .ok accepted

/-- What is stored is an envelope, or nothing is. -/
def Current (content : Option StoredEnvelope)
    (current : Option DurableCollaborationEnvelope) : Prop :=
  match content, current with
  | none, none => True
  | some stored, some envelope =>
      ∃ accepted, Holds crates stored.bytes envelope accepted
  | _, _ => False

/-- A commit adds an operation to what it is committed over. -/
structure AddsOperation (current : DurableCollaborationEnvelope)
    (commit : CollaborationCommit) : Prop where
  notRetained : retainedOperation current commit.operationId = none
  hasNew : commit.hasNewOperations = true
  differs : current.checkpointSha256 ≠ crates.sha256Hex commit.acceptedUpdate
  bound : boundElsewhere current commit = []

/-- A commit builds an envelope over what is stored. -/
structure Builds (policy : CommitPolicy)
    (current : Option DurableCollaborationEnvelope)
    (commit : CollaborationCommit)
    (next : DurableCollaborationEnvelope) : Prop where
  adds : ∀ envelope, current = some envelope →
    AddsOperation crates envelope commit
  built : ∃ incarnation,
    (commit.incarnation = none → current = none →
      ¬ Text.isBlank incarnation)
    ∧ next =
        nextEnvelope crates policy current commit.document commit incarnation
  valid : ∃ accepted,
    validateEnvelope crates commit.document next = .ok accepted

/-- The envelope an import is judged against, and whether it is a new one. -/
inductive JudgedAgainst (plan : CollaborationEntitySpec)
    (request : CollaborationImportRequest) :
    Option DurableCollaborationEnvelope → Bool →
      DurableCollaborationEnvelope → Prop
  | stored {envelope : DurableCollaborationEnvelope}
      (incremental : request.exchangeMode = .incremental) :
      JudgedAgainst plan request (some envelope) false envelope
  | created {authoring : CollaborationReplica crates.toCrates}
      {acceptedUpdate : Bytes} {incarnation : String}
      (bootstrap : request.exchangeMode = .bootstrap)
      (loaded :
        CollaborationReplica.fromVersionedUpdateBase64 crates.toCrates plan
          request.schemaVersion request.updateBase64 = .ok authoring)
      (exported :
        exportedUpdate request.document authoring = .ok acceptedUpdate)
      (named : ¬ Text.isBlank incarnation) :
      JudgedAgainst plan request none true
        (createdEnvelope crates request incarnation acceptedUpdate)

/-- A commit is the one a judged import of a request asks for. -/
structure ImportAsks (service : Service) (plan : CollaborationEntitySpec)
    (request : CollaborationImportRequest)
    (validate : Json → Except application.Failure Unit)
    (current : Option DurableCollaborationEnvelope)
    (commit : CollaborationCommit) : Prop where
  wellFormed : requireWellFormed plan request = .ok ()
  judged : ∃ update isNew against judged,
    importedUpdate crates request = .ok update
      ∧ JudgedAgainst crates plan request current isNew against
      ∧ judgeImport service plan request update isNew against validate
          = .ok (judged : JudgedImport crates)
      ∧ judged.commit = commit

/-- A request is the one an edit is prepared as. -/
structure EditedAs (plan : CollaborationEntitySpec)
    (change : CollaborationDocumentEdit)
    (request : CollaborationImportRequest) : Prop where
  prepared : ∃ baseFrontierBase64 updateBase64 peerNonces,
    request =
      { editRequest plan change with
        baseFrontierBase64 := baseFrontierBase64
        updateBase64 := updateBase64
        peerNonces := peerNonces }

/-- A request is the one a text edit is prepared as. -/
structure TextEditedAs (plan : CollaborationEntitySpec)
    (change : CollaborationTextEdit)
    (request : CollaborationImportRequest) : Prop where
  prepared : ∃ updateBase64 peerNonces,
    request =
      { textEditRequest plan change with
        updateBase64 := updateBase64
        peerNonces := peerNonces }

/-- An update loads as a document of a plan. -/
def Loads (plan : CollaborationEntitySpec) (update : Bytes) : Prop :=
  ∃ replica,
    CollaborationReplica.fromVersionedUpdateBase64 crates.toCrates plan
      plan.schemaVersion (crates.base64.encode update) = .ok replica

/-- A commit is the one a seed of an update asks for. -/
structure SeedAsks (service : Service) (plan : CollaborationEntitySpec)
    (document : CollaborationDocumentId) (incarnation : Option String)
    (current : Option DurableCollaborationEnvelope)
    (commit : CollaborationCommit) : Prop where
  new : current = none
  named : incarnation.any Text.isBlank = false
  asked : ∃ acceptedUpdate peers,
    Loads crates plan acceptedUpdate
      ∧ CollaborationReplica.peersInUpdate crates.toCrates
          (crates.base64.encode acceptedUpdate) = .ok peers
      ∧ commit =
          seedCommit crates service plan document incarnation acceptedUpdate
            peers

/-- A commit is the one a migration of an envelope asks for. -/
structure MigrationAsks (service : Service) (plan : CollaborationEntitySpec)
    (document : CollaborationDocumentId) (fromSchemaVersion : Nat)
    (migratedUpdateBase64 : String)
    (current : Option DurableCollaborationEnvelope)
    (commit : CollaborationCommit) : Prop where
  asked : ∃ envelope migrated acceptedUpdate incarnation peers,
    current = some envelope
      ∧ envelope.schemaVersion = fromSchemaVersion
      ∧ fromSchemaVersion ≠ plan.schemaVersion
      ∧ crates.base64.decode migratedUpdateBase64 = .ok acceptedUpdate
      ∧ Loads crates plan acceptedUpdate
      ∧ unboundPeers crates document migratedUpdateBase64 envelope
          = .ok peers
      ∧ ¬ Text.isBlank incarnation
      ∧ incarnation ≠ envelope.incarnation
      ∧ commit =
          migrationCommit crates service plan document fromSchemaVersion
            migrated acceptedUpdate incarnation peers

/-- A commit is one a caller asks for over what is stored. -/
def Asks (caller : Caller application)
    (current : Option DurableCollaborationEnvelope)
    (commit : CollaborationCommit) : Prop :=
  let service := caller.service
  match caller.call with
  | .importUpdate plan request validate =>
      ImportAsks crates service plan request validate current commit
  | .edit plan change validate =>
      ∃ request, EditedAs plan change request
        ∧ ImportAsks crates service plan request validate current commit
  | .editText plan change validate =>
      ∃ request, TextEditedAs plan change request
        ∧ ImportAsks crates service plan request validate current commit
  | .bootstrap plan document _ _ _ =>
      SeedAsks crates service plan document none current commit
  | .bootstrapUpdate plan document _ _ incarnation _ _ =>
      SeedAsks crates service plan document incarnation current commit
  | .migrate plan document fromSchemaVersion migratedUpdateBase64 _ _ =>
      MigrationAsks crates service plan document fromSchemaVersion
        migratedUpdateBase64 current commit
  | _ => False

/-- What a caller writes at a source in place of what is stored there. -/
inductive Writes (caller : Caller application) (source : String)
    (older : Option StoredEnvelope) : Option StoredEnvelope → Prop
  | committed {current : Option DurableCollaborationEnvelope}
      {commit : CollaborationCommit} {next : DurableCollaborationEnvelope}
      {version : String} {bytes : Bytes}
      (place : source = port.source commit.document)
      (above : Current crates older current)
      (asks : Asks crates caller current commit)
      (builds : Builds crates caller.service.policy current commit next)
      (encoded : crates.toVecPretty next = .ok bytes) :
      Writes caller source older
        (some { version := version, bytes := bytes })
  | repaired {actor : Principal} {document : CollaborationDocumentId}
      {reason : String} {stored : StoredEnvelope}
      {envelope : DurableCollaborationEnvelope}
      {accepted : List (Nat × Nat)} {version : String} {bytes : Bytes}
      (call : caller.call = .repair actor document reason)
      (place : source = port.source document)
      (above : older = some stored)
      (decoded : decodeEnvelope crates stored.bytes = .ok envelope)
      (valid :
        validateEnvelope crates document (repairedEnvelope envelope)
          = .ok accepted)
      (encoded :
        crates.toVecPretty (repairedEnvelope envelope) = .ok bytes) :
      Writes caller source older
        (some { version := version, bytes := bytes })
  | removed {actor : Principal} {document : CollaborationDocumentId}
      {turns : Nat}
      (call : caller.call = .delete actor document turns)
      (place : source = port.source document) :
      Writes caller source older none

/-- Every write a service made at a source is one its caller may make. -/
def Written (source : String) :
    List (Change (Caller application)) → Prop
  | [] => True
  | newer :: older =>
      (∀ caller, newer.writer = some caller →
        Writes crates port caller source
          (older.head?.bind Change.content) newer.content)
      ∧ Written source older

theorem Written.suffix {source : String}
    {changes earlier : List (Change (Caller application))}
    (suffix : earlier <:+ changes)
    (written : Written crates port source changes) :
    Written crates port source earlier := by
  induction changes with
  | nil =>
      rw [List.suffix_nil.mp suffix]
      trivial
  | cons newer older inductionHypothesis =>
      rcases List.suffix_cons_iff.mp suffix with rfl | within
      · exact written
      · exact inductionHypothesis within written.2

end History

end Clerkenwell.Store
