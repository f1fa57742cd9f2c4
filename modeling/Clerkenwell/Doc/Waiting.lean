import Clerkenwell.Doc.Replica
import Clerkenwell.Foundation.Landing
import Mathlib.Logic.Relation

/-!
# Operations that wait

A document keeps the operations of an update whose dependencies it lacks, and
a later import that brings the dependencies applies them.  Here a document is
what it shows together with what waits in it, and a replica over such a
document is left by a refusal as the refusal leaves it.
-/

namespace Clerkenwell.Doc

open Clerkenwell.Foundation

/-! ## Documents in which operations wait -/

/--
The Loro documents of a replica library with the operations that wait in them;
a document of `crates` is one in which none does.
-/
structure WaitingLoro (crates : Crates) where
  Document : Type
  new : Document
  /-- What a document shows: the operations it applied. -/
  shown : Document → crates.loro.LoroDoc
  /-- The operations that wait for others. -/
  waiting : Document → Set crates.loro.Operation
  /-- Whether bytes encode an update. -/
  readable : Bytes → Bool
  importUpdate : Document → Bytes → Except String (Document × ImportStatus)
  /-- Whether `ImportStatus.success` names operations of an update. -/
  succeeds : Document → Bytes → Bool
  /-- The document once what it shows was written to. -/
  write : Document → crates.loro.LoroDoc → Document
  /-- A version names only peers that have an operation. -/
  counter_pos : ∀ doc, ∀ peer ∈ (crates.loro.oplogVv doc).keys,
    0 < (crates.loro.oplogVv doc).counter peer
  operations_new : crates.loro.operations (shown new) = ∅
  waiting_new : waiting new = ∅
  shown_write : ∀ document doc, shown (write document doc) = doc
  waiting_write : ∀ document doc, waiting (write document doc) = waiting document
  /-- An import reads its bytes, whatever the document holds. -/
  importUpdate_isOk : ∀ document update,
    (importUpdate document update).isOk = readable update
  /--
  An import applies what lands of the update and of what waited, where an id
  names one operation.
  -/
  operations_importUpdate : ∀ document update left status,
    importUpdate document update = .ok (left, status) →
      Set.InjOn crates.loro.id
        (crates.loro.operations (shown document) ∪ waiting document
          ∪ crates.loro.updateOperations update) →
        crates.loro.operations (shown left) =
          crates.loro.operations (shown document)
            ∪ landed crates.loro.id crates.loro.dependencies
                (crates.loro.id '' crates.loro.operations (shown document))
                (waiting document ∪ crates.loro.updateOperations update)
  /-- What an import does not apply waits. -/
  waiting_importUpdate : ∀ document update left status,
    importUpdate document update = .ok (left, status) →
      Set.InjOn crates.loro.id
        (crates.loro.operations (shown document) ∪ waiting document
          ∪ crates.loro.updateOperations update) →
        waiting left =
          (waiting document ∪ crates.loro.updateOperations update)
            \ crates.loro.operations (shown left)
  /-- An import says whether operations of its update wait. -/
  pending_importUpdate : ∀ document update left status,
    importUpdate document update = .ok (left, status) →
      Set.InjOn crates.loro.id
        (crates.loro.operations (shown document) ∪ waiting document
          ∪ crates.loro.updateOperations update) →
        (status.pending = false ↔
          crates.loro.updateOperations update
            ⊆ crates.loro.operations (shown left))
  /-- An import that applies nothing leaves what the document shows. -/
  shown_importUpdate : ∀ document update left status,
    importUpdate document update = .ok (left, status) →
      crates.loro.operations (shown left)
          = crates.loro.operations (shown document) →
        shown left = shown document
  /-- What a document shows depends on what it showed and what it applied. -/
  shown_importUpdate_congr : ∀ document other update left otherLeft status
      otherStatus,
    importUpdate document update = .ok (left, status) →
      importUpdate other update = .ok (otherLeft, otherStatus) →
        shown document = shown other →
          crates.loro.operations (shown left)
              = crates.loro.operations (shown otherLeft) →
            shown left = shown otherLeft
  /-- An export is an update, and a new document applies the whole of it. -/
  readable_exportUpdates : ∀ doc version update,
    crates.loro.exportUpdates doc version = .ok update →
      readable update = true
  pending_exportUpdates : ∀ doc update left status,
    crates.loro.exportUpdates doc ∅ = .ok update →
      importUpdate new update = .ok (left, status) →
        status.pending = false

/-! ## Histories -/

/-- Whether an operation was made after another, among those made. -/
def Loro.Before (loro : Loro) (made : Set loro.Operation) :
    loro.Operation → loro.Operation → Prop :=
  Relation.TransGen fun earlier later =>
    earlier ∈ made ∧ loro.id earlier ∈ loro.dependencies later

/--
A history: the operations that replicas made, each under an id of its own and
in a document of those before it.
-/
structure History (loro : Loro) where
  made : Set loro.Operation
  id_injOn : Set.InjOn loro.id made
  madeIn : ∀ op ∈ made, ∃ doc,
    loro.operations doc = {earlier | loro.Before made earlier op}
      ∧ loro.dependencies op ⊆ loro.id '' loro.operations doc
      ∧ op ∉ loro.operations doc
  /-- What depends on nothing is the first operation of its peer. -/
  counter_of_root : ∀ op ∈ made, loro.dependencies op = ∅ →
    (loro.id op).2 = 0
  /-- Of a peer's first operation, whether its change depends on nothing. -/
  changeIsRoot : ∀ doc peer isRoot, loro.operations doc ⊆ made →
    (loro.changeIsRoot doc peer 0 = some isRoot ↔
      ∃ op ∈ loro.operations doc, loro.id op = (peer, 0)
        ∧ (isRoot = true ↔ loro.dependencies op = ∅))

/-! ## Replicas -/

/-- A retained replica, with the operations that wait in its document. -/
structure WaitingReplica {crates : Crates} (library : WaitingLoro crates) where
  plan : CollaborationEntitySpec
  document : library.Document
  baseline : Option Json

namespace WaitingReplica

variable {crates : Crates} {library : WaitingLoro crates}

/-- What a replica shows of itself. -/
def toReplica (replica : WaitingReplica library) :
    CollaborationReplica crates where
  plan := replica.plan
  doc := library.shown replica.document
  baseline := replica.baseline

/-- The operations a replica holds. -/
def operations (replica : WaitingReplica library) :
    Set crates.loro.Operation :=
  crates.loro.operations (library.shown replica.document)

/--
Refuses an update holding a root the replica lacks: a change that depends on
nothing, so a history built apart from the replica's own.
-/
def requireRelatedHistory (replica : WaitingReplica library)
    (updateBase64 : String) : ReplicaResult Unit := do
  let update ← decodeBase64 crates updateBase64
  let (scratch, _) ←
    orReplicaError .update (library.importUpdate library.new update)
  if CollaborationReplica.holdsUnrelatedRoot (library.shown scratch)
      (crates.loro.oplogVv (library.shown replica.document)) then
    .error .unrelatedHistory
  else .ok ()

/-- An update, unless it is refused before it is imported. -/
def acceptedUpdate (replica : WaitingReplica library) (schemaVersion : Nat)
    (updateBase64 : String) : ReplicaResult Bytes := do
  requireSupportedSchemaVersion replica.plan schemaVersion
  replica.requireRelatedHistory updateBase64
  decodeBase64 crates updateBase64

/--
Imports operations another writer made, and answers with the replica it
leaves.  An update that waits is refused once the document has imported it.
-/
def adoptVersionedUpdateBase64 (replica : WaitingReplica library)
    (schemaVersion : Nat) (updateBase64 : String) :
    ReplicaResult Unit × WaitingReplica library :=
  match replica.acceptedUpdate schemaVersion updateBase64 with
  | .error error => (.error error, replica)
  | .ok update =>
      match library.importUpdate replica.document update with
      | .error message => (.error (.update message), replica)
      | .ok (document, status) =>
          if status.pending then
            (.error .missingDependency, { replica with document := document })
          else
            (.ok (), { replica with document := document, baseline := none })

def replaceDocument (replica : WaitingReplica library) (document : Json) :
    ReplicaResult Unit × WaitingReplica library :=
  let (replaced, left) := replica.toReplica.replaceDocument document
  (replaced,
    { replica with
      document := library.write replica.document left.doc
      baseline := left.baseline })

def materializedDocument (replica : WaitingReplica library)
    (revision : String) : ReplicaResult Json :=
  replica.toReplica.materializedDocument revision

end WaitingReplica

/-! ## Later steps -/

/-- What a replica may be asked to do later. -/
inductive LaterStep where
  | adoptVersionedUpdateBase64 (schemaVersion : Nat) (updateBase64 : String)
  | replaceDocument (document : Json)

namespace WaitingReplica

variable {crates : Crates} {library : WaitingLoro crates}

def act (replica : WaitingReplica library) :
    LaterStep → ReplicaResult Unit × WaitingReplica library
  | .adoptVersionedUpdateBase64 schemaVersion updateBase64 =>
      replica.adoptVersionedUpdateBase64 schemaVersion updateBase64
  | .replaceDocument document => replica.replaceDocument document

/-- The results of later steps, and the replica they leave. -/
def run (replica : WaitingReplica library) :
    List LaterStep → List (ReplicaResult Unit) × WaitingReplica library
  | [] => ([], replica)
  | step :: rest =>
      let (result, left) := replica.act step
      let (results, last) := left.run rest
      (result :: results, last)

/-! ## What a refusal may leave -/

/-- The operations a base64 update carries. -/
def carried (crates : Crates) (updateBase64 : String) :
    Set crates.loro.Operation :=
  {op | ∃ update, crates.base64.decode updateBase64 = .ok update
    ∧ op ∈ crates.loro.updateOperations update}

/-- Whether a base64 text encodes an update. -/
def Encodes (library : WaitingLoro crates) (updateBase64 : String) : Prop :=
  ∃ update, crates.base64.decode updateBase64 = .ok update
    ∧ library.readable update = true

/-- Whether an update holds a root operation that the replica lacks. -/
def LacksRoot (replica : WaitingReplica library) (updateBase64 : String) :
    Prop :=
  ∃ op ∈ carried crates updateBase64,
    crates.loro.dependencies op = ∅ ∧ op ∉ replica.operations

variable (history : History crates.loro)

/-- Whether a replica is one of a history; what waits lacks a dependency. -/
structure Within (replica : WaitingReplica library) : Prop where
  operations : replica.operations ⊆ history.made
  waiting : library.waiting replica.document ⊆ history.made
  waits : ∀ op ∈ library.waiting replica.document,
    ¬crates.loro.dependencies op ⊆ crates.loro.id '' replica.operations

/--
Whether later steps can happen once an update was made: they offer operations
of the history, and no operation they write is one the update was made after.
-/
def Possible (updateBase64 : String) :
    WaitingReplica library → List LaterStep → Prop
  | _, [] => True
  | replica, .adoptVersionedUpdateBase64 schemaVersion offered :: rest =>
      carried crates offered ⊆ history.made
        ∧ Possible updateBase64
            (replica.adoptVersionedUpdateBase64 schemaVersion offered).2 rest
  | replica, .replaceDocument document :: rest =>
      (replica.replaceDocument document).2.operations ⊆ history.made
        ∧ (∀ written ∈ (replica.replaceDocument document).2.operations,
            written ∉ replica.operations →
              ∀ op ∈ carried crates updateBase64,
                ¬crates.loro.Before history.made written op)
        ∧ Possible updateBase64 (replica.replaceDocument document).2 rest

/--
Whether a replica that was offered an update answers as one that never was:
later steps have the same results, after which the operations and the
materialized document are the same.
-/
def AsIfNeverOffered (updateBase64 : String)
    (offered replica : WaitingReplica library) : Prop :=
  ∀ later, Possible history updateBase64 replica later →
    (offered.run later).1 = (replica.run later).1
      ∧ (offered.run later).2.operations = (replica.run later).2.operations
      ∧ ∀ revision, (offered.run later).2.materializedDocument revision
          = (replica.run later).2.materializedDocument revision

/--
Whether an adoption is refused for unrelated history exactly when the update
holds a root that the replica lacks, and any refusal takes nothing.
-/
structure RefusesWhole (replica : WaitingReplica library) (schemaVersion : Nat)
    (updateBase64 : String) : Prop where
  unrelated : schemaVersion = replica.plan.schemaVersion →
    Encodes library updateBase64 →
      ((replica.adoptVersionedUpdateBase64 schemaVersion updateBase64).1
          = .error .unrelatedHistory
        ↔ replica.LacksRoot updateBase64)
  takes_nothing : ∀ error,
    (replica.adoptVersionedUpdateBase64 schemaVersion updateBase64).1
        = .error error →
      AsIfNeverOffered history updateBase64
        (replica.adoptVersionedUpdateBase64 schemaVersion updateBase64).2
        replica

/--
Whether an update waits and leaves something behind: it is imported, part of
it waits, and an operation the replica neither holds nor has waiting was made
after no root but those the replica holds.
-/
structure LeavesBehind (replica : WaitingReplica library) (schemaVersion : Nat)
    (updateBase64 : String) : Prop where
  supported : schemaVersion = replica.plan.schemaVersion
  encodes : Encodes library updateBase64
  related : ¬replica.LacksRoot updateBase64
  waits : ¬carried crates updateBase64
    ⊆ replica.operations
        ∪ landed crates.loro.id crates.loro.dependencies
            (crates.loro.id '' replica.operations)
            (library.waiting replica.document ∪ carried crates updateBase64)
  leaves : ∃ op ∈ carried crates updateBase64,
    op ∉ replica.operations ∧ op ∉ library.waiting replica.document
      ∧ ∀ root, crates.loro.Before history.made root op →
          crates.loro.dependencies root = ∅ → root ∈ replica.operations

end WaitingReplica

end Clerkenwell.Doc
