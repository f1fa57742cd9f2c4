import Clerkenwell.Doc.Json
import Clerkenwell.Doc.Plan
import Mathlib.Data.Set.Basic
import Mathlib.Tactic.Common

/-!
# The replica library and the other crates a document rests on

Replicas are built on Loro, whose source is not part of the repository.  Its
documents are an abstract type here, with the functions the replicas call and
the laws they rely on, each in the terms of Loro's documentation: a document
is the set of operations its log holds, an import adds an update's new
operations to it, an export carries all of them, and documents of the same
operations read the same.  The crates for base64 and list differences are
treated alike.
-/

namespace Clerkenwell.Doc

abbrev Bytes := List UInt8

/-- For each peer, the counter after its last operation. -/
abbrev VersionVector := Std.ExtTreeMap Nat Int

namespace VersionVector

/-- The counter after the last operation of `peer`, 0 when it has none. -/
def counter (version : VersionVector) (peer : Nat) : Int :=
  version[peer]?.getD 0

/-- `version.includes_id(ID::new(peer, counter))`. -/
def includesId (version : VersionVector) (peer : Nat) (counter : Int) : Bool :=
  counter < version.counter peer

/-- The version with a peer's counter, unless it names a later one of it. -/
def raise (version : VersionVector) (peer : Nat) (counter : Int) :
    VersionVector :=
  match version[peer]? with
  | some held => version.insert peer (max held counter)
  | none => version.insert peer counter

/-- The operations either version holds. -/
def merge (left right : VersionVector) : VersionVector :=
  right.foldl raise left

end VersionVector

/-- A value a container holds. -/
inductive LoroValue where
  | null
  | bool (value : Bool)
  | i64 (value : Int)
  | double (value : Double)
  | string (value : String)
  | list (items : List LoroValue)
  | map (members : List (String × LoroValue))

inductive ContainerKind where
  | map
  | list
  | text
  | movableList
  | other
deriving DecidableEq

/-- What an import left of an update: whether operations wait on others. -/
structure ImportStatus where
  pending : Bool

/-- The operations of the Loro crate that replicas call. -/
structure Loro where
  /-- A document, with everything it was given. -/
  LoroDoc : Type
  /-- A set of operation heads. -/
  Frontiers : Type
  /-- The identity of a container in a document. -/
  ContainerId : Type
  /-- `LoroDoc::new`. -/
  new : LoroDoc
  peerId : LoroDoc → Nat
  setPeerId : LoroDoc → Nat → Except String LoroDoc
  importUpdate : LoroDoc → Bytes → Except String (LoroDoc × ImportStatus)
  exportAllUpdates : LoroDoc → Except String Bytes
  exportUpdates : LoroDoc → VersionVector → Except String Bytes
  /-- `LoroDoc::decode_import_blob_meta`, the end version it reads. -/
  decodeImportBlobMeta : Bytes → Except String VersionVector
  oplogVv : LoroDoc → VersionVector
  oplogVvDebug : LoroDoc → String
  stateFrontiersDebug : LoroDoc → String
  oplogFrontiers : LoroDoc → Frontiers
  encodeFrontiers : Frontiers → Bytes
  decodeFrontiers : Bytes → Except String Frontiers
  frontiersToVv : LoroDoc → Frontiers → Option VersionVector
  forkAt : LoroDoc → Frontiers → Except String LoroDoc
  fork : LoroDoc → LoroDoc
  /-- Whether the change of an operation depends on none, when it is held. -/
  changeIsRoot : LoroDoc → Nat → Int → Option Bool
  commit : LoroDoc → LoroDoc
  /-- The root container of a name and a kind. -/
  root : ContainerKind → String → ContainerId
  /-- The keys of a map, in the order it is iterated. -/
  mapKeys : LoroDoc → ContainerId → List String
  mapGet : LoroDoc → ContainerId → String →
    Option (LoroValue ⊕ (ContainerKind × ContainerId))
  mapInsert : LoroDoc → ContainerId → String → LoroValue → Except String LoroDoc
  mapDelete : LoroDoc → ContainerId → String → Except String LoroDoc
  ensureMergeable : LoroDoc → ContainerKind → ContainerId → String →
    Except String (ContainerId × LoroDoc)
  /-- The value of a container with that of every container under it. -/
  deepValue : LoroDoc → ContainerId → LoroValue
  listInsert : LoroDoc → ContainerId → Nat → LoroValue → Except String LoroDoc
  listDelete : LoroDoc → ContainerId → Nat → Nat → Except String LoroDoc
  textString : LoroDoc → ContainerId → String
  /-- `LoroText::update`, which fails when it runs out of time. -/
  textUpdate : LoroDoc → ContainerId → String → Option LoroDoc
  textInsert : LoroDoc → ContainerId → Nat → String → Except String LoroDoc
  textDelete : LoroDoc → ContainerId → Nat → Nat → Except String LoroDoc
  /-- How deep maps nest in a document. -/
  depth : LoroDoc → Nat
  /-- An operation: what it does, and what it was done after. -/
  Operation : Type
  /-- The peer an operation is of and its counter. -/
  id : Operation → Nat × Int
  /-- The operations a document's log holds. -/
  operations : LoroDoc → Set Operation
  /-- The operations an update carries. -/
  updateOperations : Bytes → Set Operation
  /-- A peer's operations are those below its counter in the version. -/
  mem_operations : ∀ doc peer counter,
    (peer, counter) ∈ id '' operations doc ↔
      0 ≤ counter ∧ counter < (oplogVv doc).counter peer
  /--
  An import none of whose operations waits adds to the log those of the
  update's operations whose ids it does not hold.
  -/
  operations_importUpdate : ∀ doc update imported status,
    importUpdate doc update = .ok (imported, status) →
      status.pending = false →
        operations imported =
          operations doc
            ∪ {operation ∈ updateOperations update |
                id operation ∉ id '' operations doc}
  /-- An export of all updates carries the whole log. -/
  updateOperations_exportAllUpdates : ∀ doc update,
    exportAllUpdates doc = .ok update →
      updateOperations update = operations doc
  /-- The whole log depends on nothing, so a new document takes it. -/
  importUpdate_exportAllUpdates : ∀ doc update,
    exportAllUpdates doc = .ok update →
      ∃ imported status, importUpdate new update = .ok (imported, status)
        ∧ status.pending = false
  operations_new : operations new = ∅
  /-- The version an update's metadata ends at is after each of its operations. -/
  counter_lt_decodeImportBlobMeta : ∀ update version peer counter,
    decodeImportBlobMeta update = .ok version →
      (peer, counter) ∈ id '' updateOperations update →
        0 ≤ counter ∧ counter < version.counter peer
  /-- Exporting the operations after a version cannot fail. -/
  exportUpdates_ok : ∀ doc version,
    ∃ update, exportUpdates doc version = .ok update
  /-- An export carries exactly the operations beyond the version it is given. -/
  updateOperations_exportUpdates : ∀ doc version update,
    exportUpdates doc version = .ok update →
      updateOperations update =
        {operation ∈ operations doc |
          version.includesId (id operation).1 (id operation).2 = false}
  /-- `ImportBlobMetadata::partial_start_vv`. -/
  partialStartVv : Bytes → VersionVector
  /--
  An update holds, of each peer its end names, every operation from its start
  to its end, of which there is at least one.
  -/
  mem_updateOperations : ∀ update ends, decodeImportBlobMeta update = .ok ends →
    ∀ peer counter, (peer, counter) ∈ id '' updateOperations update ↔
      (partialStartVv update).counter peer ≤ counter
        ∧ counter < ends.counter peer
  partialStartVv_lt : ∀ update ends, decodeImportBlobMeta update = .ok ends →
    ∀ peer, 0 < ends.counter peer →
      (partialStartVv update).counter peer < ends.counter peer
  /-- The version a frontier names is one a document that knows it is past. -/
  counter_frontiersToVv : ∀ doc frontiers version,
    frontiersToVv doc frontiers = some version →
      ∀ peer, 0 ≤ version.counter peer
        ∧ version.counter peer ≤ (oplogVv doc).counter peer
  /-- A fork at a frontier holds the operations up to it. -/
  operations_forkAt : ∀ doc frontiers branch,
    forkAt doc frontiers = .ok branch →
      ∃ version, frontiersToVv doc frontiers = some version
        ∧ operations branch =
          {operation ∈ operations doc |
            version.includesId (id operation).1 (id operation).2 = true}
  operations_fork : ∀ doc, operations (fork doc) = operations doc
  /-- The operations a frontier names. -/
  heads : Frontiers → Set (Nat × Int)
  /-- The operations an operation was made right after. -/
  dependencies : Operation → Set (Nat × Int)
  /-- A document holds one operation under an id. -/
  id_injOn : ∀ doc, Set.InjOn id (operations doc)
  /-- An operation is held with those it was made after. -/
  dependencies_subset : ∀ doc, ∀ operation ∈ operations doc,
    dependencies operation ⊆ id '' operations doc
  /-- Every operation of a document is a head, or one was made after it. -/
  operations_of_heads : ∀ doc names, heads (oplogFrontiers doc) ⊆ names →
    (∀ operation ∈ operations doc, id operation ∈ names →
      dependencies operation ⊆ names) →
    id '' operations doc ⊆ names
  /-- A document knows the frontiers whose operations it holds. -/
  frontiersToVv_isSome : ∀ doc frontiers,
    (frontiersToVv doc frontiers).isSome ↔
      heads frontiers ⊆ id '' operations doc
  /-- A document of more operations knows every frontier a lesser one does. -/
  frontiersToVv_mono : ∀ doc later frontiers version,
    operations doc ⊆ operations later →
      frontiersToVv doc frontiers = some version →
        frontiersToVv later frontiers = some version
  decode_encodeFrontiers : ∀ frontiers,
    decodeFrontiers (encodeFrontiers frontiers) = .ok frontiers
  /-- A document's version is the one its own heads name. -/
  frontiersToVv_oplogFrontiers : ∀ doc,
    ∃ version, frontiersToVv doc (oplogFrontiers doc) = some version
      ∧ ∀ peer, version.counter peer = (oplogVv doc).counter peer
  /-- Documents of the same operations have the same heads. -/
  oplogFrontiers_congr : ∀ doc other,
    operations doc = operations other →
      oplogFrontiers doc = oplogFrontiers other
  /-- Documents of the same operations read the same. -/
  reads_congr : ∀ doc other, operations doc = operations other →
    mapKeys doc = mapKeys other ∧ mapGet doc = mapGet other
      ∧ deepValue doc = deepValue other ∧ textString doc = textString other
      ∧ depth doc = depth other

/-- The operations of an update whose ids a document does not hold. -/
def Loro.newOperations (loro : Loro) (doc : loro.LoroDoc) (update : Bytes) :
    Set loro.Operation :=
  {operation ∈ loro.updateOperations update |
    loro.id operation ∉ loro.id '' loro.operations doc}

@[simp]
theorem Loro.newOperations_new (loro : Loro) (update : Bytes) :
    loro.newOperations loro.new update = loro.updateOperations update := by
  simp [newOperations, loro.operations_new]

/-- Nothing of an update whose ids are taken is lost but what took them. -/
theorem Loro.id_image_union_newOperations (loro : Loro) (doc : loro.LoroDoc)
    (update : Bytes) :
    loro.id '' (loro.operations doc ∪ loro.newOperations doc update)
      = loro.id '' loro.operations doc
        ∪ loro.id '' loro.updateOperations update := by
  ext name
  constructor
  · rintro ⟨operation, held | ⟨new, -⟩, rfl⟩
    · exact .inl ⟨operation, held, rfl⟩
    · exact .inr ⟨operation, new, rfl⟩
  · rintro (⟨operation, held, rfl⟩ | ⟨operation, new, rfl⟩)
    · exact ⟨operation, .inl held, rfl⟩
    · by_cases taken : loro.id operation ∈ loro.id '' loro.operations doc
      · obtain ⟨other, held, same⟩ := taken
        exact ⟨other, .inl held, same⟩
      · exact ⟨operation, .inr ⟨new, taken⟩, rfl⟩

/-- One operation of an edit script between two lists. -/
inductive DiffOp where
  | equal (length : Nat)
  | delete (oldLength : Nat)
  | insert (newIndex newLength : Nat)
  | replace (oldLength newIndex newLength : Nat)

/-- Base64 in the standard alphabet. -/
structure Base64 where
  encode : Bytes → String
  decode : String → Except String Bytes
  decode_encode : ∀ bytes, decode (encode bytes) = .ok bytes

/-- The crates a replica is built on, and the order a hash map is iterated in. -/
structure Crates where
  loro : Loro
  base64 : Base64
  /-- An edit script of `similar`'s Myers algorithm. -/
  diff : List LoroValue → List LoroValue → List DiffOp
  hashOrder : List (String × String) → List (String × String)
  hashOrder_perm : ∀ entries, (hashOrder entries).Perm entries

end Clerkenwell.Doc
