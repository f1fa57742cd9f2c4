import Clerkenwell.Doc.Exchange
import Clerkenwell.Foundation.Results
import Clerkenwell.Store.Reading

/-!
# What a judged import is

What `import_internal` has established once it asks for a commit, and why
nothing it does with the stored commit can fail.
-/

namespace Clerkenwell.Store

open Clerkenwell.Foundation
open Clerkenwell.Doc

section Judging

variable {crates : StoreCrates} {port : PortContract}
variable {Failure : Type}

/-! ## Replicas and their results -/

theorem mapError_ok_iff {α ε φ : Type} {result : Except ε α} {wrap : ε → φ}
    {value : α} :
    result.mapError wrap = .ok value ↔ result = .ok value := by
  cases result <;> simp [Except.mapError]

theorem orStoreError_ok_iff {α : Type} {document : CollaborationDocumentId}
    {result : ReplicaResult α} {value : α} :
    orStoreError document result = .ok value ↔ result = .ok value :=
  mapError_ok_iff

theorem orFailure_ok_iff {α : Type} {result : StoreResult α} {value : α} :
    (orFailure result : Except (ImportFailure Failure) α) = .ok value
      ↔ result = .ok value :=
  mapError_ok_iff

theorem orImportFailure_ok_iff {α : Type}
    {document : CollaborationDocumentId} {result : ReplicaResult α}
    {value : α} :
    (orImportFailure document result : Except (ImportFailure Failure) α)
        = .ok value
      ↔ result = .ok value :=
  orFailure_ok_iff.trans orStoreError_ok_iff

theorem exportedUpdate_ok_iff {document : CollaborationDocumentId}
    {replica : CollaborationReplica crates.toCrates} {update : Bytes} :
    exportedUpdate document replica = .ok update
      ↔ crates.loro.exportAllUpdates replica.doc = .ok update := by
  unfold exportedUpdate CollaborationReplica.exportUpdateBase64 orReplicaError
  cases exported : crates.loro.exportAllUpdates replica.doc with
  | error message => simp [orStoreError, Except.mapError, bind, Except.bind]
  | ok held =>
      simp [orStoreError, Except.mapError, bind, Except.bind,
        crates.base64.decode_encode]

/-! ## A judged import -/

/-- What an import has established of an envelope once it is judged. -/
structure Judged (service : Service) (plan : CollaborationEntitySpec)
    (request : CollaborationImportRequest) (update : Bytes) (isNew : Bool)
    (current : DurableCollaborationEnvelope)
    (judged : JudgedImport crates) : Prop where
  established : ∃ held : CollaborationReplica crates.toCrates,
    loadAuthoringDocument crates plan request.document current = .ok held
      ∧ newPeers crates request isNew held = .ok judged.commit.peers
      ∧ requireAllocatedPeers crates service request judged.commit.peers
          = .ok ()
      ∧ (∃ currentUpdate,
          current.HasCheckpoint crates currentUpdate
            ∧ requireFence plan request held
                (collaborationEtag crates currentUpdate) = .ok ())
      ∧ (request.exchangeMode = .incremental →
          held.requireFrontierBase64 request.baseFrontierBase64 = .ok ())
      ∧ held.adoptVersionedUpdateBase64 request.schemaVersion
          request.updateBase64 = .ok judged.authoring
      ∧ judged.commit.hasNewOperations
          = decide (held.acceptedFrontierBase64
              ≠ judged.authoring.acceptedFrontierBase64)
  continues : request.exchangeMode = .incremental →
    ∃ held : CollaborationReplica crates.toCrates,
      loadAuthoringDocument crates plan request.document current = .ok held
        ∧ ∃ version,
            CollaborationReplica.frontierVersion held.doc
                request.baseFrontierBase64 = .ok version
              ∧ Continues crates.toCrates version request.updateBase64
  exported :
    crates.loro.exportAllUpdates judged.authoring.doc
      = .ok judged.acceptedUpdate
  materialized :
    judged.authoring.materializedDocument
        (collaborationEtag crates judged.acceptedUpdate)
      = .ok judged.materialized
  document : judged.commit.document = request.document
  incarnation : judged.commit.incarnation
    = if isNew then some current.incarnation else none
  schemaVersion : judged.commit.schemaVersion = request.schemaVersion
  operationId : judged.commit.operationId = request.operationId
  actor : judged.commit.actor = request.actor
  intent : judged.commit.intent = request.intent
  importedUpdate : judged.commit.importedUpdate = update
  acceptedUpdate : judged.commit.acceptedUpdate = judged.acceptedUpdate

/-- An update judged at a base frontier goes on from it. -/
theorem requireFieldPolicies_ok {request : CollaborationImportRequest}
    {authoring : CollaborationReplica crates.toCrates} {currentEtag : String}
    (judged : requireFieldPolicies request authoring currentEtag = .ok ()) :
    ∃ version,
      CollaborationReplica.frontierVersion authoring.doc
          request.baseFrontierBase64 = .ok version
        ∧ Continues crates.toCrates version request.updateBase64 := by
  obtain ⟨conflicts, found, -⟩ := except_bind_ok judged
  obtain ⟨⟨base, client⟩, documents, -⟩ :=
    except_bind_ok (orStoreError_ok_iff.mp found)
  obtain ⟨-, -, documents⟩ := except_bind_ok documents
  obtain ⟨branch, forked, documents⟩ := except_bind_ok documents
  obtain ⟨imported, whole, -⟩ := except_bind_ok documents
  obtain ⟨version, known, positive, operations⟩ := branchAt_ok forked
  refine ⟨version, known, continues_of_importWhole positive ?_ whole⟩
  intro operation member
  rw [crates.loro.operations_fork, operations] at member
  exact member.2

theorem judgeImport_ok {service : Service} {plan : CollaborationEntitySpec}
    {request : CollaborationImportRequest} {update : Bytes} {isNew : Bool}
    {current : DurableCollaborationEnvelope}
    {validate : Json → Except Failure Unit} {judged : JudgedImport crates}
    (accepted :
      judgeImport service plan request update isNew current validate
        = .ok judged) :
    Judged service plan request update isNew current judged := by
  unfold judgeImport at accepted
  obtain ⟨held, loads, accepted⟩ := except_bind_ok accepted
  obtain ⟨-, -, accepted⟩ := except_bind_ok accepted
  obtain ⟨peers, newOnes, accepted⟩ := except_bind_ok accepted
  obtain ⟨⟨⟩, allocated, accepted⟩ := except_bind_ok accepted
  obtain ⟨-, -, accepted⟩ := except_bind_ok accepted
  obtain ⟨currentUpdate, checkpoint, accepted⟩ := except_bind_ok accepted
  obtain ⟨⟨⟩, fence, accepted⟩ := except_bind_ok accepted
  obtain ⟨⟨⟩, frontier, accepted⟩ := except_bind_ok accepted
  obtain ⟨⟨⟩, policies, accepted⟩ := except_bind_ok accepted
  obtain ⟨authoring, adopts, accepted⟩ := except_bind_ok accepted
  obtain ⟨acceptedUpdate, exported, accepted⟩ := except_bind_ok accepted
  obtain ⟨materialized, reads, accepted⟩ := except_bind_ok accepted
  obtain ⟨-, -, accepted⟩ := except_bind_ok accepted
  obtain rfl := Except.ok.inj accepted
  refine
    { established := ⟨held, orFailure_ok_iff.mp loads,
        orFailure_ok_iff.mp newOnes, orFailure_ok_iff.mp allocated,
        ⟨currentUpdate,
          checkpointUpdate_ok_iff.mp (orFailure_ok_iff.mp checkpoint),
          orFailure_ok_iff.mp fence⟩,
        ?_, orImportFailure_ok_iff.mp adopts, rfl⟩
      continues := ?_
      exported := exportedUpdate_ok_iff.mp (orFailure_ok_iff.mp exported)
      materialized := orImportFailure_ok_iff.mp reads
      document := rfl
      incarnation := rfl
      schemaVersion := rfl
      operationId := rfl
      actor := rfl
      intent := rfl
      importedUpdate := rfl
      acceptedUpdate := rfl }
  · intro incremental
    rw [requireIf, if_pos (by simp [incremental])] at frontier
    exact orImportFailure_ok_iff.mp frontier
  · intro incremental
    rw [requireIf, if_pos (by simp [incremental])] at policies
    exact ⟨held, orFailure_ok_iff.mp loads,
      requireFieldPolicies_ok (orFailure_ok_iff.mp policies)⟩

/-! ## Frontiers and versions -/

/-- A frontier a document knows, one of more operations knows too. -/
theorem frontierVersion_mono {doc later : crates.loro.LoroDoc}
    {frontierBase64 : String} {version : VersionVector}
    (fewer : crates.loro.operations doc ⊆ crates.loro.operations later)
    (knows :
      CollaborationReplica.frontierVersion doc frontierBase64
        = .ok version) :
    CollaborationReplica.frontierVersion later frontierBase64
      = .ok version := by
  unfold CollaborationReplica.frontierVersion at knows ⊢
  obtain ⟨frontiers, decoded, knows⟩ := except_bind_ok knows
  cases found : crates.loro.frontiersToVv doc frontiers with
  | none =>
      rw [found] at knows
      cases knows
  | some held =>
      rw [found] at knows
      have more :=
        crates.loro.frontiersToVv_mono doc later frontiers held fewer found
      rw [decoded]
      simp only [bind, Except.bind, more]
      exact knows

theorem requireFrontierBase64_ok
    {replica : CollaborationReplica crates.toCrates}
    {frontierBase64 : String}
    (known : replica.requireFrontierBase64 frontierBase64 = .ok ()) :
    ∃ version,
      CollaborationReplica.frontierVersion replica.doc frontierBase64
        = .ok version := by
  obtain ⟨version, frontier, -⟩ := except_bind_ok known
  exact ⟨version, frontier⟩

theorem newPeers_ok {request : CollaborationImportRequest} {isNew : Bool}
    {replica : CollaborationReplica crates.toCrates} {peers : List Nat}
    (found : newPeers crates request isNew replica = .ok peers) :
    ∃ version,
      updateEndVersion crates.toCrates request.updateBase64
        = .ok version := by
  have split := orStoreError_ok_iff.mp found
  cases isNew with
  | true =>
      obtain ⟨listed, versions, -⟩ := except_bind_ok split
      obtain ⟨version, ends, -⟩ := except_bind_ok versions
      exact ⟨version, ends⟩
  | false =>
      obtain ⟨version, ends, -⟩ := except_bind_ok split
      exact ⟨version, ends⟩

/-! ## What a checkpoint loads as -/

theorem CheckpointIn.operations
    {envelope : DurableCollaborationEnvelope} {doc : crates.loro.LoroDoc}
    {update : Bytes} (checkpoint : CheckpointIn crates envelope doc)
    (whole : envelope.HasCheckpoint crates update) :
    crates.loro.operations doc = crates.loro.updateOperations update := by
  obtain ⟨held, loaded, has, loads, same⟩ := checkpoint
  cases Except.ok.inj (has.1.symm.trans whole.1)
  obtain ⟨decoded, decodes, operations⟩ := importWhole_ok loads
  cases Except.ok.inj (decodes.symm.trans (crates.base64.decode_encode update))
  rw [← same, operations, crates.loro.operations_new, Set.empty_union,
    crates.loro.newOperations_new]

/-- What a replica exports loads as it reads. -/
theorem loads_of_export
    {replica : CollaborationReplica crates.toCrates} {update : Bytes}
    {revision : String} {value : Json}
    (exported : crates.loro.exportAllUpdates replica.doc = .ok update)
    (isRevision : Revision revision)
    (materialized : replica.materializedDocument revision = .ok value) :
    Loads crates replica.plan update := by
  obtain ⟨loaded, whole, same⟩ := importWhole_exportAllUpdates exported
  obtain ⟨read, reads⟩ :=
    reads_of_materialized isRevision materialized replicaRevision
      revision_replicaRevision
  have loadedReads :
      materializeDocument replica.plan loaded replicaRevision = .ok read := by
    rw [(readsAlike_of_operations_eq same).materializeDocument_eq]
    exact reads
  refine ⟨{ plan := replica.plan, doc := loaded, baseline := some read }, ?_⟩
  simp [CollaborationReplica.fromVersionedUpdateBase64,
    requireSupportedSchemaVersion, whole, loadedReads, bind, Except.bind]

namespace Judged

variable {service : Service} {plan : CollaborationEntitySpec}
variable {request : CollaborationImportRequest} {update : Bytes}
variable {isNew : Bool} {current : DurableCollaborationEnvelope}
variable {judged : JudgedImport crates}

theorem plan_eq
    (established :
      Judged service plan request update isNew current judged) :
    judged.authoring.plan = plan := by
  obtain ⟨held, loads, -, -, -, -, adopts, -⟩ := established.established
  rw [(CollaborationReplica.adoptVersionedUpdateBase64_ok adopts).1,
    (loadAuthoringDocument_ok loads).2.1]

/-- The accepted operations are those held and the new ones of the update. -/
theorem operations
    (established :
      Judged service plan request update isNew current judged)
    (imported : Store.importedUpdate crates request = .ok update) :
    ∃ currentUpdate, current.HasCheckpoint crates currentUpdate
      ∧ crates.loro.updateOperations currentUpdate
          ⊆ crates.loro.updateOperations judged.acceptedUpdate
      ∧ crates.loro.id '' crates.loro.updateOperations judged.acceptedUpdate
          = crates.loro.id '' crates.loro.updateOperations currentUpdate
            ∪ crates.loro.id '' crates.loro.updateOperations update := by
  obtain ⟨held, loads, -, -, ⟨currentUpdate, whole, -⟩, -, adopts, -⟩ :=
    established.established
  obtain ⟨-, -, checkpoint, -⟩ := loadAuthoringDocument_ok loads
  obtain ⟨-, adopted, decoded, operations⟩ :=
    CollaborationReplica.adoptVersionedUpdateBase64_ok adopts
  have same : adopted = update := by
    unfold Store.importedUpdate at imported
    rw [decoded] at imported
    exact Except.ok.inj imported
  subst same
  have held_eq := checkpoint.operations whole
  have accepted_eq :=
    crates.loro.updateOperations_exportAllUpdates _ _ established.exported
  refine ⟨currentUpdate, whole, ?_, ?_⟩
  · rw [accepted_eq, operations, held_eq]
    exact Set.subset_union_left
  · rw [accepted_eq, operations, Loro.id_image_union_newOperations, held_eq]

/-- The base frontier of an incremental import is known to what it accepts. -/
theorem frontier
    (established :
      Judged service plan request update isNew current judged)
    (incremental : request.exchangeMode = .incremental) :
    ∃ version,
      CollaborationReplica.frontierVersion judged.authoring.doc
        request.baseFrontierBase64 = .ok version := by
  obtain ⟨held, -, -, -, -, known, adopts, -⟩ := established.established
  obtain ⟨version, frontier⟩ := requireFrontierBase64_ok (known incremental)
  obtain ⟨-, adopted, -, operations⟩ :=
    CollaborationReplica.adoptVersionedUpdateBase64_ok adopts
  refine ⟨version, frontierVersion_mono ?_ frontier⟩
  rw [operations]
  exact Set.subset_union_left

theorem endVersion
    (established :
      Judged service plan request update isNew current judged) :
    ∃ version,
      updateEndVersion crates.toCrates request.updateBase64
        = .ok version := by
  obtain ⟨held, -, found, -⟩ := established.established
  exact newPeers_ok found

end Judged

/-! ## Answering -/

theorem missingUpdateBase64_ok
    {replica : CollaborationReplica crates.toCrates}
    {base : Option String} {updateBase64 : String}
    (known : ∀ encoded, base = some encoded →
      ∃ version,
        CollaborationReplica.frontierVersion replica.doc encoded
          = .ok version)
    (ends : ∃ version,
      updateEndVersion crates.toCrates updateBase64 = .ok version) :
    ∃ missing,
      replica.missingUpdateBase64 base updateBase64 = .ok missing := by
  obtain ⟨version, ends⟩ := ends
  unfold CollaborationReplica.missingUpdateBase64
  have exports : ∀ since : VersionVector, ∃ missing,
      CollaborationReplica.exportSince replica.doc since = .ok missing := by
    intro since
    obtain ⟨update, exported⟩ := crates.loro.exportUpdates_ok replica.doc since
    exact ⟨crates.base64.encode update, by
      simp [CollaborationReplica.exportSince, orReplicaError, exported,
        Except.mapError, bind, Except.bind]⟩
  cases base with
  | none =>
      obtain ⟨missing, exported⟩ :=
        exports ((∅ : VersionVector).merge version)
      exact ⟨missing, by simp [ends, exported, bind, Except.bind]⟩
  | some encoded =>
      obtain ⟨held, frontier⟩ := known encoded rfl
      obtain ⟨missing, exported⟩ := exports (held.merge version)
      exact ⟨missing, by simp [frontier, ends, exported, bind, Except.bind]⟩

/-- A report of an accepted operation whose base and end are known succeeds. -/
theorem importResult_ok {request : CollaborationImportRequest}
    {accepted : Held} {authoring : CollaborationReplica crates.toCrates}
    {materialized : Json} {duplicate : Bool} {checkpoint : Bytes}
    (whole : accepted.envelope.HasCheckpoint crates checkpoint)
    (known : request.exchangeMode = .incremental → ∃ version,
      CollaborationReplica.frontierVersion authoring.doc
        request.baseFrontierBase64 = .ok version)
    (ends : ∃ version,
      updateEndVersion crates.toCrates request.updateBase64 = .ok version) :
    ∃ result,
      importResult request accepted authoring materialized duplicate
          = .ok result
        ∧ result.duplicate = duplicate := by
  have base : ∀ encoded,
      (if request.exchangeMode = .incremental then
        some request.baseFrontierBase64 else none) = some encoded →
      ∃ version,
        CollaborationReplica.frontierVersion authoring.doc encoded
          = .ok version := by
    intro encoded named
    split at named
    · rename_i incremental
      cases named
      exact known incremental
    · cases named
  obtain ⟨missing, exported⟩ := missingUpdateBase64_ok base ends
  unfold importResult
  rw [checkpointUpdate_ok_iff.mpr whole, exported]
  exact ⟨_, rfl, rfl⟩

end Judging

end Clerkenwell.Store
