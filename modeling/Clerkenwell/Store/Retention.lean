import Clerkenwell.Store.Sound

/-!
# What retained operations are of

Every operation an envelope retains is in its checkpoint.  A commit adds its
own operation to a checkpoint that takes it, and keeps earlier ones only over
a checkpoint that grew from theirs.
-/

namespace Clerkenwell.Store

open Clerkenwell.Foundation
open Clerkenwell.Doc

section Retention

variable {crates : StoreCrates} {port : PortContract}
variable {application : Application} {setting : Setting crates application}
variable {start world : StoreWorld crates application}

/-- The ids of the operations an update carries. -/
def updateIds (crates : StoreCrates) (update : Bytes) : Set (Nat × Int) :=
  crates.loro.id '' crates.loro.updateOperations update

/-- Every operation an envelope retains is in its checkpoint. -/
def HoldsRetained (crates : StoreCrates)
    (envelope : DurableCollaborationEnvelope) : Prop :=
  ∀ checkpoint, envelope.HasCheckpoint crates checkpoint →
    ∀ operation ∈ envelope.retainedOperations, ∀ update,
      Encodes crates operation.updateBase64 operation.updateBytes
          operation.updateSha256 update →
        updateIds crates update ⊆ updateIds crates checkpoint

/-- What is kept is nothing, or retains what its checkpoint holds. -/
def RetainedIn (crates : StoreCrates) (content : Option StoredEnvelope) :
    Prop :=
  ∀ stored envelope accepted, content = some stored →
    Holds crates stored.bytes envelope accepted → HoldsRetained crates envelope

/-- A commit's update takes its operation and what it is committed over. -/
structure Grows (crates : StoreCrates)
    (current : Option DurableCollaborationEnvelope)
    (commit : CollaborationCommit) : Prop where
  earlier : ∀ envelope, current = some envelope →
    envelope.schemaVersion = commit.schemaVersion →
      ∀ checkpoint, envelope.HasCheckpoint crates checkpoint →
        updateIds crates checkpoint ⊆ updateIds crates commit.acceptedUpdate
  imported : updateIds crates commit.importedUpdate
    ⊆ updateIds crates commit.acceptedUpdate

theorem Grows.of_import {service : Service} {plan : CollaborationEntitySpec}
    {request : CollaborationImportRequest}
    {validate : Json → Except application.Failure Unit}
    {current : Option DurableCollaborationEnvelope}
    {commit : CollaborationCommit}
    (asks :
      ImportAsks crates service plan request validate current commit) :
    Grows crates current commit := by
  obtain ⟨update, isNew, against, judged, imported, againstOf, judgement,
    rfl⟩ := asks.judged
  have established := judgeImport_ok judgement
  obtain ⟨currentUpdate, whole, -, names⟩ := established.operations imported
  constructor
  · rintro envelope rfl - checkpoint has
    cases againstOf with
    | stored incremental =>
        cases Except.ok.inj (has.1.symm.trans whole.1)
        rw [established.acceptedUpdate, updateIds, updateIds, names]
        exact Set.subset_union_left
  · rw [established.acceptedUpdate, established.importedUpdate, updateIds,
      updateIds, names]
    exact Set.subset_union_right

/-- Every commit a caller asks for grows what it is committed over. -/
theorem grows_of_asks {caller : Caller application}
    {current : Option DurableCollaborationEnvelope}
    {commit : CollaborationCommit}
    (asks : Asks crates caller current commit) :
    Grows crates current commit := by
  obtain ⟨service, call⟩ := caller
  cases call with
  | importUpdate plan request validate => exact .of_import asks
  | edit plan change validate =>
      obtain ⟨request, -, asks⟩ := asks
      exact .of_import asks
  | editText plan change validate =>
      obtain ⟨request, -, asks⟩ := asks
      exact .of_import asks
  | bootstrap plan document seed validate turns =>
      obtain ⟨rfl, -, acceptedUpdate, peers, -, -, rfl⟩ := asks
      exact ⟨(by rintro envelope ⟨⟩), subset_rfl⟩
  | bootstrapUpdate plan document schemaVersion update incarnation validate
      turns =>
      obtain ⟨rfl, -, acceptedUpdate, peers, -, -, rfl⟩ := asks
      exact ⟨(by rintro envelope ⟨⟩), subset_rfl⟩
  | migrate plan document fromSchemaVersion update validate turns =>
      obtain ⟨envelope, migrated, acceptedUpdate, incarnation, peers, rfl,
        rfl, different, -, -, -, -, -, rfl⟩ := asks.asked
      refine ⟨?_, subset_rfl⟩
      rintro _ ⟨⟩ same
      exact absurd same different
  | summary document => cases asks
  | summaries entity => cases asks
  | readDocument plan document => cases asks
  | authoringState plan document held => cases asks
  | repair actor document reason => cases asks
  | delete actor document turns => cases asks

theorem mem_nextRetained {policy : CommitPolicy}
    {current : Option DurableCollaborationEnvelope}
    {commit : CollaborationCommit} {operation : CollaborationOperation}
    (member : operation ∈ nextRetained crates policy current commit) :
    (∃ envelope, current = some envelope
        ∧ envelope.schemaVersion = commit.schemaVersion
        ∧ operation ∈ envelope.retainedOperations)
      ∨ operation =
          CollaborationOperation.fromUpdate crates commit.operationId
            (nextSequence current) commit.schemaVersion commit.actor
            commit.intent commit.importedUpdate := by
  have kept := List.mem_of_mem_drop member
  rcases List.mem_append.mp kept with earlier | new
  · left
    cases current with
    | none => cases earlier
    | some envelope =>
        simp only at earlier
        split at earlier
        · cases earlier
        · rename_i same
          exact ⟨envelope, rfl, not_not.mp same, earlier⟩
  · exact .inr (List.mem_singleton.mp new)

/-- A commit retains only what its checkpoint holds, over what did so too. -/
theorem holdsRetained_nextEnvelope {policy : CommitPolicy}
    {current : Option DurableCollaborationEnvelope}
    {commit : CollaborationCommit} {document : CollaborationDocumentId}
    {incarnation : String}
    (grows : Grows crates current commit)
    (before : ∀ envelope, current = some envelope →
      HoldsRetained crates envelope
        ∧ ∃ checkpoint, envelope.HasCheckpoint crates checkpoint) :
    HoldsRetained crates
      (nextEnvelope crates policy current document commit incarnation) := by
  intro checkpoint has operation member update encodes
  have same : checkpoint = commit.acceptedUpdate :=
    Except.ok.inj (has.1.symm.trans (crates.base64.decode_encode _))
  subst same
  rcases mem_nextRetained member with ⟨envelope, rfl, version, earlier⟩ | rfl
  · obtain ⟨retains, checkpoint, whole⟩ := before envelope rfl
    exact (retains checkpoint whole operation earlier update encodes).trans
      (grows.earlier envelope rfl version checkpoint whole)
  · have same : update = commit.importedUpdate :=
      Except.ok.inj (encodes.1.symm.trans (crates.base64.decode_encode _))
    subst same
    exact grows.imported

theorem Writes.retainedIn {caller : Caller application} {source : String}
    {older newer : Option StoredEnvelope}
    (writes : Writes crates port caller source older newer)
    (before : RetainedIn crates older) : RetainedIn crates newer := by
  intro stored envelope accepted kept holds
  cases writes with
  | @committed current commit next version bytes place above asks builds
      encoded =>
      cases kept
      obtain ⟨incarnation, -, rfl⟩ := builds.built
      have decoded := decodeEnvelope_toVecPretty encoded rfl
      cases Except.ok.inj (holds.decoded.symm.trans decoded)
      refine holdsRetained_nextEnvelope (grows_of_asks asks) ?_
      rintro envelope rfl
      cases older with
      | none => cases above
      | some kept =>
          obtain ⟨peers, holds⟩ := above
          exact ⟨before kept envelope peers rfl holds, holds.checkpoint⟩
  | @repaired actor document reason stored envelope peers version bytes call
      place above decoded valid encoded =>
      cases kept
      have format := (fromSlice_of_decodeEnvelope decoded).2
      have decodes := decodeEnvelope_toVecPretty encoded format
      cases Except.ok.inj (holds.decoded.symm.trans decodes)
      intro checkpoint has operation member
      cases member
  | removed call place => cases kept

/-- Whatever a source held since a world retains what its checkpoint holds. -/
theorem retainedIn_of_later
    (invariant : StoreInvariant port setting world)
    (later : StoreLater setting start world)
    (began : ∀ source, ∀ change ∈ start.kept source,
      RetainedIn crates change.content)
    (bypass : ∀ source content, setting.Bypass source content →
      RetainedIn crates content)
    (source : String) :
    ∀ change ∈ world.kept source, RetainedIn crates change.content := by
  have written := invariant.written source
  obtain ⟨added, kept, proper⟩ := later.kept source
  rw [kept] at written ⊢
  clear kept
  induction added with
  | nil => exact began source
  | cons newest rest inductionHypothesis =>
      have earlier := inductionHypothesis written.2
        fun change member => proper change (List.mem_cons_of_mem _ member)
      intro change member
      rcases List.mem_cons.mp member with rfl | older
      · have isProper := proper change List.mem_cons_self
        cases writer : change.writer with
        | none =>
            rw [Proper, writer] at isProper
            exact bypass source change.content isProper
        | some caller =>
            refine (written.1 caller writer).retainedIn ?_
            cases below : (rest ++ start.kept source).head? with
            | none =>
                rintro stored envelope accepted ⟨⟩
            | some before =>
                exact earlier before (List.mem_of_mem_head? below)
      · exact earlier change older

/-- A retry's update is in the checkpoint of what retains its operation. -/
theorem takes_of_retry {request : CollaborationImportRequest}
    {update : Bytes} {envelope : DurableCollaborationEnvelope}
    {accepted : List (Nat × Nat)} {doc : crates.loro.LoroDoc}
    {operation : CollaborationOperation} {bytes : Bytes}
    (collisionFree : Function.Injective crates.sha256Hex)
    (retains : HoldsRetained crates envelope)
    (holds : Holds crates bytes envelope accepted)
    (checkpoint : CheckpointIn crates envelope doc)
    (imported : importedUpdate crates request = .ok update)
    (retained : retainedOperation envelope request.operationId
      = some operation)
    (retries : isRetry crates .byUpdate request update operation = true) :
    Takes crates doc request := by
  have member := List.mem_of_find?_eq_some retained
  obtain ⟨-, held, encodes⟩ :=
    (validateEnvelope_ok_iff.mp holds.valid).whole operation member
  have same : held = update :=
    collisionFree (encodes.2.2.trans (beq_iff_eq.mp retries))
  subst same
  obtain ⟨whole, has⟩ := holds.checkpoint
  rw [Takes, carriedBy_of_importedUpdate imported,
    checkpoint.operations has]
  exact retains whole has operation member held encodes

end Retention

end Clerkenwell.Store
