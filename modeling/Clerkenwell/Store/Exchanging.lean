import Clerkenwell.Store.Committing
import Clerkenwell.Store.Exchange

/-!
# Exchanges, step by step

The reply of an exchange is made of one document its source carried since the
call began, and of a replica of that document's checkpoint.
-/

namespace Clerkenwell.Store

open Clerkenwell.Foundation
open Clerkenwell.Doc

section Exchanging

variable {crates : StoreCrates} {port : PortContract}
variable {application : Application} {setting : Setting crates application}
variable {caller : Caller application}
variable {start world after : StoreWorld crates application}

/-! ## What an import sends -/

/-- The frontier an import names its update's base by, if it names one. -/
def importBase (request : CollaborationImportRequest) : Option String :=
  if request.exchangeMode = .incremental then
    some request.baseFrontierBase64
  else none

/-- The version of a base in a document. -/
def baseVersion (doc : crates.loro.LoroDoc) :
    Option String → ReplicaResult VersionVector
  | some encoded => CollaborationReplica.frontierVersion doc encoded
  | none => .ok ∅

/-- An update goes on from the base its request names in a document. -/
def GoesOn (crates : StoreCrates) (doc : crates.loro.LoroDoc)
    (request : CollaborationImportRequest) : Prop :=
  ∃ version, baseVersion doc (importBase request) = .ok version
    ∧ Continues crates.toCrates version request.updateBase64

/-- A document holds an operation under each id of a request's update. -/
def Takes (crates : StoreCrates) (doc : crates.loro.LoroDoc)
    (request : CollaborationImportRequest) : Prop :=
  crates.loro.id '' carriedBy crates.toCrates request.updateBase64
    ⊆ crates.loro.id '' crates.loro.operations doc

theorem GoesOn.mono {doc later : crates.loro.LoroDoc}
    {request : CollaborationImportRequest}
    (goesOn : GoesOn crates doc request)
    (fewer : crates.loro.operations doc ⊆ crates.loro.operations later) :
    GoesOn crates later request := by
  obtain ⟨version, known, continues⟩ := goesOn
  refine ⟨version, ?_, continues⟩
  cases base : importBase request with
  | none => rwa [base] at known
  | some encoded =>
      rw [base] at known
      exact frontierVersion_mono fewer known

theorem carriedBy_of_importedUpdate {request : CollaborationImportRequest}
    {update : Bytes} (imported : importedUpdate crates request = .ok update) :
    carriedBy crates.toCrates request.updateBase64
      = crates.loro.updateOperations update := by
  have decoded := mapError_ok_iff.mp imported
  simp [carriedBy, decoded]

namespace Judged

variable {service : Service} {plan : CollaborationEntitySpec}
variable {request : CollaborationImportRequest} {update : Bytes}
variable {isNew : Bool} {current : DurableCollaborationEnvelope}
variable {judged : JudgedImport crates}

/-- An update that was judged goes on from its base in what it was judged of. -/
theorem goesOn {read : Option DurableCollaborationEnvelope}
    (established :
      Judged service plan request update isNew current judged)
    (against : JudgedAgainst crates plan request read isNew current) :
    ∃ held : CollaborationReplica crates.toCrates,
      loadAuthoringDocument crates plan request.document current = .ok held
        ∧ GoesOn crates held.doc request := by
  cases against with
  | stored incremental =>
      obtain ⟨held, loads, version, known, continues⟩ :=
        established.continues incremental
      refine ⟨held, loads, version, ?_, continues⟩
      simpa [importBase, incremental, baseVersion] using known
  | created bootstrap loaded exported named =>
      obtain ⟨held, loads, -⟩ := established.established
      refine ⟨held, loads, ∅, by simp [importBase, bootstrap, baseVersion], ?_⟩
      obtain ⟨-, -, whole, -⟩ :=
        CollaborationReplica.fromVersionedUpdateBase64_ok loaded
      refine continues_of_importWhole (fun peer => ?_) ?_ whole
      · exact le_of_eq rfl
      · intro operation member
        rw [crates.loro.operations_new] at member
        cases member

/-- What was judged of is part of what the import leaves. -/
theorem fewer
    (established :
      Judged service plan request update isNew current judged)
    {held : CollaborationReplica crates.toCrates}
    (loads : loadAuthoringDocument crates plan request.document current
      = .ok held) :
    crates.loro.operations held.doc
      ⊆ crates.loro.operations judged.authoring.doc := by
  obtain ⟨other, loads_other, -, -, -, -, adopts, -⟩ :=
    established.established
  cases Except.ok.inj (loads.symm.trans loads_other)
  obtain ⟨-, adopted, -, operations⟩ :=
    CollaborationReplica.adoptVersionedUpdateBase64_ok adopts
  rw [operations]
  exact Set.subset_union_left

/-- What an import leaves holds every id of its update. -/
theorem takes
    (established :
      Judged service plan request update isNew current judged)
    (imported : Store.importedUpdate crates request = .ok update) :
    Takes crates judged.authoring.doc request := by
  obtain ⟨_, -, -, names⟩ := established.operations imported
  rw [crates.loro.updateOperations_exportAllUpdates _ _
    established.exported] at names
  rw [Takes, carriedBy_of_importedUpdate imported, names]
  exact Set.subset_union_right

/-- An update that moved no head brought no id the document lacked. -/
theorem takes_of_no_new
    (established :
      Judged service plan request update isNew current judged)
    (imported : Store.importedUpdate crates request = .ok update)
    (none_new : judged.commit.hasNewOperations = false)
    {held : CollaborationReplica crates.toCrates}
    (loads : loadAuthoringDocument crates plan request.document current
      = .ok held) :
    Takes crates held.doc request := by
  have fewer := established.fewer loads
  obtain ⟨other, loads_other, -, -, -, -, -, moved⟩ :=
    established.established
  cases Except.ok.inj (loads.symm.trans loads_other)
  rw [none_new] at moved
  have same := not_not.mp (of_decide_eq_false moved.symm)
  exact (established.takes imported).trans
    (ids_subset_of_frontier_eq fewer same)

end Judged

/-! ## Replies of imports -/

/-- What an import's reply is made of. -/
structure ExchangedAs (port : PortContract)
    (start later : StoreWorld crates application)
    (request : CollaborationImportRequest) (retried : Retried)
    (update : Bytes) (answer : CollaborationImportResult) : Prop where
  exchanged : ∃ (held : Held)
      (authoring : CollaborationReplica crates.toCrates),
    Known later (port.source request.document) held
      ∧ CarriedSince port start later (port.source request.document)
          held.version
      ∧ importResult request held authoring answer.materialized
          answer.duplicate = .ok answer
      ∧ (Function.Injective crates.sha256Hex →
          CheckpointIn crates held.envelope authoring.doc
            ∧ ((GoesOn crates authoring.doc request
                  ∧ Takes crates authoring.doc request)
              ∨ (answer.duplicate = true
                ∧ ∃ operation,
                    retainedOperation held.envelope request.operationId
                        = some operation
                      ∧ isRetry crates retried request update operation
                          = true)))

theorem ExchangedAs.later {request : CollaborationImportRequest}
    {retried : Retried} {update : Bytes}
    {answer : CollaborationImportResult}
    (exchangedAs :
      ExchangedAs port start world request retried update answer)
    (further : StoreLater setting world after) :
    ExchangedAs port start after request retried update answer where
  exchanged := by
    obtain ⟨held, authoring, known, carried, rest⟩ := exchangedAs.exchanged
    exact ⟨held, authoring, known.later further, carried.later further, rest⟩

theorem importResult_materialized {request : CollaborationImportRequest}
    {accepted : Held} {authoring : CollaborationReplica crates.toCrates}
    {materialized : Json} {duplicate : Bool}
    {answer : CollaborationImportResult}
    (answers : importResult request accepted authoring materialized duplicate
      = .ok answer) :
    answer.materialized = materialized ∧ answer.duplicate = duplicate := by
  obtain ⟨acceptedUpdate, -, answers⟩ := except_bind_ok answers
  obtain ⟨missing, -, answers⟩ := except_bind_ok answers
  cases answers
  exact ⟨rfl, rfl⟩

/-! ## Authoring states -/

/-- What is kept loads as a document of a plan. -/
def LoadsAs (crates : StoreCrates) (plan : CollaborationEntitySpec)
    (document : CollaborationDocumentId)
    (content : Option StoredEnvelope) : Prop :=
  ∃ stored envelope accepted replica, content = some stored
    ∧ Holds crates stored.bytes envelope accepted
    ∧ envelope.document = document
    ∧ loadAuthoringDocument crates plan document envelope = .ok replica

/-- What an authoring state was answered with. -/
def AuthoringReadAs (port : PortContract)
    (start later : StoreWorld crates application)
    (plan : CollaborationEntitySpec) (document : CollaborationDocumentId)
    (named : Option CollaborationHeld) (log : Log crates)
    (result : StoreResult CollaborationAuthoringState) : Prop :=
  (∃ (held : Held) (authoring : CollaborationReplica crates.toCrates),
    Known later (port.source document) held
      ∧ CarriedSince port start later (port.source document) held.version
      ∧ (Function.Injective crates.sha256Hex →
          CheckpointIn crates held.envelope authoring.doc)
      ∧ result = orStoreError document (stateFor held authoring named))
    ∨ ((∃ error, result = .error error)
      ∧ (FailedIn log
        ∨ ∃ content, SeenSince start later (port.source document) content
            ∧ ¬ LoadsAs crates plan document content))

theorem AuthoringReadAs.later {plan : CollaborationEntitySpec}
    {document : CollaborationDocumentId} {named : Option CollaborationHeld}
    {log : Log crates} {result : StoreResult CollaborationAuthoringState}
    (readAs : AuthoringReadAs port start world plan document named log result)
    (further : StoreLater setting world after) :
    AuthoringReadAs port start after plan document named log result := by
  rcases readAs with ⟨held, authoring, known, carried, rest⟩
    | ⟨failed, cause⟩
  · exact .inl ⟨held, authoring, known.later further, carried.later further,
      rest⟩
  · refine .inr ⟨failed, cause.imp id ?_⟩
    rintro ⟨content, seen, unloaded⟩
    exact ⟨content, seen.later further, unloaded⟩

theorem runs_authoringState {service : Service}
    {plan : CollaborationEntitySpec} {document : CollaborationDocumentId}
    {named : Option CollaborationHeld}
    (invariant : StoreInvariant port setting world)
    (under : ReadUnder port setting plan (port.source document)) :
    Runs port setting caller
      (fun log result later =>
        AuthoringReadAs port world later plan document named log result)
      (authoringState port service plan document named).run world := by
  unfold authoringState
  refine Runs.attempt invariant
    (runs_readEnvelope service invariant (StoreLater.refl world)) ?_ ?_
  · rintro log error later _ ⟨-, read⟩
    refine .inr ⟨⟨error, rfl⟩, ?_⟩
    rcases read with ⟨-, failed⟩ | ⟨stored, seen, refused⟩
    · exact .inl failed
    · refine .inr ⟨some stored, seen, ?_⟩
      rintro ⟨_, envelope, accepted, replica, ⟨⟩, holds, rfl, -⟩
      rw [judge_of_holds holds] at refused
      cases refused
  rintro log read later next holds ⟨-, readAs⟩
  cases read with
  | none =>
      refine .inr ⟨⟨_, rfl⟩, .inr ⟨none, readAs, ?_⟩⟩
      rintro ⟨_, _, _, _, ⟨⟩, -⟩
  | some held =>
      obtain ⟨known, carried⟩ := readAs
      refine Runs.attempt holds (runs_replica known under) ?_ ?_
      · rintro rest error last further ⟨-, -, fails⟩
        refine .inr ⟨⟨error, rfl⟩, .inr ?_⟩
        obtain ⟨stored, seen, bytes⟩ := carried
        refine ⟨some stored, seen.later further, ?_⟩
        rintro ⟨_, envelope, accepted, replica, ⟨⟩, stored_holds, -, loads⟩
        rw [bytes] at stored_holds
        obtain ⟨rfl, -⟩ := (known.holds holds).unique stored_holds
        rw [fails error rfl] at loads
        cases loads
      · rintro rest authoring last further _ ⟨-, built, -⟩
        refine .inl ⟨held, authoring, known.later further,
          carried.later further, ?_, rfl⟩
        exact fun collisionFree =>
          (built authoring rfl collisionFree).checkpoint

end Exchanging

end Clerkenwell.Store
