import Clerkenwell.Store.Exchanging

/-!
# Imports, step by step

An import stores at most once and audits nothing itself.  One that fails has
stored nothing, and one whose operation its document retains is answered
without a write.
-/

namespace Clerkenwell.Store

open Clerkenwell.Foundation
open Clerkenwell.Doc

section Importing

variable {crates : StoreCrates} {port : PortContract}
variable {application : Application} {setting : Setting crates application}
variable {caller : Caller application}
variable {start world : StoreWorld crates application}
variable {Failure : Type}

/-! ## What an import offers to its residency -/

theorem runs_offer {source : String} {accepted : Held}
    {authoring : CollaborationReplica crates.toCrates} {materialized : Json}
    {held : Option Held}
    (invariant : StoreInvariant port setting world)
    (known : ∀ resident, held = some resident →
      Known world source resident
        ∧ accepted.envelope.checkpointSha256
            = resident.envelope.checkpointSha256)
    (built : BuiltReplica port setting source accepted.envelope authoring)
    (reads : authoring.materializedDocument accepted.envelope.etag
      = .ok materialized) :
    Runs port setting caller (fun log _ _ => Quiet log)
      (offer authoring materialized held) world := by
  cases held with
  | none => exact quiet_nil
  | some resident =>
      obtain ⟨known, same⟩ := known resident rfl
      obtain ⟨update, whole⟩ := (known.holds invariant).checkpoint
      have transfers : Function.Injective crates.sha256Hex →
          (OffersFit setting →
            resident.envelope.schemaVersion
              = authoring.plan.schemaVersion) →
          BuiltReplica port setting source resident.envelope authoring :=
        fun collisionFree fits =>
          built.transfer collisionFree whole same fits
      refine Runs.bind invariant (runs_offerReplica known transfers) ?_
      rintro log _ later next holds ⟨quiet, fits⟩
      refine (runs_offerMaterialized (known.later next) ?_).mono ?_
      · intro collisionFree
        refine ⟨authoring, transfers collisionFree fits, ?_⟩
        rw [← reads]
        simp only [DurableCollaborationEnvelope.etag, same]
      · intro _ _ _ _ quietLast
        exact quiet.append quietLast

theorem runs_offerBuilt {service : Service}
    {document : CollaborationDocumentId} {accepted : Held}
    {authoring : CollaborationReplica crates.toCrates} {materialized : Json}
    (invariant : StoreInvariant port setting world)
    (built : BuiltReplica port setting (port.source document)
      accepted.envelope authoring)
    (reads : authoring.materializedDocument accepted.envelope.etag
      = .ok materialized) :
    Runs port setting caller (fun log _ _ => Quiet log)
      (offerBuilt port service document accepted authoring materialized)
      world := by
  unfold offerBuilt
  refine Runs.bind invariant runs_getResident ?_
  rintro log held later next holds ⟨quiet, known⟩
  refine (runs_offer holds (fun resident same => ?_) built reads).mono ?_
  · obtain ⟨is_held, state⟩ := Option.filter_eq_some_iff.mp same
    rw [Bool.and_eq_true, beq_iff_eq, beq_iff_eq] at state
    exact ⟨known resident is_held, state.2.symm⟩
  · intro _ _ _ _ quietLast
    exact quiet.append quietLast

/-- What an accepted or duplicate import reports is of its envelope. -/
theorem reportedDocument_built {service : Service}
    {plan : CollaborationEntitySpec} {request : CollaborationImportRequest}
    {update : Bytes} {isNew : Bool} {current : DurableCollaborationEnvelope}
    {judged : JudgedImport crates} {source : String} {accepted : Held}
    {authoring : CollaborationReplica crates.toCrates} {materialized : Json}
    (established : Judged service plan request update isNew current judged)
    (under : ReadUnder port setting plan source)
    (version : accepted.envelope.schemaVersion = plan.schemaVersion)
    (reports : reportedDocument plan request.document accepted judged
      = .ok (authoring, materialized)) :
    BuiltReplica port setting source accepted.envelope authoring
      ∧ authoring.materializedDocument accepted.envelope.etag
          = .ok materialized := by
  unfold reportedDocument at reports
  obtain ⟨durable, decoded, reports⟩ := except_bind_ok reports
  have whole := checkpointUpdate_ok_iff.mp decoded
  have etag : collaborationEtag crates durable = accepted.envelope.etag := by
    simp only [collaborationEtag, DurableCollaborationEnvelope.etag,
      whole.2.2]
  split at reports
  · rename_i same
    obtain ⟨rfl, rfl⟩ := Prod.mk.inj (Except.ok.inj reports)
    subst same
    obtain ⟨loaded, loads, operations⟩ :=
      importWhole_exportAllUpdates established.exported
    refine ⟨⟨⟨_, loaded, whole, loads, operations⟩,
      reads_of_materialized (revision_checkpointEtag _)
        established.materialized, ?_, fun _ => ?_⟩, ?_⟩
    · rw [established.plan_eq]
      exact under
    · rw [established.plan_eq]
      exact version
    · rw [← etag]
      exact established.materialized
  · obtain ⟨loaded, loads, reports⟩ := except_bind_ok reports
    obtain ⟨value, reads, reports⟩ := except_bind_ok reports
    obtain ⟨rfl, rfl⟩ := Prod.mk.inj (Except.ok.inj reports)
    refine ⟨builtReplica_of_load under loads, ?_⟩
    rw [← etag]
    exact orStoreError_ok_iff.mp reads

theorem reportedDocument_ok {plan : CollaborationEntitySpec}
    {document : CollaborationDocumentId} {accepted : Held}
    {judged : JudgedImport crates}
    (whole : accepted.envelope.HasCheckpoint crates judged.acceptedUpdate) :
    reportedDocument plan document accepted judged
      = .ok (judged.authoring, judged.materialized) := by
  simp [reportedDocument, checkpointUpdate_ok_iff.mpr whole, bind,
    Except.bind, pure, Except.pure]

/-- What an accepted or duplicate import reports is one of two replicas. -/
theorem reportedDocument_eq {plan : CollaborationEntitySpec}
    {document : CollaborationDocumentId} {accepted : Held}
    {judged : JudgedImport crates}
    {authoring : CollaborationReplica crates.toCrates} {materialized : Json}
    (reports : reportedDocument plan document accepted judged
      = .ok (authoring, materialized)) :
    (accepted.envelope.HasCheckpoint crates judged.acceptedUpdate
        ∧ authoring = judged.authoring)
      ∨ loadAuthoringDocument crates plan document accepted.envelope
          = .ok authoring := by
  unfold reportedDocument at reports
  obtain ⟨durable, decoded, reports⟩ := except_bind_ok reports
  split at reports
  · rename_i same
    cases reports
    exact .inl ⟨same ▸ checkpointUpdate_ok_iff.mp decoded, rfl⟩
  · obtain ⟨loaded, loads, reports⟩ := except_bind_ok reports
    obtain ⟨value, -, reports⟩ := except_bind_ok reports
    cases reports
    exact .inr loads

/-- Nothing fails once an import's own envelope is stored. -/
theorem runs_reportCommit {service : Service}
    {plan : CollaborationEntitySpec} {request : CollaborationImportRequest}
    {update : Bytes} {isNew : Bool} {current : DurableCollaborationEnvelope}
    {judged : JudgedImport crates} {accepted : Held} {duplicate : Bool}
    (invariant : StoreInvariant port setting world)
    (established : Judged service plan request update isNew current judged)
    (under : ReadUnder port setting plan (port.source request.document))
    (version : accepted.envelope.schemaVersion = plan.schemaVersion) :
    Runs port setting caller
      (fun log result _ => Quiet log
        ∧ (accepted.envelope.HasCheckpoint crates judged.acceptedUpdate →
            ∃ answer, result = .ok answer)
        ∧ ∀ answer, result = .ok answer →
            answer.duplicate = duplicate
              ∧ ∃ authoring : CollaborationReplica crates.toCrates,
                  importResult request accepted authoring answer.materialized
                      answer.duplicate = .ok answer
                    ∧ CheckpointIn crates accepted.envelope authoring.doc
                    ∧ ((accepted.envelope.HasCheckpoint crates
                          judged.acceptedUpdate
                        ∧ authoring = judged.authoring)
                      ∨ loadAuthoringDocument crates plan request.document
                          accepted.envelope = .ok authoring))
      (reportCommit port service plan request judged accepted duplicate).run
      world := by
  unfold reportCommit
  refine Runs.settled ?_ ?_
  · intro error fails
    refine ⟨quiet_nil, fun whole => ?_, by rintro answer ⟨⟩⟩
    rw [reportedDocument_ok whole] at fails
    cases fails
  rintro ⟨authoring, materialized⟩ reports
  obtain ⟨built, reads⟩ :=
    reportedDocument_built established under version reports
  refine Runs.always invariant (runs_offerBuilt invariant built reads) ?_
  rintro log _ later next holds quiet
  refine ⟨quiet.append quiet_nil, fun whole => ?_, fun answer answers => ?_⟩
  · rw [reportedDocument_ok whole] at reports
    obtain ⟨rfl, rfl⟩ := Prod.mk.inj (Except.ok.inj reports)
    have answers : ∃ answer,
        importResult request accepted judged.authoring judged.materialized
            duplicate = .ok answer
          ∧ answer.duplicate = duplicate :=
      importResult_ok whole established.frontier established.endVersion
    exact answers.imp fun _ answer => answer.1
  · obtain ⟨rfl, same⟩ := importResult_materialized answers
    exact ⟨same, authoring, same ▸ answers, built.checkpoint,
      reportedDocument_eq reports⟩

/-! ## Committing an import -/

theorem runs_commitImport {service : Service}
    {plan : CollaborationEntitySpec} {request : CollaborationImportRequest}
    {update : Bytes} {isNew : Bool} {current : DurableCollaborationEnvelope}
    {judged : JudgedImport crates} {read : Option Held} (retried : Retried)
    (invariant : StoreInvariant port setting world)
    (after : StoreLater setting start world)
    (admitted : setting.Admitted caller) (serves : caller.service = service)
    (wellFormed : request.schemaVersion = plan.schemaVersion)
    (imported : importedUpdate crates request = .ok update)
    (established : Judged service plan request update isNew current judged)
    (against : JudgedAgainst crates plan request (read.map Held.envelope)
      isNew current)
    (under : ReadUnder port setting plan (port.source request.document))
    (known : ∀ held, read = some held →
      Known world (port.source request.document) held
        ∧ CarriedSince port start world (port.source request.document)
            held.version
        ∧ held.envelope.schemaVersion = plan.schemaVersion
        ∧ retainedOperation held.envelope request.operationId = none)
    (asks : Asks crates caller (read.map Held.envelope) judged.commit) :
    Runs port setting caller
      (fun log result later => Unaudited log
        ∧ ((∀ answer, result ≠ .ok (some answer)) → Unstored log)
        ∧ ∀ answer, result = .ok (some answer) →
            ExchangedAs port start later request retried update answer)
      (commitImport port service plan request read judged).run world := by
  unfold commitImport
  refine Runs.attempt invariant
    (runs_commitOver invariant after admitted serves
      (fun held is_read => by
        rw [established.document]
        exact (known held is_read).1) asks) ?_ ?_
  · rintro log error later _ ⟨unaudited, unstored⟩
    exact ⟨unaudited, fun _ => unstored, by rintro answer ⟨⟩⟩
  rintro log outcome later next holds ⟨unaudited, committed⟩
  have reports : ∀ accepted duplicate,
      accepted.envelope.schemaVersion = plan.schemaVersion →
      (Unstored log
        ∨ accepted.envelope.HasCheckpoint crates judged.acceptedUpdate) →
      Known later (port.source request.document) accepted →
      CarriedSince port start later (port.source request.document)
        accepted.version →
      (∀ authoring : CollaborationReplica crates.toCrates,
        CheckpointIn crates accepted.envelope authoring.doc →
        (accepted.envelope.HasCheckpoint crates judged.acceptedUpdate
            ∧ authoring = judged.authoring)
          ∨ loadAuthoringDocument crates plan request.document
              accepted.envelope = .ok authoring →
        Function.Injective crates.sha256Hex →
          GoesOn crates authoring.doc request
            ∧ Takes crates authoring.doc request) →
      Runs port setting caller
        (fun rest result last => Unaudited (log ++ rest)
          ∧ ((∀ answer, result ≠ .ok (some answer)) → Unstored (log ++ rest))
          ∧ ∀ answer, result = .ok (some answer) →
              ExchangedAs port start last request retried update answer)
        (some <$> reportCommit port service plan request judged accepted
          duplicate : Attempt crates StoreError _).run later := by
    intro accepted duplicate version fallback isKnown carried sent
    refine Runs.attempt holds
      (runs_reportCommit holds established under version) ?_ ?_
    · rintro rest error last _ ⟨quiet, succeeds, -⟩
      refine ⟨unaudited.append quiet.told.unaudited, fun _ => ?_,
        by rintro answer ⟨⟩⟩
      rcases fallback with unstored | whole
      · exact unstored.append quiet.told.unstored
      · obtain ⟨answer, answers⟩ := succeeds whole
        cases answers
    · rintro rest answer last further _ ⟨quiet, -, reported⟩
      refine ⟨?_, fun failed => absurd rfl (failed answer), ?_⟩
      · exact unaudited.append (quiet.told.unaudited.append
          quiet_nil.told.unaudited)
      · rintro _ ⟨⟩
        obtain ⟨-, authoring, answers, checkpoint, which⟩ :=
          reported answer rfl
        exact ⟨accepted, authoring, isKnown.later further,
          carried.later further, answers, fun collisionFree =>
            ⟨checkpoint, .inl (sent authoring checkpoint which
              collisionFree)⟩⟩
  obtain ⟨held, loads, goesOn⟩ := established.goesOn against
  have fewer := established.fewer loads
  cases outcome with
  | stale =>
      exact ⟨unaudited.append quiet_nil.told.unaudited,
        fun _ => Unstored.append committed quiet_nil.told.unstored,
        by rintro answer ⟨⟩⟩
  | duplicate resident =>
      obtain ⟨unstored, is_read, duplicates⟩ := committed
      obtain ⟨isKnown, carried, version, unretained⟩ :=
        known resident is_read
      refine reports resident true version (.inl unstored)
        (isKnown.later next) (carried.later next) ?_
      intro authoring checkpoint which collisionFree
      subst is_read
      cases against with
      | stored incremental =>
          have same : authoring = judged.authoring
              ∨ authoring = held := by
            rcases which with ⟨-, same⟩ | load
            · exact .inl same
            · exact .inr (Except.ok.inj (load.symm.trans loads))
          rcases same with rfl | rfl
          · exact ⟨goesOn.mono fewer, established.takes imported⟩
          · refine ⟨goesOn, ?_⟩
            rw [Duplicates, established.operationId] at duplicates
            rcases duplicates with ⟨operation, retained, -⟩
              | ⟨-, none_new | digest⟩
            · rw [unretained] at retained
              cases retained
            · exact established.takes_of_no_new imported none_new loads
            · obtain ⟨update, whole⟩ := (isKnown.holds invariant).checkpoint
              rw [established.acceptedUpdate, ← whole.2.2] at digest
              have same := collisionFree digest
              have taken := established.takes imported
              rw [Takes, ← crates.loro.updateOperations_exportAllUpdates _ _
                established.exported, ← same,
                ← checkpoint.operations whole] at taken
              exact taken
  | accepted resident =>
      obtain ⟨isKnown, carried, builds⟩ := committed
      rw [established.document] at isKnown carried
      obtain ⟨incarnation, -, same⟩ := builds.built
      have whole :
          resident.envelope.HasCheckpoint crates judged.acceptedUpdate := by
        rw [same, ← established.acceptedUpdate]
        exact encodes_encode _
      refine reports resident false ?_ (.inr whole) isKnown carried ?_
      · rw [same]
        exact established.schemaVersion.trans wellFormed
      · intro authoring checkpoint _ _
        have operations : crates.loro.operations authoring.doc
            = crates.loro.operations judged.authoring.doc := by
          rw [checkpoint.operations whole,
            crates.loro.updateOperations_exportAllUpdates _ _
              established.exported]
        refine ⟨goesOn.mono (fewer.trans operations.ge), ?_⟩
        rw [Takes, operations]
        exact established.takes imported

/-! ## Answering a retry -/

/-- An envelope that retains a request's operation, and can answer it. -/
structure Answerable (crates : StoreCrates) (plan : CollaborationEntitySpec)
    (request : CollaborationImportRequest) (retried : Retried)
    (update : Bytes) (envelope : DurableCollaborationEnvelope) : Prop where
  belongs : envelope.document = request.document
  retained : ∃ operation,
    retainedOperation envelope request.operationId = some operation
      ∧ isRetry crates retried request update operation = true
  loads : ∃ replica,
    loadAuthoringDocument crates plan request.document envelope = .ok replica
      ∧ ∃ version,
          CollaborationReplica.frontierVersion replica.doc
            request.baseFrontierBase64 = .ok version

/-- All a source held since a world are envelopes with a property. -/
def AlwaysSince (start later : StoreWorld crates application)
    (source : String) (Property : DurableCollaborationEnvelope → Prop) :
    Prop :=
  ∀ content, SeenSince start later source content →
    ∃ stored envelope accepted, content = some stored
      ∧ Holds crates stored.bytes envelope accepted ∧ Property envelope

theorem AlwaysSince.earlier {later : StoreWorld crates application}
    {source : String} {Property : DurableCollaborationEnvelope → Prop}
    (always : AlwaysSince start later source Property)
    (after : StoreLater setting world later) :
    AlwaysSince start world source Property :=
  fun content seen => always content (seen.later after)

/-- A document held since a world has what its source always had. -/
theorem AlwaysSince.held {source : String}
    {Property : DurableCollaborationEnvelope → Prop} {held : Held}
    (always : AlwaysSince start world source Property)
    (invariant : StoreInvariant port setting world)
    (known : Known world source held)
    (carried : CarriedSince port start world source held.version) :
    Property held.envelope := by
  obtain ⟨stored, seen, bytes⟩ := carried
  obtain ⟨_, envelope, accepted, ⟨⟩, holds, property⟩ :=
    always (some stored) seen
  rw [bytes] at holds
  obtain ⟨rfl, -⟩ := (known.holds invariant).unique holds
  exact property

/-- A retry is answered from what its document holds. -/
theorem runs_answerRetry {plan : CollaborationEntitySpec}
    {request : CollaborationImportRequest} {held : Held}
    (invariant : StoreInvariant port setting world)
    (known : Known world (port.source request.document) held)
    (under : ReadUnder port setting plan (port.source request.document)) :
    Runs port setting caller
      (fun log result _ => Quiet log
        ∧ (Function.Injective crates.sha256Hex →
            (∃ replica,
              loadAuthoringDocument crates plan request.document
                  held.envelope = .ok replica
                ∧ ∃ version,
                    CollaborationReplica.frontierVersion replica.doc
                      request.baseFrontierBase64 = .ok version) →
            (∃ version,
              updateEndVersion crates.toCrates request.updateBase64
                = .ok version) →
            ∃ answer, result = .ok answer ∧ answer.duplicate = true)
        ∧ ∀ answer, result = .ok answer →
            answer.duplicate = true
              ∧ ∃ authoring : CollaborationReplica crates.toCrates,
                  importResult request held authoring answer.materialized
                      answer.duplicate = .ok answer
                    ∧ (Function.Injective crates.sha256Hex →
                        CheckpointIn crates held.envelope authoring.doc))
      (answerRetry plan request held).run world := by
  unfold answerRetry
  refine Runs.attempt invariant (runs_replica known under) ?_ ?_
  · rintro log error later _ ⟨quiet, -, fails⟩
    refine ⟨quiet, fun _ loads _ => ?_, by rintro answer ⟨⟩⟩
    obtain ⟨replica, loaded, -⟩ := loads
    rw [fails error rfl] at loaded
    cases loaded
  rintro log replica later next holds ⟨quiet, built, -⟩
  refine Runs.attempt holds
    (runs_materialized holds (known.later next) under) ?_ ?_
  · rintro rest error last _ ⟨quietRest, -, fails⟩
    refine ⟨quiet.append quietRest, fun collisionFree loads _ => ?_,
      by rintro answer ⟨⟩⟩
    obtain ⟨loaded, loads, -⟩ := loads
    rw [fails error rfl collisionFree] at loads
    cases loads
  rintro rest value last _ _ ⟨quietRest, -⟩
  refine ⟨quiet.append (quietRest.append quiet_nil), ?_, ?_⟩
  rotate_left
  · intro answer answers
    obtain ⟨rfl, duplicate⟩ := importResult_materialized answers
    exact ⟨duplicate, replica, duplicate ▸ answers, fun collisionFree =>
      (built replica rfl collisionFree).checkpoint⟩
  intro collisionFree loads ends
  obtain ⟨loaded, loads, version, frontier⟩ := loads
  obtain ⟨-, -, checkpoint, -⟩ := loadAuthoringDocument_ok loads
  obtain ⟨update, whole⟩ := (known.holds invariant).checkpoint
  have same : crates.loro.operations loaded.doc
      = crates.loro.operations replica.doc :=
    (checkpoint.operations whole).trans
      ((built replica rfl collisionFree).checkpoint.operations whole).symm
  obtain ⟨answer, answers, duplicate⟩ :=
    (importResult_ok whole
      (fun _ => ⟨version, frontierVersion_mono same.le frontier⟩) ends :
        ∃ answer, importResult request held replica value true = .ok answer
          ∧ answer.duplicate = true)
  exact ⟨answer, answers, duplicate⟩

/-! ## Attempts -/

/-- What the attempts of an import, if any were made, were answered with. -/
structure AttemptedAs (port : PortContract)
    (start later : StoreWorld crates application)
    (plan : CollaborationEntitySpec) (request : CollaborationImportRequest)
    (retried : Retried) (update : Bytes) (attempted : Prop)
    (log : Log crates)
    (result : Except (ImportFailure Failure)
      (Option CollaborationImportResult)) : Prop where
  unaudited : Unaudited log
  unstored : (∀ answer, result ≠ .ok (some answer)) → Unstored log
  answered : attempted → Function.Injective crates.sha256Hex →
    request.exchangeMode = .incremental →
    (∃ version,
      updateEndVersion crates.toCrates request.updateBase64 = .ok version) →
    AlwaysSince start later (port.source request.document)
      (Answerable crates plan request retried update) →
    FailedIn log
      ∨ (Quiet log
        ∧ ∃ answer, result = .ok (some answer) ∧ answer.duplicate = true)
  created : request.exchangeMode = .bootstrap →
    (∀ content,
      SeenSince start later (port.source request.document) content →
        content ≠ none) →
    ∃ error, result = .error error
  exchanged : ∀ answer, result = .ok (some answer) →
    importedUpdate crates request = .ok update →
    ExchangedAs port start later request retried update answer

theorem requireWellFormed_ok {plan : CollaborationEntitySpec}
    {request : CollaborationImportRequest}
    (wellFormed : requireWellFormed plan request = .ok ()) :
    request.schemaVersion = plan.schemaVersion := by
  unfold requireWellFormed at wellFormed
  by_contra different
  rw [if_pos different] at wellFormed
  cases wellFormed

theorem runs_currentEnvelope {plan : CollaborationEntitySpec}
    {request : CollaborationImportRequest} {read : Option Held}
    (invariant : StoreInvariant port setting world) :
    Runs port setting caller
      (fun log result _ => Quiet log
        ∧ (∀ current, result = .ok current →
            JudgedAgainst crates plan request (read.map Held.envelope)
              read.isNone current)
        ∧ (∀ held, read = some held → request.exchangeMode = .incremental →
            result = .ok held.envelope)
        ∧ (∀ held, read = some held → request.exchangeMode = .bootstrap →
            ∃ error, result = .error error))
      (@currentEnvelope crates plan request read).run world := by
  unfold currentEnvelope
  cases read with
  | some held =>
      cases mode : request.exchangeMode with
      | bootstrap =>
          exact ⟨quiet_nil, by rintro _ ⟨⟩, by rintro _ _ ⟨⟩,
            fun _ _ _ => ⟨_, rfl⟩⟩
      | incremental =>
          refine ⟨quiet_nil, ?_, ?_, by rintro _ _ ⟨⟩⟩
          · rintro _ ⟨⟩
            exact .stored mode
          · rintro _ ⟨⟩ _
            rfl
  | none =>
      cases mode : request.exchangeMode with
      | incremental =>
          exact ⟨quiet_nil, by rintro _ ⟨⟩, by rintro _ ⟨⟩, by rintro _ ⟨⟩⟩
      | bootstrap =>
          refine Runs.settled
            (fun _ _ => ⟨quiet_nil, by rintro _ ⟨⟩, by rintro _ ⟨⟩,
              by rintro _ ⟨⟩⟩) ?_
          intro authoring loaded
          refine Runs.settled
            (fun _ _ => ⟨quiet_nil, by rintro _ ⟨⟩, by rintro _ ⟨⟩,
              by rintro _ ⟨⟩⟩) ?_
          intro acceptedUpdate exported
          refine Runs.perform invariant runs_uuid ?_
          rintro log uuid later _ _ ⟨quiet, named, -⟩
          refine ⟨quiet.append quiet_nil, ?_, by rintro _ ⟨⟩,
            by rintro _ ⟨⟩⟩
          rintro _ ⟨⟩
          exact .created mode (orStoreError_ok_iff.mp loaded) exported
            (by simp [named])

theorem runs_importAttempt {service : Service}
    {plan : CollaborationEntitySpec} {request : CollaborationImportRequest}
    {retried : Retried} {validate : Json → Except application.Failure Unit}
    {update : Bytes}
    (invariant : StoreInvariant port setting world)
    (after : StoreLater setting start world)
    (admitted : setting.Admitted caller) (serves : caller.service = service)
    (wellFormed : requireWellFormed plan request = .ok ())
    (imported : importedUpdate crates request = .ok update)
    (under : ReadUnder port setting plan (port.source request.document))
    (asks : ∀ current commit,
      ImportAsks crates service plan request validate current commit →
        Asks crates caller current commit) :
    Runs port setting caller
      (fun log result later =>
        AttemptedAs port start later plan request retried update True log
          result)
      (importAttempt port service plan request retried validate update).run
      world := by
  unfold importAttempt
  refine Runs.adapted invariant
    (runs_readEnvelope service invariant after) ?_ ?_
  · rintro log error later next ⟨quiet, read⟩
    refine ⟨quiet.told.unaudited, fun _ => quiet.told.unstored, ?_,
      fun _ _ => ⟨_, rfl⟩, by rintro answer ⟨⟩⟩
    intro _ _ _ _ always
    rcases read with ⟨-, failed⟩ | ⟨stored, seen, refused⟩
    · exact .inl failed
    · obtain ⟨_, envelope, accepted, ⟨⟩, holds, answerable⟩ :=
        always (some stored) seen
      rw [← answerable.belongs, judge_of_holds holds] at refused
      cases refused
  rintro log read later next holds ⟨quiet, readAs⟩
  refine Runs.adapted holds (runs_currentEnvelope holds) ?_ ?_
  · rintro rest error last further ⟨quietRest, -, stored, created⟩
    have told := (quiet.append quietRest).told
    refine ⟨told.unaudited, fun _ => told.unstored, ?_,
      fun _ _ => ⟨_, rfl⟩, by rintro answer ⟨⟩⟩
    intro _ _ incremental _ always
    cases read with
    | none =>
        obtain ⟨_, _, _, ⟨⟩, -⟩ := always none (SeenSince.later readAs further)
    | some held => cases stored held rfl incremental
  rintro rest current last further holdsLast ⟨quietRest, against, -, created⟩
  have uncreated : ∀ after, StoreLater setting last after →
      request.exchangeMode = .bootstrap →
      ¬ ∀ content,
          SeenSince start after (port.source request.document) content →
            content ≠ none := by
    intro after later bootstrap there
    cases read with
    | none =>
        exact there none ((SeenSince.later readAs further).later later) rfl
    | some held =>
        obtain ⟨error, failed⟩ := created held rfl bootstrap
        cases failed
  have told := (quiet.append quietRest).told
  cases found : retainedRetry request read with
  | some retry =>
      obtain ⟨held, operation⟩ := retry
      obtain ⟨_, rfl, retains⟩ := Option.bind_eq_some_iff.mp found
      obtain ⟨_, retained, ⟨⟩⟩ := Option.map_eq_some_iff.mp retains
      obtain ⟨known, carried⟩ := readAs
      have answerable : AlwaysSince start last
          (port.source request.document)
          (Answerable crates plan request retried update) →
          Answerable crates plan request retried update held.envelope :=
        fun always => always.held holdsLast (known.later further)
          (carried.later further)
      simp only
      split
      · rename_i retries
        refine Runs.adapted holdsLast
          (runs_answerRetry holdsLast (known.later further) under) ?_ ?_
        · rintro tail error final onward ⟨quietTail, answers, -⟩
          have toldAll := told.append quietTail.told
          rw [List.append_assoc] at toldAll
          refine ⟨toldAll.unaudited, fun _ => toldAll.unstored, ?_,
            fun bootstrap there =>
              absurd there (uncreated final onward bootstrap),
            by rintro answer ⟨⟩⟩
          intro _ collisionFree _ ends always
          obtain ⟨answer, same, -⟩ :=
            answers collisionFree (answerable (always.earlier onward)).loads
              ends
          cases same
        · rintro tail answer final onward _ ⟨quietTail, answers, replied⟩
          have quietAll := quiet.append (quietRest.append
            (quietTail.append quiet_nil))
          refine ⟨quietAll.told.unaudited, fun _ => quietAll.told.unstored,
            ?_, fun bootstrap there =>
              absurd there (uncreated final onward bootstrap), ?_⟩
          rotate_left
          · rintro _ ⟨⟩ _
            obtain ⟨duplicate, authoring, reports, built⟩ :=
              replied answer rfl
            exact ⟨held, authoring, (known.later further).later onward,
              (carried.later further).later onward, reports,
              fun collisionFree => ⟨built collisionFree,
                .inr ⟨duplicate, operation, retained, retries⟩⟩⟩
          intro _ collisionFree _ ends always
          obtain ⟨reported, same, duplicate⟩ :=
            answers collisionFree (answerable (always.earlier onward)).loads
              ends
          cases same
          exact .inr ⟨quietAll, answer, rfl, duplicate⟩
      · rename_i other
        have toldAll := told.append quiet_nil.told
        rw [List.append_assoc] at toldAll
        refine ⟨toldAll.unaudited, fun _ => toldAll.unstored, ?_,
          fun bootstrap there =>
            absurd there (uncreated last (StoreLater.refl last) bootstrap),
          by rintro answer ⟨⟩⟩
        intro _ _ _ _ always
        obtain ⟨_, same, retries⟩ := (answerable always).retained
        rw [retained] at same
        cases same
        exact absurd retries other
  | none =>
      have unanswerable : ∀ after, StoreLater setting last after →
          StoreInvariant port setting after →
          ¬ AlwaysSince start after (port.source request.document)
              (Answerable crates plan request retried update) := by
        intro after later invariantAfter always
        cases read with
        | none =>
            obtain ⟨_, _, _, ⟨⟩, -⟩ :=
              always none ((SeenSince.later readAs further).later later)
        | some held =>
            obtain ⟨known, carried⟩ := readAs
            obtain ⟨_, same, -⟩ :=
              (always.held invariantAfter
                ((known.later further).later later)
                ((carried.later further).later later)).retained
            simp [retainedRetry, same] at found
      simp only
      refine Runs.settled ?_ ?_
      · intro error _
        have toldAll := told.append quiet_nil.told
        rw [List.append_assoc] at toldAll
        exact ⟨toldAll.unaudited, fun _ => toldAll.unstored,
          fun _ _ _ _ always =>
            absurd always (unanswerable last (StoreLater.refl last) holdsLast),
          fun _ _ => ⟨_, rfl⟩, by rintro answer ⟨⟩⟩
      intro judged judgement
      have established := judgeImport_ok judgement
      have readKnown : ∀ held, read = some held →
          Known last (port.source request.document) held
            ∧ CarriedSince port start last (port.source request.document)
                held.version
            ∧ held.envelope.schemaVersion = plan.schemaVersion
            ∧ retainedOperation held.envelope request.operationId
                = none := by
        rintro held rfl
        refine ⟨(readAs.1).later further, (readAs.2).later further, ?_, ?_⟩
        · obtain ⟨loaded, loads, -⟩ := established.established
          cases against current rfl with
          | stored incremental => exact (loadAuthoringDocument_ok loads).1
        · simpa [retainedRetry] using found
      refine Runs.adapt holdsLast
        (runs_commitImport retried holdsLast
          ((after.trans next).trans further)
          admitted serves (requireWellFormed_ok wellFormed) imported
          established (against current rfl) under readKnown
          (asks _ _ ⟨wellFormed, update, read.isNone, current, judged,
            imported, against current rfl, judgement, rfl⟩)) ?_
      rintro tail result final onward ⟨unaudited, unstored, exchanged⟩
      refine ⟨?_, ?_, fun _ _ _ _ always =>
          absurd (always.earlier onward)
            (unanswerable last (StoreLater.refl last) holdsLast),
        fun bootstrap there =>
          absurd there (uncreated final onward bootstrap), ?_⟩
      · exact quiet.told.unaudited.append
          (quietRest.told.unaudited.append unaudited)
      · intro unanswered
        refine quiet.told.unstored.append
          (quietRest.told.unstored.append (unstored ?_))
        rintro answer rfl
        exact unanswered answer rfl
      · intro answer same _
        cases result with
        | error error => cases same
        | ok outcome =>
            cases same
            exact exchanged answer rfl

theorem runs_importAttempts {service : Service}
    {plan : CollaborationEntitySpec} {request : CollaborationImportRequest}
    {retried : Retried} {validate : Json → Except application.Failure Unit}
    {update : Bytes} (attempts : Nat)
    (invariant : StoreInvariant port setting world)
    (after : StoreLater setting start world)
    (admitted : setting.Admitted caller) (serves : caller.service = service)
    (wellFormed : requireWellFormed plan request = .ok ())
    (imported : importedUpdate crates request = .ok update)
    (under : ReadUnder port setting plan (port.source request.document))
    (asks : ∀ current commit,
      ImportAsks crates service plan request validate current commit →
        Asks crates caller current commit) :
    Runs port setting caller
      (fun log result later =>
        AttemptedAs port start later plan request retried update
          (0 < attempts) log (result.map some))
      (importAttempts port service plan request retried validate update
        attempts).run world := by
  induction attempts generalizing world with
  | zero =>
      exact ⟨quiet_nil.told.unaudited, fun _ => quiet_nil.told.unstored,
        fun tried => absurd tried (Nat.lt_irrefl 0), fun _ _ => ⟨_, rfl⟩,
        by rintro answer ⟨⟩⟩
  | succ attempts inductionHypothesis =>
      unfold importAttempts
      refine Runs.attempt invariant
        (runs_importAttempt invariant after admitted serves wellFormed
          imported under asks) ?_ ?_
      · intro log error later _ attempted
        exact { attempted with answered := fun _ => attempted.answered trivial }
      intro log result later next holds attempted
      cases result with
      | some answer =>
          show AttemptedAs port start later plan request retried update
            (0 < attempts + 1) (log ++ []) (.ok (some answer))
          rw [List.append_nil]
          exact { attempted with
            answered := fun _ => attempted.answered trivial }
      | none =>
          refine (inductionHypothesis holds (after.trans next)).mono ?_
          intro rest result last further more
          refine ⟨attempted.unaudited.append more.unaudited,
            fun unanswered => (attempted.unstored (by simp)).append
              (more.unstored unanswered), ?_, more.created, more.exchanged⟩
          intro _ collisionFree incremental ends always
          rcases attempted.answered trivial collisionFree incremental ends
            (always.earlier further) with failed | ⟨-, answer, same, -⟩
          · exact .inl (failed.left rest)
          · cases same

theorem runs_importInternal {service : Service}
    {plan : CollaborationEntitySpec} {request : CollaborationImportRequest}
    {retried : Retried} {validate : Json → Except application.Failure Unit}
    (invariant : StoreInvariant port setting world)
    (after : StoreLater setting start world)
    (admitted : setting.Admitted caller) (serves : caller.service = service)
    (under : ReadUnder port setting plan (port.source request.document))
    (asks : ∀ current commit,
      ImportAsks crates service plan request validate current commit →
        Asks crates caller current commit) :
    Runs port setting caller
      (fun log result later =>
        (∀ update,
          AttemptedAs port start later plan request retried update
            (requireWellFormed plan request = .ok ()
              ∧ importedUpdate crates request = .ok update) log
            (result.map some))
        ∧ ∀ answer, result = .ok answer →
            ∃ update, importedUpdate crates request = .ok update)
      (importInternal port service plan request retried validate).run
      world := by
  unfold importInternal
  have refused : ∀ update (attempted : Prop) error, ¬ attempted →
      AttemptedAs port start world plan request retried update attempted []
        ((.error error : Except (ImportFailure application.Failure)
          CollaborationImportResult).map some) :=
    fun update attempted error unattempted =>
      ⟨quiet_nil.told.unaudited, fun _ => quiet_nil.told.unstored,
        fun tried => absurd tried unattempted, fun _ _ => ⟨_, rfl⟩,
        by rintro answer ⟨⟩⟩
  refine Runs.settled ?_ ?_
  · intro error fails
    refine ⟨fun update => refused update _ error fun attempted => ?_,
      by rintro answer ⟨⟩⟩
    rw [attempted.1] at fails
    cases fails
  rintro ⟨⟩ wellFormed
  refine Runs.settled ?_ ?_
  · intro error fails
    refine ⟨fun update => refused update _ error fun attempted => ?_,
      by rintro answer ⟨⟩⟩
    rw [attempted.2] at fails
    cases fails
  intro update imported
  refine (runs_importAttempts service.policy.attempts invariant after admitted
    serves (orFailure_ok_iff.mp wellFormed) (orFailure_ok_iff.mp imported)
    under asks).mono ?_
  intro log result later _ attempted
  refine ⟨fun other => ?_, fun _ _ => ⟨update, orFailure_ok_iff.mp imported⟩⟩
  have equal : importedUpdate crates request = .ok other → update = other :=
    fun same => Except.ok.inj ((orFailure_ok_iff.mp imported).symm.trans same)
  refine { attempted with answered := ?_, exchanged := ?_ }
  · rintro ⟨-, same⟩
    obtain rfl := equal same
    exact attempted.answered service.policy.attempts_pos
  · intro answer accepted same
    obtain rfl := equal same
    exact attempted.exchanged answer accepted same

end Importing

end Clerkenwell.Store
