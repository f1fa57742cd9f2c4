import Clerkenwell.Store.Refusing

/-!
# Edits, step by step

An edit and a text edit prepare a request without a write or an audit, and it
is then imported as its actor's.  A retried one is prepared with the very
update its document retains.
-/

namespace Clerkenwell.Store

open Clerkenwell.Foundation
open Clerkenwell.Doc

section Editing

variable {crates : StoreCrates} {port : PortContract}
variable {application : Application} {setting : Setting crates application}
variable {caller : Caller application}
variable {start world : StoreWorld crates application}

/-! ## Preparations -/

section Preparations

variable {α β : Type} {request : CollaborationImportRequest}

/-- A part of a preparation followed by another, unless it fails. -/
theorem Runs.prepare
    {Post : Log crates → Except StoreError α × CollaborationImportRequest →
      StoreWorld crates application → Prop}
    {Final : Log crates → Except StoreError β × CollaborationImportRequest →
      StoreWorld crates application → Prop}
    {first : Preparation crates α} {next : α → Preparation crates β}
    (invariant : StoreInvariant port setting world)
    (runs : Runs port setting caller Post (first.run request) world)
    (fails : ∀ log error left later, StoreLater setting world later →
      Post log (.error error, left) later →
        Final log (.error error, left) later)
    (succeeds : ∀ log value left later, StoreLater setting world later →
      StoreInvariant port setting later → Post log (.ok value, left) later →
        Runs port setting caller (fun rest => Final (log ++ rest))
          ((next value).run left) later) :
    Runs port setting caller Final ((first >>= next).run request) world := by
  refine Runs.bind invariant runs ?_
  rintro log ⟨result, left⟩ later after held post
  cases result with
  | ok value => exact succeeds log value left later after held post
  | error error =>
      show Final (log ++ []) (.error error, left) later
      rw [List.append_nil]
      exact fails log error left later after post

/-- An attempt made while a request is prepared leaves the request. -/
theorem Runs.preparing
    {Post : Log crates → StoreResult α → StoreWorld crates application → Prop}
    {Final : Log crates → Except StoreError β × CollaborationImportRequest →
      StoreWorld crates application → Prop}
    {first : Attempt crates StoreError α} {next : α → Preparation crates β}
    (invariant : StoreInvariant port setting world)
    (runs : Runs port setting caller Post first.run world)
    (fails : ∀ log error later, StoreLater setting world later →
      Post log (.error error) later →
        Final log (.error error, request) later)
    (succeeds : ∀ log value later, StoreLater setting world later →
      StoreInvariant port setting later → Post log (.ok value) later →
        Runs port setting caller (fun rest => Final (log ++ rest))
          ((next value).run request) later) :
    Runs port setting caller Final
      ((Store.preparing first >>= next).run request) world := by
  have whole : Runs port setting caller
      (fun log answer later => Post log answer.1 later ∧ answer.2 = request)
      ((Store.preparing first).run request) world := by
    refine Runs.bind invariant runs fun log result later _ _ post => ?_
    show Post (log ++ []) result later ∧ request = request
    rw [List.append_nil]
    exact ⟨post, rfl⟩
  refine Runs.prepare invariant whole ?_ ?_
  · rintro log error _ later after ⟨post, rfl⟩
    exact fails log error later after post
  · rintro log value _ later after held ⟨post, rfl⟩
    exact succeeds log value later after held post

/-- A result that takes no action, while a request is prepared. -/
theorem Runs.preparingSettled
    {Final : Log crates → Except StoreError β × CollaborationImportRequest →
      StoreWorld crates application → Prop}
    {result : StoreResult α} {next : α → Preparation crates β}
    (fails : ∀ error, result = .error error →
      Final [] (.error error, request) world)
    (succeeds : ∀ value, result = .ok value →
      Runs port setting caller Final ((next value).run request) world) :
    Runs port setting caller Final
      ((Store.preparing (Store.settled result) >>= next).run request)
      world := by
  cases result with
  | ok value => exact succeeds value rfl
  | error error => exact fails error rfl

/-- A program that cannot fail, while a request is prepared. -/
theorem Runs.preparingAlways
    {Post : Log crates → α → StoreWorld crates application → Prop}
    {Final : Log crates → Except StoreError β × CollaborationImportRequest →
      StoreWorld crates application → Prop}
    {program : StoreProgram crates α} {next : α → Preparation crates β}
    (invariant : StoreInvariant port setting world)
    (runs : Runs port setting caller Post program world)
    (succeeds : ∀ log value later, StoreLater setting world later →
      StoreInvariant port setting later → Post log value later →
        Runs port setting caller (fun rest => Final (log ++ rest))
          ((next value).run request) later) :
    Runs port setting caller Final
      ((Store.preparing (Store.always program) >>= next).run request)
      world := by
  have lifted : Runs port setting caller
      (fun log result later => ∃ value, result = .ok value
        ∧ Post log value later)
      (Store.always program : Attempt crates StoreError α).run world := by
    refine Runs.bind invariant runs fun log value later _ _ post => ?_
    refine ⟨value, rfl, ?_⟩
    rw [List.append_nil]
    exact post
  refine Runs.preparing invariant lifted ?_ ?_
  · rintro log error later _ ⟨_, ⟨⟩, -⟩
  · rintro log value later after held ⟨_, ⟨⟩, post⟩
    exact succeeds log value later after held post

end Preparations

/-! ## Prepared requests -/

/-- A request that another is prepared as, whatever is filled in. -/
def Fills (request prepared : CollaborationImportRequest) : Prop :=
  ∃ baseFrontierBase64 updateBase64 peerNonces,
    prepared =
      { request with
        baseFrontierBase64 := baseFrontierBase64
        updateBase64 := updateBase64
        peerNonces := peerNonces }

theorem Fills.refl (request : CollaborationImportRequest) :
    Fills request request :=
  ⟨_, _, _, rfl⟩

theorem Refusal.of_fills {request prepared : CollaborationImportRequest}
    {code : String} {record : CollaborationAuditRecord}
    (refusal : Refusal prepared code record)
    (fills : Fills request prepared) :
    Refusal request code record := by
  obtain ⟨_, _, _, rfl⟩ := fills
  exact refusal

theorem RefusedAs.of_fills {Failure : Type}
    {request prepared : CollaborationImportRequest}
    {ofStore : StoreError → Failure} {log : Log crates}
    {failure : ImportFailure Failure} {returned : Failure}
    (refused : RefusedAs ofStore prepared log failure returned)
    (fills : Fills request prepared) :
    RefusedAs ofStore request log failure returned := by
  cases refused with
  | internal internal empty => exact .internal internal empty
  | audited external audits refusal =>
      exact .audited external audits (refusal.of_fills fills)
  | unaudited external empty failed => exact .unaudited external empty failed

/-- An envelope that retains an actor's operation, and loads as a document. -/
structure Retains (crates : StoreCrates) (plan : CollaborationEntitySpec)
    (request : CollaborationImportRequest)
    (envelope : DurableCollaborationEnvelope) : Prop where
  belongs : envelope.document = request.document
  retained : ∃ operation,
    retainedOperation envelope request.operationId = some operation
      ∧ operation.actor = request.actor
      ∧ ∃ version,
          updateEndVersion crates.toCrates operation.updateBase64
            = .ok version
  loads : ∃ replica,
    loadAuthoringDocument crates plan request.document envelope = .ok replica

/-- A request was prepared from a retained operation, as it was read. -/
structure PreparedFrom (port : PortContract)
    (start later : StoreWorld crates application)
    (plan : CollaborationEntitySpec)
    (request prepared : CollaborationImportRequest)
    (base : CollaborationReplica crates.toCrates → String) : Prop where
  read : ∃ held operation replica nonces,
    Known later (port.source request.document) held
      ∧ CarriedSince port start later (port.source request.document)
          held.version
      ∧ retainedOperation held.envelope request.operationId = some operation
      ∧ loadAuthoringDocument crates plan request.document held.envelope
          = .ok replica
      ∧ prepared =
          { request with
            baseFrontierBase64 := base replica
            updateBase64 := operation.updateBase64
            peerNonces := nonces }

/-- What the preparation of a request was answered with. -/
structure PreparedAs (port : PortContract)
    (start later : StoreWorld crates application)
    (plan : CollaborationEntitySpec) (request : CollaborationImportRequest)
    (base : CollaborationReplica crates.toCrates → String)
    (Shape : CollaborationImportRequest → Prop) (log : Log crates)
    (prepared : Except StoreError Unit × CollaborationImportRequest) :
    Prop where
  quiet : Quiet log
  fills : Fills request prepared.2
  shape : Shape prepared.2
  retried : AlwaysSince start later (port.source request.document)
      (Retains crates plan request) →
    FailedIn log
      ∨ (prepared.1 = .ok ()
        ∧ PreparedFrom port start later plan request prepared.2 base)

theorem runs_allocatePeers {service : Service} {principal : Principal}
    {document : CollaborationDocumentId}
    (invariant : StoreInvariant port setting world) :
    Runs port setting caller (fun log _ _ => Quiet log)
      (allocatePeers service principal document : StoreProgram crates _)
      world := by
  unfold allocatePeers
  refine Runs.bind invariant runs_uuid ?_
  rintro log uuid later _ _ ⟨quiet, -⟩
  exact quiet.append quiet_nil

theorem retainedUpdate_eq {held : Held} {operationId : String}
    {operation : CollaborationOperation}
    (retained :
      retainedOperation held.envelope operationId = some operation) :
    retainedUpdate held operationId = some operation.updateBase64 := by
  rw [retainedUpdate, retained]
  rfl

/-- A document that always retained an operation is read, or the port fails. -/
theorem failed_of_retains {plan : CollaborationEntitySpec}
    {request : CollaborationImportRequest} {log : Log crates}
    {error : StoreError}
    (read : ReadAs port start world (port.source request.document)
      (some request.document) log (.error error))
    (always : AlwaysSince start world (port.source request.document)
      (Retains crates plan request)) :
    FailedIn log := by
  rcases read with ⟨-, failed⟩ | ⟨stored, seen, refused⟩
  · exact failed
  · obtain ⟨_, envelope, accepted, ⟨⟩, holds, retains⟩ :=
      always (some stored) seen
    rw [← retains.belongs, judge_of_holds holds] at refused
    cases refused

/-- A result that takes no action leaves the request under preparation. -/
theorem runs_preparingSettled {α : Type} {result : StoreResult α}
    {request : CollaborationImportRequest} :
    Runs port setting caller
      (fun log answer _ => Quiet log ∧ answer.2 = request)
      ((preparing (settled result) : Preparation crates α).run request)
      world :=
  ⟨quiet_nil, rfl⟩

/-- The update of a retained operation, or one that is written now. -/
theorem runs_retainedOr {request : CollaborationImportRequest}
    {held : Held} {operationId : String} {written : Preparation crates String}
    (writes : Runs port setting caller
      (fun log answer _ => Quiet log ∧ answer.2 = request)
      (written.run request) world) :
    Runs port setting caller
      (fun log answer _ => Quiet log ∧ answer.2 = request
        ∧ ∀ operation,
            retainedOperation held.envelope operationId = some operation →
              answer.1 = .ok operation.updateBase64)
      ((retainedOr held operationId written).run request) world := by
  unfold retainedOr
  cases retained : retainedUpdate held operationId with
  | some update =>
      refine ⟨quiet_nil, rfl, fun operation found => ?_⟩
      rw [retainedUpdate_eq found] at retained
      exact congrArg Except.ok (Option.some.inj retained.symm)
  | none =>
      refine writes.mono ?_
      rintro log answer _ _ ⟨quiet, same⟩
      refine ⟨quiet, same, fun operation found => ?_⟩
      rw [retainedUpdate_eq found] at retained
      cases retained

theorem runs_prepareEdit {service : Service} {plan : CollaborationEntitySpec}
    {change : CollaborationDocumentEdit}
    (invariant : StoreInvariant port setting world)
    (after : StoreLater setting start world) :
    Runs port setting caller
      (fun log prepared later =>
        PreparedAs port start later plan (editRequest plan change)
          (fun replica => replica.acceptedFrontierBase64)
          (EditedAs plan change) log prepared)
      ((prepareEdit port service plan change : Preparation crates Unit).run
        (editRequest plan change)) world := by
  unfold prepareEdit
  have unfilled : EditedAs plan change (editRequest plan change) :=
    ⟨_, _, _, rfl⟩
  refine Runs.preparing invariant
    (runs_readEnvelope service invariant after) ?_ ?_
  · rintro log error later next ⟨quiet, read⟩
    refine ⟨quiet, Fills.refl _, unfilled, fun always => .inl ?_⟩
    exact failed_of_retains read always
  rintro log read later next holds ⟨quiet, readAs⟩
  cases read with
  | none =>
      refine ⟨quiet.append quiet_nil, Fills.refl _, unfilled, fun always => ?_⟩
      obtain ⟨_, _, _, ⟨⟩, -⟩ := always none readAs
  | some held =>
      obtain ⟨known, carried⟩ := readAs
      refine Runs.preparingSettled ?_ ?_
      · intro error fails
        refine ⟨quiet.append quiet_nil, Fills.refl _, unfilled,
          fun always => ?_⟩
        obtain ⟨replica, loads⟩ := (always.held holds known carried).loads
        cases fails.symm.trans loads
      intro replica loads
      refine Runs.preparingAlways holds (runs_allocatePeers holds) ?_
      rintro allocated block last further holdsLast quietBlock
      refine Runs.prepare holdsLast
        (runs_retainedOr runs_preparingSettled) ?_ ?_
      · rintro rest error _ final onward ⟨quietRest, rfl, retained⟩
        refine ⟨quiet.append (quietBlock.append quietRest), ⟨_, _, _, rfl⟩,
          ⟨_, _, _, rfl⟩, fun always => ?_⟩
        obtain ⟨operation, found, -⟩ :=
          ((always.earlier onward).held holdsLast (known.later further)
            (carried.later further)).retained
        cases retained operation found
      · rintro rest update _ final onward _ ⟨quietRest, rfl, retained⟩
        refine ⟨quiet.append (quietBlock.append (quietRest.append
          quiet_nil)), ⟨_, _, _, rfl⟩, ⟨_, _, _, rfl⟩, fun always =>
            .inr ⟨rfl, ?_⟩⟩
        obtain ⟨operation, found, -⟩ :=
          ((always.earlier onward).held holdsLast (known.later further)
            (carried.later further)).retained
        obtain rfl := Except.ok.inj (retained operation found)
        exact ⟨held, operation, replica, _, (known.later further).later onward,
          (carried.later further).later onward, found, loads, rfl⟩

theorem runs_prepareTextEdit {service : Service}
    {plan : CollaborationEntitySpec} {change : CollaborationTextEdit}
    (invariant : StoreInvariant port setting world)
    (after : StoreLater setting start world)
    (under : ReadUnder port setting plan (port.source change.document)) :
    Runs port setting caller
      (fun log prepared later =>
        PreparedAs port start later plan (textEditRequest plan change)
          (fun _ => change.frontierBase64) (TextEditedAs plan change) log
          prepared)
      ((prepareTextEdit port service plan change :
          Preparation crates Unit).run (textEditRequest plan change))
      world := by
  unfold prepareTextEdit
  have unfilled : TextEditedAs plan change (textEditRequest plan change) :=
    ⟨_, _, rfl⟩
  refine Runs.preparing invariant
    (runs_readEnvelope service invariant after) ?_ ?_
  · rintro log error later next ⟨quiet, read⟩
    refine ⟨quiet, Fills.refl _, unfilled, fun always => .inl ?_⟩
    exact failed_of_retains read always
  rintro log read later next holds ⟨quiet, readAs⟩
  cases read with
  | none =>
      refine ⟨quiet.append quiet_nil, Fills.refl _, unfilled, fun always => ?_⟩
      obtain ⟨_, _, _, ⟨⟩, -⟩ := always none readAs
  | some held =>
      obtain ⟨known, carried⟩ := readAs
      refine Runs.preparingAlways holds (runs_allocatePeers holds) ?_
      rintro allocated block last further holdsLast quietBlock
      have writes : Runs port setting caller
          (fun log answer _ => Quiet log
            ∧ answer.2 = textEditRequest plan change)
          ((do
            let replica ← preparing (replica plan change.document held)
            preparing (settled (orStoreError change.document
              (replica.prepareTextReplacementAtFrontier change.fieldPath
                change.identities change.frontierBase64 change.read
                change.replacement block.base))) :
            Preparation crates String).run (textEditRequest plan change))
          last := by
        refine Runs.preparing holdsLast
          (runs_replica (known.later further) under) ?_ ?_
        · rintro rest error final _ ⟨quietRest, -, -⟩
          exact ⟨quietRest, rfl⟩
        · rintro rest replica final _ _ ⟨quietRest, -, -⟩
          exact ⟨quietRest.append quiet_nil, rfl⟩
      refine Runs.prepare holdsLast (runs_retainedOr writes) ?_ ?_
      · rintro rest error _ final onward ⟨quietRest, rfl, retained⟩
        refine ⟨quiet.append (quietBlock.append quietRest), Fills.refl _,
          unfilled, fun always => ?_⟩
        obtain ⟨operation, found, -⟩ :=
          ((always.earlier onward).held holdsLast (known.later further)
            (carried.later further)).retained
        cases retained operation found
      · rintro rest update _ final onward _ ⟨quietRest, rfl, retained⟩
        refine ⟨quiet.append (quietBlock.append (quietRest.append
          quiet_nil)), ⟨_, _, _, rfl⟩, ⟨_, _, rfl⟩, fun always =>
            .inr ⟨rfl, ?_⟩⟩
        have retains := (always.earlier onward).held holdsLast
          (known.later further) (carried.later further)
        obtain ⟨operation, found, -⟩ := retains.retained
        obtain ⟨replica, loads⟩ := retains.loads
        obtain rfl := Except.ok.inj (retained operation found)
        exact ⟨held, operation, replica, _, (known.later further).later onward,
          (carried.later further).later onward, found, loads, rfl⟩

/-! ## Edits -/

/-- Every base read of a source since a world is known to what it held after. -/
def KnowsSince (start later : StoreWorld crates application)
    (source : String) (plan : CollaborationEntitySpec)
    (document : CollaborationDocumentId)
    (base : CollaborationReplica crates.toCrates → String) : Prop :=
  ∀ older newer, start.kept source <:+ older → older <:+ newer →
    newer <:+ later.kept source →
      ∀ first last envelope next firstAccepted lastAccepted read held,
        older.head?.bind Change.content = some first →
        newer.head?.bind Change.content = some last →
        Holds crates first.bytes envelope firstAccepted →
        Holds crates last.bytes next lastAccepted →
        loadAuthoringDocument crates plan document envelope = .ok read →
        loadAuthoringDocument crates plan document next = .ok held →
          ∃ version,
            CollaborationReplica.frontierVersion held.doc (base read)
              = .ok version

/-- An update whose end is known is one that decodes. -/
theorem importedUpdate_of_ends {request : CollaborationImportRequest}
    {version : VersionVector}
    (ends : updateEndVersion crates.toCrates request.updateBase64
      = .ok version) :
    ∃ update, importedUpdate crates request = .ok update := by
  obtain ⟨update, decoded, -⟩ := except_bind_ok ends
  refine ⟨update, ?_⟩
  unfold importedUpdate
  cases decodes : crates.base64.decode request.updateBase64 with
  | error message =>
      simp [decodeBase64, orReplicaError, decodes, Except.mapError] at decoded
  | ok bytes =>
      simp [decodeBase64, orReplicaError, decodes, Except.mapError] at decoded
      rw [decoded]
      rfl

/-- A request retried since its preparation is answerable. -/
theorem answerable_of_prepared {plan : CollaborationEntitySpec}
    {request prepared : CollaborationImportRequest}
    {base : CollaborationReplica crates.toCrates → String}
    {middle later : StoreWorld crates application} {update : Bytes}
    (invariant : StoreInvariant port setting middle)
    (since : StoreLater setting start middle)
    (from_read :
      PreparedFrom port start middle plan request prepared base)
    (always : AlwaysSince start later (port.source request.document)
      (Retains crates plan request))
    (knows : KnowsSince start later (port.source request.document) plan
      request.document base) :
    AlwaysSince middle later (port.source prepared.document)
      (Answerable crates plan prepared .byPrincipal update) := by
  obtain ⟨held, operation, read, nonces, known, carried, -, loads, rfl⟩ :=
    from_read.read
  obtain ⟨first, ⟨older, starts, within, first_kept⟩, bytes⟩ := carried
  intro content seen
  obtain ⟨newer, after, reaches, last_kept⟩ := seen
  obtain ⟨stored, envelope, accepted, rfl, holds, retains⟩ :=
    always content ⟨newer,
      (since.kept (port.source request.document)).suffix.trans after, reaches,
      last_kept⟩
  obtain ⟨retained, found, actor, -⟩ := retains.retained
  obtain ⟨replica, loaded⟩ := retains.loads
  have heldHolds := known.holds invariant
  rw [← bytes] at heldHolds
  exact ⟨stored, envelope, accepted, rfl, holds,
    { belongs := retains.belongs
      retained := ⟨retained, found, beq_iff_eq.mpr actor⟩
      loads := ⟨replica, loaded,
        knows older newer starts (within.trans after) reaches first stored
          held.envelope envelope held.accepted.peers accepted read replica
          first_kept last_kept heldHolds holds loads loaded⟩ }⟩

/-- What an edit, or a text edit, was answered with. -/
structure EditAnsweredAs (port : PortContract)
    (start later : StoreWorld crates application)
    (ofStore : StoreError → application.Failure)
    (plan : CollaborationEntitySpec) (request : CollaborationImportRequest)
    (base : CollaborationReplica crates.toCrates → String)
    (log : Log crates)
    (result : Except application.Failure CollaborationImportResult) :
    Prop where
  imported : ImportedAs ofStore request log result
  retried : requireWellFormed plan request = .ok () →
    Function.Injective crates.sha256Hex →
    AlwaysSince start later (port.source request.document)
      (Retains crates plan request) →
    KnowsSince start later (port.source request.document) plan
      request.document base →
    FailedIn log ∨ Repeated log result

theorem runs_importPrepared {service : Service}
    {plan : CollaborationEntitySpec} {request : CollaborationImportRequest}
    {base : CollaborationReplica crates.toCrates → String}
    {Shape : CollaborationImportRequest → Prop}
    {prepare : Preparation crates Unit}
    {validate : Json → Except application.Failure Unit}
    {ofStore : StoreError → application.Failure}
    (invariant : StoreInvariant port setting world)
    (after : StoreLater setting start world)
    (admitted : setting.Admitted caller) (serves : caller.service = service)
    (under : ReadUnder port setting plan (port.source request.document))
    (incremental : request.exchangeMode = .incremental)
    (prepares : Runs port setting caller
      (fun log prepared later =>
        PreparedAs port start later plan request base Shape log prepared)
      (prepare.run request) world)
    (asks : ∀ prepared, Shape prepared → ∀ current commit,
      ImportAsks crates service plan prepared validate current commit →
        Asks crates caller current commit) :
    Runs port setting caller
      (fun log result later =>
        EditAnsweredAs port start later ofStore plan request base log result)
      (importPrepared port service ofStore plan request prepare
        validate).run world := by
  unfold importPrepared
  refine Runs.bind invariant prepares ?_
  rintro log ⟨outcome, prepared⟩ middle since holds preparedAs
  have quiet := preparedAs.quiet
  have fills : Fills request prepared := preparedAs.fills
  cases outcome with
  | error error =>
      refine Runs.bind holds (runs_refuse holds) ?_
      rintro rest returned later further _ ⟨unstored, refused⟩
      refine ⟨⟨by rintro _ ⟨⟩, ?_⟩, ?_⟩
      · rintro _ ⟨⟩
        refine ⟨quiet.told.unstored.append (unstored.append
          quiet_nil.told.unstored), .store error, ?_⟩
        rw [List.append_nil]
        exact (refused.of_fills fills).prepend quiet.told.unaudited
      · intro _ _ always _
        rcases preparedAs.retried (always.earlier further) with
          failed | ⟨succeeded, -⟩
        · exact .inl (failed.left _)
        · cases succeeded
  | ok done =>
      have same : prepared.document = request.document := by
        obtain ⟨_, _, _, rfl⟩ := fills
        rfl
      refine (runs_importRecognising holds (StoreLater.refl middle) admitted
        serves (same ▸ under) (asks prepared preparedAs.shape)).mono ?_
      rintro rest result later further ⟨imported, retriedAs, -⟩
      refine ⟨⟨?_, ?_⟩, ?_⟩
      · intro answer accepted
        rw [auditsIn_append, quiet.told.unaudited.auditsIn,
          imported.accepted answer accepted]
        rfl
      · intro returned failed
        obtain ⟨unstored, failure, refused⟩ := imported.refused returned failed
        exact ⟨quiet.told.unstored.append unstored, failure,
          (refused.of_fills fills).prepend quiet.told.unaudited⟩
      · intro wellFormed collisionFree always knows
        rcases preparedAs.retried (always.earlier further) with
          failed | ⟨-, from_read⟩
        · exact .inl (failed.left rest)
        obtain ⟨held, operation, read, nonces, known, carried, found, loads,
          filled⟩ := from_read.read
        have retains := (always.earlier further).held holds known carried
        obtain ⟨retained, also, -, version, ends⟩ := retains.retained
        cases found.symm.trans also
        have carries : prepared.updateBase64 = operation.updateBase64 :=
          congrArg CollaborationImportRequest.updateBase64 filled
        rw [← carries] at ends
        obtain ⟨update, decodes⟩ := importedUpdate_of_ends ends
        obtain rfl : prepared = _ := filled
        have answerable : AlwaysSince middle later _
            (Answerable crates plan _ .byPrincipal update) :=
          answerable_of_prepared holds (after.trans since) from_read always
            knows
        rcases retriedAs.answered update wellFormed decodes collisionFree
          incremental ⟨version, ends⟩ answerable with
          failed | ⟨quietRest, answered⟩
        · exact .inl (failed.right log)
        · exact .inr ⟨quiet.append quietRest, answered⟩

theorem readUnder_of_reads {plan : CollaborationEntitySpec}
    {document : CollaborationDocumentId}
    (admitted : setting.Admitted caller)
    (reads : caller.Reads plan document) :
    ReadUnder port setting plan (port.source document) :=
  ⟨caller, document, admitted, reads, rfl⟩

theorem runs_importUpdate {plan : CollaborationEntitySpec}
    {request : CollaborationImportRequest}
    {validate : Json → Except application.Failure Unit}
    (invariant : StoreInvariant port setting world)
    (admitted : setting.Admitted caller)
    (call : caller.call = .importUpdate plan request validate) :
    Runs port setting caller
      (fun log result later =>
        ImportedAs application.ofStore request log result
          ∧ RetriedAs port world later plan request .byUpdate log result
          ∧ ∀ answer, result = .ok answer →
              ∃ update, importedUpdate crates request = .ok update
                ∧ ExchangedAs port world later request .byUpdate update
                    answer)
      (importUpdate port caller.service application.ofStore plan request
        validate).run world := by
  refine runs_importRecognising invariant (StoreLater.refl world) admitted rfl
    (readUnder_of_reads admitted (.inl ?_)) ?_
  · rw [call]
    exact ⟨rfl, rfl⟩
  · intro current commit asks
    rw [Asks, call]
    exact asks

theorem runs_edit {plan : CollaborationEntitySpec}
    {change : CollaborationDocumentEdit}
    {validate : Json → Except application.Failure Unit}
    (invariant : StoreInvariant port setting world)
    (admitted : setting.Admitted caller)
    (call : caller.call = .edit plan change validate) :
    Runs port setting caller
      (fun log result later =>
        EditAnsweredAs port world later application.ofStore plan
          (editRequest plan change)
          (fun replica => replica.acceptedFrontierBase64) log result)
      (edit port caller.service application.ofStore plan change
        validate).run world := by
  refine runs_importPrepared invariant (StoreLater.refl world) admitted rfl
    (readUnder_of_reads admitted (.inl ?_)) rfl
    (runs_prepareEdit invariant (StoreLater.refl world)) ?_
  · rw [call]
    exact ⟨rfl, rfl⟩
  · intro prepared shape current commit asks
    rw [Asks, call]
    exact ⟨prepared, shape, asks⟩

theorem runs_editText {plan : CollaborationEntitySpec}
    {change : CollaborationTextEdit}
    {validate : Json → Except application.Failure Unit}
    (invariant : StoreInvariant port setting world)
    (admitted : setting.Admitted caller)
    (call : caller.call = .editText plan change validate) :
    Runs port setting caller
      (fun log result later =>
        EditAnsweredAs port world later application.ofStore plan
          (textEditRequest plan change) (fun _ => change.frontierBase64) log
          result)
      (editText port caller.service application.ofStore plan change
        validate).run world := by
  have under : ReadUnder port setting plan (port.source change.document) := by
    refine readUnder_of_reads admitted (.inl ?_)
    rw [call]
    exact ⟨rfl, rfl⟩
  refine runs_importPrepared invariant (StoreLater.refl world) admitted rfl
    under rfl (runs_prepareTextEdit invariant (StoreLater.refl world) under)
    ?_
  intro prepared shape current commit asks
  rw [Asks, call]
  exact ⟨prepared, shape, asks⟩

end Editing

end Clerkenwell.Store
