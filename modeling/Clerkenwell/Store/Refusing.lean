import Clerkenwell.Store.Importing

/-!
# Refusals and their audit, step by step

A failed import has stored nothing, and is audited once under the code of its
failure unless the store failed internally.  An accepted one is not audited.
-/

namespace Clerkenwell.Store

open Clerkenwell.Foundation
open Clerkenwell.Doc

section Refusing

variable {crates : StoreCrates} {port : PortContract}
variable {application : Application} {setting : Setting crates application}
variable {caller : Caller application}
variable {start world : StoreWorld crates application}
variable {Failure : Type}

/-! ## What a log audited -/

/-- The record an action appended to the audit. -/
def auditOf : Program.Answered (@StoreAction.Response crates) →
    Option CollaborationAuditRecord
  | ⟨.appendAudit record, .ok ()⟩ => some record
  | _ => none

/-- The records a log appended to the audit. -/
def auditsIn (log : Log crates) : List CollaborationAuditRecord :=
  log.filterMap auditOf

@[simp]
theorem auditsIn_append (log rest : Log crates) :
    auditsIn (log ++ rest) = auditsIn log ++ auditsIn rest := by
  simp [auditsIn]

theorem Unaudited.auditsIn {log : Log crates} (unaudited : Unaudited log) :
    auditsIn log = [] := by
  rw [Store.auditsIn, List.filterMap_eq_nil_iff]
  rintro ⟨action, response⟩ member
  have other := unaudited _ member
  cases action <;> simp_all [StoreAction.isAudit, auditOf]

/-- How a record could not be appended to the audit. -/
inductive AuditFailed (log : Log crates) : StoreError → Prop
  | early (answered : ⟨.now, none⟩ ∈ log) :
      AuditFailed log
        (StoreError.internal "second time provided was later than self")
  | unkept {record : CollaborationAuditRecord} {error : StoreError}
      (answered : ⟨.appendAudit record, .error error⟩ ∈ log) :
      AuditFailed log error

theorem AuditFailed.right {rest : Log crates} {error : StoreError}
    (failed : AuditFailed rest error) (log : Log crates) :
    AuditFailed (log ++ rest) error := by
  cases failed with
  | early answered => exact .early (List.mem_append_right log answered)
  | unkept answered => exact .unkept (List.mem_append_right log answered)

/-- What an audited request was answered with. -/
structure AuditedAs (actor : Principal) (document : CollaborationDocumentId)
    (event : CollaborationAuditEvent) (log : Log crates)
    (result : StoreResult Unit) : Prop where
  unstored : Unstored log
  kept : result = .ok () → ∃ timestamp,
    auditsIn log =
      [{ timestampUnixMs := timestamp
         actor := actor
         entity := document.entity
         resourceId := document.resourceId
         event := event }]
  failed : ∀ error, result = .error error →
    auditsIn log = [] ∧ AuditFailed log error

theorem runs_now :
    Runs port setting caller
      (fun log milliseconds _ => log = [⟨.now, milliseconds⟩])
      (act .now) world :=
  Runs.act_of_same .now fun _ _ _ _ _ _ answered => by
    obtain rfl := answered
    exact ⟨⟨rfl, rfl, rfl⟩, fun _ _ => rfl⟩

theorem runs_appendAudit {record : CollaborationAuditRecord} :
    Runs port setting caller
      (fun log result _ => log = [⟨.appendAudit record, result⟩])
      (act (.appendAudit record)) world :=
  Runs.act_of_same (.appendAudit record) fun _ _ _ _ _ _ answered => by
    rcases answered with ⟨rfl, -⟩ | ⟨rfl, rfl⟩
    · exact ⟨⟨rfl, rfl, rfl⟩, fun _ _ => rfl⟩
    · exact ⟨⟨rfl, rfl, rfl⟩, fun _ _ => rfl⟩

theorem runs_auditRequest {actor : Principal}
    {document : CollaborationDocumentId} {event : CollaborationAuditEvent}
    (invariant : StoreInvariant port setting world) :
    Runs port setting caller
      (fun log result _ => AuditedAs actor document event log result)
      (auditRequest actor document event).run world := by
  unfold auditRequest
  have clock : Runs port setting caller
      (fun log result _ => ∃ milliseconds, log = [⟨.now, milliseconds⟩]
        ∧ ∀ error, result = .error error → milliseconds = none
          ∧ error = StoreError.internal
              "second time provided was later than self")
      (unixMs : Attempt crates StoreError Nat).run world := by
    unfold unixMs
    refine Runs.perform invariant runs_now ?_
    rintro log milliseconds later _ _ rfl
    cases milliseconds with
    | none => exact ⟨none, rfl, by rintro _ ⟨⟩; exact ⟨rfl, rfl⟩⟩
    | some time => exact ⟨some time, rfl, by rintro _ ⟨⟩⟩
  refine Runs.attempt invariant clock ?_ ?_
  · rintro log error later _ ⟨milliseconds, rfl, fails⟩
    obtain ⟨rfl, rfl⟩ := fails error rfl
    refine ⟨by simp [Unstored, isStored], by rintro ⟨⟩, ?_⟩
    rintro _ ⟨⟩
    exact ⟨rfl, .early List.mem_cons_self⟩
  rintro log timestamp later _ _ ⟨milliseconds, rfl, -⟩
  refine runs_appendAudit.mono ?_
  rintro rest result last _ rfl
  refine ⟨by simp [Unstored, isStored], ?_, ?_⟩
  · rintro rfl
    exact ⟨timestamp, rfl⟩
  · rintro error rfl
    exact ⟨rfl, .unkept (List.mem_cons_of_mem _ List.mem_cons_self)⟩

/-! ## Refusals -/

/-- The code a failure is audited under. -/
def ImportFailure.code : ImportFailure Failure → String
  | .store error => refusalCode error
  | .invalid _ => "collaboration_document_invalid"

/-- What an application is told of a failure. -/
def ImportFailure.returned (ofStore : StoreError → Failure) :
    ImportFailure Failure → Failure
  | .store error => ofStore error
  | .invalid error => error

/-- Whether the store itself failed. -/
def ImportFailure.isInternal : ImportFailure Failure → Prop
  | .store error => error.kind = .internal
  | .invalid _ => False

/-- A record of a request's refusal under a code. -/
def Refusal (request : CollaborationImportRequest) (code : String)
    (record : CollaborationAuditRecord) : Prop :=
  record.actor = request.actor
    ∧ record.entity = request.document.entity
    ∧ record.resourceId = request.document.resourceId
    ∧ ∃ baseFrontier conflictPaths digest,
        record.event =
          .refusal request.operationId code baseFrontier conflictPaths digest

/-- What a failed request leaves in the audit, and what is returned of it. -/
inductive RefusedAs (ofStore : StoreError → Failure)
    (request : CollaborationImportRequest) (log : Log crates)
    (failure : ImportFailure Failure) : Failure → Prop
  | internal (internal : failure.isInternal)
      (unaudited : auditsIn log = []) :
      RefusedAs ofStore request log failure (failure.returned ofStore)
  | audited {record : CollaborationAuditRecord}
      (external : ¬ failure.isInternal)
      (audits : auditsIn log = [record])
      (refusal : Refusal request failure.code record) :
      RefusedAs ofStore request log failure (failure.returned ofStore)
  | unaudited {error : StoreError}
      (external : ¬ failure.isInternal)
      (unaudited : auditsIn log = []) (failed : AuditFailed log error) :
      RefusedAs ofStore request log failure (ofStore error)

theorem RefusedAs.prepend {ofStore : StoreError → Failure}
    {request : CollaborationImportRequest} {log rest : Log crates}
    {failure : ImportFailure Failure} {returned : Failure}
    (refused : RefusedAs ofStore request rest failure returned)
    (unaudited : Unaudited log) :
    RefusedAs ofStore request (log ++ rest) failure returned := by
  have nothing := unaudited.auditsIn
  cases refused with
  | internal internal empty =>
      exact .internal internal (by simp [nothing, empty])
  | audited external audits refusal =>
      exact .audited external (by simp [nothing, audits]) refusal
  | unaudited external empty failed =>
      exact .unaudited external (by simp [nothing, empty])
        (failed.right log)

theorem runs_audited {ofStore : StoreError → Failure}
    {request : CollaborationImportRequest} {conflictPaths : List String}
    (failure : ImportFailure Failure)
    (invariant : StoreInvariant port setting world)
    (external : ¬ failure.isInternal) :
    Runs port setting caller
      (fun log returned _ => Unstored log
        ∧ RefusedAs ofStore request log failure returned)
      (audited ofStore (auditRefusal request failure.code conflictPaths)
        (failure.returned ofStore)) world := by
  unfold audited
  refine Runs.bind invariant (runs_auditRequest invariant) ?_
  rintro log result later _ _ ⟨unstored, kept, failed⟩
  cases result with
  | ok done =>
      obtain ⟨timestamp, audits⟩ := kept rfl
      refine ⟨unstored.append quiet_nil.told.unstored, ?_⟩
      rw [List.append_nil]
      exact .audited external audits ⟨rfl, rfl, rfl, _, _, _, rfl⟩
  | error error =>
      obtain ⟨unaudited, why⟩ := failed error rfl
      refine ⟨unstored.append quiet_nil.told.unstored, ?_⟩
      rw [List.append_nil]
      exact .unaudited external unaudited why

theorem runs_refuse {ofStore : StoreError → Failure}
    {request : CollaborationImportRequest}
    {failure : ImportFailure Failure}
    (invariant : StoreInvariant port setting world) :
    Runs port setting caller
      (fun log returned _ => Unstored log
        ∧ RefusedAs ofStore request log failure returned)
      (refuse ofStore request failure) world := by
  cases failure with
  | invalid error =>
      exact runs_audited (.invalid error) invariant id
  | store error =>
      simp only [refuse]
      by_cases internal : error.kind = .internal
      · rw [if_pos internal]
        exact ⟨quiet_nil.told.unstored, .internal internal rfl⟩
      · rw [if_neg internal]
        exact runs_audited (.store error) invariant internal

/-! ## Imports -/

/-- What an import leaves in the storage and the audit. -/
structure ImportedAs (ofStore : StoreError → Failure)
    (request : CollaborationImportRequest) (log : Log crates)
    (result : Except Failure CollaborationImportResult) : Prop where
  accepted : ∀ answer, result = .ok answer → auditsIn log = []
  refused : ∀ returned, result = .error returned →
    Unstored log ∧ ∃ failure, RefusedAs ofStore request log failure returned

/-- A request that changed nothing and was answered as a duplicate. -/
def Repeated (log : Log crates)
    (result : Except Failure CollaborationImportResult) : Prop :=
  Quiet log ∧ ∃ answer, result = .ok answer ∧ answer.duplicate = true

/-- How an import is answered when its document retains its operation. -/
structure RetriedAs (port : PortContract)
    (start later : StoreWorld crates application)
    (plan : CollaborationEntitySpec) (request : CollaborationImportRequest)
    (retried : Retried) (log : Log crates)
    (result : Except Failure CollaborationImportResult) : Prop where
  answered : ∀ update, requireWellFormed plan request = .ok () →
    importedUpdate crates request = .ok update →
    Function.Injective crates.sha256Hex →
    request.exchangeMode = .incremental →
    (∃ version,
      updateEndVersion crates.toCrates request.updateBase64 = .ok version) →
    AlwaysSince start later (port.source request.document)
      (Answerable crates plan request retried update) →
    FailedIn log ∨ Repeated log result
  created : request.exchangeMode = .bootstrap →
    (∀ content,
      SeenSince start later (port.source request.document) content →
        content ≠ none) →
    ∃ returned, result = .error returned

theorem runs_importRecognising {service : Service}
    {plan : CollaborationEntitySpec} {request : CollaborationImportRequest}
    {retried : Retried} {validate : Json → Except application.Failure Unit}
    {ofStore : StoreError → application.Failure}
    (invariant : StoreInvariant port setting world)
    (after : StoreLater setting start world)
    (admitted : setting.Admitted caller) (serves : caller.service = service)
    (under : ReadUnder port setting plan (port.source request.document))
    (asks : ∀ current commit,
      ImportAsks crates service plan request validate current commit →
        Asks crates caller current commit) :
    Runs port setting caller
      (fun log result later => ImportedAs ofStore request log result
        ∧ RetriedAs port start later plan request retried log result
        ∧ ∀ answer, result = .ok answer →
            ∃ update, importedUpdate crates request = .ok update
              ∧ ExchangedAs port start later request retried update answer)
      (importRecognising port service ofStore plan request retried
        validate).run world := by
  unfold importRecognising
  refine Runs.bind invariant
    (runs_importInternal invariant after admitted serves under asks) ?_
  rintro log result later next holds ⟨attempted, decoded⟩
  cases result with
  | ok answer =>
      have unaudited := (attempted []).unaudited.append
        quiet_nil.told.unaudited
      refine ⟨⟨fun _ _ => unaudited.auditsIn, by rintro _ ⟨⟩⟩, ⟨?_, ?_⟩, ?_⟩
      · intro update wellFormed imported collisionFree incremental ends always
        rcases (attempted update).answered ⟨wellFormed, imported⟩
          collisionFree incremental ends always with
          failed | ⟨quiet, repeated, same, duplicate⟩
        · exact .inl (failed.left [])
        · cases same
          exact .inr ⟨quiet.append quiet_nil, answer, rfl, duplicate⟩
      · intro bootstrap there
        obtain ⟨error, failed⟩ := (attempted []).created bootstrap there
        cases failed
      · rintro _ ⟨⟩
        obtain ⟨update, imported⟩ := decoded answer rfl
        exact ⟨update, imported,
          (attempted update).exchanged answer rfl imported⟩
  | error failure =>
      refine Runs.bind holds (runs_refuse holds) ?_
      rintro rest returned last further _ ⟨unstored, refused⟩
      have unaudited := (attempted []).unaudited
      have unstoredFirst := (attempted []).unstored (by rintro _ ⟨⟩)
      refine ⟨⟨by rintro _ ⟨⟩, ?_⟩, ⟨?_, fun _ _ => ⟨returned, rfl⟩⟩,
        by rintro _ ⟨⟩⟩
      · rintro _ ⟨⟩
        refine ⟨unstoredFirst.append (unstored.append
          quiet_nil.told.unstored), failure, ?_⟩
        rw [List.append_nil]
        exact refused.prepend unaudited
      · intro update wellFormed imported collisionFree incremental ends always
        rcases (attempted update).answered ⟨wellFormed, imported⟩
          collisionFree incremental ends (always.earlier further) with
          failed | ⟨-, _, same, -⟩
        · exact .inl (failed.left _)
        · cases same

end Refusing

end Clerkenwell.Store
