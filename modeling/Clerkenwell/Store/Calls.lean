import Clerkenwell.Store.Exchange
import Clerkenwell.Store.Recovery

/-!
# Calls of a service

Everything a caller may ask of a service, as one type of call, the program
each call runs and what it replies.  Any number of callers of any number of
services over one storage port form a pool.
-/

namespace Clerkenwell.Store

open Clerkenwell.Foundation
open Clerkenwell.Doc

/-- An application's own failures, which hold the store's. -/
structure Application where
  Failure : Type
  ofStore : StoreError → Failure

/-- One call of a service with its arguments. -/
inductive Call (application : Application) where
  | summary (document : CollaborationDocumentId)
  | summaries (entity : String)
  | readDocument (plan : CollaborationEntitySpec)
      (document : CollaborationDocumentId)
  | authoringState (plan : CollaborationEntitySpec)
      (document : CollaborationDocumentId)
      (held : Option CollaborationHeld)
  | importUpdate (plan : CollaborationEntitySpec)
      (request : CollaborationImportRequest)
      (validate : Json → Except application.Failure Unit)
  | edit (plan : CollaborationEntitySpec) (edit : CollaborationDocumentEdit)
      (validate : Json → Except application.Failure Unit)
  | editText (plan : CollaborationEntitySpec) (edit : CollaborationTextEdit)
      (validate : Json → Except application.Failure Unit)
  | bootstrap (plan : CollaborationEntitySpec)
      (document : CollaborationDocumentId) (seed : Json)
      (validate : Json → Except application.Failure Unit) (turns : Nat)
  | bootstrapUpdate (plan : CollaborationEntitySpec)
      (document : CollaborationDocumentId) (schemaVersion : Nat)
      (updateBase64 : String) (incarnation : Option String)
      (validate : Json → Except application.Failure Unit) (turns : Nat)
  | migrate (plan : CollaborationEntitySpec)
      (document : CollaborationDocumentId) (fromSchemaVersion : Nat)
      (migratedUpdateBase64 : String)
      (validate : Json → Except application.Failure Unit) (turns : Nat)
  | repair (actor : Principal) (document : CollaborationDocumentId)
      (reason : String)
  | delete (actor : Principal) (document : CollaborationDocumentId)
      (turns : Nat)

/-- A caller of a service. -/
structure Caller (application : Application) where
  service : Service
  call : Call application

/-- What a call replies. -/
inductive Reply (application : Application) where
  | summary
      (result : StoreResult (Option CollaborationDocumentSummary))
  | summaries
      (result : StoreResult (List CollaborationDocumentSummary))
  | read (result : StoreResult (Option CollaborationDocumentRead))
  | authoring (result : StoreResult CollaborationAuthoringState)
  | imported (result : Except application.Failure CollaborationImportResult)
  | created
      (result : Except application.Failure CollaborationDocumentSummary)
  | repaired (result : StoreResult String)
  | deleted (result : StoreResult (Option CollaborationVersion))

section Calls

variable {crates : StoreCrates} (port : PortContract)
variable {application : Application}

/-- The program a caller runs. -/
def program (crates : StoreCrates) (caller : Caller application) :
    StoreProgram crates (Reply application) :=
  let service := caller.service
  match caller.call with
  | .summary document => do
      let result ← (@summary crates port service document).run
      pure (.summary result)
  | .summaries entity => do
      let result ← (@summaries crates service entity).run
      pure (.summaries result)
  | .readDocument plan document => do
      let result ←
        (@readDocument crates port service plan document).run
      pure (.read result)
  | .authoringState plan document held => do
      let result ←
        (@authoringState crates port service plan document held).run
      pure (.authoring result)
  | .importUpdate plan request validate => do
      let result ←
        (@importUpdate crates port application.Failure service application.ofStore
          plan request validate).run
      pure (.imported result)
  | .edit plan change validate => do
      let result ←
        (@edit crates port application.Failure service application.ofStore plan
          change validate).run
      pure (.imported result)
  | .editText plan change validate => do
      let result ←
        (@editText crates port application.Failure service application.ofStore plan
          change validate).run
      pure (.imported result)
  | .bootstrap plan document seed validate turns => do
      let result ←
        (@bootstrap crates port application.Failure service application.ofStore plan
          document seed validate turns).run
      pure (.created result)
  | .bootstrapUpdate plan document schemaVersion updateBase64 incarnation
      validate turns => do
      let result ←
        (@bootstrapUpdate crates port application.Failure service
          application.ofStore plan document schemaVersion updateBase64
          incarnation validate turns).run
      pure (.created result)
  | .migrate plan document fromSchemaVersion migratedUpdateBase64 validate
      turns => do
      let result ←
        (@migrate crates port application.Failure service application.ofStore plan
          document fromSchemaVersion migratedUpdateBase64 validate turns).run
      pure (.created result)
  | .repair actor document reason => do
      let result ←
        (@repair crates port service actor document reason).run
      pure (.repaired result)
  | .delete actor document turns => do
      let result ←
        (@delete crates port service actor document turns).run
      pure (.deleted result)

/-- The world the callers of an application share. -/
abbrev StoreWorld (crates : StoreCrates) (application : Application) :=
  World crates (Caller application)

/-- A pool of callers. -/
abbrev StorePool (crates : StoreCrates) (application : Application) :=
  Pool (@StoreAction.Response crates) (Caller application)
    (StoreWorld crates application) (Reply application)

/--
What may happen in a pool: who may call, which actions callers take, and which
writes bypass the services.
-/
structure Setting (crates : StoreCrates) (application : Application) where
  Admitted : Caller application → Prop
  Permits : Caller application → StoreWorld crates application →
    StoreAction crates → Prop
  Bypass : String → Option StoredEnvelope → Prop

/-- Callers of services over a port, whose calls its contract answers. -/
def storeSemantics (setting : Setting crates application) :
    Semantics (@StoreAction.Response crates)
      (Caller application) (StoreWorld crates application) where
  Answers := fun caller world action response after =>
    setting.Permits caller world action
      ∧ Answers port caller world action response after
  Environment := OutOfBand port setting.Bypass
  Admitted := setting.Admitted

/-- The pools that a setting leads to. -/
abbrev StoreReaches (setting : Setting crates application) :
    StorePool crates application → StorePool crates application → Prop :=
  Pool.Reaches (storeSemantics port setting) (program port crates)

/-! ## What callers bring -/

/-- Whether a call lists documents without knowing which it reads. -/
def Call.lists : Call application → Bool
  | .summaries _ => true
  | _ => false

/-- The plan and the document a call reads a replica under and of. -/
def Call.Reads (call : Call application) (plan : CollaborationEntitySpec)
    (document : CollaborationDocumentId) : Prop :=
  match call with
  | .readDocument read named => plan = read ∧ document = named
  | .authoringState read named _ => plan = read ∧ document = named
  | .importUpdate read request _ => plan = read ∧ document = request.document
  | .edit read change _ => plan = read ∧ document = change.document
  | .editText read change _ => plan = read ∧ document = change.document
  | _ => False

/-- The plans a caller may read a document under. -/
def Caller.Reads (caller : Caller application)
    (plan : CollaborationEntitySpec) (document : CollaborationDocumentId) :
    Prop :=
  caller.call.Reads plan document
    ∨ (plan ∈ caller.service.plans ∧ plan.name = document.entity)

end Calls

end Clerkenwell.Store
