import Clerkenwell.Client.AuthoringSession

/-!
# The persisted authoring runtime

The stored shape of the runtime, and the conversion into it, as
`authoring-persistence.ts` writes them.  A record is the list of its entries.
-/

namespace Clerkenwell.Client

structure AuthoringRuntimeState where
  sessions : List (String × AuthoringSession)

structure PersistedAuthoringResourceIdentity where
  entity : String
  resource_key : String

structure PersistedQueuedAuthoringOperation where
  operation_id : String
  resource : PersistedAuthoringResourceIdentity
  schema_version : Nat
  exchange_mode : AuthoringExchangeMode
  base_revision : String
  update_base64 : Option String
  document : Option Document
  retry_count : Nat
  state : QueuedOperationState
  rejection_category : Option String

structure PersistedAuthoringDraftOperations where
  base_frontier_base64 : String
  update_base64 : String
  peer_nonces : List String

structure PersistedAuthoringSessionState where
  resource : PersistedAuthoringResourceIdentity
  policy : AuthoringPolicy
  status : AuthoringSessionStatus
  schema_version : Nat
  accepted_revision : String
  supported_exchange_modes : List AuthoringExchangeMode
  baseline : Document
  draft : Document
  validation : JsValue
  queued_operations : List PersistedQueuedAuthoringOperation
  draft_operations : Option PersistedAuthoringDraftOperations
  last_rejection : Option AuthoringRejection

structure PersistedAuthoringRuntimeState where
  sessions : List (String × PersistedAuthoringSessionState)

def toPersistedResource
    (resource : AuthoringResourceIdentity) :
    PersistedAuthoringResourceIdentity where
  entity := resource.entity
  resource_key := resource.resourceKey

def toPersistedOperation
    (operation : QueuedAuthoringOperation) :
    PersistedQueuedAuthoringOperation where
  operation_id := operation.operationId
  resource := toPersistedResource operation.resource
  schema_version := operation.schemaVersion
  exchange_mode := operation.exchangeMode
  base_revision := operation.baseRevision
  update_base64 := operation.updateBase64
  document := operation.document
  retry_count := operation.retryCount
  state := operation.state
  rejection_category := operation.rejectionCategory

def toPersistedSession
    (session : AuthoringSession) :
    PersistedAuthoringSessionState where
  resource := toPersistedResource session.resource
  policy := session.policy
  status := session.status
  schema_version := session.schemaVersion
  accepted_revision := session.acceptedRevision
  supported_exchange_modes := session.supportedExchangeModes
  baseline := session.baseline
  draft := session.draft
  validation := session.validation
  queued_operations := session.queuedOperations.map toPersistedOperation
  draft_operations := session.draftOperations.map fun operations =>
    { base_frontier_base64 := operations.baseFrontierBase64
      update_base64 := operations.updateBase64
      peer_nonces := operations.peerNonces }
  last_rejection := session.lastRejection

/--
Narrow the live runtime to what has to survive a restart: a session the server
can hand back in full is dropped rather than written.
-/
def toPersistedRuntime
    (value : AuthoringRuntimeState) :
    PersistedAuthoringRuntimeState where
  sessions :=
    (value.sessions.filter fun entry =>
      authoringSessionRequiresDurableRestoration entry.2).map fun entry =>
        (entry.1, toPersistedSession entry.2)

/-- A session that requires durable restoration is in the snapshot. -/
theorem toPersistedRuntime_mem
    {value : AuthoringRuntimeState} {id : String} {session : AuthoringSession}
    (held : (id, session) ∈ value.sessions)
    (durable : authoringSessionRequiresDurableRestoration session = true) :
    (id, toPersistedSession session) ∈ (toPersistedRuntime value).sessions :=
  List.mem_map.mpr
    ⟨(id, session), List.mem_filter.mpr ⟨held, durable⟩, rfl⟩

end Clerkenwell.Client
