import Clerkenwell.Doc.EventLog
import Clerkenwell.Foundation.Sequential
import Clerkenwell.Store.Calls

/-!
# A port that never fails

A store over event logs whose port names bytes by themselves, stamps nothing
and never fails.  It keeps every law the services rely on, and a server that
answers their actions runs them one after another.
-/

namespace Clerkenwell.Store.Serving

open Clerkenwell.Foundation
open Clerkenwell.Doc

/-! ## Envelopes as bytes -/

def actorKindCodec : Codec ActorKind :=
  Codec.nat.map
    (fun code =>
      match code with
      | 0 => .human
      | 1 => .agent
      | 2 => .service
      | _ => .system)
    (fun kind =>
      match kind with
      | .human => 0
      | .agent => 1
      | .service => 2
      | .system => 3)
    (by rintro ⟨⟩ <;> rfl)

def principalCodec : Codec Principal :=
  (Codec.text.pair actorKindCodec).map
    (fun (id, kind) => { id := id, kind := kind })
    (fun principal => (principal.id, principal.kind))
    (by rintro ⟨⟩; rfl)

def operationCodec : Codec CollaborationOperation :=
  (Codec.text.pair (Codec.nat.pair (Codec.nat.pair (principalCodec.pair
    (Codec.text.option.pair (Codec.text.pair
      (Codec.text.pair Codec.nat))))))).map
    (fun (operationId, sequence, schemaVersion, actor, intent, updateBase64,
        updateSha256, updateBytes) =>
      { operationId := operationId, sequence := sequence,
        schemaVersion := schemaVersion, actor := actor, intent := intent,
        updateBase64 := updateBase64, updateSha256 := updateSha256,
        updateBytes := updateBytes })
    (fun operation =>
      (operation.operationId, operation.sequence, operation.schemaVersion,
        operation.actor, operation.intent, operation.updateBase64,
        operation.updateSha256, operation.updateBytes))
    (by rintro ⟨⟩; rfl)

theorem ofList_toList (bindings : Bindings) :
    Std.ExtTreeMap.ofList bindings.toList = bindings := by
  refine Std.ExtTreeMap.ext_getElem? fun {peer} => ?_
  cases bound : bindings[peer]? with
  | none =>
      refine Std.ExtTreeMap.getElem?_ofList_of_contains_eq_false ?_
      by_contra present
      rw [Bool.not_eq_false, List.contains_iff_mem] at present
      obtain ⟨⟨_, principal⟩, member, rfl⟩ := List.mem_map.mp present
      rw [Std.ExtTreeMap.mem_toList_iff_getElem?_eq_some.mp member] at bound
      cases bound
  | some principal =>
      exact Std.ExtTreeMap.getElem?_ofList_of_mem
        Std.ReflCmp.compare_self bindings.distinct_keys_toList
        (Std.ExtTreeMap.mem_toList_iff_getElem?_eq_some.mpr bound)

def bindingsCodec : Codec Bindings :=
  (Codec.nat.pair principalCodec).list.map
    (fun entries => Std.ExtTreeMap.ofList entries)
    Std.ExtTreeMap.toList ofList_toList

def envelopeCodec : Codec DurableCollaborationEnvelope :=
  (Codec.nat.pair (Codec.text.pair (Codec.text.pair (Codec.text.pair
    (Codec.nat.pair (Codec.nat.pair (Codec.nat.pair (Codec.nat.pair
      (Codec.text.pair (Codec.text.pair (Codec.nat.pair
        (operationCodec.list.pair bindingsCodec)))))))))))).map
    (fun (envelopeVersion, entity, resourceId, incarnation, schemaVersion,
        generation, checkpointSequence, compactedThroughSequence,
        checkpointUpdateBase64, checkpointSha256, checkpointBytes,
        retainedOperations, peers) =>
      { envelopeVersion := envelopeVersion, entity := entity,
        resourceId := resourceId, incarnation := incarnation,
        schemaVersion := schemaVersion, generation := generation,
        checkpointSequence := checkpointSequence,
        compactedThroughSequence := compactedThroughSequence,
        checkpointUpdateBase64 := checkpointUpdateBase64,
        checkpointSha256 := checkpointSha256,
        checkpointBytes := checkpointBytes,
        retainedOperations := retainedOperations, peers := peers })
    (fun envelope =>
      (envelope.envelopeVersion, envelope.entity, envelope.resourceId,
        envelope.incarnation, envelope.schemaVersion, envelope.generation,
        envelope.checkpointSequence, envelope.compactedThroughSequence,
        envelope.checkpointUpdateBase64, envelope.checkpointSha256,
        envelope.checkpointBytes, envelope.retainedOperations,
        envelope.peers))
    (by rintro ⟨⟩; rfl)

/-- The envelope bytes encode. -/
def fromSlice (bytes : Bytes) :
    Except String DurableCollaborationEnvelope :=
  match envelopeCodec.read bytes with
  | none => .error "bytes that encode no envelope"
  | some envelope => .ok envelope

theorem fromSlice_encode (envelope : DurableCollaborationEnvelope) :
    fromSlice (envelopeCodec.encode envelope) = .ok envelope := by
  rw [fromSlice, envelopeCodec.read_encode]

/-- The crates of a store over event logs; its digests are the bytes. -/
def crates : StoreCrates where
  toCrates := EventLog.crates
  sha256Hex := EventLog.bytesText
  hmacSha256 := fun _ _ => List.replicate 32 0
  toVecPretty := fun envelope => .ok (envelopeCodec.encode envelope)
  declaredVersion := fun bytes =>
    (fromSlice bytes).map DurableCollaborationEnvelope.envelopeVersion
  fromSlice := fromSlice
  declaredVersion_toVecPretty := by
    rintro envelope _ ⟨⟩
    rw [fromSlice_encode]
    rfl
  fromSlice_toVecPretty := by
    rintro envelope _ ⟨⟩
    exact fromSlice_encode envelope
  envelopeVersion_fromSlice := by
    intro bytes declared envelope declares sliced
    rw [sliced] at declares
    exact Except.ok.inj declares

theorem sha256Hex_injective : Function.Injective crates.sha256Hex :=
  EventLog.bytesText_injective

/-! ## The port -/

/-- Where a document is kept. -/
def source (document : CollaborationDocumentId) : String :=
  EventLog.bytesText
    ((Codec.text.pair Codec.text).encode
      (document.entity, document.resourceId))

theorem source_injective : Function.Injective source := by
  rintro ⟨entity, resourceId⟩ ⟨otherEntity, otherResourceId⟩ same
  have parts := (Codec.text.pair Codec.text).encode_injective
    (EventLog.bytesText_injective same)
  obtain ⟨rfl, rfl⟩ := Prod.mk.inj parts
  rfl

/-- A port that names bytes by themselves and never fails. -/
def port : PortContract where
  source := source
  source_injective := source_injective
  bytes := fun _ version => EventLog.textBytes version
  moment := fun _ _ => 0
  Fails := fun _ => False

/-! ## The server -/

section Server

variable (application : Application)

/-- Anyone may call, and nothing is stored but by a service. -/
def setting : Setting crates application where
  Admitted := fun _ => True
  Permits := fun _ _ _ => True
  Bypass := fun _ _ => False

variable {application}

/-- A world in which nothing is kept or held. -/
def emptyWorld : StoreWorld crates application where
  kept := fun _ => []
  evidence := []
  audit := []
  announced := []
  uuids := []
  residents := []
  held := fun _ _ => none

/-- Whether a content holds no envelope of an incarnation. -/
def lacksIncarnation (incarnation : String)
    (content : Option StoredEnvelope) : Bool :=
  match content with
  | none => true
  | some stored =>
      match fromSlice stored.bytes with
      | .error _ => true
      | .ok envelope => envelope.incarnation != incarnation

/-- The unique id given out next. -/
def nextUuid (world : StoreWorld crates application) : String :=
  String.ofList (List.replicate (world.uuids.length + 1) 'u')

/-- Whether a unique id is new where documents are kept. -/
def isUnused (places : List String) (world : StoreWorld crates application)
    (uuid : String) : Bool :=
  places.all fun place =>
    (world.kept place).all fun change => lacksIncarnation uuid change.content

/-- What an action is answered, where documents are kept in some places. -/
def serve (places : List String) (agent : Caller application)
    (world : StoreWorld crates application) :
    (action : StoreAction crates) →
      Option (action.Response × StoreWorld crates application)
  | .sources _ => some (.ok [], world)
  | .read place => some (.ok (world.stored place), world)
  | .stamp _ => some (.ok none, world)
  | .compareAndSwap document expected bytes =>
      let place := source document
      if place ∈ places then
        if (world.stored place).map StoredEnvelope.version = expected then
          let version := EventLog.bytesText bytes
          some (.ok (some version), world.keep place
            { content := some { version := version, bytes := bytes }
              writer := some agent })
        else some (.ok none, world)
      else none
  | .compareAndRemove document expected =>
      let place := source document
      if place ∈ places then
        if (world.stored place).map StoredEnvelope.version = some expected then
          some (.ok true,
            world.keep place { content := none, writer := some agent })
        else some (.ok false, world)
      else none
  | .preserve document label bytes =>
      some (.ok "evidence", { world with
        evidence := world.evidence ++ [(document, label, bytes)] })
  | .appendAudit record =>
      some (.ok (), { world with audit := world.audit ++ [record] })
  | .resident residency place => some (world.heldAt residency place, world)
  | .insert residency resident =>
      some ((resident.held world.residents.length,
        world.heldAt residency resident.source),
        world.insert residency resident)
  | .forget residency place => some ((), world.hold residency place none)
  | .residentStamp id =>
      some ((world.residents[id]?).bind Resident.stamp, world)
  | .restamp id stamp =>
      some ((), world.modifyResident id fun resident =>
        { resident with stamp := stamp })
  | .replica id build =>
      match (world.residents[id]?).bind Resident.replica, build with
      | some replica, _ => some (.ok replica, world)
      | none, .error error => some (.error error, world)
      | none, .ok built =>
          some (.ok built, world.modifyResident id fun resident =>
            { resident with replica := some built })
  | .materialized id build =>
      match (world.residents[id]?).bind Resident.materialized, build with
      | some value, _ => some (.ok value, world)
      | none, .error error => some (.error error, world)
      | none, .ok built =>
          some (.ok built, world.modifyResident id fun resident =>
            { resident with materialized := some built })
  | .builtReplica id =>
      some ((world.residents[id]?).bind Resident.replica, world)
  | .builtMaterialized id =>
      some ((world.residents[id]?).bind Resident.materialized, world)
  | .offerReplica id replica =>
      some ((), world.modifyResident id fun resident =>
        { resident with replica := some (resident.replica.getD replica) })
  | .offerMaterialized id value =>
      some ((), world.modifyResident id fun resident =>
        { resident with
          materialized := some (resident.materialized.getD value) })
  | .uuid =>
      let uuid := nextUuid world
      if uuid ∉ world.uuids ∧ isUnused places world uuid = true then
        some (uuid, { world with uuids := uuid :: world.uuids })
      else none
  | .now => some (some 0, world)
  | .timestamp => some ("", world)
  | .isHeard => some (false, world)
  | .announce event =>
      some ((), { world with announced := world.announced ++ [event] })

/-- A world that keeps documents in some places only. -/
def KeptIn (places : List String)
    (world : StoreWorld crates application) : Prop :=
  ∀ place, place ∉ places → world.kept place = []

theorem KeptIn.keep {places : List String}
    {world : StoreWorld crates application} {place : String}
    (kept : KeptIn places world) (there : place ∈ places)
    (change : Change (Caller application)) :
    KeptIn places (world.keep place change) := by
  intro other outside
  have different : other ≠ place := by
    rintro rfl
    exact outside there
  show Function.update world.kept place _ other = []
  rw [Function.update_of_ne different]
  exact kept other outside

theorem unused_of_isUnused {places : List String}
    {world : StoreWorld crates application} {uuid : String}
    (kept : KeptIn places world) (unused : isUnused places world uuid = true) :
    world.Unused uuid := by
  intro place change member stored envelope content sliced
  by_cases there : place ∈ places
  · have lacks := List.all_eq_true.mp
      (List.all_eq_true.mp unused place there) change member
    rw [content] at lacks
    simp only [lacksIncarnation] at lacks
    have same : fromSlice stored.bytes = .ok envelope := sliced
    rw [same] at lacks
    simpa using lacks
  · rw [kept place there] at member
    cases member

theorem nextUuid_not_blank (world : StoreWorld crates application) :
    ¬ Text.isBlank (nextUuid world) := by
  have printed : Text.isWhitespace 'u' = false := by decide
  simp [Text.isBlank, nextUuid, List.replicate_succ, printed]

theorem serve_answers {places : List String} {agent : Caller application}
    {world after : StoreWorld crates application}
    {action : StoreAction crates} {response : action.Response}
    (kept : KeptIn places world)
    (served : serve places agent world action = some (response, after)) :
    Answers port agent world action response after
      ∧ KeptIn places after := by
  cases action
  case compareAndSwap document expected bytes =>
    simp only [serve] at served
    split at served
    · rename_i there
      split at served
      · rename_i same
        cases served
        exact ⟨.inr ⟨_, rfl, same, EventLog.textBytes_bytesText bytes, rfl⟩,
          kept.keep there _⟩
      · cases served
        exact ⟨.inl ⟨rfl, .inr rfl⟩, kept⟩
    · cases served
  case compareAndRemove document expected =>
    simp only [serve] at served
    split at served
    · rename_i there
      split at served
      · rename_i same
        cases served
        exact ⟨.inr ⟨rfl, same, rfl⟩, kept.keep there _⟩
      · cases served
        exact ⟨.inl ⟨rfl, .inr rfl⟩, kept⟩
    · cases served
  case replica id build =>
    simp only [serve] at served
    simp only [Answers]
    split at served <;> rename_i cached <;> cases served <;> simp only [cached]
    · exact ⟨⟨trivial, trivial⟩, kept⟩
    · exact ⟨⟨trivial, trivial⟩, kept⟩
    · exact ⟨⟨trivial, trivial⟩, kept⟩
  case materialized id build =>
    simp only [serve] at served
    simp only [Answers]
    split at served <;> rename_i cached <;> cases served <;> simp only [cached]
    · exact ⟨⟨trivial, trivial⟩, kept⟩
    · exact ⟨⟨trivial, trivial⟩, kept⟩
    · exact ⟨⟨trivial, trivial⟩, kept⟩
  case uuid =>
    simp only [serve] at served
    split at served
    · rename_i new
      cases served
      exact ⟨⟨new.1, nextUuid_not_blank world,
        unused_of_isUnused kept new.2, rfl⟩, kept⟩
    · cases served
  all_goals cases served
  case sources => exact ⟨⟨rfl, .inr ⟨_, rfl⟩⟩, kept⟩
  case read => exact ⟨⟨rfl, .inr rfl⟩, kept⟩
  case stamp => exact ⟨⟨rfl, .inr (.inl rfl)⟩, kept⟩
  case preserve => exact ⟨.inr ⟨_, rfl, rfl⟩, kept⟩
  case appendAudit => exact ⟨.inr ⟨rfl, rfl⟩, kept⟩
  case resident => exact ⟨⟨rfl, rfl⟩, kept⟩
  case insert => exact ⟨⟨rfl, rfl⟩, kept⟩
  case residentStamp => exact ⟨⟨rfl, rfl⟩, kept⟩
  case builtReplica => exact ⟨⟨rfl, rfl⟩, kept⟩
  case builtMaterialized => exact ⟨⟨rfl, rfl⟩, kept⟩
  all_goals exact ⟨rfl, kept⟩

/-- A server over the port, where documents are kept in some places. -/
def server (places : List String) :
    Server (storeSemantics port (setting application)) where
  Ready := KeptIn places
  serve := serve places
  answers := by
    intro agent world action response after kept served
    obtain ⟨answers, keptAfter⟩ := serve_answers kept served
    exact ⟨⟨trivial, answers⟩, keptAfter⟩

end Server

/-! ## Notes -/

/-- The title every note has. -/
def titleField : CollaborationFieldSpec where
  path := "title"
  storageKind := .scalar
  container := some "note"
  containerTemplate := none
  key := some "title"
  identityPath := none
  identityVariable := none
  orderContainer := none
  metadataContainer := none
  metadataContainerTemplate := none
  metadataKey := none
  codec := .string
  required := true
  requiredInParent := false
  conflict := .merge
  writers := []

def notePlan : CollaborationEntitySpec where
  name := "note"
  idField := "id"
  schemaVersion := 1
  fields := [titleField]
  schemaVersion_pos := Nat.one_pos

/-- A change of a note's title. -/
def titled (isRoot : Bool) (title : String) : EventLog.Entry where
  isRoot := isRoot
  effect := .put
  container := (.map, ["note"])
  key := "title"
  position := 0
  value := .string title

def updateText (update : EventLog.Update) : String :=
  EventLog.bytesText (EventLog.updateCodec.encode update)

def frontierText (heads : List (Nat × Nat)) : String :=
  EventLog.bytesText (EventLog.headsCodec.encode heads)

def note : CollaborationDocumentId where
  entity := "note"
  resourceId := "first"

/-- An application whose failures are the store's. -/
def notes : Application where
  Failure := StoreError
  ofStore := id

/-- A service of notes that retains some operations. -/
def noteService (retainedOperations : Nat) : Service where
  residency := 0
  plans := [notePlan]
  policy :=
    { retainedOperations := retainedOperations
      attempts := 1
      attempts_pos := Nat.one_pos }
  key := []
  source := "notes"

def writer : Principal where
  id := "writer"
  kind := .human

/-- An import of the note, fenced on nothing but its frontier. -/
def noteRequest (mode : CollaborationExchangeMode)
    (operationId base update : String) : CollaborationImportRequest where
  document := note
  schemaVersion := 1
  operationId := operationId
  exchangeMode := mode
  baseFrontierBase64 := base
  updateBase64 := update
  fence := .frontier
  actor := writer
  peerNonces := ["nonce"]
  intent := none

/-- The caller of an import of the note. -/
def importer (retainedOperations : Nat)
    (request : CollaborationImportRequest) : Caller notes where
  service := noteService retainedOperations
  call := .importUpdate notePlan request fun _ => .ok ()

/-- The pool left by callers that run one after another. -/
def served (callers : List (Caller notes)) : Option (StorePool crates notes) :=
  (server [source note]).run (program port crates) callers
    (Pool.idle emptyWorld)

/-- What a thread of an import replied. -/
def importedBy (thread : Thread (@StoreAction.Response crates) (Caller notes)
    (StoreWorld crates notes) (Reply notes)) :
    Option CollaborationImportResult :=
  match thread.program with
  | .done (.imported (.ok answer)) => some answer
  | _ => none

theorem program_of_importedBy {answer : CollaborationImportResult}
    {thread : Thread (@StoreAction.Response crates) (Caller notes)
      (StoreWorld crates notes) (Reply notes)}
    (imported : importedBy thread = some answer) :
    thread.program = .done (.imported (.ok answer)) := by
  unfold importedBy at imported
  split at imported
  · rename_i same
    rw [same, Option.some.inj imported]
  · cases imported

/-- The envelope stored of the note. -/
def storedNote (pool : StorePool crates notes) :
    Option DurableCollaborationEnvelope :=
  (pool.world.stored (source note)).bind fun stored =>
    (fromSlice stored.bytes).toOption

theorem agents_served {callers : List (Caller notes)}
    {pool : StorePool crates notes} (ran : served callers = some pool) :
    pool.threads.map Thread.agent = callers :=
  Server.agents_run ran

theorem reaches_served {callers : List (Caller notes)}
    {pool : StorePool crates notes} (ran : served callers = some pool) :
    StoreReaches port (setting notes) (Pool.idle emptyWorld) pool :=
  Server.reaches_run (fun _ _ => trivial) (fun _ _ => rfl) ran

end Clerkenwell.Store.Serving
