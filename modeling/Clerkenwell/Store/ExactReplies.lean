import Clerkenwell.Store.Retention
import Clerkenwell.Store.Serving

/-!
# Exact replies

An authoring state carries what the peer it answers lacks, and the reply of
an import what its update and base lack, of one document its source held.  The
replies are exact unless operations of two histories share an id, or an update
skips operations after the base it is sent with.
-/

namespace Clerkenwell.Store

open Clerkenwell.Foundation
open Clerkenwell.Doc

section ExactReplies

variable {crates : StoreCrates} {port : PortContract}
variable {application : Application} {setting : Setting crates application}
variable {start world : StoreWorld crates application}

/-- A document a source held since a call began, and what it loads as. -/
structure StoredAs (port : PortContract)
    (start later : StoreWorld crates application) (source : String)
    (resident : Held) (doc : crates.loro.LoroDoc) : Prop where
  seen : ∃ stored, SeenSince start later source (some stored)
    ∧ Holds crates stored.bytes resident.envelope resident.accepted.peers
  incarnation :
    resident.accepted.incarnation = resident.envelope.incarnation
  loads : CheckpointIn crates resident.envelope doc

theorem StoredAs.of_known {source : String} {resident : Held}
    {doc : crates.loro.LoroDoc}
    (invariant : StoreInvariant port setting world)
    (known : Known world source resident)
    (carried : CarriedSince port start world source resident.version)
    (loads : CheckpointIn crates resident.envelope doc) :
    StoredAs port start world source resident doc where
  seen := by
    obtain ⟨stored, seen, bytes⟩ := carried
    exact ⟨stored, seen, bytes ▸ known.holds invariant⟩
  incarnation := by
    obtain ⟨held, there, -, same⟩ := known
    rw [← same]
    exact (invariant.coherent resident.id held there).incarnation
  loads := loads

theorem CheckpointIn.carriedBy {envelope : DurableCollaborationEnvelope}
    {doc : crates.loro.LoroDoc} (loads : CheckpointIn crates envelope doc) :
    carriedBy crates.toCrates envelope.checkpointUpdateBase64
      = crates.loro.operations doc := by
  obtain ⟨update, loaded, whole, -⟩ := id loads
  have decoded := whole.1
  rw [loads.operations whole]
  simp [Doc.carriedBy, decoded]

/-! ## Authoring states -/

/-- A peer's document, and what the peer names it by. -/
inductive Names (crates : StoreCrates) (client : crates.loro.LoroDoc) :
    CollaborationHeld → Prop
  | frontier :
      Names crates client (.frontier (frontierBase64 crates.toCrates client))
  | version {named : CollaborationVersion}
      (same : ∀ peer, (crates.loro.oplogVv client).counter peer
        = (counterOf named.peers peer : Nat)) :
      Names crates client (.version named)

/-- What a peer names is of the history a document holds. -/
def OfHistory (resident : Held) (doc client : crates.loro.LoroDoc) :
    CollaborationHeld → Prop
  | .frontier _ => crates.loro.operations client ⊆ crates.loro.operations doc
  | .version named => named.incarnation = resident.accepted.incarnation

/-- What a peer names is taken to be of the history a document holds. -/
def Recognised (resident : Held) (doc client : crates.loro.LoroDoc) :
    CollaborationHeld → Prop
  | .frontier _ => @Places crates.toCrates doc client
  | .version named => named.incarnation = resident.accepted.incarnation

/-- The counters a peer names are ones a Loro document can reach. -/
def Countable : CollaborationHeld → Prop
  | .frontier _ => True
  | .version named => ∀ entry ∈ named.peers, entry.2 ≤ i32Max

/-- A state leaves a peer with exactly what a document holds. -/
structure ExactFor (doc : crates.loro.LoroDoc)
    (held : Set crates.loro.Operation) (own : Prop)
    (state : CollaborationAuthoringState) : Prop where
  replaces : state.replacesHeld = false ↔ own
  joined : state.replacesHeld = false →
    crates.loro.operations doc
        ⊆ held ∪ carriedBy crates.toCrates state.updateBase64
      ∧ carriedBy crates.toCrates state.updateBase64
          ⊆ crates.loro.operations doc
  whole : state.replacesHeld = true →
    carriedBy crates.toCrates state.updateBase64
      = crates.loro.operations doc

/-- A state is of a resident and of the document it loads as. -/
structure StateOf (resident : Held) (doc : crates.loro.LoroDoc)
    (state : CollaborationAuthoringState) : Prop where
  schemaVersion : state.schemaVersion = resident.envelope.schemaVersion
  version : state.version = resident.accepted
  etag : state.etag = resident.envelope.etag
  frontier :
    state.acceptedFrontierBase64 = frontierBase64 crates.toCrates doc

theorem stateFor_eq (resident : Held)
    (authoring : CollaborationReplica crates.toCrates)
    (named : Option CollaborationHeld) :
    stateFor resident authoring named
      = (lacking resident authoring named).map fun found =>
          { schemaVersion := resident.envelope.schemaVersion
            version := resident.accepted
            acceptedFrontierBase64 := authoring.acceptedFrontierBase64
            updateBase64 := found.1
            etag := resident.envelope.etag
            replacesHeld := found.2 } := by
  unfold stateFor
  cases lacking resident authoring named <;> rfl

theorem stateFor_ok {resident : Held}
    {authoring : CollaborationReplica crates.toCrates}
    {named : Option CollaborationHeld} {state : CollaborationAuthoringState}
    (replied : stateFor resident authoring named = .ok state) :
    lacking resident authoring named
        = .ok (state.updateBase64, state.replacesHeld)
      ∧ StateOf resident authoring.doc state := by
  rw [stateFor_eq] at replied
  cases found : lacking resident authoring named with
  | error error =>
      rw [found] at replied
      cases replied
  | ok update =>
      rw [found] at replied
      cases replied
      exact ⟨rfl, rfl, rfl, rfl, rfl⟩

/-- A peer that holds nothing is sent the whole accepted history. -/
theorem lacking_none {resident : Held}
    {authoring : CollaborationReplica crates.toCrates} {found : String × Bool}
    (loads : CheckpointIn crates resident.envelope authoring.doc)
    (lacks : lacking resident authoring none = .ok found) :
    found.2 = false
      ∧ carriedBy crates.toCrates found.1
          = crates.loro.operations authoring.doc := by
  cases lacks
  exact ⟨rfl, loads.carriedBy⟩

theorem exportUpdateSinceVersionBase64_eq
    {authoring : CollaborationReplica crates.toCrates}
    {peers : List (Nat × Nat)}
    (countable : ∀ entry ∈ peers, entry.2 ≤ i32Max) :
    authoring.exportUpdateSinceVersionBase64 peers
      = CollaborationReplica.exportSince authoring.doc
          ((peers.map fun (peer, count) => (peer, (count : Int))).foldr
            (fun (peer, counter) named => named.insert peer counter) ∅) := by
  have named : (peers.mapM fun (peer, counter) =>
        counterNamed peer counter)
      = .ok (peers.map fun (peer, count) => (peer, (count : Int))) := by
    induction peers with
    | nil => rfl
    | cons entry rest inductionHypothesis =>
        rw [List.mapM_cons,
          inductionHypothesis fun other member =>
            countable other (List.mem_cons_of_mem _ member)]
        simp [counterNamed,
          countable entry List.mem_cons_self, bind, Except.bind, pure,
          Except.pure]
  unfold CollaborationReplica.exportUpdateSinceVersionBase64
  rw [named]
  rfl

theorem countable_of_exported
    {authoring : CollaborationReplica crates.toCrates}
    {peers : List (Nat × Nat)} {update : String}
    (exported : authoring.exportUpdateSinceVersionBase64 peers
      = .ok update) :
    ∀ entry ∈ peers, entry.2 ≤ i32Max := by
  obtain ⟨counters, named, -⟩ := except_bind_ok exported
  clear exported
  induction peers generalizing counters with
  | nil => simp
  | cons entry rest inductionHypothesis =>
      rw [List.mapM_cons] at named
      obtain ⟨first, counted, named⟩ := except_bind_ok named
      obtain ⟨later, others, -⟩ := except_bind_ok named
      intro other member
      rcases List.mem_cons.mp member with rfl | within
      · by_contra beyond
        simp [counterNamed, beyond] at counted
      · exact inductionHypothesis later others other within

/-- A version of the document's own history is only answered when it counts. -/
theorem countable_of_lacking {resident : Held}
    {authoring : CollaborationReplica crates.toCrates}
    {client : crates.loro.LoroDoc} {named : CollaborationHeld}
    {found : String × Bool}
    (lacks : lacking resident authoring (some named) = .ok found)
    (own : Recognised resident authoring.doc client named) :
    Countable named := by
  cases named with
  | frontier encoded => trivial
  | version named =>
      have same : named.incarnation = resident.accepted.incarnation := own
      simp only [lacking, ne_eq, same, not_true_eq_false, if_false] at lacks
      obtain ⟨update, exported, -⟩ := except_bind_ok lacks
      exact countable_of_exported exported

/-- What a state for a peer's document is, by how the peer names it. -/
theorem lacking_some {resident : Held}
    {authoring : CollaborationReplica crates.toCrates}
    {client : crates.loro.LoroDoc} {named : CollaborationHeld}
    (loads : CheckpointIn crates resident.envelope authoring.doc)
    (names : Names crates client named)
    (countable : Recognised resident authoring.doc client named →
      Countable named) :
    (¬ Recognised resident authoring.doc client named
        ∧ ∃ found, lacking resident authoring (some named)
            = .ok (found, true)
          ∧ carriedBy crates.toCrates found
              = crates.loro.operations authoring.doc)
      ∨ (Recognised resident authoring.doc client named
        ∧ ∃ version found,
            lacking resident authoring (some named) = .ok (found, false)
          ∧ carriedBy crates.toCrates found
              = {operation ∈ crates.loro.operations authoring.doc |
                  ¬ crates.loro.NamedBy version operation}
          ∧ ((OfHistory resident authoring.doc client named) →
              ∀ operation, crates.loro.NamedBy version operation
                ↔ crates.loro.NamedBy (crates.loro.oplogVv client)
                    operation)) := by
  cases names with
  | frontier =>
      by_cases places : @Places crates.toCrates authoring.doc client
      · right
        obtain ⟨version, known⟩ := frontierVersion_of_places places
        obtain ⟨found, exported, carries⟩ :=
          exportSince_ok authoring.doc version
        refine ⟨places, version, found, ?_, carries, ?_⟩
        · simp [lacking, CollaborationReplica.exportIncrementalUpdateBase64,
            known, exported, bind, Except.bind]
        · intro own
          obtain ⟨other, reads, named⟩ :=
            (frontierVersion_of_subset own :
              ∃ version, CollaborationReplica.frontierVersion authoring.doc
                  (frontierBase64 crates.toCrates client) = .ok version
                ∧ ∀ operation, crates.loro.NamedBy version operation
                    ↔ crates.loro.NamedBy (crates.loro.oplogVv client)
                        operation)
          cases Except.ok.inj (reads.symm.trans known)
          exact named
      · left
        refine ⟨places, resident.envelope.checkpointUpdateBase64, ?_,
          loads.carriedBy⟩
        have unknown := frontierVersion_of_not_places places
        simp [lacking, CollaborationReplica.exportIncrementalUpdateBase64,
          unknown, bind, Except.bind]
  | @version named same =>
      by_cases own : named.incarnation = resident.accepted.incarnation
      · right
        obtain ⟨found, exported, carries⟩ :=
          exportSince_ok authoring.doc
            ((named.peers.map fun (peer, count) =>
              (peer, (count : Int))).foldr
                (fun (peer, counter) named => named.insert peer counter) ∅)
        refine ⟨own, _, found, ?_, carries, ?_⟩
        · simp [lacking, own,
            exportUpdateSinceVersionBase64_eq (countable own), exported,
            bind, Except.bind]
        · intro _ operation
          rw [Loro.NamedBy, Loro.NamedBy, VersionVector.includesId_iff,
            VersionVector.includesId_iff, counter_foldr_insert, same]
      · left
        exact ⟨own, resident.envelope.checkpointUpdateBase64,
          by simp [lacking, own], loads.carriedBy⟩

/--
A state is exact for a peer exactly when what is taken to be of the document's
history shares no id with an operation of another.
-/
theorem exactFor_iff {resident : Held}
    {authoring : CollaborationReplica crates.toCrates}
    {client : crates.loro.LoroDoc} {named : CollaborationHeld}
    {state : CollaborationAuthoringState}
    (loads : CheckpointIn crates resident.envelope authoring.doc)
    (names : Names crates client named)
    (lacks : lacking resident authoring (some named)
      = .ok (state.updateBase64, state.replacesHeld)) :
    ExactFor authoring.doc (crates.loro.operations client)
        (OfHistory resident authoring.doc client named) state
      ↔ (Recognised resident authoring.doc client named →
          crates.loro.Agree (crates.loro.operations client)
            (crates.loro.operations authoring.doc)) := by
  rcases lacking_some loads names (countable_of_lacking lacks) with
    ⟨unknown, found, lacks_all, carries⟩
    | ⟨known, version, found, lacks_some, carries, named_as⟩
  · obtain ⟨rfl, replaced⟩ :=
      Prod.mk.inj (Except.ok.inj (lacks.symm.trans lacks_all))
    have other : ¬ OfHistory resident authoring.doc client named := by
      cases names with
      | frontier => exact fun own => unknown (places_of_subset own)
      | version same => exact unknown
    constructor
    · exact fun _ recognised => absurd recognised unknown
    · intro _
      exact ⟨by simp [replaced, other], by simp [replaced],
        fun _ => carries⟩
  · obtain ⟨rfl, joined⟩ :=
      Prod.mk.inj (Except.ok.inj (lacks.symm.trans lacks_some))
    have covered : OfHistory resident authoring.doc client named →
        ∀ operation ∈ crates.loro.operations authoring.doc,
          operation ∉ carriedBy crates.toCrates state.updateBase64 →
            crates.loro.id operation
              ∈ crates.loro.id '' crates.loro.operations client := by
      intro own operation member unsent
      rw [carries] at unsent
      have below : crates.loro.NamedBy version operation := by
        by_contra beyond
        exact unsent ⟨member, beyond⟩
      exact (Loro.mem_id_iff_namedBy (Loro.id_counter_nonneg member)).mpr
        ((named_as own operation).mp below)
    constructor
    · intro exact_ _ operation held other accepted same
      have own := exact_.replaces.mp joined
      by_cases sent :
          other ∈ carriedBy crates.toCrates state.updateBase64
      · rw [carries] at sent
        refine absurd ?_ sent.2
        refine (named_as own other).mpr
          ((Loro.mem_id_iff_namedBy (Loro.id_counter_nonneg accepted)).mp ?_)
        exact ⟨operation, held, same⟩
      · rcases (exact_.joined joined).1 accepted with held_it | sent_it
        · exact crates.loro.id_injOn client held held_it same
        · exact absurd sent_it sent
    · intro condition
      have agree := condition known
      have own : OfHistory resident authoring.doc client named := by
        cases names with
        | frontier => exact subset_of_places known agree
        | version same => exact known
      refine ⟨by simp [joined, own], fun _ => ⟨?_, ?_⟩, by simp [joined]⟩
      · intro operation member
        by_cases sent :
            operation ∈ carriedBy crates.toCrates state.updateBase64
        · exact .inr sent
        · obtain ⟨other, held, same⟩ := covered own operation member sent
          left
          rwa [← agree other held operation member same]
      · rw [carries]
        exact fun operation member => member.1

/-! ## Imports -/

/-- The operations a document holds up to the base of an import. -/
def upToBase (crates : StoreCrates) (doc : crates.loro.LoroDoc)
    (request : CollaborationImportRequest) : Set crates.loro.Operation :=
  {operation ∈ crates.loro.operations doc |
    ∃ version, baseVersion doc (importBase request) = .ok version
      ∧ crates.loro.NamedBy version operation}

/-- A reply is of a resident and of the document it loads as. -/
structure ReplyOf (resident : Held) (doc : crates.loro.LoroDoc)
    (answer : CollaborationImportResult) : Prop where
  version : answer.version = resident.accepted
  etag : answer.etag = resident.envelope.etag
  frontier :
    answer.acceptedFrontierBase64 = frontierBase64 crates.toCrates doc

/--
What an import's base, update and reply hold is what the reply is of exactly
when the update's operations are the document's and it goes on from its base.
-/
theorem exactReply_iff {resident : Held}
    {authoring : CollaborationReplica crates.toCrates}
    {request : CollaborationImportRequest}
    {answer : CollaborationImportResult} {materialized : Json}
    {duplicate : Bool}
    (takes : Takes crates authoring.doc request)
    (answers : importResult request resident authoring materialized duplicate
      = .ok answer) :
    ReplyOf resident authoring.doc answer
      ∧ (upToBase crates authoring.doc request
            ∪ carriedBy crates.toCrates request.updateBase64
            ∪ carriedBy crates.toCrates answer.missingUpdateBase64
          = crates.loro.operations authoring.doc
        ↔ crates.loro.Agree (carriedBy crates.toCrates request.updateBase64)
            (crates.loro.operations authoring.doc)
          ∧ GoesOn crates authoring.doc request) := by
  obtain ⟨acceptedUpdate, decoded, answers⟩ := except_bind_ok answers
  obtain ⟨missing, lacks, answers⟩ := except_bind_ok answers
  cases answers
  have whole := checkpointUpdate_ok_iff.mp decoded
  refine ⟨⟨rfl, ?_, rfl⟩, ?_⟩
  · show collaborationEtag crates acceptedUpdate = resident.envelope.etag
    simp only [collaborationEtag, DurableCollaborationEnvelope.etag,
      whole.2.2]
  show upToBase crates authoring.doc request ∪ _
      ∪ carriedBy crates.toCrates missing = _ ↔ _
  obtain ⟨base, known, lacks⟩ : ∃ base,
      baseVersion authoring.doc (importBase request) = .ok base
        ∧ ∃ ends, updateEndVersion crates.toCrates request.updateBase64
            = .ok ends
          ∧ CollaborationReplica.exportSince authoring.doc
              (base.merge ends) = .ok missing := by
    replace lacks := orStoreError_ok_iff.mp lacks
    change authoring.missingUpdateBase64 (importBase request) _
      = .ok missing at lacks
    cases named : importBase request with
    | none =>
        rw [named] at lacks
        obtain ⟨base, known, lacks⟩ := except_bind_ok lacks
        obtain ⟨ends, found, lacks⟩ := except_bind_ok lacks
        exact ⟨base, known, ends, found, lacks⟩
    | some encoded =>
        rw [named] at lacks
        obtain ⟨base, known, lacks⟩ := except_bind_ok lacks
        obtain ⟨ends, found, lacks⟩ := except_bind_ok lacks
        exact ⟨base, known, ends, found, lacks⟩
  obtain ⟨ends, found, exported⟩ := lacks
  have positive : ∀ peer, 0 ≤ base.counter peer := by
    intro peer
    cases named : importBase request with
    | none =>
        rw [named] at known
        cases known
        exact le_of_eq rfl
    | some encoded =>
        rw [named] at known
        obtain ⟨frontiers, -, knows⟩ := frontierVersion_ok known
        exact (crates.loro.counter_frontiersToVv _ _ _ knows peer).1
  have below : upToBase crates authoring.doc request
      = {operation ∈ crates.loro.operations authoring.doc |
          crates.loro.NamedBy base operation} := by
    ext operation
    simp [upToBase, known]
  have goesOn : GoesOn crates authoring.doc request
      ↔ Continues crates.toCrates base request.updateBase64 := by
    simp [GoesOn, known]
  rw [below, goesOn, carriedBy_exportSince exported]
  exact covers_iff positive found takes

/-! ## Replies -/

/-- What an authoring state is, of a document a source held. -/
structure AuthoringExact (port : PortContract)
    (start later : StoreWorld crates application)
    (document : CollaborationDocumentId) (named : Option CollaborationHeld)
    (result : StoreResult CollaborationAuthoringState) (resident : Held)
    (doc : crates.loro.LoroDoc) : Prop where
  stored : StoredAs port start later (port.source document) resident doc
  nothing : named = none → ∃ state, result = .ok state
    ∧ StateOf resident doc state ∧ state.replacesHeld = false
    ∧ carriedBy crates.toCrates state.updateBase64
        = crates.loro.operations doc
  answered : ∀ client held, named = some held → Names crates client held →
    Countable held → ∃ state, result = .ok state
  exact_iff : ∀ client held state, named = some held →
    Names crates client held → result = .ok state →
      StateOf resident doc state
        ∧ (ExactFor doc (crates.loro.operations client)
              (OfHistory resident doc client held) state
            ↔ (Recognised resident doc client held →
                crates.loro.Agree (crates.loro.operations client)
                  (crates.loro.operations doc)))

/-- What the reply of an import is, of a document a source held. -/
structure ImportExact (port : PortContract)
    (start later : StoreWorld crates application)
    (request : CollaborationImportRequest)
    (answer : CollaborationImportResult) (resident : Held)
    (doc : crates.loro.LoroDoc) : Prop where
  stored :
    StoredAs port start later (port.source request.document) resident doc
  reply : ReplyOf resident doc answer
  exact_iff :
    upToBase crates doc request
          ∪ carriedBy crates.toCrates request.updateBase64
          ∪ carriedBy crates.toCrates answer.missingUpdateBase64
        = crates.loro.operations doc
      ↔ crates.loro.Agree (carriedBy crates.toCrates request.updateBase64)
          (crates.loro.operations doc)
        ∧ GoesOn crates doc request
  goesOn : GoesOn crates doc request
    ∨ (answer.duplicate = true
      ∧ ∃ operation, retainedOperation resident.envelope request.operationId
          = some operation)

theorem AuthoringReadAs.exact {plan : CollaborationEntitySpec}
    {document : CollaborationDocumentId} {named : Option CollaborationHeld}
    {log : Log crates} {result : StoreResult CollaborationAuthoringState}
    (collisionFree : Function.Injective crates.sha256Hex)
    (invariant : StoreInvariant port setting world)
    (readAs :
      AuthoringReadAs port start world plan document named log result) :
    (∃ resident doc,
        AuthoringExact port start world document named result resident doc)
      ∨ ((∃ error, result = .error error)
        ∧ (FailedIn log
          ∨ ∃ content, SeenSince start world (port.source document) content
              ∧ ¬ LoadsAs crates plan document content)) := by
  rcases readAs with ⟨held, authoring, known, carried, built, rfl⟩ | failed
  · have loads := built collisionFree
    refine .inl ⟨held, authoring.doc,
      .of_known invariant known carried loads, ?_, ?_, ?_⟩
    · rintro rfl
      refine ⟨_, rfl, ⟨rfl, rfl, rfl, rfl⟩, ?_⟩
      exact lacking_none loads rfl
    · rintro client peer rfl names countable
      rcases lacking_some loads names fun _ => countable with
        ⟨-, found, lacks, -⟩ | ⟨-, -, found, lacks, -⟩
      · exact ⟨_, orStoreError_ok_iff.mpr
          (by rw [stateFor_eq, lacks]; rfl)⟩
      · exact ⟨_, orStoreError_ok_iff.mpr
          (by rw [stateFor_eq, lacks]; rfl)⟩
    · rintro client peer state rfl names replied
      obtain ⟨lacks, stateOf⟩ := stateFor_ok (orStoreError_ok_iff.mp replied)
      exact ⟨stateOf, exactFor_iff loads names lacks⟩
  · exact .inr failed

theorem ExchangedAs.exact {request : CollaborationImportRequest}
    {update : Bytes} {answer : CollaborationImportResult}
    (collisionFree : Function.Injective crates.sha256Hex)
    (invariant : StoreInvariant port setting world)
    (retained : ∀ source, ∀ change ∈ world.kept source,
      RetainedIn crates change.content)
    (imported : importedUpdate crates request = .ok update)
    (exchangedAs :
      ExchangedAs port start world request .byUpdate update answer) :
    ∃ resident doc,
      ImportExact port start world request answer resident doc := by
  obtain ⟨held, authoring, known, carried, answers, built⟩ :=
    exchangedAs.exchanged
  obtain ⟨loads, which⟩ := built collisionFree
  have stored := StoredAs.of_known invariant known carried loads
  have takes : Takes crates authoring.doc request := by
    rcases which with ⟨-, takes⟩ | ⟨-, operation, retains, retries⟩
    · exact takes
    · obtain ⟨content, ⟨seen, -, within, newest⟩, holds⟩ := stored.seen
      obtain ⟨change, first, kept⟩ := Option.bind_eq_some_iff.mp newest
      have member := within.subset (List.mem_of_mem_head? first)
      have holdsRetained := retained _ change member content held.envelope
        held.accepted.peers kept holds
      exact takes_of_retry collisionFree holdsRetained holds loads imported
        retains retries
  obtain ⟨replyOf, exact_iff⟩ := exactReply_iff takes answers
  refine ⟨held, authoring.doc, stored, replyOf, exact_iff, ?_⟩
  rcases which with ⟨goesOn, -⟩ | ⟨duplicate, operation, retains, -⟩
  · exact .inl goesOn
  · exact .inr ⟨duplicate, operation, retains⟩

/-- What is replied to a thread of a pool is exact when its condition holds. -/
structure RepliedExactly (port : PortContract)
    (later : StoreWorld crates application)
    (thread : Thread (@StoreAction.Response crates) (Caller application)
      (StoreWorld crates application) (Reply application)) : Prop where
  authoring : ∀ plan document named result,
    thread.agent.call = .authoringState plan document named →
      thread.program = .done (.authoring result) →
        (∃ resident doc, AuthoringExact port thread.started later document
            named result resident doc)
          ∨ ((∃ error, result = .error error)
            ∧ (FailedIn thread.log
              ∨ ∃ content,
                  SeenSince thread.started later (port.source document)
                    content
                  ∧ ¬ LoadsAs crates plan document content))
  imported : ∀ plan request validate answer,
    thread.agent.call = .importUpdate plan request validate →
      thread.program = .done (.imported (.ok answer)) →
        ∃ resident doc,
          ImportExact port thread.started later request answer resident doc

/--
Every reply of every pool is exact exactly when no two operations of what it
joins share an id and an update it answers goes on from its base, which only a
retry may not do.
-/
theorem replies_exact_iff {pool : StorePool crates application}
    (begun : Begun port start)
    (began : ∀ source, ∀ change ∈ start.kept source,
      RetainedIn crates change.content)
    (bypass : ∀ source content, setting.Bypass source content →
      RetainedIn crates content)
    (collisionFree : Function.Injective crates.sha256Hex)
    (reaches : StoreReaches port setting (Pool.idle start) pool) :
    ∀ thread ∈ pool.threads, RepliedExactly port pool.world thread := by
  obtain ⟨sound, later⟩ := sound_of_reaches begun reaches
  have retained := retainedIn_of_later sound.invariant later began bypass
  intro thread member
  constructor
  · intro plan document named result call replied
    have post := sound.finished member replied
    simp only [CallPost, call] at post
    exact AuthoringReadAs.exact collisionFree sound.invariant post
  · intro plan request validate answer call replied
    have post := sound.finished member replied
    simp only [CallPost, call] at post
    obtain ⟨update, imported, exchanged⟩ := post.2.2 answer rfl
    exact exchanged.exact collisionFree sound.invariant retained imported

end ExactReplies

/-! ## A retry that names an earlier base -/

section Retry

open Serving

/-- The titles of a note. -/
def titles : List EventLog.Entry :=
  [titled true "a", titled false "b", titled false "c"]

/-- The import of the last title on what precedes it, or on less. -/
def retitles (base : Nat) : CollaborationImportRequest :=
  noteRequest .incremental "second" (frontierText [(0, base)])
    (updateText [(2, titles.drop 2)])

/-- A note is titled thrice, and its last title sent again on the first. -/
def retriers : List (Caller notes) :=
  [noteRequest .bootstrap "first" "" (updateText [(0, titles.take 2)]),
    retitles 2, retitles 1].map (importer 8)

/-- The note as it was titled. -/
def retitled : EventLog.Document where
  peer := 0
  logs := [titles]

theorem retriers_reply :
    (served retriers).map (fun pool =>
        ((pool.threads.map importedBy)[2]?.join.map fun answer =>
            (answer.duplicate, answer.etag, answer.missingUpdateBase64),
          (storedNote pool).map fun envelope =>
            (envelope.etag, envelope.checkpointUpdateBase64)))
      = some
        (some (true, "loro:" ++ updateText [(0, titles)], updateText [(3, [])]),
          some ("loro:" ++ updateText [(0, titles)],
            updateText [(0, titles)])) := by
  decide +kernel

theorem carriedBy_updateText (update : EventLog.Update) :
    carriedBy crates.toCrates (updateText update)
      = EventLog.carried update := by
  show EventLog.operationsOf
    (EventLog.textBytes (EventLog.bytesText _)) = _
  rw [EventLog.textBytes_bytesText, EventLog.operationsOf_encode]

/--
The retry is answered as a duplicate that leaves its sender without the second
title.
-/
theorem retry_leaves_operation_out :
    ∃ pool thread answer envelope,
      StoreReaches port (setting notes) (Pool.idle emptyWorld) pool
        ∧ thread ∈ pool.threads
        ∧ thread.agent = importer 8 (retitles 1)
        ∧ thread.program = .done (.imported (.ok answer))
        ∧ answer.duplicate = true
        ∧ storedNote pool = some envelope
        ∧ answer.etag = envelope.etag
        ∧ carriedBy crates.toCrates envelope.checkpointUpdateBase64
            = crates.loro.operations retitled
        ∧ upToBase crates retitled (retitles 1)
              ∪ carriedBy crates.toCrates (retitles 1).updateBase64
              ∪ carriedBy crates.toCrates answer.missingUpdateBase64
            ≠ crates.loro.operations retitled := by
  obtain ⟨pool, ran, shown⟩ := Option.map_eq_some_iff.mp retriers_reply
  obtain ⟨replied, kept⟩ := Prod.mk.inj shown
  obtain ⟨answer, imported, replied⟩ := Option.map_eq_some_iff.mp replied
  obtain ⟨envelope, stored, kept⟩ := Option.map_eq_some_iff.mp kept
  obtain ⟨duplicate, etag, missing⟩ : answer.duplicate = true
      ∧ answer.etag = "loro:" ++ updateText [(0, titles)]
      ∧ answer.missingUpdateBase64 = updateText [(3, [])] := by
    simpa using replied
  obtain ⟨storedEtag, checkpoint⟩ := Prod.mk.inj kept
  obtain ⟨thread, there, same⟩ :
      ∃ thread, pool.threads[2]? = some thread
        ∧ importedBy thread = some answer := by
    rw [Option.join_eq_some_iff, List.getElem?_map] at imported
    exact Option.map_eq_some_iff.mp imported
  have agent : thread.agent = importer 8 (retitles 1) := by
    have agents := congrArg (fun list => list[2]?) (agents_served ran)
    simp only [List.getElem?_map, there, Option.map_some] at agents
    exact Option.some.inj agents
  refine ⟨pool, thread, answer, envelope, reaches_served ran,
    List.mem_of_getElem? there, agent, program_of_importedBy same, duplicate,
    stored, etag.trans storedEtag.symm, ?_, ?_⟩
  · rw [checkpoint, carriedBy_updateText]
    exact EventLog.carried_wholeUpdate [titles]
  · rw [missing, carriedBy_updateText]
    intro whole
    let skipped : EventLog.Operation :=
      { peer := 0, counter := 1, entry := titled false "b" }
    have held : skipped ∈ crates.loro.operations retitled := rfl
    rw [← whole] at held
    rcases held with (⟨-, version, known, named⟩ | sent) | missed
    · have read : @baseVersion crates retitled (importBase (retitles 1))
          = .ok (EventLog.versionOfHeads [(0, 1)]) := by
        decide +kernel
      cases Except.ok.inj (read.symm.trans known)
      revert named
      show ¬ (EventLog.versionOfHeads [(0, 1)]).includesId 0 1 = true
      decide +kernel
    · have start : 2 ≤ 1 := sent.1
      omega
    · have start : 3 ≤ 1 := missed.1
      omega

/-- The replies of that pool are exact as far as the theorem says. -/
theorem replies_exact_iff_retriers :
    ∃ pool, served retriers = some pool
      ∧ ∀ thread ∈ pool.threads, RepliedExactly port pool.world thread := by
  obtain ⟨pool, ran, -⟩ := Option.map_eq_some_iff.mp retriers_reply
  refine ⟨pool, ran, ?_⟩
  refine replies_exact_iff ⟨rfl, fun _ _ => rfl, fun _ _ member => ?_⟩
    (fun _ _ member => ?_) (fun _ _ => False.elim)
    sha256Hex_injective (reaches_served ran)
  · cases member
  · cases member

end Retry

end Clerkenwell.Store
