import Clerkenwell.Store.ExactReplies
import Clerkenwell.Store.Versions

/-!
# Whose operations a document holds

A commit binds the peers of the operations it brings to the principal it is
made for, and leaves the bindings there were.  So an operation of a checkpoint
is traced back, through envelopes that all bind its peer to one principal, to
the commit that brought it: one of that principal, of a migration, or bytes no
service wrote.
-/

namespace Clerkenwell.Store

open Clerkenwell.Foundation
open Clerkenwell.Doc

/-! ## Bindings -/

section Bindings

variable {peers : Bindings} {actor : Principal} {committed : List Nat}

/-- A peer bound before a commit is bound as it was. -/
theorem getElem?_bindPeers_of_bound {peer : Nat} {principal : Principal}
    (bound : peers[peer]? = some principal) :
    (bindPeers peers actor committed)[peer]? = some principal := by
  unfold bindPeers
  induction committed generalizing peers with
  | nil => exact bound
  | cons first rest inductionHypothesis =>
      rw [List.foldl_cons]
      apply inductionHypothesis
      split
      · exact bound
      · rename_i unbound
        have different : first ≠ peer := by
          rintro rfl
          rw [Std.ExtTreeMap.contains_eq_isSome_getElem?, bound] at unbound
          exact unbound rfl
        rw [Std.ExtTreeMap.getElem?_insert,
          if_neg (mt Nat.compare_eq_eq.mp different)]
        exact bound

/-- A peer of a commit is bound to its actor, unless it was bound before. -/
theorem getElem?_bindPeers_of_mem {peer : Nat} (member : peer ∈ committed) :
    (bindPeers peers actor committed)[peer]?
      = some (peers[peer]?.getD actor) := by
  cases bound : peers[peer]? with
  | some principal => exact getElem?_bindPeers_of_bound bound
  | none =>
      rw [Option.getD_none]
      unfold bindPeers
      induction committed generalizing peers with
      | nil => cases member
      | cons first rest inductionHypothesis =>
          rw [List.foldl_cons]
          rcases eq_or_ne first peer with rfl | different
          · have unbound : peers.contains first = false := by
              rw [Std.ExtTreeMap.contains_eq_isSome_getElem?, bound]
              rfl
            rw [unbound, if_neg Bool.false_ne_true]
            apply getElem?_bindPeers_of_bound
            exact Std.ExtTreeMap.getElem?_insert_self
          · have later : peer ∈ rest :=
              (List.mem_cons.mp member).resolve_left different.symm
            apply inductionHypothesis later
            split
            · exact bound
            · rw [Std.ExtTreeMap.getElem?_insert,
                if_neg (mt Nat.compare_eq_eq.mp different)]
              exact bound

end Bindings

section Attribution

variable {crates : StoreCrates} {port : PortContract}
variable {application : Application} {setting : Setting crates application}

/-! ## The peers of a commit -/

variable {encoded : String} {peers : List Nat} {update : Bytes}
variable {id : Nat × Int}

/-- The peers an update's metadata names hold all of its operations. -/
theorem mem_peers_of_updateIds {accepted : List (Nat × Nat)}
    (found :
      CollaborationReplica.versionOfUpdate crates.toCrates encoded
        = .ok accepted)
    (decoded : crates.base64.decode encoded = .ok update)
    (member : id ∈ updateIds crates update) :
    id.1 ∈ accepted.map Prod.fst := by
  rcases versionOfUpdate_ok found with ⟨read, ends, same, meta_, rfl⟩
  cases Except.ok.inj (decoded.symm.trans same)
  have within := crates.loro.counter_lt_decodeImportBlobMeta update ends id.1
    id.2 meta_ member
  rw [List.map_map]
  cases held : ends[id.1]? with
  | none =>
      rw [VersionVector.counter, held, Option.getD_none] at within
      omega
  | some counter =>
      exact List.mem_map.mpr ⟨(id.1, counter),
        Std.ExtTreeMap.mem_toList_iff_getElem?_eq_some.mpr held, rfl⟩

theorem mem_peersInUpdate
    (found :
      CollaborationReplica.peersInUpdate crates.toCrates encoded = .ok peers)
    (decoded : crates.base64.decode encoded = .ok update)
    (member : id ∈ updateIds crates update) : id.1 ∈ peers := by
  rcases except_bind_ok found with ⟨accepted, versions, same⟩
  cases same
  exact mem_peers_of_updateIds versions decoded member

/-- The peers with new operations hold what the replica lacks of an update. -/
theorem mem_peersWithNewOperations
    {replica : CollaborationReplica crates.toCrates}
    (found : replica.peersWithNewOperations encoded = .ok peers)
    (decoded : crates.base64.decode encoded = .ok update)
    (member : id ∈ updateIds crates update)
    (lacking : id ∉ crates.loro.id '' crates.loro.operations replica.doc) :
    id.1 ∈ peers := by
  rcases except_bind_ok found with ⟨ends, read, same⟩
  cases same
  rcases updateEndVersion_ok read with ⟨held, sameUpdate, meta_, -⟩
  cases Except.ok.inj (decoded.symm.trans sameUpdate)
  have within := crates.loro.counter_lt_decodeImportBlobMeta update ends id.1
    id.2 meta_ member
  have beyond := mt (crates.loro.mem_operations replica.doc id.1 id.2).mpr
    lacking
  rw [not_and, not_lt] at beyond
  cases there : ends[id.1]? with
  | none =>
      rw [VersionVector.counter, there, Option.getD_none] at within
      omega
  | some counter =>
      have counter_eq : ends.counter id.1 = counter := by
        rw [VersionVector.counter, there, Option.getD_some]
      have ahead : (crates.loro.oplogVv replica.doc).counter id.1 < counter :=
        lt_of_le_of_lt (beyond within.1) (counter_eq ▸ within.2)
      apply List.mem_map.mpr
      refine ⟨(id.1, counter), List.mem_filter.mpr ⟨?_, ?_⟩, rfl⟩
      · exact Std.ExtTreeMap.mem_toList_iff_getElem?_eq_some.mpr there
      · exact decide_eq_true ahead

/-! ## Commits -/

/-- Whether a call rewrites a document for another schema version. -/
def Call.migrates : Call application → Bool
  | .migrate _ _ _ _ _ _ => true
  | _ => false

/-- Whether a call commits what a client sends it. -/
def Call.imports : Call application → Bool
  | .importUpdate _ _ _ => true
  | .edit _ _ _ => true
  | .editText _ _ _ => true
  | _ => false

/-- A migration brings nothing a client sends. -/
theorem imports_of_migrates {call : Call application}
    (migrates : call.migrates = true) : call.imports = false := by
  cases call with
  | migrate => rfl
  | _ => cases migrates

/-- The principal a caller writes for: a client's, or the service's own. -/
def Caller.writesAs (caller : Caller application) : Principal :=
  match caller.call with
  | .importUpdate _ request _ => request.actor
  | .edit _ change _ => change.actor
  | .editText _ change _ => change.actor
  | .repair actor _ _ => actor
  | .delete actor _ _ => actor
  | _ => caller.service.system

variable {caller : Caller application}
variable {current : Option DurableCollaborationEnvelope}
variable {commit : CollaborationCommit}

/-- A commit names the peers of what it brings, for the caller it is of. -/
structure NamesPeers (crates : StoreCrates) (caller : Caller application)
    (current : Option DurableCollaborationEnvelope)
    (commit : CollaborationCommit) : Prop where
  actor : commit.actor = caller.writesAs
  brought : ∀ id ∈ updateIds crates commit.acceptedUpdate,
    (∀ envelope, current = some envelope →
      ∀ checkpoint, envelope.HasCheckpoint crates checkpoint →
        id ∉ updateIds crates checkpoint) →
    id.1 ∈ commit.peers ∨ caller.call.migrates = true
  allocated : caller.call.imports = true → ∀ peer ∈ commit.peers, ∃ nonce,
    blockOf peer
      = peerBase crates caller.service.key commit.actor commit.document nonce

theorem blockOf_of_requireAllocatedPeers {service : Service}
    {request : CollaborationImportRequest}
    (allocated : requireAllocatedPeers crates service request peers = .ok ())
    {peer : Nat} (member : peer ∈ peers) :
    ∃ nonce, blockOf peer
      = peerBase crates service.key request.actor request.document nonce := by
  rw [requireAllocatedPeers] at allocated
  split at allocated
  · rename_i none_unallocated
    rw [List.isEmpty_iff, List.filter_eq_nil_iff] at none_unallocated
    have listed := none_unallocated peer member
    rw [Bool.not_eq_true, Bool.not_eq_false', List.contains_iff_mem]
      at listed
    rcases List.mem_map.mp listed with ⟨nonce, -, same⟩
    exact ⟨nonce, same.symm⟩
  · cases allocated

/-- A judged import commits the peers of the operations it brings. -/
theorem ImportAsks.namesPeers {plan : CollaborationEntitySpec}
    {request : CollaborationImportRequest}
    {validate : Json → Except application.Failure Unit}
    (asks : ImportAsks crates caller.service plan request validate current
      commit)
    (writes : caller.writesAs = request.actor) :
    NamesPeers crates caller current commit := by
  rcases asks.judged with ⟨update, isNew, against, judged, imported,
    judgedAgainst, accepted, rfl⟩
  have established := judgeImport_ok accepted
  rcases established.established with ⟨held, loads, found, allocated, -⟩
  rcases established.operations imported with ⟨currentUpdate, whole, -, names⟩
  have decoded := mapError_ok_iff.mp imported
  have split := orStoreError_ok_iff.mp found
  constructor
  · rw [established.actor, writes]
  · intro id member lacking
    apply Or.inl
    rw [established.acceptedUpdate, updateIds, names] at member
    cases judgedAgainst with
    | stored incremental =>
        have missing := lacking against rfl currentUpdate whole
        rcases member with earlier | new
        · exact absurd earlier missing
        · apply mem_peersWithNewOperations split decoded new
          rcases loadAuthoringDocument_ok loads with ⟨-, -, checkpoint, -⟩
          rw [checkpoint.operations whole]
          exact missing
    | @created authoring created incarnation bootstrap loaded exported named =>
        apply mem_peersInUpdate split decoded
        rcases member with earlier | new
        · cases Except.ok.inj
            (whole.1.symm.trans (crates.base64.decode_encode created))
          rcases CollaborationReplica.fromVersionedUpdateBase64_ok loaded
            with ⟨-, -, importedWhole, -⟩
          rcases importWhole_ok importedWhole with ⟨read, same, operations⟩
          cases Except.ok.inj (decoded.symm.trans same)
          rw [crates.loro.updateOperations_exportAllUpdates _ _
              (exportedUpdate_ok_iff.mp exported),
            operations, crates.loro.operations_new, Set.empty_union,
            crates.loro.newOperations_new] at earlier
          exact earlier
        · exact new
  · intro _ peer member
    rw [established.actor, established.document]
    exact blockOf_of_requireAllocatedPeers allocated member

/-- What a caller asks to commit: an import, a seed or a migration. -/
inductive CommitOf (crates : StoreCrates) (caller : Caller application)
    (current : Option DurableCollaborationEnvelope)
    (commit : CollaborationCommit) : Prop where
  | imported {plan : CollaborationEntitySpec}
      {request : CollaborationImportRequest}
      {validate : Json → Except application.Failure Unit}
      (imports : caller.call.imports = true)
      (writesAs : caller.writesAs = request.actor)
      (asks : ImportAsks crates caller.service plan request validate current
        commit)
  | seeded {plan : CollaborationEntitySpec}
      {document : CollaborationDocumentId} {given : Option String}
      {update : Bytes} {peers : List Nat} (new : current = none)
      (imports : caller.call.imports = false)
      (writesAs : caller.writesAs = caller.service.system)
      (blank : given.any Text.isBlank = false)
      (found : CollaborationReplica.peersInUpdate crates.toCrates
        (crates.base64.encode update) = .ok peers)
      (same : commit
        = seedCommit crates caller.service plan document given update peers)
  | migrated {plan : CollaborationEntitySpec}
      {document : CollaborationDocumentId} {fromSchemaVersion : Nat}
      {update : String} (migrates : caller.call.migrates = true)
      (writesAs : caller.writesAs = caller.service.system)
      (asks : MigrationAsks crates caller.service plan document
        fromSchemaVersion update current commit)

theorem commitOf_asks (asks : Asks crates caller current commit) :
    CommitOf crates caller current commit := by
  rcases caller with ⟨service, call⟩
  cases call with
  | importUpdate plan request validate => exact .imported rfl rfl asks
  | edit plan change validate =>
      rcases asks with ⟨request, ⟨base, update, nonces, rfl⟩, asked⟩
      exact .imported rfl rfl asked
  | editText plan change validate =>
      rcases asks with ⟨request, ⟨update, nonces, rfl⟩, asked⟩
      exact .imported rfl rfl asked
  | bootstrap plan document seed validate turns =>
      rcases asks with ⟨new, blank, acceptedUpdate, peers, -, found, same⟩
      exact .seeded new rfl rfl blank found same
  | bootstrapUpdate plan document schemaVersion update incarnation validate
      turns =>
      rcases asks with ⟨new, blank, acceptedUpdate, peers, -, found, same⟩
      exact .seeded new rfl rfl blank found same
  | migrate plan document fromSchemaVersion update validate turns =>
      exact .migrated rfl rfl asks
  | _ => cases asks

/-- Every commit a caller asks for names the peers of what it brings. -/
theorem namesPeers_of_asks (asks : Asks crates caller current commit) :
    NamesPeers crates caller current commit := by
  cases commitOf_asks asks with
  | imported imports writesAs asked => exact asked.namesPeers writesAs
  | seeded new imports writesAs blank found same =>
      subst same
      refine ⟨writesAs.symm, fun id member _ => .inl ?_, fun never => ?_⟩
      · exact mem_peersInUpdate found (crates.base64.decode_encode _) member
      · rw [imports] at never
        cases never
  | migrated migrates writesAs asked =>
      rcases asked.asked with ⟨envelope, replica, acceptedUpdate, incarnation,
        peers, -, -, -, -, -, -, -, -, rfl⟩
      refine ⟨writesAs.symm, fun _ _ _ => .inr migrates, fun never => ?_⟩
      rw [imports_of_migrates migrates] at never
      cases never

/-- A commit's peers are bound to its actor, none of them being another's. -/
theorem peers_nextEnvelope_of_mem {policy : CommitPolicy}
    {document : CollaborationDocumentId}
    {incarnation : String} {peer : Nat} (listed : peer ∈ commit.peers)
    (unshared : ∀ envelope, current = some envelope →
      boundElsewhere envelope commit = []) :
    (nextEnvelope crates policy current document commit incarnation).peers[
      peer]? = some commit.actor := by
  cases current with
  | none =>
      apply (getElem?_bindPeers_of_mem listed).trans
      rw [Option.map_none, Option.getD_none,
        Std.ExtTreeMap.getElem?_empty, Option.getD_none]
  | some envelope =>
      apply (getElem?_bindPeers_of_mem listed).trans
      rw [Option.map_some, Option.getD_some]
      cases bound : envelope.peers[peer]? with
      | none => rfl
      | some principal =>
          have mine := List.filter_eq_nil_iff.mp (unshared envelope rfl) peer
            listed
          rw [bound, Option.any_some, decide_eq_true_eq, ne_eq, not_not]
            at mine
          rw [Option.getD_some, mine]

/-! ## Origins -/

variable (crates) in
/-- What is kept holds an operation, its peer bound to a principal. -/
def HeldFor (content : Option StoredEnvelope) (id : Nat × Int)
    (principal : Principal) : Prop :=
  ∃ stored envelope checkpoint, content = some stored
    ∧ decodeEnvelope crates stored.bytes = .ok envelope
    ∧ envelope.HasCheckpoint crates checkpoint
    ∧ id ∈ updateIds crates checkpoint
    ∧ envelope.peers[id.1]? = some principal

variable (crates port) in
/--
A caller may bring operations of a peer bound to a principal.  A client brings
its own, under peers of a block its service names for it.
-/
structure MayBring (caller : Caller application) (source : String)
    (peer : Nat) (principal : Principal) : Prop where
  writer : caller.writesAs = principal ∨ caller.call.migrates = true
  allocated : caller.call.imports = true → ∃ document nonce,
    port.source document = source
      ∧ blockOf peer
        = peerBase crates caller.service.key principal document nonce

/-- Every operation of a whole envelope is held for some principal. -/
theorem Holds.heldFor {stored : StoredEnvelope}
    {envelope : DurableCollaborationEnvelope} {accepted : List (Nat × Nat)}
    {checkpoint : Bytes}
    (holds : Holds crates stored.bytes envelope accepted)
    (has : envelope.HasCheckpoint crates checkpoint)
    (member : id ∈ updateIds crates checkpoint) :
    ∃ principal, envelope.peers[id.1]? = some principal
      ∧ HeldFor crates (some stored) id principal := by
  have valid := validateEnvelope_ok_iff.mp holds.valid
  have listed := mem_peers_of_updateIds valid.accepts has.1 member
  have contained := valid.bound id.1 listed
  rw [Std.ExtTreeMap.contains_eq_isSome_getElem?, Option.isSome_iff_exists]
    at contained
  rcases contained with ⟨principal, bound⟩
  exact ⟨principal, bound, stored, envelope, checkpoint, rfl, holds.decoded,
    has, member, bound⟩

/-- The bytes a built envelope is encoded as hold it. -/
theorem Builds.decoded {policy : CommitPolicy}
    {next : DurableCollaborationEnvelope}
    {bytes : Bytes} (builds : Builds crates policy current commit next)
    (encoded : crates.toVecPretty next = .ok bytes) :
    decodeEnvelope crates bytes = .ok next := by
  rcases builds.built with ⟨incarnation, -, rfl⟩
  exact decodeEnvelope_toVecPretty encoded rfl

variable {source : String} {principal : Principal}

/-- What a commit leaves held was held before, or its caller brought it. -/
theorem heldFor_of_builds {older : Option StoredEnvelope}
    {next : DurableCollaborationEnvelope} {checkpoint : Bytes}
    (place : source = port.source commit.document)
    (above : Current crates older current)
    (asks : Asks crates caller current commit)
    (builds : Builds crates caller.service.policy current commit next)
    (has : next.HasCheckpoint crates checkpoint)
    (member : id ∈ updateIds crates checkpoint)
    (bound : next.peers[id.1]? = some principal) :
    HeldFor crates older id principal
      ∨ (∀ other, ¬ HeldFor crates older id other)
        ∧ MayBring crates port caller source id.1 principal := by
  have names := namesPeers_of_asks asks
  rcases builds.built with ⟨incarnation, -, rfl⟩
  cases Except.ok.inj (has.1.symm.trans (crates.base64.decode_encode _))
  by_cases earlier : ∃ other, HeldFor crates older id other
  · rcases earlier with ⟨other, held⟩
    -- a binding of the envelope replaced is one of the next
    have same : other = principal := by
      rcases held with ⟨stored, envelope, -, rfl, decoded, -, -, was⟩
      cases current with
      | none => cases above
      | some previous =>
          rcases above with ⟨peers, holds⟩
          cases Except.ok.inj (decoded.symm.trans holds.decoded)
          exact Option.some.inj
            ((getElem?_bindPeers_of_bound was).symm.trans bound)
    exact .inl (same ▸ held)
  · apply Or.inr
    refine ⟨fun other held => earlier ⟨other, held⟩, ?_⟩
    have lacking : ∀ envelope, current = some envelope →
        ∀ update, envelope.HasCheckpoint crates update →
          id ∉ updateIds crates update := by
      rintro envelope rfl update held inside
      cases older with
      | none => cases above
      | some stored =>
          rcases above with ⟨peers, holds⟩
          rcases holds.heldFor held inside with ⟨other, -, there⟩
          exact earlier ⟨other, there⟩
    rcases names.brought id member lacking with listed | migrates
    · have actor : commit.actor = principal := by
        rw [peers_nextEnvelope_of_mem listed fun envelope there =>
          (builds.adds envelope there).bound] at bound
        exact Option.some.inj bound
      subst actor
      constructor
      · exact .inl names.actor.symm
      · intro imports
        rcases names.allocated imports id.1 listed with ⟨nonce, block⟩
        exact ⟨commit.document, nonce, place.symm, block⟩
    · refine ⟨.inr migrates, fun imports => ?_⟩
      rw [imports_of_migrates migrates] at imports
      cases imports

/-- What a write leaves held was held before, or its caller brought it. -/
theorem Writes.heldFor {older newer : Option StoredEnvelope}
    (writes : Writes crates port caller source older newer)
    (held : HeldFor crates newer id principal) :
    HeldFor crates older id principal
      ∨ (∀ other, ¬ HeldFor crates older id other)
        ∧ MayBring crates port caller source id.1 principal := by
  rcases held with ⟨stored, envelope, checkpoint, kept, decoded, has, member,
    bound⟩
  cases writes with
  | committed place above asks builds encoded =>
      cases kept
      cases Except.ok.inj (decoded.symm.trans (builds.decoded encoded))
      exact heldFor_of_builds place above asks builds has member bound
  | repaired call place above opened valid encoded =>
      cases kept
      have format := (fromSlice_of_decodeEnvelope opened).2
      cases Except.ok.inj (decoded.symm.trans
        (decodeEnvelope_toVecPretty encoded format))
      exact .inl ⟨_, _, checkpoint, above, opened, has, member, bound⟩
  | removed call place => cases kept

variable (crates port) in
/--
How an operation came to be held of a peer bound to a principal.  Some change
brought it, everything since holds it for that principal, and the change is of
bytes no service wrote or of a caller that may bring it where nothing held it.
-/
def BroughtBy (source : String)
    (history : List (Change (Caller application))) (id : Nat × Int)
    (principal : Principal) : Prop :=
  ∃ since change before, history = since ++ change :: before
    ∧ (∀ later ∈ change :: since, HeldFor crates later.content id principal)
    ∧ ∀ caller, change.writer = some caller →
        (∀ other, ¬ HeldFor crates (contentOf before) id other)
          ∧ MayBring crates port caller source id.1 principal

/-- What is held in a written history was brought to it. -/
theorem Written.broughtBy
    {history : List (Change (Caller application))} (written : Written crates port source history)
    (held : HeldFor crates (contentOf history) id principal) :
    BroughtBy crates port source history id principal := by
  induction history with
  | nil =>
      rcases held with ⟨_, _, _, never, -⟩
      cases never
  | cons newest rest inductionHypothesis =>
      have here : HeldFor crates newest.content id principal := held
      cases writer : newest.writer with
      | none =>
          refine ⟨[], newest, rest, rfl, ?_, ?_⟩
          · intro later only
            rw [List.mem_singleton.mp only]
            exact here
          · rw [writer]
            rintro _ ⟨⟩
      | some caller =>
          rcases (written.1 caller writer).heldFor here with before | brought
          · rcases inductionHypothesis written.2 before with
              ⟨since, change, older, rfl, held, brings⟩
            refine ⟨newest :: since, change, older, rfl, ?_, brings⟩
            intro later member
            rw [List.mem_cons, List.mem_cons] at member
            rcases member with rfl | rfl | earlier
            · exact held _ List.mem_cons_self
            · exact here
            · exact held later (List.mem_cons_of_mem _ earlier)
          · refine ⟨[], newest, rest, rfl, ?_, ?_⟩
            · intro later only
              rw [List.mem_singleton.mp only]
              exact here
            · intro other wrote
              rw [writer] at wrote
              cases wrote
              exact brought

variable (crates port) in
/--
Each operation in each whole envelope a source ever held is of a peer bound to
one principal, and was brought as `BroughtBy` says.
-/
def OperationsAttributed (source : String)
    (kept : List (Change (Caller application))) : Prop :=
  ∀ history, history <:+ kept → ∀ stored envelope accepted checkpoint,
    contentOf history = some stored →
      Holds crates stored.bytes envelope accepted →
        envelope.HasCheckpoint crates checkpoint →
          ∀ id ∈ updateIds crates checkpoint,
            ∃ principal, envelope.peers[id.1]? = some principal
              ∧ BroughtBy crates port source history id principal

/-- No interleaving of calls attributes an operation to who did not bring it. -/
theorem operations_attributed {start : StoreWorld crates application}
    {pool : StorePool crates application} (begun : Begun port start)
    (reaches : StoreReaches port setting (Pool.idle start) pool)
    (source : String) :
    OperationsAttributed crates port source (pool.world.kept source) := by
  intro history within stored envelope accepted checkpoint content holds has
    id member
  rcases sound_of_reaches begun reaches with ⟨sound, -⟩
  have written := Written.suffix crates port within
    (sound.invariant.written source)
  rcases holds.heldFor has member with ⟨principal, bound, held⟩
  rw [← content] at held
  exact ⟨principal, bound, written.broughtBy held⟩

end Attribution

section Retry

open Serving

/-- The world the servers of notes begin in. -/
theorem begun_emptyWorld :
    Begun port (emptyWorld : StoreWorld Serving.crates notes) where
  residents := rfl
  held := fun _ _ => rfl
  kept := by
    rintro _ _ ⟨⟩

/-- The titles of the note that is retitled are its writer's. -/
theorem operations_attributed_retriers :
    ∃ pool, served retriers = some pool
      ∧ OperationsAttributed Serving.crates Serving.port (source note)
          (pool.world.kept (source note)) := by
  rcases Option.map_eq_some_iff.mp retriers_reply with ⟨pool, ran, -⟩
  exact ⟨pool, ran, operations_attributed begun_emptyWorld
    (reaches_served ran) (source note)⟩

end Retry

end Clerkenwell.Store
