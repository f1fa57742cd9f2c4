import Clerkenwell.Store.Attribution

/-!
# The window of retained operations

An envelope retains its last operations.  Whatever services write, in whatever
order, a window holds each operation id once, each sequence since what was
compacted, no more operations than its writer's policy keeps, and nothing that
its checkpoint does not hold.
-/

namespace Clerkenwell.Store

open Clerkenwell.Foundation
open Clerkenwell.Doc

/-! ## Windows -/

/-- Strictly increasing sequences are as far apart as they are many. -/
theorem Increases.add_length_le {previous last : Nat}
    {operations : List CollaborationOperation}
    (increases : Increases previous operations last) :
    previous + operations.length ≤ last := by
  induction increases with
  | nil sequence => exact le_rfl
  | cons after others inductionHypothesis =>
      rw [List.length_cons]
      omega

theorem increases_nil_iff {previous last : Nat} :
    Increases previous [] last ↔ last = previous := by
  constructor
  · rintro ⟨⟩
    rfl
  · rintro rfl
    exact .nil last

/-- What is compacted when a window is retained that ends at a sequence. -/
def compactedBefore (operations : List CollaborationOperation)
    (sequence : Nat) : Nat :=
  (operations.head?.map CollaborationOperation.sequence).getD sequence - 1

/-- Operations whose sequences follow one another increase. -/
theorem increases_of_sequences {previous : Nat}
    {operations : List CollaborationOperation}
    (sequences : operations.map CollaborationOperation.sequence
      = List.range' (previous + 1) operations.length) :
    Increases previous operations (previous + operations.length) := by
  induction operations generalizing previous with
  | nil => exact .nil previous
  | cons operation rest inductionHypothesis =>
      rw [List.map_cons, List.length_cons, List.range'_succ] at sequences
      rcases List.cons.inj sequences with ⟨first, others⟩
      have later := inductionHypothesis others
      rw [Nat.add_assoc, Nat.add_comm 1] at later
      apply Increases.cons
      · omega
      · rw [first]
        exact later

section Concat

variable {older : List CollaborationOperation} {last : CollaborationOperation}
variable {first : Nat}

theorem compactedBefore_concat
    (sequences : older.map CollaborationOperation.sequence
      = List.range' first older.length)
    (some_ : older ≠ []) (sequence : Nat) :
    compactedBefore (older ++ [last]) sequence = first - 1 := by
  cases older with
  | nil => exact absurd rfl some_
  | cons oldest rest =>
      rw [List.map_cons, List.length_cons, List.range'_succ] at sequences
      rw [← (List.cons.inj sequences).1]
      rfl

/-- A window that goes on where an older one ends holds every sequence. -/
theorem sequences_concat (last : CollaborationOperation)
    (sequences : older.map CollaborationOperation.sequence
      = List.range' first older.length)
    (ends : older ≠ [] → last.sequence = first + older.length)
    (firstPos : 0 < first) (lastPos : 0 < last.sequence) :
    (older ++ [last]).map CollaborationOperation.sequence
        = List.range' (compactedBefore (older ++ [last]) last.sequence + 1)
            (older ++ [last]).length
      ∧ compactedBefore (older ++ [last]) last.sequence
          + (older ++ [last]).length = last.sequence := by
  rcases eq_or_ne older [] with rfl | some_
  · have before : compactedBefore [last] last.sequence + 1 = last.sequence :=
      Nat.sub_add_cancel lastPos
    rw [List.nil_append, before]
    exact ⟨rfl, before⟩
  · have follows := ends some_
    rw [compactedBefore_concat sequences some_, List.length_append,
      List.length_singleton]
    constructor
    · rw [List.map_append, sequences, Nat.sub_add_cancel firstPos,
        List.range'_concat, List.map_singleton, follows, Nat.one_mul]
    · omega

/-- A window that increases and goes no further than it may goes on. -/
theorem ends_of_increases
    (sequences : older.map CollaborationOperation.sequence
      = List.range' first older.length)
    (most : older ≠ [] → last.sequence ≤ first + older.length)
    (firstPos : 0 < first)
    (increases :
      Increases (compactedBefore (older ++ [last]) last.sequence)
        (older ++ [last]) last.sequence)
    (some_ : older ≠ []) : last.sequence = first + older.length := by
  have apart := increases.add_length_le
  have bound := most some_
  rw [compactedBefore_concat sequences some_, List.length_append,
    List.length_singleton] at apart
  omega

end Concat

/-- A window holds every sequence since what was compacted. -/
structure Contiguous (envelope : DurableCollaborationEnvelope) : Prop where
  sequences :
    envelope.retainedOperations.map CollaborationOperation.sequence
      = List.range' (envelope.compactedThroughSequence + 1)
          envelope.retainedOperations.length
  ends : envelope.compactedThroughSequence
      + envelope.retainedOperations.length = envelope.checkpointSequence

/-- What a policy keeps of operations and one more ends with the one more. -/
theorem keepLast_concat {kept : Nat} (operations : List CollaborationOperation)
    (last : CollaborationOperation) :
    keepLast (kept + 1) (operations ++ [last])
      = operations.drop (operations.length - kept) ++ [last] := by
  rw [keepLast, List.length_append, List.length_singleton,
    Nat.add_sub_add_right, List.drop_append_of_le_length (Nat.sub_le _ _)]

section Windows

variable {crates : StoreCrates} {port : PortContract}
variable {application : Application} {setting : Setting crates application}
variable {policy : CommitPolicy}
variable {current : Option DurableCollaborationEnvelope}
variable {document : CollaborationDocumentId} {commit : CollaborationCommit}
variable {incarnation : String} {caller : Caller application}

/-- The operations a commit keeps of those retained before it. -/
def carriedOver (current : Option DurableCollaborationEnvelope)
    (commit : CollaborationCommit) : List CollaborationOperation :=
  match current with
  | none => []
  | some state =>
      if state.schemaVersion ≠ commit.schemaVersion then []
      else state.retainedOperations

theorem carriedOver_eq (current : Option DurableCollaborationEnvelope)
    (commit : CollaborationCommit) :
    carriedOver current commit = []
      ∨ ∃ envelope, current = some envelope
          ∧ carriedOver current commit = envelope.retainedOperations := by
  cases current with
  | none => exact .inl rfl
  | some envelope =>
      unfold carriedOver
      by_cases differs : envelope.schemaVersion ≠ commit.schemaVersion
      · exact .inl (if_pos differs)
      · exact .inr ⟨envelope, rfl, if_neg differs⟩

theorem nextRetained_eq_keepLast (crates : StoreCrates) :
    nextRetained crates policy current commit
      = keepLast policy.retainedOperations
          (carriedOver current commit
            ++ [CollaborationOperation.fromUpdate crates commit.operationId
              (nextSequence current) commit.schemaVersion commit.actor
              commit.intent commit.importedUpdate]) := by
  cases current <;> rfl

theorem nextSequence_pos : 0 < nextSequence current := by
  cases current with
  | none => exact Nat.one_pos
  | some state => exact lt_min (Nat.succ_pos _) (by decide)

/-- The window of the envelope a commit builds, as it is checked. -/
def NextIncreases (crates : StoreCrates) (policy : CommitPolicy)
    (current : Option DurableCollaborationEnvelope)
    (commit : CollaborationCommit) : Prop :=
  let retained := nextRetained crates policy current commit
  Increases (compactedBefore retained (nextSequence current)) retained
    (nextSequence current)

/-- A policy that keeps no operations has no window that passes the check. -/
theorem retainedOperations_pos
    (increases : NextIncreases crates policy current commit) :
    0 < policy.retainedOperations := by
  rw [Nat.pos_iff_ne_zero]
  intro none_kept
  have empty : nextRetained crates policy current commit = [] := by
    rw [nextRetained_eq_keepLast, none_kept, keepLast, Nat.sub_zero,
      List.drop_length]
  rw [NextIncreases, empty, increases_nil_iff] at increases
  have positive : 0 < nextSequence current := nextSequence_pos
  have before : compactedBefore [] (nextSequence current)
      = nextSequence current - 1 := rfl
  omega

/-- What a commit carries over is contiguous, up to the one before its own. -/
theorem sequences_carriedOver {dropped : Nat}
    (before : ∀ envelope, current = some envelope → Contiguous envelope)
    (within : dropped ≤ (carriedOver current commit).length) :
    ∃ first, 0 < first
      ∧ ((carriedOver current commit).drop dropped).map
          CollaborationOperation.sequence
        = List.range' first
            ((carriedOver current commit).drop dropped).length
      ∧ ((carriedOver current commit).drop dropped ≠ [] →
        ∃ envelope, current = some envelope
          ∧ first + ((carriedOver current commit).drop dropped).length
            = envelope.checkpointSequence + 1) := by
  rcases carriedOver_eq current commit with
    none_carried | ⟨envelope, rfl, carried⟩
  · rw [none_carried, List.drop_nil]
    exact ⟨1, Nat.one_pos, rfl, fun some_ => absurd rfl some_⟩
  · rw [carried] at within ⊢
    have whole := before envelope rfl
    refine ⟨envelope.compactedThroughSequence + 1 + dropped,
      Nat.add_pos_left (Nat.succ_pos _) _, ?_, fun _ => ?_⟩
    · rw [List.map_drop, whole.sequences, List.drop_range', Nat.mul_one,
        List.length_drop]
    · have ends := whole.ends
      refine ⟨envelope, rfl, ?_⟩
      rw [List.length_drop]
      omega

/-- A commit continues the window of what it is committed over. -/
theorem contiguous_nextEnvelope
    (before : ∀ envelope, current = some envelope → Contiguous envelope)
    (increases : NextIncreases crates policy current commit) :
    Contiguous
      (nextEnvelope crates policy current document commit incarnation) := by
  cases keeps : policy.retainedOperations with
  | zero => exact absurd keeps (retainedOperations_pos increases).ne'
  | succ kept =>
      rw [NextIncreases, nextRetained_eq_keepLast, keeps, keepLast_concat]
        at increases
      rcases sequences_carriedOver before
          (Nat.sub_le (carriedOver current commit).length kept)
        with ⟨first, firstPos, sequences, follows⟩
      have ends := ends_of_increases sequences (fun some_ => by
        rcases follows some_ with ⟨envelope, rfl, same⟩
        rw [same]
        exact min_le_left _ _) firstPos increases
      have next := sequences_concat _ sequences ends firstPos
        nextSequence_pos
      rw [← keepLast_concat, ← keeps, ← nextRetained_eq_keepLast] at next
      exact ⟨next.1, next.2⟩

/-- A commit a policy keeps passes the check, while sequences can rise. -/
theorem nextIncreases_iff
    (before : ∀ envelope, current = some envelope → Contiguous envelope
      ∧ envelope.checkpointSequence < u64Max) :
    NextIncreases crates policy current commit
      ↔ 0 < policy.retainedOperations := by
  refine ⟨retainedOperations_pos, fun positive => ?_⟩
  cases keeps : policy.retainedOperations with
  | zero => exact absurd keeps positive.ne'
  | succ kept =>
      rw [NextIncreases, nextRetained_eq_keepLast, keeps, keepLast_concat]
      rcases sequences_carriedOver
          (fun envelope there => (before envelope there).1)
          (Nat.sub_le (carriedOver current commit).length kept)
        with ⟨first, firstPos, sequences, follows⟩
      have next := sequences_concat
        (CollaborationOperation.fromUpdate crates commit.operationId
          (nextSequence current) commit.schemaVersion commit.actor
          commit.intent commit.importedUpdate)
        sequences (fun some_ => by
          rcases follows some_ with ⟨envelope, rfl, same⟩
          rw [same]
          exact min_eq_left (before envelope rfl).2) firstPos
        nextSequence_pos
      have window := increases_of_sequences next.1
      rwa [next.2] at window

/-! ## Whole windows -/

/-- What an envelope retains, as services leave it. -/
structure WindowWhole (crates : StoreCrates)
    (envelope : DurableCollaborationEnvelope) : Prop where
  contiguous : Contiguous envelope
  once : (envelope.retainedOperations.map
    CollaborationOperation.operationId).Nodup
  held : HoldsRetained crates envelope

/-- What is kept is nothing, or an envelope whose window is whole. -/
def WindowIn (crates : StoreCrates) (content : Option StoredEnvelope) :
    Prop :=
  ∀ stored envelope accepted, content = some stored →
    Holds crates stored.bytes envelope accepted → WindowWhole crates envelope

theorem WindowIn.retainedIn {content : Option StoredEnvelope}
    (window : WindowIn crates content) : RetainedIn crates content :=
  fun stored envelope accepted kept holds =>
    (window stored envelope accepted kept holds).held

/-- A commit adds an operation whose id is not retained. -/
theorem once_nextEnvelope
    (before : ∀ envelope, current = some envelope →
      (envelope.retainedOperations.map
        CollaborationOperation.operationId).Nodup)
    (adds : ∀ envelope, current = some envelope →
      retainedOperation envelope commit.operationId = none) :
    ((nextRetained crates policy current commit).map
      CollaborationOperation.operationId).Nodup := by
  rw [nextRetained_eq_keepLast, keepLast, List.map_drop]
  apply List.Nodup.sublist (List.drop_sublist _ _)
  rw [List.map_append, List.map_singleton, List.nodup_append]
  rcases carriedOver_eq current commit with none_ | ⟨envelope, rfl, carried⟩
  · rw [none_]
    exact ⟨List.nodup_nil, List.nodup_singleton _, fun _ never => by
      cases never⟩
  · rw [carried]
    refine ⟨before envelope rfl, List.nodup_singleton _, ?_⟩
    rintro id listed _ only rfl
    rcases List.mem_map.mp listed with ⟨operation, member, same⟩
    have other := List.find?_eq_none.mp (adds envelope rfl) operation member
    rw [beq_iff_eq, same, List.mem_singleton.mp only] at other
    exact other rfl

/-- A write leaves a window whole if it was, and as long as its policy may. -/
theorem Writes.windowIn {source : String} {older newer : Option StoredEnvelope}
    (writes : Writes crates port caller source older newer)
    (before : WindowIn crates older) :
    WindowIn crates newer
      ∧ ∀ stored envelope accepted, newer = some stored →
          Holds crates stored.bytes envelope accepted →
            envelope.retainedOperations.length
              ≤ caller.service.policy.retainedOperations := by
  have retained := writes.retainedIn before.retainedIn
  cases writes with
  | @committed current commit next version bytes place above asks builds
      encoded =>
      have whole : ∀ envelope, current = some envelope →
          WindowWhole crates envelope := by
        rintro envelope rfl
        cases older with
        | none => cases above
        | some stored =>
            rcases above with ⟨accepted, holds⟩
            exact before stored envelope accepted rfl holds
      have decoded := builds.decoded encoded
      rcases builds.built with ⟨incarnation, -, rfl⟩
      constructor
      · rintro stored envelope accepted ⟨⟩ holds
        cases Except.ok.inj (holds.decoded.symm.trans decoded)
        have valid := validateEnvelope_ok_iff.mp holds.valid
        constructor
        · exact contiguous_nextEnvelope
            (fun envelope there => (whole envelope there).contiguous)
            valid.increases
        · exact once_nextEnvelope
            (fun envelope there => (whole envelope there).once)
            fun envelope there => (builds.adds envelope there).notRetained
        · exact retained _ _ accepted rfl holds
      · rintro stored envelope accepted ⟨⟩ holds
        cases Except.ok.inj (holds.decoded.symm.trans decoded)
        show (nextRetained _ _ _ _).length ≤ _
        rw [nextRetained_eq_keepLast, keepLast, List.length_drop]
        omega
  | @repaired actor document reason stored envelope peers version bytes call
      place above opened valid encoded =>
      have decoded := decodeEnvelope_toVecPretty encoded
        (fromSlice_of_decodeEnvelope opened).2
      constructor
      · rintro stored envelope accepted ⟨⟩ holds
        cases Except.ok.inj (holds.decoded.symm.trans decoded)
        exact ⟨⟨rfl, rfl⟩, List.nodup_nil, retained _ _ accepted rfl holds⟩
      · rintro stored envelope accepted ⟨⟩ holds
        cases Except.ok.inj (holds.decoded.symm.trans decoded)
        exact Nat.zero_le _
  | removed call place =>
      constructor
      · rintro stored envelope accepted ⟨⟩
      · rintro stored envelope accepted ⟨⟩

/-! ## Commits the check accepts -/

/-- The metadata of whatever a document exports is read. -/
def ReadsExports (loro : Loro) : Prop :=
  ∀ doc update, loro.exportAllUpdates doc = .ok update →
    ∃ ends, loro.decodeImportBlobMeta update = .ok ends

theorem exists_versionOfUpdate {encoded : String} {update : Bytes}
    {ends : VersionVector} (named : NamesHolders crates.loro)
    (decoded : crates.base64.decode encoded = .ok update)
    (read : crates.loro.decodeImportBlobMeta update = .ok ends) :
    ∃ accepted,
      CollaborationReplica.versionOfUpdate crates.toCrates encoded
        = .ok accepted := by
  simp only [CollaborationReplica.versionOfUpdate, updateEndVersion,
    decodeBase64, orReplicaError, decoded, read, Except.mapError, bind,
    Except.bind]
  apply exists_mapM_ok
  rintro ⟨peer, counter⟩ member
  have positive := named update ends read peer counter
    (Std.ExtTreeMap.mem_toList_iff_getElem?_eq_some.mp member)
  exact ⟨_, if_pos positive.le⟩

theorem versionOfUpdate_congr {encoded other : String}
    (same : crates.base64.decode encoded = crates.base64.decode other) :
    CollaborationReplica.versionOfUpdate crates.toCrates encoded
      = CollaborationReplica.versionOfUpdate crates.toCrates other := by
  unfold CollaborationReplica.versionOfUpdate updateEndVersion decodeBase64
  rw [same]

/-- Of each peer its metadata names, an update holds the last operation. -/
theorem last_mem_updateIds {encoded : String} {accepted : List (Nat × Nat)}
    {update : Bytes} {peer : Nat} (named : NamesHolders crates.loro)
    (found :
      CollaborationReplica.versionOfUpdate crates.toCrates encoded
        = .ok accepted)
    (decoded : crates.base64.decode encoded = .ok update)
    (listed : peer ∈ accepted.map Prod.fst) :
    ∃ counter, (peer, counter) ∈ updateIds crates update := by
  rcases versionOfUpdate_ok found with ⟨read, ends, same, meta_, rfl⟩
  cases Except.ok.inj (decoded.symm.trans same)
  rw [List.map_map] at listed
  rcases List.mem_map.mp listed with ⟨⟨holder, counter⟩, there, same⟩
  obtain rfl : holder = peer := same
  rw [Std.ExtTreeMap.mem_toList_iff_getElem?_eq_some] at there
  have ends_eq : ends.counter holder = counter := by
    rw [VersionVector.counter, there, Option.getD_some]
  have positive := named update ends meta_ holder counter there
  have starts := crates.loro.partialStartVv_lt update ends meta_ holder
    (ends_eq ▸ positive)
  refine ⟨counter - 1, ?_⟩
  rw [updateIds, crates.loro.mem_updateOperations update ends meta_, ends_eq]
  omega

variable (crates) in
/-- A commit's envelope passes its check, but for the window it retains. -/
structure Checkable (current : Option DurableCollaborationEnvelope)
    (commit : CollaborationCommit) : Prop where
  versioned : commit.schemaVersion ≠ 0
  named : ∀ incarnation, commit.incarnation = some incarnation →
    Text.isBlank incarnation = false
  accepts : ∃ accepted,
    CollaborationReplica.versionOfUpdate crates.toCrates
        (crates.base64.encode commit.acceptedUpdate) = .ok accepted
      ∧ ∀ peer ∈ accepted.map Prod.fst, peer ∈ commit.peers
        ∨ ∃ envelope, current = some envelope
            ∧ envelope.peers.contains peer = true

/-- What a commit is committed over is whole, and its sequences can rise. -/
def Extensible (crates : StoreCrates) (document : CollaborationDocumentId)
    (current : Option DurableCollaborationEnvelope) : Prop :=
  ∀ envelope, current = some envelope →
    (∃ accepted, validateEnvelope crates document envelope = .ok accepted)
      ∧ Contiguous envelope ∧ envelope.checkpointSequence < u64Max

theorem Extensible.bound (named : NamesHolders crates.loro)
    (extensible : Extensible crates document current)
    (names : NamesPeers crates caller current commit)
    (imports : caller.call.imports = true)
    {accepted : List (Nat × Nat)}
    (found : CollaborationReplica.versionOfUpdate crates.toCrates
      (crates.base64.encode commit.acceptedUpdate) = .ok accepted)
    {peer : Nat} (listed : peer ∈ accepted.map Prod.fst) :
    peer ∈ commit.peers ∨ ∃ envelope, current = some envelope
      ∧ envelope.peers.contains peer = true := by
  rcases last_mem_updateIds named found (crates.base64.decode_encode _) listed
    with ⟨counter, member⟩
  by_cases held : ∃ envelope checkpoint, current = some envelope
      ∧ envelope.HasCheckpoint crates checkpoint
      ∧ (peer, counter) ∈ updateIds crates checkpoint
  · rcases held with ⟨envelope, checkpoint, rfl, has, inside⟩
    rcases (extensible envelope rfl).1 with ⟨peers, checked⟩
    have valid := validateEnvelope_ok_iff.mp checked
    exact .inr ⟨envelope, rfl, valid.bound peer
      (mem_peers_of_updateIds valid.accepts has.1 inside)⟩
  · have lacking := names.brought (peer, counter) member
      fun envelope there checkpoint has inside =>
        held ⟨envelope, checkpoint, there, has, inside⟩
    rcases lacking with brought | migrates
    · exact .inl brought
    · rw [imports_of_migrates migrates] at imports
      cases imports

theorem ImportAsks.checkable {plan : CollaborationEntitySpec}
    {request : CollaborationImportRequest}
    {validate : Json → Except application.Failure Unit}
    (asks : ImportAsks crates caller.service plan request validate current
      commit)
    (named : NamesHolders crates.loro) (reads : ReadsExports crates.loro)
    (extensible : Extensible crates document current)
    (names : NamesPeers crates caller current commit)
    (imports : caller.call.imports = true) :
    Checkable crates current commit := by
  have versions : request.schemaVersion = plan.schemaVersion := by
    have wellFormed := asks.wellFormed
    rw [requireWellFormed] at wellFormed
    split at wellFormed
    · cases wellFormed
    · rename_i same
      exact not_not.mp same
  rcases asks.judged with ⟨update, isNew, against, judged, imported,
    judgedAgainst, accepted, rfl⟩
  have established := judgeImport_ok accepted
  rcases reads _ _ established.exported with ⟨ends, read⟩
  rw [← established.acceptedUpdate] at read
  rcases exists_versionOfUpdate named (crates.base64.decode_encode _) read
    with ⟨peers, found⟩
  constructor
  · rw [established.schemaVersion, versions]
    exact plan.schemaVersion_pos.ne'
  · intro incarnation given
    rw [established.incarnation] at given
    cases judgedAgainst with
    | stored => cases given
    | created bootstrap loaded exported blank =>
        cases given
        exact Bool.eq_false_iff.mpr blank
  · exact ⟨peers, found, fun peer listed =>
      extensible.bound named names imports found listed⟩

/-- Every commit a caller asks for passes the check, but for its window. -/
theorem checkable_of_asks (named : NamesHolders crates.loro)
    (reads : ReadsExports crates.loro)
    (asks : Asks crates caller current commit)
    (extensible : Extensible crates document current) :
    Checkable crates current commit := by
  have names := namesPeers_of_asks asks
  cases commitOf_asks asks with
  | imported imports writesAs asked =>
      exact asked.checkable named reads extensible names imports
  | @seeded plan seed given update peers new imports writesAs blank found
      same =>
      subst same
      rcases except_bind_ok found with ⟨accepted, versions, same⟩
      cases same
      refine ⟨plan.schemaVersion_pos.ne', ?_,
        ⟨accepted, versions, fun peer listed => .inl listed⟩⟩
      rintro incarnation rfl
      exact blank
  | @migrated plan document fromSchemaVersion update migrates writesAs asked =>
      rcases asked.asked with ⟨envelope, migrated, acceptedUpdate, incarnation,
        peers, rfl, -, -, decoded, -, unbound, blank, -, rfl⟩
      rcases except_bind_ok unbound with ⟨all, listed, same⟩
      cases same
      rcases except_bind_ok (orStoreError_ok_iff.mp listed)
        with ⟨accepted, versions, ⟨⟩⟩
      refine ⟨plan.schemaVersion_pos.ne', ?_, accepted, ?_, ?_⟩
      · rintro _ ⟨⟩
        exact Bool.eq_false_iff.mpr blank
      · rw [← versions]
        exact versionOfUpdate_congr
          ((crates.base64.decode_encode _).trans decoded.symm)
      · intro peer among
        cases held : envelope.peers.contains peer with
        | true => exact .inr ⟨envelope, rfl, held⟩
        | false =>
            apply Or.inl
            exact List.mem_filter.mpr ⟨among, by rw [held]; rfl⟩

/--
Whatever a caller asks to commit over a whole envelope is refused as corrupt
exactly when the policy keeps no operations.
-/
theorem nextEnvelope_valid_iff (named : NamesHolders crates.loro)
    (reads : ReadsExports crates.loro)
    (asks : Asks crates caller current commit)
    (extensible : Extensible crates commit.document current)
    (minted : current = none → Text.isBlank incarnation = false) :
    (∃ accepted, validateEnvelope crates commit.document
        (nextEnvelope crates policy current commit.document commit incarnation)
          = .ok accepted)
      ↔ 0 < policy.retainedOperations := by
  constructor
  · rintro ⟨accepted, checked⟩
    exact retainedOperations_pos (validateEnvelope_ok_iff.mp checked).increases
  · intro positive
    have checkable := checkable_of_asks named reads asks extensible
    rcases checkable.accepts with ⟨accepted, found, bound⟩
    refine ⟨accepted, validateEnvelope_ok_iff.mpr
      { named := rfl
        versioned := checkable.versioned
        incarnation := ?_
        checkpoint := ⟨_, encodes_encode _⟩
        accepts := found
        bound := ?_
        increases := (nextIncreases_iff fun envelope there =>
          (extensible envelope there).2).mpr positive
        whole := ?_ }⟩
    · show Text.isBlank ((commit.incarnation.or _).getD incarnation) = false
      cases given : commit.incarnation with
      | some incarnation => exact checkable.named incarnation given
      | none =>
          cases current with
          | none => exact minted rfl
          | some envelope =>
              rcases (extensible envelope rfl).1 with ⟨peers, checked⟩
              exact (validateEnvelope_ok_iff.mp checked).incarnation
    · intro peer listed
      rw [Std.ExtTreeMap.contains_eq_isSome_getElem?]
      rcases bound peer listed with mine | ⟨envelope, rfl, held⟩
      · show ((bindPeers _ commit.actor commit.peers)[peer]?).isSome = true
        rw [getElem?_bindPeers_of_mem mine]
        rfl
      · rw [Std.ExtTreeMap.contains_eq_isSome_getElem?,
          Option.isSome_iff_exists] at held
        rcases held with ⟨principal, was⟩
        show ((bindPeers envelope.peers commit.actor
          commit.peers)[peer]?).isSome = true
        rw [getElem?_bindPeers_of_bound was]
        rfl
    · intro operation member
      rcases mem_nextRetained member with
        ⟨envelope, rfl, version, earlier⟩ | rfl
      · rcases (extensible envelope rfl).1 with ⟨peers, checked⟩
        have whole := (validateEnvelope_ok_iff.mp checked).whole operation
          earlier
        rw [version] at whole
        exact whole
      · exact ⟨rfl, _, encodes_encode _⟩

/-! ## Histories -/

/-- What every write at a source keeps is kept, when none bypasses it. -/
theorem kept_of_writes {start world : StoreWorld crates application}
    {source : String} {Kept : Option StoredEnvelope → Prop}
    (nothing : Kept none)
    (step : ∀ (caller : Caller application)
      (older newer : Option StoredEnvelope),
      Writes crates port caller source older newer → Kept older → Kept newer)
    (invariant : StoreInvariant port setting world)
    (later : StoreLater setting start world)
    (began : ∀ change ∈ start.kept source, Kept change.content)
    (bypass : ∀ content, setting.Bypass source content → Kept content) :
    ∀ change ∈ world.kept source, Kept change.content := by
  have written := invariant.written source
  rcases later.kept source with ⟨added, kept, proper⟩
  rw [kept] at written ⊢
  clear kept
  induction added with
  | nil => exact began
  | cons newest rest inductionHypothesis =>
      have earlier := inductionHypothesis written.2
        fun change member => proper change (List.mem_cons_of_mem _ member)
      intro change member
      rcases List.mem_cons.mp member with rfl | older
      · have isProper := proper change List.mem_cons_self
        cases writer : change.writer with
        | none =>
            rw [Proper, writer] at isProper
            exact bypass change.content isProper
        | some caller =>
            apply step caller _ _ (written.1 caller writer)
            cases below : (rest ++ start.kept source).head? with
            | none => exact nothing
            | some before =>
                exact earlier before (List.mem_of_mem_head? below)
      · exact earlier change older

variable (crates) in
/-- The windows of a source's history are whole, and each its writer's. -/
structure WindowsKept (kept : List (Change (Caller application))) :
    Prop where
  whole : ∀ change ∈ kept, WindowIn crates change.content
  bounded : ∀ change ∈ kept, ∀ caller, change.writer = some caller →
    ∀ stored envelope accepted, change.content = some stored →
      Holds crates stored.bytes envelope accepted →
        envelope.retainedOperations.length
          ≤ caller.service.policy.retainedOperations

/-- No interleaving of calls leaves a window that is not whole. -/
theorem windows_kept {start : StoreWorld crates application}
    {pool : StorePool crates application} (begun : Begun port start)
    (began : ∀ source, ∀ change ∈ start.kept source,
      WindowIn crates change.content)
    (bypass : ∀ source content, setting.Bypass source content →
      WindowIn crates content)
    (reaches : StoreReaches port setting (Pool.idle start) pool)
    (source : String) :
    WindowsKept crates (pool.world.kept source) := by
  rcases sound_of_reaches begun reaches with ⟨sound, later⟩
  have whole := kept_of_writes (fun _ _ _ never => by cases never)
    (fun _ _ _ writes before => (writes.windowIn before).1)
    sound.invariant later (began source) (bypass source)
  refine ⟨whole, fun change member caller wrote => ?_⟩
  rcases List.append_of_mem member with ⟨since, before, history⟩
  have written := sound.invariant.written source
  rw [history] at written whole
  have here := Written.suffix crates port
    (List.suffix_append since (change :: before)) written
  apply ((here.1 caller wrote).windowIn _).2
  cases before with
  | nil => exact fun _ _ _ never => by cases never
  | cons older rest =>
      exact whole older (List.mem_append_right _
        (List.mem_cons_of_mem _ List.mem_cons_self))

end Windows

section Retry

open Serving

/-- The titles of a note are retained each under its own sequence. -/
theorem windows_kept_retriers :
    ∃ pool, served retriers = some pool
      ∧ WindowsKept Serving.crates (pool.world.kept (source note)) := by
  rcases Option.map_eq_some_iff.mp retriers_reply with ⟨pool, ran, -⟩
  refine ⟨pool, ran, windows_kept begun_emptyWorld ?_ ?_ (reaches_served ran)
    (source note)⟩
  · rintro _ _ ⟨⟩
  · rintro _ _ ⟨⟩

/-- What event logs export encodes the logs. -/
theorem readsExports : ReadsExports Serving.crates.loro := by
  rintro doc _ ⟨⟩
  refine ⟨EventLog.endVersion (EventLog.wholeUpdate doc.logs), ?_⟩
  simp [Serving.crates, EventLog.crates, EventLog.loro,
    EventLog.updateCodec.read_encode]

theorem eq_ok_of_toOption {ε α : Type} {result : Except ε α} {value : α}
    (kept : result.toOption = some value) : result = .ok value := by
  cases result with
  | error refusal => cases kept
  | ok found => exact congrArg Except.ok (Option.some.inj kept)

/-- The update that a note is created with. -/
def seededUpdate : Bytes :=
  EventLog.updateCodec.encode [(0, [titled true "a"])]

theorem asks_creator :
    Asks Serving.crates (creator none "a") none
      (seedCommit Serving.crates (noteService 8) notePlan note none
        seededUpdate [0]) := by
  have loads : ((CollaborationReplica.fromVersionedUpdateBase64
      Serving.crates.toCrates notePlan 1
      (Serving.crates.base64.encode seededUpdate)).toOption).isSome
        = true := by
    decide +kernel
  rcases Option.isSome_iff_exists.mp loads with ⟨replica, loaded⟩
  refine ⟨rfl, rfl, seededUpdate, [0], ⟨replica, ?_⟩, ?_, rfl⟩
  · exact eq_ok_of_toOption loaded
  · have peers : (CollaborationReplica.peersInUpdate Serving.crates.toCrates
        (Serving.crates.base64.encode seededUpdate)).toOption
          = some [0] := by
      decide +kernel
    exact eq_ok_of_toOption peers

/-- A service that keeps operations is never refused the note it creates. -/
theorem nextEnvelope_valid_iff_creator :
    (∃ accepted, validateEnvelope Serving.crates note
        (nextEnvelope Serving.crates (noteService 8).policy none note
          (seedCommit Serving.crates (noteService 8) notePlan note none
            seededUpdate [0]) "u") = .ok accepted)
      ↔ 0 < (noteService 8).policy.retainedOperations :=
  nextEnvelope_valid_iff namesHolders readsExports asks_creator
    (by rintro _ ⟨⟩) fun _ => by decide

end Retry

end Clerkenwell.Store
