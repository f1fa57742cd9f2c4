import Clerkenwell.Foundation.Association
import Clerkenwell.Store.Sound
import Clerkenwell.Store.Serving

/-!
# Versions order accepted states

A version names, for each peer, the counter after its last operation, and the
incarnation the counters are of.  Imports and repairs carry the incarnation of
what they replace and keep its operations, creations and migrations give a
new one, so the versions of one incarnation grow.
-/

namespace Clerkenwell.Store

open Clerkenwell.Foundation
open Clerkenwell.Doc

/-! ## Versions -/

namespace CollaborationVersion

/-- Whether a version holds every operation `other` holds, peer by peer. -/
def covers (version other : CollaborationVersion) : Bool :=
  version.incarnation == other.incarnation
    && other.peers.all fun (peer, counter) =>
      (version.peers.lookup peer).any fun held => decide (counter ≤ held)

/-- A version names each peer once. -/
def Keyed (version : CollaborationVersion) : Prop :=
  (version.peers.map Prod.fst).Nodup

/-- A version names only peers it holds operations of. -/
def Positive (version : CollaborationVersion) : Prop :=
  ∀ entry ∈ version.peers, 0 < entry.2

/-- The operations a version names: of each peer those before its counter. -/
def operations (version : CollaborationVersion) : Set (Nat × Nat) :=
  {operation | ∃ counter, (operation.1, counter) ∈ version.peers
    ∧ operation.2 < counter}

variable {version other further : CollaborationVersion}

theorem covers_iff (keyed : version.Keyed) :
    version.covers other = true
      ↔ version.incarnation = other.incarnation
        ∧ ∀ entry ∈ other.peers, ∃ held, (entry.1, held) ∈ version.peers
          ∧ entry.2 ≤ held := by
  rw [covers, Bool.and_eq_true, beq_iff_eq, List.all_eq_true]
  apply and_congr_right
  intro _
  apply forall₂_congr
  intro entry _
  rw [Option.any_eq_true]
  constructor
  · rintro ⟨held, found, least⟩
    exact ⟨held, mem_of_lookup found, of_decide_eq_true least⟩
  · rintro ⟨held, listed, least⟩
    exact ⟨held, lookup_of_mem keyed listed, decide_eq_true least⟩

end CollaborationVersion

/-! ## The version of a checkpoint -/

/-- An update's metadata names the peers it holds operations of, no others. -/
def NamesHolders (loro : Loro) : Prop :=
  ∀ update ends, loro.decodeImportBlobMeta update = .ok ends →
    ∀ (peer : Nat) (counter : Int), ends[peer]? = some counter → 0 < counter

section Checkpoints

variable {crates : StoreCrates}

theorem versionOfUpdate_ok {encoded : String} {accepted : List (Nat × Nat)}
    (found :
      CollaborationReplica.versionOfUpdate crates.toCrates encoded
        = .ok accepted) :
    ∃ update ends, crates.base64.decode encoded = .ok update
      ∧ crates.loro.decodeImportBlobMeta update = .ok ends
      ∧ accepted = ends.toList.map fun entry => (entry.1, entry.2.toNat) := by
  unfold CollaborationReplica.versionOfUpdate at found
  obtain ⟨ends, read, listed⟩ := except_bind_ok found
  obtain ⟨update, decoded, named, -⟩ := updateEndVersion_ok read
  refine ⟨update, ends, decoded, named, ?_⟩
  clear found read named
  generalize ends.toList = entries at listed
  induction entries generalizing accepted with
  | nil =>
      cases listed
      rfl
  | cons entry rest inductionHypothesis =>
      obtain ⟨peer, counter⟩ := entry
      rw [List.mapM_cons] at listed
      obtain ⟨first, counted, others⟩ := except_bind_ok listed
      obtain ⟨lasts, later, same⟩ := except_bind_ok others
      cases same
      dsimp only at counted
      split at counted
      · cases counted
        rw [List.map_cons, inductionHypothesis later]
      · cases counted

theorem keyed_of_versionOfUpdate {encoded incarnation : String}
    {accepted : List (Nat × Nat)}
    (found :
      CollaborationReplica.versionOfUpdate crates.toCrates encoded
        = .ok accepted) :
    CollaborationVersion.Keyed
      { incarnation := incarnation, peers := accepted } := by
  obtain ⟨update, ends, -, -, rfl⟩ := versionOfUpdate_ok found
  rw [CollaborationVersion.Keyed, List.map_map]
  have keys : ends.toList.map
      (Prod.fst ∘ fun entry : Nat × Int => (entry.1, entry.2.toNat))
        = ends.keys := by
    rw [← Std.ExtTreeMap.map_fst_toList_eq_keys]
    rfl
  rw [keys]
  exact Std.ExtTreeMap.nodup_keys

theorem positive_of_versionOfUpdate {encoded incarnation : String}
    {accepted : List (Nat × Nat)} (named : NamesHolders crates.loro)
    (found :
      CollaborationReplica.versionOfUpdate crates.toCrates encoded
        = .ok accepted) :
    CollaborationVersion.Positive
      { incarnation := incarnation, peers := accepted } := by
  obtain ⟨update, ends, -, read, rfl⟩ := versionOfUpdate_ok found
  intro entry listed
  obtain ⟨⟨peer, counter⟩, there, rfl⟩ := List.mem_map.mp listed
  have positive := named update ends read peer counter
    (Std.ExtTreeMap.mem_toList_iff_getElem?_eq_some.mp there)
  show 0 < counter.toNat
  omega

/-- An update of more operations is of a version that covers the other's. -/
theorem covers_of_updateOperations {encoded later incarnation : String}
    {accepted others : List (Nat × Nat)} {update more : Bytes}
    (named : NamesHolders crates.loro)
    (found :
      CollaborationReplica.versionOfUpdate crates.toCrates encoded
        = .ok accepted)
    (decoded : crates.base64.decode encoded = .ok update)
    (laterFound :
      CollaborationReplica.versionOfUpdate crates.toCrates later
        = .ok others)
    (laterDecoded : crates.base64.decode later = .ok more)
    (within : crates.loro.updateOperations update
      ⊆ crates.loro.updateOperations more) :
    CollaborationVersion.covers
      { incarnation := incarnation, peers := others }
      { incarnation := incarnation, peers := accepted } = true := by
  rw [CollaborationVersion.covers_iff (keyed_of_versionOfUpdate laterFound)]
  refine ⟨rfl, fun entry listed => ?_⟩
  obtain ⟨read, ends, same, meta_, rfl⟩ := versionOfUpdate_ok found
  cases Except.ok.inj (decoded.symm.trans same)
  obtain ⟨readLater, laterEnds, laterSame, laterMeta, rfl⟩ :=
    versionOfUpdate_ok laterFound
  cases Except.ok.inj (laterDecoded.symm.trans laterSame)
  obtain ⟨⟨peer, counter⟩, there, rfl⟩ := List.mem_map.mp listed
  rw [Std.ExtTreeMap.mem_toList_iff_getElem?_eq_some] at there
  have positive := named update ends meta_ peer counter there
  have ends_eq : ends.counter peer = counter := by
    rw [VersionVector.counter, there, Option.getD_some]
  -- the peer's last operation is carried on
  have last : (peer, counter - 1)
      ∈ crates.loro.id '' crates.loro.updateOperations update := by
    rw [crates.loro.mem_updateOperations update ends meta_, ends_eq]
    have starts := crates.loro.partialStartVv_lt update ends meta_ peer
      (ends_eq ▸ positive)
    omega
  have carried := Set.image_mono within last
  rw [crates.loro.mem_updateOperations more laterEnds laterMeta] at carried
  cases held : laterEnds[peer]? with
  | none =>
      have counterZero : laterEnds.counter peer = 0 := by
        rw [VersionVector.counter, held, Option.getD_none]
      have least := crates.loro.counter_lt_decodeImportBlobMeta more laterEnds
        peer (counter - 1) laterMeta (Set.image_mono within last)
      omega
  | some most =>
      have counterMost : laterEnds.counter peer = most := by
        rw [VersionVector.counter, held, Option.getD_some]
      refine ⟨most.toNat, ?_, ?_⟩
      · exact List.mem_map.mpr ⟨(peer, most),
          Std.ExtTreeMap.mem_toList_iff_getElem?_eq_some.mpr held, rfl⟩
      · show counter.toNat ≤ most.toNat
        omega

end Checkpoints

/-! ## What a write keeps -/

/-- Whether a call that commits gives its document a new history. -/
def Call.gives {application : Application} : Call application → Bool
  | .importUpdate _ request _ => request.exchangeMode == .bootstrap
  | .bootstrap _ _ _ _ _ => true
  | .bootstrapUpdate _ _ _ _ _ _ _ => true
  | .migrate _ _ _ _ _ _ => true
  | _ => false

section Writes

variable {crates : StoreCrates} {port : PortContract}
variable {application : Application}

/-- An envelope goes on with the history of the one it replaces. -/
structure Carries (crates : StoreCrates)
    (previous next : DurableCollaborationEnvelope) : Prop where
  incarnation : next.incarnation = previous.incarnation
  operations : ∀ update, previous.HasCheckpoint crates update →
    ∃ more, next.HasCheckpoint crates more
      ∧ crates.loro.updateOperations update
          ⊆ crates.loro.updateOperations more

/-- What an incremental import commits carries the envelope it replaces. -/
theorem ImportAsks.carries {service : Service}
    {plan : CollaborationEntitySpec} {request : CollaborationImportRequest}
    {validate : Json → Except application.Failure Unit}
    {current : Option DurableCollaborationEnvelope}
    {commit : CollaborationCommit} {next : DurableCollaborationEnvelope}
    (asks : ImportAsks crates service plan request validate current commit)
    (incremental : request.exchangeMode = .incremental)
    (builds : Builds crates service.policy current commit next) :
    ∃ envelope, current = some envelope ∧ Carries crates envelope next := by
  obtain ⟨update, isNew, against, judged, imported, judgedAgainst, accepted,
    rfl⟩ := asks.judged
  obtain ⟨incarnation, -, rfl⟩ := builds.built
  cases judgedAgainst with
  | created bootstrap => simp [incremental] at bootstrap
  | stored =>
      have established := judgeImport_ok accepted
      refine ⟨against, rfl, ⟨?_, ?_⟩⟩
      · simp [nextEnvelope, established.incarnation]
      · intro held whole
        obtain ⟨currentUpdate, checkpoint, within, -⟩ :=
          established.operations imported
        cases Except.ok.inj (whole.1.symm.trans checkpoint.1)
        refine ⟨judged.commit.acceptedUpdate, encodes_encode _, ?_⟩
        rw [established.acceptedUpdate]
        exact within

/-- What a caller writes is whole, and a new history or the one replaced. -/
theorem Writes.whole {caller : Caller application} {source : String}
    {older content : Option StoredEnvelope}
    (writes : Writes crates port caller source older content)
    {stored : StoredEnvelope} (written : content = some stored) :
    ∃ envelope accepted, Holds crates stored.bytes envelope accepted
      ∧ (caller.call.gives = true
        ∨ ∃ replaced previous, older = some replaced
            ∧ decodeEnvelope crates replaced.bytes = .ok previous
            ∧ Carries crates previous envelope) := by
  cases writes with
  | removed => cases written
  | repaired call place above decoded valid encoded =>
      rename_i envelope accepted version bytes
      cases written
      refine ⟨repairedEnvelope envelope, accepted, ⟨?_, ?_⟩, .inr ?_⟩
      · exact decodeEnvelope_toVecPretty encoded
          (fromSlice_of_decodeEnvelope decoded).2
      · rw [validateEnvelope_document valid]
        exact valid
      · exact ⟨_, envelope, above, decoded, rfl,
          fun update whole => ⟨update, whole, Set.Subset.rfl⟩⟩
  | committed place above asks builds encoded =>
      rename_i current commit next version bytes
      cases written
      obtain ⟨accepted, valid⟩ := builds.valid
      have holds : Holds crates bytes next accepted := by
        refine ⟨decodeEnvelope_toVecPretty encoded ?_, ?_⟩
        · obtain ⟨incarnation, -, rfl⟩ := builds.built
          rfl
        · rw [validateEnvelope_document valid]
          exact valid
      refine ⟨next, accepted, holds, ?_⟩
      have carried : (∃ envelope, current = some envelope
          ∧ Carries crates envelope next) →
            ∃ replaced previous, older = some replaced
              ∧ decodeEnvelope crates replaced.bytes = .ok previous
              ∧ Carries crates previous next := by
        rintro ⟨envelope, rfl, carries⟩
        cases older with
        | none => exact above.elim
        | some replaced =>
            obtain ⟨peers, there⟩ := above
            exact ⟨replaced, envelope, rfl, there.decoded, carries⟩
      obtain ⟨service, call⟩ := caller
      cases call with
      | importUpdate plan request validate =>
          cases mode : request.exchangeMode with
          | bootstrap => exact .inl (by simp [Call.gives, mode])
          | incremental =>
              exact .inr (carried (ImportAsks.carries asks mode builds))
      | edit plan change validate =>
          obtain ⟨request, ⟨base, update, nonces, rfl⟩, asked⟩ := asks
          exact .inr (carried (ImportAsks.carries asked rfl builds))
      | editText plan change validate =>
          obtain ⟨request, ⟨update, nonces, rfl⟩, asked⟩ := asks
          exact .inr (carried (ImportAsks.carries asked rfl builds))
      | bootstrap => exact .inl rfl
      | bootstrapUpdate => exact .inl rfl
      | migrate => exact .inl rfl
      | summary => exact asks.elim
      | summaries => exact asks.elim
      | readDocument => exact asks.elim
      | authoringState => exact asks.elim
      | repair => exact asks.elim
      | delete => exact asks.elim

end Writes

/-! ## Histories of a document -/

section Histories

variable {crates : StoreCrates} {port : PortContract}
variable {application : Application}

/-- What a list of changes, newest first, leaves at its source. -/
def contentOf (history : List (Change (Caller application))) :
    Option StoredEnvelope :=
  history.head?.bind Change.content

variable (crates) in
/-- The incarnation of the envelope a content holds. -/
def incarnationIn (content : Option StoredEnvelope) : Option String :=
  content.bind fun stored =>
    (decodeEnvelope crates stored.bytes).toOption.map
      DurableCollaborationEnvelope.incarnation

variable (crates) in
/-- The version of what a list of changes leaves, as its readers have it. -/
def VersionAt (history : List (Change (Caller application)))
    (version : CollaborationVersion) : Prop :=
  ∃ stored envelope accepted, contentOf history = some stored
    ∧ Holds crates stored.bytes envelope accepted
    ∧ version =
        { incarnation := envelope.incarnation, peers := accepted }

/-- Whether a change was made by a call that gives a new history. -/
def Change.gives (change : Change (Caller application)) : Bool :=
  change.writer.any fun caller => caller.call.gives

variable (crates) in
/-- The incarnations creations and migrations gave a document, newest first. -/
def givenIncarnations (changes : List (Change (Caller application))) :
    List String :=
  changes.filterMap fun change =>
    if change.gives then incarnationIn crates change.content else none

variable (crates) in
/--
No incarnation is given a document twice, nor is the one it began with given
again: a minted one is a new UUID, and the callers that name one name one the
document never had.
-/
structure NewIncarnations (base added : List (Change (Caller application))) :
    Prop where
  once : (givenIncarnations crates added).Nodup
  notFirst : ∀ incarnation ∈ givenIncarnations crates added,
    incarnationIn crates (contentOf base) ≠ some incarnation

theorem NewIncarnations.tail {base added : List (Change (Caller application))}
    {change : Change (Caller application)}
    (new : NewIncarnations crates base (change :: added)) :
    NewIncarnations crates base added where
  once := new.once.sublist
    ((List.sublist_cons_self change added).filterMap _)
  notFirst := fun incarnation member =>
    new.notFirst incarnation
      (((List.sublist_cons_self change added).filterMap _).subset member)

theorem VersionAt.incarnationIn
    {history : List (Change (Caller application))}
    {version : CollaborationVersion}
    (at_ : VersionAt crates history version) :
    Store.incarnationIn crates (contentOf history)
      = some version.incarnation := by
  obtain ⟨stored, envelope, accepted, there, holds, rfl⟩ := at_
  rw [there, Store.incarnationIn, Option.bind_some, holds.decoded]
  rfl

theorem VersionAt.unique {history : List (Change (Caller application))}
    {version other : CollaborationVersion}
    (at_ : VersionAt crates history version)
    (also : VersionAt crates history other) : version = other := by
  obtain ⟨stored, envelope, accepted, there, holds, rfl⟩ := at_
  obtain ⟨again, envelope', accepted', there', holds', rfl⟩ := also
  cases there.symm.trans there'
  obtain ⟨rfl, rfl⟩ := holds.unique holds'
  rfl

theorem VersionAt.keyed {history : List (Change (Caller application))}
    {version : CollaborationVersion}
    (at_ : VersionAt crates history version) : version.Keyed := by
  obtain ⟨stored, envelope, accepted, -, holds, rfl⟩ := at_
  exact keyed_of_versionOfUpdate (validateEnvelope_ok_iff.mp holds.valid).accepts

theorem VersionAt.positive (named : NamesHolders crates.loro)
    {history : List (Change (Caller application))}
    {version : CollaborationVersion}
    (at_ : VersionAt crates history version) : version.Positive := by
  obtain ⟨stored, envelope, accepted, -, holds, rfl⟩ := at_
  exact positive_of_versionOfUpdate named
    (validateEnvelope_ok_iff.mp holds.valid).accepts

section Run

variable {source : String} {base : List (Change (Caller application))}

/-- A version that carries an envelope's history on covers the envelope's. -/
theorem Carries.covers (named : NamesHolders crates.loro)
    {bytes later : Bytes} {previous next : DurableCollaborationEnvelope}
    {accepted others : List (Nat × Nat)}
    (holds : Holds crates bytes previous accepted)
    (laterHolds : Holds crates later next others)
    (carries : Carries crates previous next) :
    CollaborationVersion.covers
      { incarnation := next.incarnation, peers := others }
      { incarnation := previous.incarnation, peers := accepted } = true := by
  have valid := validateEnvelope_ok_iff.mp holds.valid
  have laterValid := validateEnvelope_ok_iff.mp laterHolds.valid
  obtain ⟨update, checkpoint⟩ := valid.checkpoint
  obtain ⟨more, laterCheckpoint, within⟩ := carries.operations update checkpoint
  rw [carries.incarnation]
  exact covers_of_updateOperations named valid.accepts checkpoint.1
    laterValid.accepts laterCheckpoint.1 within

end Run

end Histories

/-! ## Pools -/

section Pools

variable {crates : StoreCrates} {port : PortContract}
variable {application : Application} {setting : Setting crates application}
variable {start world : StoreWorld crates application}

/-- A part of a run is a run that gives new incarnations too. -/
theorem NewIncarnations.suffix
    {base added later : List (Change (Caller application))}
    (new : NewIncarnations crates base added) (within : later <:+ added) :
    NewIncarnations crates base later where
  once := new.once.sublist (within.sublist.filterMap _)
  notFirst := fun incarnation member =>
    new.notFirst incarnation ((within.sublist.filterMap _).subset member)

end Pools

/-! ## A document created again -/

section Recreation

open Serving

/-- The caller that creates the note holding a title. -/
def creator (incarnation : Option String) (title : String) : Caller notes where
  service := noteService 8
  call :=
    .bootstrapUpdate notePlan note 1
      (updateText [(0, [titled true title])]) incarnation (fun _ => .ok ()) 1

/-- Events name the peers of an update that have some. -/
theorem namesHolders : NamesHolders crates.loro := by
  intro bytes ends decoded peer counter there
  have read : ∃ update, ends = EventLog.endVersion update := by
    dsimp only [crates, EventLog.crates, EventLog.loro] at decoded
    split at decoded
    · cases decoded
    · exact ⟨_, (Except.ok.inj decoded).symm⟩
  obtain ⟨update, rfl⟩ := read
  exact EventLog.pos_of_versionFrom there

end Recreation

end Clerkenwell.Store
