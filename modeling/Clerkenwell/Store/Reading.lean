import Clerkenwell.Store.Steps

/-!
# Reads through a residency

What a read of a document is answered with: bytes its source held since the
reader came, as they were judged, whichever reader judged them.  Replicas and
documents are built once and served to every later reader.
-/

namespace Clerkenwell.Store

open Clerkenwell.Foundation
open Clerkenwell.Doc

section Reading

variable {crates : StoreCrates} {port : PortContract}
variable {application : Application} {setting : Setting crates application}

/-! ## What a log shows -/

/-- Whether an action leaves the storage, the audit and the feed alone. -/
def StoreAction.isQuiet : StoreAction crates → Bool
  | .compareAndSwap _ _ _ | .compareAndRemove _ _ | .preserve _ _ _
  | .appendAudit _ | .announce _ => false
  | _ => true

/-- A log of quiet actions. -/
def Quiet (log : Log crates) : Prop :=
  ∀ answered ∈ log, answered.1.isQuiet = true

/-- Whether an action is a call of the port that failed. -/
def isFailedCall :
    Program.Answered (@StoreAction.Response crates) → Bool
  | ⟨.sources _, .error _⟩ | ⟨.read _, .error _⟩ | ⟨.stamp _, .error _⟩
  | ⟨.compareAndSwap _ _ _, .error _⟩ | ⟨.compareAndRemove _ _, .error _⟩
  | ⟨.preserve _ _ _, .error _⟩ | ⟨.appendAudit _, .error _⟩ => true
  | _ => false

/-- A log in which a call of the port failed. -/
def FailedIn (log : Log crates) : Prop :=
  ∃ answered ∈ log, isFailedCall answered = true

@[simp]
theorem quiet_nil : Quiet ([] : Log crates) := by
  simp [Quiet]

theorem Quiet.append {log rest : Log crates} (quiet : Quiet log)
    (more : Quiet rest) : Quiet (log ++ rest) := by
  intro answered member
  rcases List.mem_append.mp member with first | later
  · exact quiet answered first
  · exact more answered later

theorem FailedIn.left {log : Log crates} (failed : FailedIn log)
    (rest : Log crates) : FailedIn (log ++ rest) := by
  obtain ⟨answered, member, failure⟩ := failed
  exact ⟨answered, List.mem_append_left rest member, failure⟩

theorem FailedIn.right {rest : Log crates} (failed : FailedIn rest)
    (log : Log crates) : FailedIn (log ++ rest) := by
  obtain ⟨answered, member, failure⟩ := failed
  exact ⟨answered, List.mem_append_right log member, failure⟩

/-! ## What was built of a checkpoint -/

theorem CheckpointIn.transfer
    {envelope other : DurableCollaborationEnvelope}
    {doc : crates.loro.LoroDoc}
    (collisionFree : Function.Injective crates.sha256Hex)
    (checkpoint : CheckpointIn crates envelope doc)
    {update : Bytes} (whole : other.HasCheckpoint crates update)
    (same : envelope.checkpointSha256 = other.checkpointSha256) :
    CheckpointIn crates other doc := by
  obtain ⟨held, loaded, has, loads, operations⟩ := checkpoint
  have equal : held = update :=
    collisionFree (has.2.2.trans (same.trans whole.2.2.symm))
  subst equal
  exact ⟨held, loaded, whole, loads, operations⟩

theorem BuiltReplica.transfer {source : String}
    {envelope other : DurableCollaborationEnvelope}
    {replica : CollaborationReplica crates.toCrates}
    (collisionFree : Function.Injective crates.sha256Hex)
    (built : BuiltReplica port setting source envelope replica)
    {update : Bytes} (whole : other.HasCheckpoint crates update)
    (same : envelope.checkpointSha256 = other.checkpointSha256)
    (fits : OffersFit setting →
      other.schemaVersion = replica.plan.schemaVersion) :
    BuiltReplica port setting source other replica where
  checkpoint := built.checkpoint.transfer collisionFree whole same
  reads := built.reads
  plan := built.plan
  fits := fits

theorem BuiltDocument.transfer {source : String}
    {envelope other : DurableCollaborationEnvelope} {value : Json}
    (collisionFree : Function.Injective crates.sha256Hex)
    (built : BuiltDocument port setting source envelope value)
    {update : Bytes} (whole : other.HasCheckpoint crates update)
    (same : envelope.checkpointSha256 = other.checkpointSha256)
    (versions : envelope.schemaVersion = other.schemaVersion) :
    BuiltDocument port setting source other value := by
  obtain ⟨replica, replicaBuilt, materialized⟩ := built.built
  refine ⟨replica,
    replicaBuilt.transfer collisionFree whole same
      (fun fit => versions ▸ replicaBuilt.fits fit), ?_⟩
  rw [← materialized]
  simp only [DurableCollaborationEnvelope.etag, same]

/-- A digest's etag is no MIME type. -/
theorem revision_checkpointEtag (digest : String) :
    Revision (checkpointEtag digest) := by
  have characters : (checkpointEtag digest).toList
      = 'l' :: 'o' :: 'r' :: 'o' :: ':' :: digest.toList := by
    simp [checkpointEtag, toString]
  simp [Revision, Text.startsWith, Text.stripPrefix, characters,
    Text.stripPrefixChars]

theorem revision_replicaRevision : Revision replicaRevision := by
  unfold Revision
  decide

/-- Every revision a loaded replica is materialised at succeeds. -/
theorem reads_of_materialized
    {replica : CollaborationReplica crates.toCrates} {revision : String}
    (isRevision : Revision revision) {value : Json}
    (materialized : replica.materializedDocument revision = .ok value) :
    ∀ other, Revision other →
      ∃ read, replica.materializedDocument other = .ok read :=
  fun _ otherRevision =>
    materializeDocument_ok isRevision otherRevision materialized

theorem loadAuthoringDocument_ok {plan : CollaborationEntitySpec}
    {document : CollaborationDocumentId}
    {envelope : DurableCollaborationEnvelope}
    {replica : CollaborationReplica crates.toCrates}
    (loads :
      loadAuthoringDocument crates plan document envelope = .ok replica) :
    envelope.schemaVersion = plan.schemaVersion ∧ replica.plan = plan
      ∧ CheckpointIn crates envelope replica.doc
      ∧ ∀ revision, Revision revision →
          ∃ value, replica.materializedDocument revision = .ok value := by
  unfold loadAuthoringDocument at loads
  by_cases version : envelope.schemaVersion = plan.schemaVersion
  · cases decoded : envelope.checkpointUpdate crates document with
    | error error =>
        simp [version, decoded, bind, Except.bind] at loads
    | ok update =>
        simp only [version, ne_eq, not_true_eq_false, if_false, decoded, bind,
          Except.bind] at loads
        unfold orStoreError at loads
        cases loaded :
            CollaborationReplica.fromVersionedUpdateBase64 crates.toCrates
              plan plan.schemaVersion (crates.base64.encode update) with
        | error error => simp [loaded, Except.mapError] at loads
        | ok replica =>
            simp only [loaded, Except.mapError, Except.ok.injEq] at loads
            subst loads
            obtain ⟨-, rfl, whole, value, materialized⟩ :=
              CollaborationReplica.fromVersionedUpdateBase64_ok loaded
            exact ⟨version, rfl,
              ⟨update, _, checkpointUpdate_ok_iff.mp decoded, whole, rfl⟩,
              reads_of_materialized revision_replicaRevision materialized⟩
  · simp [version, throw, throwThe, MonadExceptOf.throw, bind, Except.bind]
      at loads

/-! ## Stamps -/

/-- A stamp was taken of a source at a moment no earlier than a world. -/
def TakenSince (port : PortContract)
    (start world : StoreWorld crates application) (source token : String) :
    Prop :=
  ∃ taken, start.kept source <:+ taken ∧ taken <:+ world.kept source
    ∧ port.moment source token = World.byteChanges taken

/-- A source held the bytes of a version no earlier than a world. -/
def CarriedSince (port : PortContract)
    (start world : StoreWorld crates application) (source version : String) :
    Prop :=
  ∃ stored, SeenSince start world source (some stored)
    ∧ stored.bytes = port.bytes source version

theorem TakenSince.later
    {start world later : StoreWorld crates application}
    {source token : String}
    (taken : TakenSince port start world source token)
    (after : StoreLater setting world later) :
    TakenSince port start later source token := by
  obtain ⟨changes, since, within, moment⟩ := taken
  exact ⟨changes, since, within.trans (after.kept source).suffix, moment⟩

theorem CarriedSince.later
    {start world later : StoreWorld crates application}
    {source version : String}
    (carried : CarriedSince port start world source version)
    (after : StoreLater setting world later) :
    CarriedSince port start later source version := by
  obtain ⟨stored, seen, bytes⟩ := carried
  exact ⟨stored, seen.later after, bytes⟩

/-- Bytes a stamp vouches for were kept since a reader took it. -/
theorem Vouches.carriedSince
    {start world : StoreWorld crates application}
    {source token version : String}
    (vouches : Vouches port (world.kept source) source token
      (port.bytes source version))
    (taken : TakenSince port start world source token) :
    CarriedSince port start world source version := by
  obtain ⟨seen, within, after, newest⟩ := vouches
  obtain ⟨changes, since, taken_within, moment⟩ := taken
  have carries : ∀ content : Option StoredEnvelope,
      content.map StoredEnvelope.bytes = some (port.bytes source version) →
        ∃ stored, content = some stored
          ∧ stored.bytes = port.bytes source version := by
    intro content named
    exact Option.map_eq_some_iff.mp named
  rcases List.suffix_or_suffix_of_suffix within
      (since.trans taken_within) with earlier | later
  · -- What was vouched for is older than the reader, and still there.
    have bounds := byteChanges_suffix earlier
    have starts := byteChanges_suffix since
    have equal := bounds.2 (by omega)
    rw [newest] at equal
    obtain ⟨stored, content, bytes⟩ := carries _ equal.symm
    exact ⟨stored, ⟨start.kept source, List.suffix_refl _,
      since.trans taken_within, content⟩, bytes⟩
  · obtain ⟨stored, content, bytes⟩ := carries _ newest
    exact ⟨stored, ⟨seen, later, within, content⟩, bytes⟩

/-! ## Holding a document -/

theorem Known.coherent {world : StoreWorld crates application}
    (invariant : StoreInvariant port setting world) {source : String}
    {held : Held} (known : Known world source held) :
    ∃ resident : Resident crates, world.residents[held.id]? = some resident
      ∧ resident.source = source ∧ resident.envelope = held.envelope
      ∧ resident.version = held.version
      ∧ Coherent port setting world resident := by
  obtain ⟨resident, there, place, same⟩ := known
  refine ⟨resident, there, place, ?_, ?_,
    invariant.coherent held.id resident there⟩
  · rw [← same]
    rfl
  · rw [← same]
    rfl

theorem Known.holds {world : StoreWorld crates application}
    (invariant : StoreInvariant port setting world) {source : String}
    {held : Held} (known : Known world source held) :
    Holds crates (port.bytes source held.version) held.envelope
      held.accepted.peers := by
  obtain ⟨resident, there, rfl, same⟩ := known
  have holds := (invariant.coherent held.id resident there).holds
  rw [← same]
  exact holds

theorem heldAt_known {world : StoreWorld crates application}
    (invariant : StoreInvariant port setting world) {residency : Nat}
    {source : String} {held : Held}
    (at_source : world.heldAt residency source = some held) :
    Known world source held := by
  simp only [World.heldAt, Option.bind_eq_some_iff, Option.map_eq_some_iff]
    at at_source
  obtain ⟨id, holds, resident, there, rfl⟩ := at_source
  obtain ⟨other, also, place⟩ := invariant.held residency source id holds
  cases there.symm.trans also
  exact ⟨resident, there, place, rfl⟩

theorem Holds.checkpoint {bytes : Bytes}
    {envelope : DurableCollaborationEnvelope} {accepted : List (Nat × Nat)}
    (holds : Holds crates bytes envelope accepted) :
    ∃ update, envelope.HasCheckpoint crates update :=
  (validateEnvelope_ok_iff.mp holds.valid).checkpoint

section Runs

variable {caller : Caller application}
variable {world : StoreWorld crates application}

/-- An answer to an action that leaves what is kept and held. -/
theorem Runs.act_of_same (action : StoreAction crates)
    {Post : Log crates → action.Response → StoreWorld crates application →
      Prop}
    (step : ∀ current, StoreLater setting world current →
      StoreInvariant port setting current → ∀ response after,
        setting.Permits caller current action →
          Answers port caller current action response after →
            (after.kept = current.kept
              ∧ after.residents = current.residents
              ∧ after.held = current.held)
            ∧ (StoreLater setting world after →
              StoreInvariant port setting after →
                Post [⟨action, response⟩] response after)) :
    Runs port setting caller Post (Store.act action) world := by
  refine Runs.act action ?_
  intro current later invariant response after permitted answered
  obtain ⟨⟨kept, residents, held⟩, post⟩ :=
    step current later invariant response after permitted answered
  have keeps := @Keeps.of_same _ _ _ _ caller _ _ invariant kept residents held
  exact ⟨keeps, post (later.trans keeps.later) keeps.invariant⟩

/-- A change of what was built from a held document. -/
theorem Keeps.modifyKnown {source : String} {held : Held}
    {change : Resident crates → Resident crates}
    (invariant : StoreInvariant port setting world)
    (known : Known world source held)
    (sources : ∀ resident, (change resident).source = resident.source)
    (same : ∀ resident,
      (change resident).held held.id = resident.held held.id)
    (coherent : ∀ resident, resident.source = source →
      resident.envelope = held.envelope →
        Coherent port setting world resident →
          Coherent port setting world (change resident)) :
    Keeps port setting caller world (world.modifyResident held.id change) := by
  obtain ⟨resident, there, place, envelope, -, holds⟩ :=
    known.coherent invariant
  refine Keeps.modifyResident invariant sources same ?_
  intro other also
  cases there.symm.trans also
  exact coherent resident place envelope holds

theorem runs_builtReplica {source : String} {held : Held}
    (known : Known world source held) :
    Runs port setting caller
      (fun log response _ => Quiet log
        ∧ (Function.Injective crates.sha256Hex →
            ∀ replica, response = some replica →
              BuiltReplica port setting source held.envelope replica))
      (act (.builtReplica held.id)) world := by
  refine Runs.act_of_same (.builtReplica held.id)
    fun current later invariant response after _ answered => ?_
  obtain ⟨rfl, rfl⟩ := answered
  refine ⟨⟨rfl, rfl, rfl⟩, fun _ _ => ⟨by simp [Quiet, StoreAction.isQuiet], ?_⟩⟩
  intro collisionFree replica built
  obtain ⟨resident, there, place, envelope, -, coherent⟩ :=
    (known.later later).coherent invariant
  rw [there] at built
  rw [← place, ← envelope]
  exact coherent.replica collisionFree replica built

theorem runs_builtMaterialized {source : String} {held : Held}
    (known : Known world source held) :
    Runs port setting caller
      (fun log response _ => Quiet log
        ∧ (Function.Injective crates.sha256Hex →
            ∀ value, response = some value →
              BuiltDocument port setting source held.envelope value))
      (act (.builtMaterialized held.id)) world := by
  refine Runs.act_of_same (.builtMaterialized held.id)
    fun current later invariant response after _ answered => ?_
  obtain ⟨rfl, rfl⟩ := answered
  refine ⟨⟨rfl, rfl, rfl⟩, fun _ _ => ⟨by simp [Quiet, StoreAction.isQuiet], ?_⟩⟩
  intro collisionFree value built
  obtain ⟨resident, there, place, envelope, -, coherent⟩ :=
    (known.later later).coherent invariant
  rw [there] at built
  rw [← place, ← envelope]
  exact coherent.materialized collisionFree value built

theorem runs_offerReplica {source : String} {held : Held}
    {replica : CollaborationReplica crates.toCrates}
    (known : Known world source held)
    (built : Function.Injective crates.sha256Hex →
      (OffersFit setting →
        held.envelope.schemaVersion = replica.plan.schemaVersion) →
          BuiltReplica port setting source held.envelope replica) :
    Runs port setting caller
      (fun log _ _ => Quiet log
        ∧ (OffersFit setting →
            held.envelope.schemaVersion = replica.plan.schemaVersion))
      (act (.offerReplica held.id replica)) world := by
  refine Runs.act _ fun current later invariant response after permitted
    answered => ?_
  obtain rfl := answered
  have knownNow := known.later later
  obtain ⟨resident, there, -, envelope, -, -⟩ := knownNow.coherent invariant
  have fits : OffersFit setting →
      held.envelope.schemaVersion = replica.plan.schemaVersion := by
    intro fit
    rw [← envelope]
    exact fit caller current held.id replica resident permitted there
  refine ⟨Keeps.modifyKnown invariant knownNow (fun _ => rfl) (fun _ => rfl) ?_,
    by simp [Quiet, StoreAction.isQuiet], fits⟩
  intro resident place sameEnvelope coherent
  refine { coherent with replica := ?_ }
  intro collisionFree served is_served
  simp only [Option.some.injEq] at is_served
  cases earlier : resident.replica with
  | some first =>
      rw [earlier] at is_served
      cases is_served
      exact coherent.replica collisionFree first earlier
  | none =>
      rw [earlier] at is_served
      cases is_served
      show BuiltReplica port setting resident.source resident.envelope replica
      rw [place, sameEnvelope]
      exact built collisionFree fits

theorem runs_offerMaterialized {source : String} {held : Held} {value : Json}
    (known : Known world source held)
    (built : Function.Injective crates.sha256Hex →
      BuiltDocument port setting source held.envelope value) :
    Runs port setting caller (fun log _ _ => Quiet log)
      (act (.offerMaterialized held.id value)) world := by
  refine Runs.act _ fun current later invariant response after _
    answered => ?_
  obtain rfl := answered
  have knownNow := known.later later
  refine ⟨Keeps.modifyKnown invariant knownNow (fun _ => rfl) (fun _ => rfl) ?_,
    by simp [Quiet, StoreAction.isQuiet]⟩
  intro resident place sameEnvelope coherent
  refine { coherent with materialized := ?_ }
  intro collisionFree served is_served
  simp only [Option.some.injEq] at is_served
  cases earlier : resident.materialized with
  | some first =>
      rw [earlier] at is_served
      cases is_served
      exact coherent.materialized collisionFree first earlier
  | none =>
      rw [earlier] at is_served
      cases is_served
      show BuiltDocument port setting resident.source resident.envelope value
      rw [place, sameEnvelope]
      exact built collisionFree

theorem runs_takeReplica {source : String} {held : Held}
    {replica : Option (CollaborationReplica crates.toCrates)}
    (known : Known world source held)
    (built : Function.Injective crates.sha256Hex →
      ∀ offered, replica = some offered →
        (OffersFit setting →
          held.envelope.schemaVersion = offered.plan.schemaVersion) →
            BuiltReplica port setting source held.envelope offered) :
    Runs port setting caller (fun log _ _ => Quiet log)
      (takeReplica held replica) world := by
  cases replica with
  | none => exact quiet_nil
  | some replica =>
      exact (runs_offerReplica known
        fun collisionFree => built collisionFree replica rfl).mono
          fun _ _ _ _ post => post.1

theorem runs_takeMaterialized {source : String} {held : Held}
    {value : Option Json} (known : Known world source held)
    (built : Function.Injective crates.sha256Hex →
      ∀ offered, value = some offered →
        BuiltDocument port setting source held.envelope offered) :
    Runs port setting caller (fun log _ _ => Quiet log)
      (takeMaterialized held value) world := by
  cases value with
  | none => exact quiet_nil
  | some value =>
      exact runs_offerMaterialized known
        fun collisionFree => built collisionFree value rfl

/-- Taking over what was built of the same checkpoint is quiet. -/
theorem runs_inherit {source : String} {resident earlier : Held}
    (invariant : StoreInvariant port setting world)
    (known : Known world source resident)
    (knownEarlier : Known world source earlier) :
    Runs port setting caller (fun log _ _ => Quiet log)
      (inherit resident earlier) world := by
  unfold inherit
  split
  · exact quiet_nil
  · rename_i same
    rw [not_or, not_not, not_not] at same
    obtain ⟨update, whole⟩ := (known.holds invariant).checkpoint
    refine Runs.bind invariant (runs_builtReplica knownEarlier) ?_
    rintro log replica later after held ⟨quiet, built⟩
    refine Runs.bind held
      (runs_takeReplica (known.later after)
        fun collisionFree replica is_built fits =>
          (built collisionFree replica is_built).transfer collisionFree whole
            same.1 fits) ?_
    rintro offered _ next further holds quietOffer
    refine Runs.bind holds
      (runs_builtMaterialized ((knownEarlier.later after).later further)) ?_
    rintro read value last onward holdsLast ⟨quietRead, materialized⟩
    refine (runs_takeMaterialized
      (((known.later after).later further).later onward)
      fun collisionFree value is_built =>
        (materialized collisionFree value is_built).transfer collisionFree
          whole same.1 same.2).mono ?_
    intro _ _ _ _ quietLast
    exact quiet.append (quietOffer.append (quietRead.append quietLast))

theorem runs_insert {start : StoreWorld crates application}
    {residency : Nat} {resident : Resident crates} {stored : StoredEnvelope}
    (after : StoreLater setting start world)
    (coherent : Coherent port setting world resident)
    (belongs : caller.call.lists = false →
      port.source resident.envelope.document = resident.source)
    (seen : SeenSince start world resident.source (some stored))
    (carries : stored.bytes = port.bytes resident.source resident.version) :
    Runs port setting caller
      (fun log answer later => Quiet log
        ∧ Known later resident.source answer.1
        ∧ answer.1 = resident.held answer.1.id
        ∧ ∀ earlier, answer.2 = some earlier →
            Known later resident.source earlier)
      (act (.insert residency resident)) world := by
  refine Runs.act (.insert residency resident)
    fun current later invariant response next _ answered => ?_
  obtain ⟨rfl, rfl⟩ := answered
  have keeps : Keeps port setting caller current
      (current.insert residency resident) :=
    Keeps.insert invariant (after.trans later) (coherent.later later) belongs
      (seen.later later) carries
  refine ⟨keeps, by simp [Quiet, StoreAction.isQuiet],
    ⟨resident, ?_, rfl, rfl⟩, rfl, ?_⟩
  · simp [World.insert, World.hold, Resident.held]
  · intro earlier replaced
    exact (heldAt_known invariant replaced).later keeps.later

theorem runs_hold {start : StoreWorld crates application}
    {service : Service} {resident : Resident crates}
    {stored : StoredEnvelope}
    (invariant : StoreInvariant port setting world)
    (after : StoreLater setting start world)
    (coherent : Coherent port setting world resident)
    (belongs : caller.call.lists = false →
      port.source resident.envelope.document = resident.source)
    (seen : SeenSince start world resident.source (some stored))
    (carries : stored.bytes = port.bytes resident.source resident.version) :
    Runs port setting caller
      (fun log held later => Quiet log
        ∧ Known later resident.source held
        ∧ held = resident.held held.id)
      (hold service resident) world := by
  unfold hold
  refine Runs.bind invariant
    (runs_insert after coherent belongs seen carries) ?_
  rintro log ⟨held, replaced⟩ next later holds ⟨quiet, known, same, earlier⟩
  have inherits : Runs port setting caller (fun log _ _ => Quiet log)
      (inheritFrom held replaced) next := by
    cases replaced with
    | none => exact quiet_nil
    | some replaced =>
        exact runs_inherit holds known (earlier replaced rfl)
  refine Runs.bind holds inherits ?_
  intro inherited _ last further _ quietInherited
  exact ⟨quiet.append (quietInherited.append quiet_nil), known.later further,
    same⟩

theorem runs_residentStamp {source : String} {held : Held}
    (known : Known world source held) :
    Runs port setting caller
      (fun log stamp later => Quiet log
        ∧ ∀ token, stamp = some token →
            Vouches port (later.kept source) source token
              (port.bytes source held.version))
      (act (.residentStamp held.id)) world := by
  refine Runs.act_of_same (.residentStamp held.id)
    fun current later invariant response after _ answered => ?_
  obtain ⟨rfl, rfl⟩ := answered
  refine ⟨⟨rfl, rfl, rfl⟩,
    fun _ _ => ⟨by simp [Quiet, StoreAction.isQuiet], fun token stamped => ?_⟩⟩
  obtain ⟨resident, there, rfl, -, version, coherent⟩ :=
    (known.later later).coherent invariant
  rw [there] at stamped
  rw [← version]
  exact coherent.vouched token stamped

/-- What a stamp vouches for was kept since the reader took it. -/
theorem runs_vouched {start : StoreWorld crates application}
    {source : String} {held : Option Held} {stamp : Option String}
    (invariant : StoreInvariant port setting world)
    (known : ∀ resident, held = some resident → Known world source resident)
    (taken : ∀ token, stamp = some token →
      TakenSince port start world source token) :
    Runs port setting caller
      (fun log served later => Quiet log
        ∧ ∀ resident, served = some resident →
            held = some resident
              ∧ CarriedSince port start later source resident.version)
      (vouched held stamp) world := by
  cases held with
  | none => exact ⟨quiet_nil, by simp⟩
  | some resident =>
      cases stamp with
      | none => exact ⟨quiet_nil, by simp⟩
      | some token =>
          have vouches : Runs port setting caller
              (fun log vouches later => Quiet log
                ∧ (vouches = true →
                    CarriedSince port start later source resident.version))
              (vouchedForBy (some token) resident) world := by
            unfold vouchedForBy
            rw [if_pos (by rfl)]
            refine Runs.bind invariant
              (runs_residentStamp (known resident rfl)) ?_
            rintro log stamp later after _ ⟨quiet, stamps⟩
            refine ⟨quiet.append quiet_nil, fun same => ?_⟩
            exact (stamps token (by simpa using same)).carriedSince
              ((taken token rfl).later after)
          refine Runs.bind invariant vouches ?_
          rintro log vouches later after _ ⟨quiet, carried⟩
          refine ⟨quiet.append quiet_nil, ?_⟩
          intro served same
          cases vouches
          · simp at same
          · obtain rfl := Option.some.inj same
            exact ⟨rfl, carried rfl⟩

theorem runs_stamp {start : StoreWorld crates application} {source : String}
    (after : StoreLater setting start world) :
    Runs port setting caller
      (fun log result later => Quiet log
        ∧ (∀ stamp token, result = .ok stamp → stamp = some token →
            TakenSince port start later source token)
        ∧ (∀ error, result = .error error →
            port.Fails error ∧ FailedIn log))
      (act (.stamp source)) world := by
  refine Runs.act_of_same (.stamp source)
    fun current later invariant response next _ answered => ?_
  obtain ⟨rfl, answer⟩ := answered
  refine ⟨⟨rfl, rfl, rfl⟩,
    fun _ _ => ⟨by simp [Quiet, StoreAction.isQuiet], ?_, ?_⟩⟩
  · rintro stamp token rfl rfl
    rcases answer with ⟨error, -, failed⟩ | none | ⟨found, same, moment⟩
    · cases failed
    · cases none
    · cases same
      exact ⟨next.kept source, ((after.trans later).kept source).suffix,
        List.suffix_refl _, moment⟩
  · rintro error rfl
    rcases answer with ⟨same, fails, failed⟩ | none | ⟨found, same, -⟩
    · cases failed
      exact ⟨fails, by simp [FailedIn, isFailedCall]⟩
    · cases none
    · cases same

/-- What a read of the port is answered with: what is kept now, or a failure. -/
theorem runs_read {start : StoreWorld crates application} {source : String}
    (after : StoreLater setting start world) :
    Runs port setting caller
      (fun log result later => Quiet log
        ∧ (∀ content, result = .ok content →
            later.stored source = content
              ∧ SeenSince start later source content
              ∧ (Sorted port setting → caller.call.lists = true →
                  Placed crates port source content))
        ∧ (∀ error, result = .error error →
            port.Fails error ∧ FailedIn log))
      (act (.read source)) world := by
  refine Runs.act_of_same (.read source)
    fun current later invariant response next permitted answered => ?_
  obtain ⟨rfl, answer⟩ := answered
  refine ⟨⟨rfl, rfl, rfl⟩,
    fun _ _ => ⟨by simp [Quiet, StoreAction.isQuiet], ?_, ?_⟩⟩
  · rintro content rfl
    rcases answer with ⟨error, -, failed⟩ | same
    · cases failed
    · cases same
      exact ⟨rfl, SeenSince.now (after.trans later) source,
        fun sorted lists => sorted caller _ source lists permitted⟩
  · rintro error rfl
    rcases answer with ⟨same, fails, failed⟩ | same
    · cases failed
      exact ⟨fails, by simp [FailedIn, isFailedCall]⟩
    · cases same

theorem runs_forget {start : StoreWorld crates application}
    {residency : Nat} {source : String}
    (after : StoreLater setting start world)
    (seen : SeenSince start world source none) :
    Runs port setting caller
      (fun log _ later => Quiet log ∧ SeenSince start later source none)
      (act (.forget residency source)) world := by
  refine Runs.act (.forget residency source)
    fun current later invariant response next _ answered => ?_
  obtain rfl := answered
  have keeps : Keeps port setting caller current
      (current.hold residency source none) :=
    Keeps.forget invariant (after.trans later) (seen.later later)
  exact ⟨keeps, by simp [Quiet, StoreAction.isQuiet],
    (seen.later later).later keeps.later⟩

theorem runs_restamp {source : String} {held : Held} {stamp : Option String}
    (known : Known world source held)
    (vouches : ∀ token, stamp = some token →
      Vouches port (world.kept source) source token
        (port.bytes source held.version)) :
    Runs port setting caller (fun log _ _ => Quiet log)
      (act (.restamp held.id stamp)) world := by
  refine Runs.act (.restamp held.id stamp)
    fun current later invariant response next _ answered => ?_
  obtain rfl := answered
  have knownNow := known.later later
  obtain ⟨resident, there, place, -, version, -⟩ :=
    knownNow.coherent invariant
  refine ⟨Keeps.modifyResident invariant (fun _ => rfl) (fun _ => rfl) ?_,
    by simp [Quiet, StoreAction.isQuiet]⟩
  intro other also
  cases there.symm.trans also
  refine { invariant.coherent _ _ there with vouched := ?_ }
  rintro token rfl
  have vouched := (vouches token rfl).mono (later.kept source).suffix
  rw [← place, ← version] at vouched
  exact vouched

theorem runs_getResident {residency : Nat} {source : String} :
    Runs port setting caller
      (fun log held later => Quiet log
        ∧ ∀ resident, held = some resident → Known later source resident)
      (act (.resident residency source)) world := by
  refine Runs.act_of_same (.resident residency source)
    fun current later invariant response next _ answered => ?_
  obtain ⟨rfl, rfl⟩ := answered
  exact ⟨⟨rfl, rfl, rfl⟩, fun _ _ =>
    ⟨by simp [Quiet, StoreAction.isQuiet],
      fun resident at_source => heldAt_known invariant at_source⟩⟩

/-! ## Reading a document -/

/-- What a reader was answered with, of what a source held since it came. -/
def ReadAs (port : PortContract) (start world : StoreWorld crates application)
    (source : String) (document : Option CollaborationDocumentId)
    (log : Log crates) : StoreResult (Option Held) → Prop
  | .ok none => SeenSince start world source none
  | .ok (some held) =>
      Known world source held
        ∧ CarriedSince port start world source held.version
  | .error error =>
      (port.Fails error ∧ FailedIn log)
        ∨ ∃ stored, SeenSince start world source (some stored)
            ∧ judge crates document source stored.bytes = .error error

theorem ReadAs.later {start later : StoreWorld crates application}
    {source : String} {document : Option CollaborationDocumentId}
    {log : Log crates} {result : StoreResult (Option Held)}
    (read : ReadAs port start world source document log result)
    (after : StoreLater setting world later) :
    ReadAs port start later source document log result := by
  cases result with
  | ok found =>
      cases found with
      | none => exact SeenSince.later read after
      | some held => exact ⟨read.1.later after, read.2.later after⟩
  | error error =>
      rcases read with fails | ⟨stored, seen, judged⟩
      · exact .inl fails
      · exact .inr ⟨stored, seen.later after, judged⟩

/-- What a caller may read a source as. -/
def MayRead (port : PortContract) (caller : Caller application)
    (source : String) (document : Option CollaborationDocumentId) : Prop :=
  match document with
  | none => caller.call.lists = true
  | some document => port.source document = source

/-- A resident made of bytes just read and judged. -/
theorem coherent_newResident {source : String}
    {document : Option CollaborationDocumentId} {stored : StoredEnvelope}
    {stamp : Option String}
    {judged : DurableCollaborationEnvelope × List (Nat × Nat)}
    (may : MayRead port caller source document)
    (bytes : port.bytes source stored.version = stored.bytes)
    (placed : Sorted port setting → caller.call.lists = true →
      Placed crates port source (some stored))
    (vouched : ∀ token, stamp = some token →
      Vouches port (world.kept source) source token stored.bytes)
    (accepted : judge crates document source stored.bytes = .ok judged) :
    Coherent port setting world
        (newResident crates source stored.version stamp judged.1 judged.2)
      ∧ (caller.call.lists = false →
          port.source judged.1.document = source) := by
  obtain ⟨holds, named⟩ := judge_ok accepted
  have belongs : caller.call.lists = false →
      port.source judged.1.document = source := by
    intro lists
    cases document with
    | none => exact absurd may (by simp [MayRead, lists])
    | some document => rw [named document rfl]; exact may
  refine ⟨?_, belongs⟩
  exact
    { holds := by
        show Holds crates (port.bytes source stored.version) _ _
        rw [bytes]
        exact holds
      incarnation := rfl
      placed := by
        intro sorted
        cases lists : caller.call.lists with
        | false => exact belongs lists
        | true => exact placed sorted lists stored _ _ rfl holds
      vouched := by
        intro token stamped
        show Vouches port (world.kept source) source token
          (port.bytes source stored.version)
        rw [bytes]
        exact vouched token stamped
      replica := by
        intro _ replica built
        cases built
      materialized := by
        intro _ value built
        cases built }

theorem ReadAs.prepend {start : StoreWorld crates application}
    {source : String} {document : Option CollaborationDocumentId}
    {log : Log crates} {result : StoreResult (Option Held)}
    (read : ReadAs port start world source document log result)
    (earlier : Log crates) :
    ReadAs port start world source document (earlier ++ log) result := by
  cases result with
  | ok found => cases found <;> exact read
  | error error =>
      rcases read with ⟨fails, failed⟩ | judged
      · exact .inl ⟨fails, failed.right earlier⟩
      · exact .inr judged

theorem runs_judged {start : StoreWorld crates application}
    (service : Service) {source : String}
    {document : Option CollaborationDocumentId} {stored : StoredEnvelope}
    {stamp : Option String}
    (invariant : StoreInvariant port setting world)
    (after : StoreLater setting start world)
    (may : MayRead port caller source document)
    (seen : SeenSince start world source (some stored))
    (bytes : port.bytes source stored.version = stored.bytes)
    (placed : Sorted port setting → caller.call.lists = true →
      Placed crates port source (some stored))
    (vouched : ∀ token, stamp = some token →
      Vouches port (world.kept source) source token stored.bytes) :
    Runs port setting caller
      (fun log result later => Quiet log
        ∧ ReadAs port start later source document log result)
      (judged service source document stamp stored).run world := by
  unfold judged
  refine Runs.settled ?_ ?_
  · rintro error refused
    exact ⟨quiet_nil, .inr ⟨stored, seen, refused⟩⟩
  rintro ⟨envelope, peers⟩ accepted
  obtain ⟨coherent, belongs⟩ :=
    coherent_newResident may bytes placed vouched accepted
  refine Runs.always invariant
    (runs_hold invariant after coherent belongs seen bytes.symm) ?_
  rintro log held later next _ ⟨quiet, known, same⟩
  refine ⟨quiet.append quiet_nil, known, stored, seen.later next, ?_⟩
  rw [same]
  exact bytes.symm

/-- What a reader gets when no stamp vouches for what is held. -/
theorem runs_reread {start : StoreWorld crates application}
    (service : Service) {source : String}
    {document : Option CollaborationDocumentId} {held : Option Held}
    {stamp : Option String}
    (invariant : StoreInvariant port setting world)
    (after : StoreLater setting start world)
    (may : MayRead port caller source document)
    (known : ∀ resident, held = some resident → Known world source resident)
    (taken : ∀ token, stamp = some token →
      TakenSince port start world source token) :
    Runs port setting caller
      (fun log result later => Quiet log
        ∧ ReadAs port start later source document log result)
      (reread service source document held stamp).run world := by
  unfold reread
  refine Runs.attempt invariant (runs_read after) ?_ ?_
  · rintro log error later _ ⟨quiet, -, fails⟩
    exact ⟨quiet, .inl (fails error rfl)⟩
  rintro log content later next holds ⟨quiet, reads, -⟩
  obtain ⟨now, seen, placed⟩ := reads content rfl
  cases content with
  | none =>
      refine Runs.perform holds
        (runs_forget (after.trans next) seen) ?_
      rintro forgot _ last _ _ ⟨quietForget, still⟩
      exact ⟨quiet.append (quietForget.append quiet_nil), still⟩
  | some stored =>
      have bytes : port.bytes source stored.version = stored.bytes :=
        holds.bytes now
      have vouched : ∀ token, stamp = some token →
          Vouches port (later.kept source) source token stored.bytes := by
        intro token stamped
        obtain ⟨changes, -, within, moment⟩ := taken token stamped
        have older := (within.trans (next.kept source).suffix)
        refine ⟨later.kept source, List.suffix_refl _, ?_, ?_⟩
        · rw [moment]
          exact (byteChanges_suffix older).1
        · have newest : (later.kept source).head?.bind Change.content
              = some stored := now
          rw [newestBytes, newest]
          rfl
      cases same :
          held.filter fun held => held.version == stored.version with
      | some resident =>
          obtain ⟨is_held, version⟩ := Option.filter_eq_some_iff.mp same
          have carries : port.bytes source resident.version = stored.bytes := by
            rw [beq_iff_eq.mp version]
            exact bytes
          have knownNow := (known resident is_held).later next
          simp only [same]
          refine Runs.perform holds
            (runs_restamp knownNow fun token stamped => by
              rw [carries]
              exact vouched token stamped) ?_
          rintro stamps _ last further _ quietStamp
          exact ⟨quiet.append (quietStamp.append quiet_nil),
            knownNow.later further, stored, seen.later further, carries.symm⟩
      | none =>
          simp only [same]
          refine (runs_judged service holds (after.trans next) may seen bytes
            placed vouched).mono ?_
          rintro rest result last _ ⟨quietRest, read⟩
          exact ⟨quiet.append quietRest, read.prepend log⟩

/-- A read through a residency is answered with what its source held. -/
theorem runs_resident {start : StoreWorld crates application}
    (service : Service) {source : String}
    {document : Option CollaborationDocumentId}
    (invariant : StoreInvariant port setting world)
    (after : StoreLater setting start world)
    (may : MayRead port caller source document) :
    Runs port setting caller
      (fun log result later => Quiet log
        ∧ ReadAs port start later source document log result)
      (resident service source document).run world := by
  unfold resident
  refine Runs.perform invariant runs_getResident ?_
  rintro gotten held first since holds ⟨quietGotten, known⟩
  refine Runs.attempt holds (runs_stamp (after.trans since)) ?_ ?_
  · rintro log error later _ ⟨quiet, -, fails⟩
    obtain ⟨failure, failed⟩ := fails error rfl
    exact ⟨quietGotten.append quiet, .inl ⟨failure, failed.right gotten⟩⟩
  rintro stamped stamp second passed holdsSecond ⟨quietStamp, taken, -⟩
  have knownSecond : ∀ resident, held = some resident →
      Known second source resident :=
    fun resident same => (known resident same).later passed
  refine Runs.always holdsSecond
    (runs_vouched holdsSecond knownSecond
      fun token same => taken stamp token rfl same) ?_
  rintro asked served third further holdsThird ⟨quietAsked, vouched⟩
  have quiet := quietGotten.append (quietStamp.append quietAsked)
  cases served with
  | some served =>
      obtain ⟨same, carried⟩ := vouched served rfl
      refine ⟨?_, (knownSecond served same).later further, carried⟩
      exact quietGotten.append
        (quietStamp.append (quietAsked.append quiet_nil))
  | none =>
      refine (runs_reread service holdsThird
        ((after.trans since).trans (passed.trans further)) may
        (fun resident same => (knownSecond resident same).later further)
        fun token same => (taken stamp token rfl same).later further).mono ?_
      rintro rest result last _ ⟨quietRest, read⟩
      exact ⟨quietGotten.append (quietStamp.append
          (quietAsked.append quietRest)),
        ((read.prepend asked).prepend stamped).prepend gotten⟩

theorem runs_readEnvelope {start : StoreWorld crates application}
    (service : Service) {document : CollaborationDocumentId}
    (invariant : StoreInvariant port setting world)
    (after : StoreLater setting start world) :
    Runs port setting caller
      (fun log result later => Quiet log
        ∧ ReadAs port start later (port.source document) (some document) log
            result)
      (readEnvelope port service document).run world :=
  runs_resident service invariant after rfl

/-! ## What is built once -/

/-- A replica a load built is one of its envelope's checkpoint. -/
theorem builtReplica_of_load {plan : CollaborationEntitySpec}
    {document : CollaborationDocumentId} {source : String}
    {envelope : DurableCollaborationEnvelope}
    {replica : CollaborationReplica crates.toCrates}
    (under : ReadUnder port setting plan source)
    (loads :
      loadAuthoringDocument crates plan document envelope = .ok replica) :
    BuiltReplica port setting source envelope replica := by
  obtain ⟨version, rfl, checkpoint, reads⟩ := loadAuthoringDocument_ok loads
  exact ⟨checkpoint, reads, under, fun _ => version⟩

/-- A replica is served as it was built, or built now. -/
theorem answers_replica {id : Nat}
    {build response : StoreResult (CollaborationReplica crates.toCrates)}
    {after : StoreWorld crates application} {resident : Resident crates}
    (there : world.residents[id]? = some resident)
    (answered : Answers port caller world (.replica id build) response after) :
    (∃ replica, resident.replica = some replica ∧ response = .ok replica
        ∧ after = world)
      ∨ (∃ error, build = .error error ∧ response = .error error
          ∧ after = world)
      ∨ ∃ built, build = .ok built ∧ response = .ok built
          ∧ after = world.modifyResident id fun resident =>
              { resident with replica := some built } := by
  simp only [Answers, there, Option.bind_some] at answered
  cases cached : resident.replica with
  | some replica =>
      rw [cached] at answered
      exact .inl ⟨replica, rfl, answered⟩
  | none =>
      rw [cached] at answered
      cases build with
      | error error => exact .inr (.inl ⟨error, rfl, answered⟩)
      | ok built => exact .inr (.inr ⟨built, rfl, answered⟩)

/-- A document is served as it was materialised, or materialised now. -/
theorem answers_materialized {id : Nat} {build response : StoreResult Json}
    {after : StoreWorld crates application} {resident : Resident crates}
    (there : world.residents[id]? = some resident)
    (answered :
      Answers port caller world (.materialized id build) response after) :
    (∃ value, resident.materialized = some value ∧ response = .ok value
        ∧ after = world)
      ∨ (∃ error, build = .error error ∧ response = .error error
          ∧ after = world)
      ∨ ∃ built, build = .ok built ∧ response = .ok built
          ∧ after = world.modifyResident id fun resident =>
              { resident with materialized := some built } := by
  simp only [Answers, there, Option.bind_some] at answered
  cases cached : resident.materialized with
  | some value =>
      rw [cached] at answered
      exact .inl ⟨value, rfl, answered⟩
  | none =>
      rw [cached] at answered
      cases build with
      | error error => exact .inr (.inl ⟨error, rfl, answered⟩)
      | ok built => exact .inr (.inr ⟨built, rfl, answered⟩)

theorem runs_replica {plan : CollaborationEntitySpec}
    {document : CollaborationDocumentId} {source : String} {held : Held}
    (known : Known world source held)
    (under : ReadUnder port setting plan source) :
    Runs port setting caller
      (fun log result _ => Quiet log
        ∧ (∀ replica, result = .ok replica →
            Function.Injective crates.sha256Hex →
              BuiltReplica port setting source held.envelope replica)
        ∧ (∀ error, result = .error error →
            loadAuthoringDocument crates plan document held.envelope
              = .error error))
      (replica plan document held).run world := by
  refine Runs.act
    (.replica held.id
      (loadAuthoringDocument crates plan document held.envelope))
    fun current later invariant response after _ answered => ?_
  have knownNow := known.later later
  obtain ⟨resident, there, rfl, envelope, -, coherent⟩ :=
    knownNow.coherent invariant
  rcases answers_replica there answered with ⟨replica, cached, rfl, rfl⟩
    | ⟨error, load, rfl, rfl⟩ | ⟨replica, load, rfl, rfl⟩
  · refine ⟨Keeps.of_same invariant rfl rfl rfl,
      by simp [Quiet, StoreAction.isQuiet], ?_, by rintro error ⟨⟩⟩
    rintro _ ⟨⟩ collisionFree
    rw [← envelope]
    exact coherent.replica collisionFree _ cached
  · exact ⟨Keeps.of_same invariant rfl rfl rfl,
      by simp [Quiet, StoreAction.isQuiet], by rintro replica ⟨⟩,
      by rintro _ ⟨⟩; exact load⟩
  · have built := builtReplica_of_load under load
    refine ⟨Keeps.modifyKnown invariant knownNow (fun _ => rfl) (fun _ => rfl)
      ?_, by simp [Quiet, StoreAction.isQuiet], by rintro _ ⟨⟩ _; exact built,
      by rintro _ ⟨⟩⟩
    intro other place same coherentOther
    refine { coherentOther with replica := ?_ }
    rintro collisionFree _ ⟨⟩
    show BuiltReplica port setting other.source other.envelope _
    rw [place, same]
    exact built

/-- Materialising a replica of the document that is held, once. -/
theorem runs_materializedOf {document : CollaborationDocumentId}
    {source : String} {held : Held}
    {replica : CollaborationReplica crates.toCrates}
    (known : Known world source held)
    (built : Function.Injective crates.sha256Hex →
      BuiltReplica port setting source held.envelope replica) :
    Runs port setting caller
      (fun log result _ => Quiet log
        ∧ (∀ value, result = .ok value →
            Function.Injective crates.sha256Hex →
              BuiltDocument port setting source held.envelope value)
        ∧ (∀ error, result = .error error →
            ¬ Function.Injective crates.sha256Hex))
      (act (.materialized held.id
        (orStoreError document
          (replica.materializedDocument held.envelope.etag)))) world := by
  refine Runs.act
    (.materialized held.id
      (orStoreError document
        (replica.materializedDocument held.envelope.etag)))
    fun current later invariant response after _ answered => ?_
  have knownNow := known.later later
  obtain ⟨resident, there, rfl, envelope, -, coherent⟩ :=
    knownNow.coherent invariant
  rcases answers_materialized there answered with ⟨value, cached, rfl, rfl⟩
    | ⟨error, build, rfl, rfl⟩ | ⟨value, build, rfl, rfl⟩
  · refine ⟨Keeps.of_same invariant rfl rfl rfl,
      by simp [Quiet, StoreAction.isQuiet], ?_, by rintro error ⟨⟩⟩
    rintro _ ⟨⟩ collisionFree
    rw [← envelope]
    exact coherent.materialized collisionFree _ cached
  · refine ⟨Keeps.of_same invariant rfl rfl rfl,
      by simp [Quiet, StoreAction.isQuiet], by rintro value ⟨⟩, ?_⟩
    rintro _ ⟨⟩ collisionFree
    obtain ⟨read, reads⟩ := (built collisionFree).reads held.envelope.etag
      (revision_checkpointEtag _)
    rw [reads] at build
    cases build
  · have of_replica : Function.Injective crates.sha256Hex →
        BuiltDocument port setting resident.source held.envelope value := by
      intro collisionFree
      refine ⟨replica, built collisionFree, ?_⟩
      cases read : replica.materializedDocument held.envelope.etag with
      | error error =>
          rw [read] at build
          cases build
      | ok materialized =>
          rw [read] at build
          cases build
          rfl
    refine ⟨Keeps.modifyKnown invariant knownNow (fun _ => rfl) (fun _ => rfl)
      ?_, by simp [Quiet, StoreAction.isQuiet],
      by rintro _ ⟨⟩; exact of_replica, by rintro _ ⟨⟩⟩
    intro other place same coherentOther
    refine { coherentOther with materialized := ?_ }
    rintro collisionFree _ ⟨⟩
    show BuiltDocument port setting other.source other.envelope _
    rw [place, same]
    exact of_replica collisionFree

theorem runs_materialized {plan : CollaborationEntitySpec}
    {document : CollaborationDocumentId} {source : String} {held : Held}
    (invariant : StoreInvariant port setting world)
    (known : Known world source held)
    (under : ReadUnder port setting plan source) :
    Runs port setting caller
      (fun log result _ => Quiet log
        ∧ (∀ value, result = .ok value →
            Function.Injective crates.sha256Hex →
              BuiltDocument port setting source held.envelope value)
        ∧ (∀ error, result = .error error →
            Function.Injective crates.sha256Hex →
              loadAuthoringDocument crates plan document held.envelope
                = .error error))
      (materialized plan document held).run world := by
  unfold materialized
  refine Runs.attempt invariant (runs_replica known under) ?_ ?_
  · rintro log error later _ ⟨quiet, -, fails⟩
    exact ⟨quiet, by rintro value ⟨⟩,
      by rintro _ ⟨⟩ _; exact fails error rfl⟩
  rintro log replica later next _ ⟨quiet, built, -⟩
  refine (runs_materializedOf (known.later next) (built replica rfl)).mono ?_
  rintro rest result last _ ⟨quietRest, value, fails⟩
  exact ⟨quiet.append quietRest, value,
    fun error failed collisionFree =>
      absurd collisionFree (fails error failed)⟩

/-! ## Frontiers and announcements -/

/-- Whether an action leaves the storage and the audit alone. -/
def StoreAction.isTold : StoreAction crates → Bool
  | .announce _ => true
  | action => action.isQuiet

/-- A log of quiet actions and announcements. -/
def Told (log : Log crates) : Prop :=
  ∀ answered ∈ log, answered.1.isTold = true

theorem Quiet.told {log : Log crates} (quiet : Quiet log) : Told log := by
  intro answered member
  have is_quiet := quiet answered member
  obtain ⟨action, response⟩ := answered
  cases action <;> simp_all [StoreAction.isTold, StoreAction.isQuiet]

theorem Told.append {log rest : Log crates} (told : Told log)
    (more : Told rest) : Told (log ++ rest) := by
  intro answered member
  rcases List.mem_append.mp member with first | later
  · exact told answered first
  · exact more answered later

theorem runs_acceptedFrontier {service : Service}
    {envelope : DurableCollaborationEnvelope}
    (invariant : StoreInvariant port setting world)
    (admitted : setting.Admitted caller) (serves : caller.service = service) :
    Runs port setting caller (fun log _ _ => Quiet log)
      (acceptedFrontier port service envelope) world := by
  unfold acceptedFrontier
  split
  · exact quiet_nil
  · rename_i plan found
    refine Runs.bind invariant runs_getResident ?_
    rintro log held later after holds ⟨quiet, known⟩
    have under : ReadUnder port setting plan
        (port.source envelope.document) := by
      refine ⟨caller, envelope.document, admitted, .inr ⟨?_, ?_⟩, rfl⟩
      · rw [serves]
        exact List.mem_of_find?_eq_some found
      · have named := List.find?_some found
        exact beq_iff_eq.mp named
    have loads : Runs port setting caller (fun log _ _ => Quiet log)
        (replicaOf plan envelope held).run later := by
      unfold replicaOf
      split
      · rename_i resident same
        have is_held := (Option.filter_eq_some_iff.mp same).1
        exact (runs_replica (known resident is_held) under).mono
          fun _ _ _ _ post => post.1
      · exact quiet_nil
    refine Runs.bind holds loads ?_
    intro loaded _ _ _ _ quietLoad
    exact quiet.append (quietLoad.append quiet_nil)

theorem runs_uuid :
    Runs port setting caller
      (fun log uuid later => Quiet log ∧ Text.isBlank uuid = false
        ∧ later.Unused uuid)
      (act .uuid) world := by
  refine Runs.act_of_same .uuid
    fun current later invariant response next _ answered => ?_
  obtain ⟨-, named, unused, rfl⟩ := answered
  exact ⟨⟨rfl, rfl, rfl⟩, fun _ _ =>
    ⟨by simp [Quiet, StoreAction.isQuiet], by simpa using named, unused⟩⟩

/-- An action that neither reads what is held nor writes what is kept. -/
theorem runs_told (action : StoreAction crates)
    (told : action.isTold = true)
    (same : ∀ current response after,
      Answers port caller current action response after →
        after.kept = current.kept ∧ after.residents = current.residents
          ∧ after.held = current.held) :
    Runs port setting caller (fun log _ _ => Told log) (act action) world := by
  refine Runs.act_of_same action
    fun current later invariant response next _ answered => ?_
  exact ⟨same current response next answered,
    fun _ _ => by simpa [Told] using told⟩

/-- An announcement leaves the storage and the audit alone. -/
theorem runs_announce {service : Service} {kind : ChangeKind}
    {generation : Option Nat} {actor : Principal} {intent : Option String}
    {data : StoreProgram crates ChangeData}
    (invariant : StoreInvariant port setting world)
    (reads : ∀ later, StoreLater setting world later →
      StoreInvariant port setting later →
        Runs port setting caller (fun log _ _ => Quiet log) data later) :
    Runs port setting caller (fun log _ _ => Told log)
      (announce service kind generation actor intent data) world := by
  unfold announce
  refine Runs.bind invariant
    (runs_told .isHeard rfl fun _ _ _ answered => by
      obtain rfl := answered
      exact ⟨rfl, rfl, rfl⟩) ?_
  intro asked heard first since holds toldAsked
  cases heard with
  | false => exact toldAsked.append (quiet_nil.told)
  | true =>
      refine Runs.bind holds runs_uuid ?_
      rintro named uuid second passed holdsSecond ⟨quietNamed, -⟩
      refine Runs.bind holdsSecond
        (runs_told .timestamp rfl fun _ _ _ answered => by
          obtain rfl := answered
          exact ⟨rfl, rfl, rfl⟩) ?_
      intro timed time third further holdsThird toldTimed
      refine Runs.bind holdsThird
        (reads third ((since.trans passed).trans further) holdsThird) ?_
      intro read data last onward holdsLast quietRead
      refine (runs_told (.announce _) rfl fun _ _ _ answered => by
        obtain rfl := answered
        exact ⟨rfl, rfl, rfl⟩).mono ?_
      intro _ _ _ _ told
      exact toldAsked.append (quietNamed.told.append
        (toldTimed.append (quietRead.told.append told)))

end Runs

end Reading

end Clerkenwell.Store
