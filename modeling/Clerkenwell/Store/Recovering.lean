import Clerkenwell.Store.Editing

/-!
# Reads, creation, migration, repair and deletion, step by step

A read of a document is of what its source held since the reader came.  A
seed, a migration, a repair and a deletion store at most once, and one that
fails has stored nothing.
-/

namespace Clerkenwell.Store

open Clerkenwell.Foundation
open Clerkenwell.Doc

section Recovering

variable {crates : StoreCrates} {port : PortContract}
variable {application : Application} {setting : Setting crates application}
variable {caller : Caller application}
variable {start world : StoreWorld crates application}

/-! ## Reads -/

/-- What a summary of a document was answered with. -/
def SummarisedAs (port : PortContract)
    (start later : StoreWorld crates application)
    (document : CollaborationDocumentId) (log : Log crates)
    (result : StoreResult (Option CollaborationDocumentSummary)) : Prop :=
  ∃ found,
    ReadAs port start later (port.source document) (some document) log found
      ∧ result = found.map (Option.map CollaborationDocumentSummary.of)

theorem runs_summary {service : Service}
    {document : CollaborationDocumentId}
    (invariant : StoreInvariant port setting world) :
    Runs port setting caller
      (fun log result later => SummarisedAs port world later document log
        result)
      (summary port service document).run world := by
  unfold summary
  refine Runs.attempt invariant
    (runs_readEnvelope service invariant (StoreLater.refl world)) ?_ ?_
  · rintro log error later _ ⟨-, read⟩
    exact ⟨_, read, rfl⟩
  · rintro log read later _ _ ⟨-, readAs⟩
    refine ⟨.ok read, ?_, rfl⟩
    rw [List.append_nil]
    exact readAs

theorem runs_summariesAt {service : Service} (sources : List String)
    (invariant : StoreInvariant port setting world)
    (lists : caller.call.lists = true) :
    Runs port setting caller (fun _ _ _ => True)
      (summariesAt service sources :
        Attempt crates StoreError _).run world := by
  induction sources generalizing world with
  | nil => trivial
  | cons source rest inductionHypothesis =>
      unfold summariesAt
      refine Runs.attempt invariant
        (runs_resident service invariant (StoreLater.refl world) lists)
        (fun _ _ _ _ _ => trivial) ?_
      intro log read later _ holds _
      refine Runs.attempt holds (inductionHypothesis holds)
        (fun _ _ _ _ _ => trivial) ?_
      intros
      trivial

theorem runs_summaries {service : Service} {entity : String}
    (invariant : StoreInvariant port setting world)
    (lists : caller.call.lists = true) :
    Runs port setting caller (fun _ _ _ => True)
      (summaries service entity : Attempt crates StoreError _).run world := by
  unfold summaries
  have listed : Runs port setting caller (fun _ _ _ => True)
      (act (.sources entity)) world :=
    Runs.act_of_same (.sources entity) fun _ _ _ _ _ _ answered => by
      obtain ⟨rfl, -⟩ := answered
      exact ⟨⟨rfl, rfl, rfl⟩, fun _ _ => trivial⟩
  refine Runs.attempt invariant listed (fun _ _ _ _ _ => trivial) ?_
  intro log sources later _ holds _
  refine Runs.attempt holds (runs_summariesAt sources holds lists)
    (fun _ _ _ _ _ => trivial) ?_
  intros
  trivial

/-- What a document held reads as, or why it cannot be read. -/
def HeldReadAs (port : PortContract) (setting : Setting crates application)
    (plan : CollaborationEntitySpec) (document : CollaborationDocumentId)
    (held : Held) :
    StoreResult (Option CollaborationDocumentRead) → Prop
  | .ok none => False
  | .ok (some read) =>
      read.summary = CollaborationDocumentSummary.of held
        ∧ ∃ replica : CollaborationReplica crates.toCrates,
            read.acceptedFrontierBase64 = replica.acceptedFrontierBase64
              ∧ (Function.Injective crates.sha256Hex →
                  BuiltReplica port setting (port.source document)
                      held.envelope replica
                    ∧ BuiltDocument port setting (port.source document)
                        held.envelope read.document)
  | .error error => Function.Injective crates.sha256Hex →
      loadAuthoringDocument crates plan document held.envelope = .error error

/-- What a read of a document was answered with. -/
def DocumentReadAs (port : PortContract)
    (setting : Setting crates application)
    (start later : StoreWorld crates application)
    (plan : CollaborationEntitySpec) (document : CollaborationDocumentId)
    (log : Log crates)
    (result : StoreResult (Option CollaborationDocumentRead)) : Prop :=
  ∃ found readLog rest,
    log = readLog ++ rest
      ∧ ReadAs port start later (port.source document) (some document)
          readLog found
      ∧ match found with
        | .error error => result = .error error
        | .ok none => result = .ok none
        | .ok (some held) => HeldReadAs port setting plan document held result

theorem runs_readDocument {service : Service}
    {plan : CollaborationEntitySpec} {document : CollaborationDocumentId}
    (invariant : StoreInvariant port setting world)
    (under : ReadUnder port setting plan (port.source document)) :
    Runs port setting caller
      (fun log result later =>
        DocumentReadAs port setting world later plan document log result)
      (readDocument port service plan document).run world := by
  unfold readDocument
  refine Runs.attempt invariant
    (runs_readEnvelope service invariant (StoreLater.refl world)) ?_ ?_
  · rintro log error later _ ⟨-, read⟩
    exact ⟨_, log, [], by simp, read, rfl⟩
  rintro log read later next holds ⟨-, readAs⟩
  cases read with
  | none => exact ⟨_, log, [], rfl, readAs, rfl⟩
  | some held =>
      have known : Known later (port.source document) held := readAs.1
      refine Runs.attempt holds (runs_materialized holds known under) ?_ ?_
      · rintro rest error last further ⟨-, -, fails⟩
        exact ⟨_, log, rest, rfl, readAs.later further, fails error rfl⟩
      rintro rest value last further holdsLast ⟨-, built, -⟩
      refine Runs.attempt holdsLast
        (runs_replica (known.later further) under) ?_ ?_
      · rintro more error final onward ⟨-, -, fails⟩
        exact ⟨_, log, rest ++ more, rfl,
          (readAs.later further).later onward, fun _ => fails error rfl⟩
      · rintro more replica final onward _ ⟨-, builtReplica, -⟩
        exact ⟨_, log, rest ++ (more ++ []), rfl,
          (readAs.later further).later onward, rfl, replica, rfl,
          fun collisionFree => ⟨builtReplica replica rfl collisionFree,
            built value rfl collisionFree⟩⟩

/-! ## Deletion and repair -/

/-- A call that fails has stored nothing. -/
def FailsUnstored {ε α : Type} (log : Log crates) (result : Except ε α) :
    Prop :=
  ∀ error, result = .error error → Unstored log

theorem FailsUnstored.prepend {ε α : Type} {log rest : Log crates}
    {result : Except ε α} (fails : FailsUnstored rest result)
    (unstored : Unstored log) : FailsUnstored (log ++ rest) result :=
  fun error failed => unstored.append (fails error failed)

theorem runs_delete {actor : Principal} {document : CollaborationDocumentId}
    {turns : Nat} (left : Nat)
    (invariant : StoreInvariant port setting world)
    (admitted : setting.Admitted caller)
    (call : caller.call = .delete actor document turns) :
    Runs port setting caller (fun log result _ => FailsUnstored log result)
      (delete port caller.service actor document left :
        Attempt crates StoreError _).run world := by
  induction left generalizing world with
  | zero => trivial
  | succ left inductionHypothesis =>
      unfold delete
      refine Runs.attempt invariant (runs_read (StoreLater.refl world)) ?_ ?_
      · rintro log error later _ ⟨quiet, -⟩ _ _
        exact quiet.told.unstored
      rintro log read later _ holds ⟨quiet, -⟩
      cases read with
      | none => rintro _ ⟨⟩
      | some stored =>
          refine Runs.attempt holds
            (runs_remove holds (StoreLater.refl later) admitted
              fun _ => .removed call rfl) ?_ ?_
          · rintro rest error last _ ⟨-, unstored⟩ _ _
            exact quiet.told.unstored.append (unstored (by simp))
          rintro rest removed last _ holdsLast ⟨-, unstored⟩
          cases removed with
          | true =>
              refine Runs.always holdsLast
                (runs_announce holdsLast fun _ _ _ => quiet_nil) ?_
              rintro told _ final _ _ announced _ ⟨⟩
          | false =>
              refine (inductionHypothesis holdsLast).mono ?_
              intro more result final _ fails
              exact (fails.prepend (unstored (by simp))).prepend
                quiet.told.unstored

theorem runs_storedBytes {document : CollaborationDocumentId}
    (invariant : StoreInvariant port setting world) :
    Runs port setting caller
      (fun log result _ => Quiet log
        ∧ ∀ stored, result = .ok stored →
            port.bytes (port.source document) stored.version = stored.bytes)
      (storedBytes port document : Attempt crates StoreError _).run
      world := by
  unfold storedBytes
  refine Runs.attempt invariant (runs_read (StoreLater.refl world)) ?_ ?_
  · rintro log error later _ ⟨quiet, -⟩
    exact ⟨quiet, by rintro _ ⟨⟩⟩
  rintro log read later _ holds ⟨quiet, reads, -⟩
  cases read with
  | none => exact ⟨quiet.append quiet_nil, by rintro _ ⟨⟩⟩
  | some stored =>
      refine ⟨quiet.append quiet_nil, ?_⟩
      rintro _ ⟨⟩
      exact holds.bytes (reads _ rfl).1

theorem runs_preserve {document : CollaborationDocumentId} {label : String}
    {bytes : Bytes} :
    Runs port setting caller (fun log _ _ => Unstored log)
      (act (.preserve document label bytes)) world :=
  Runs.act_of_same (.preserve document label bytes)
    fun _ _ _ _ _ _ answered => by
      rcases answered with ⟨rfl, -⟩ | ⟨place, rfl, rfl⟩
      · exact ⟨⟨rfl, rfl, rfl⟩, fun _ _ => by simp [Unstored, isStored]⟩
      · exact ⟨⟨rfl, rfl, rfl⟩, fun _ _ => by simp [Unstored, isStored]⟩

theorem decodeEnvelope_of_parse {document : Option CollaborationDocumentId}
    {source : String} {bytes : Bytes} {wrap : StoreError → StoreError}
    {envelope : DurableCollaborationEnvelope}
    (parsed : (parseEnvelope crates document source bytes).mapError wrap
      = .ok envelope) :
    decodeEnvelope crates bytes = .ok envelope := by
  unfold parseEnvelope at parsed
  cases decoded : decodeEnvelope crates bytes with
  | error fault => simp [decoded, Except.mapError] at parsed
  | ok read => simpa [decoded, Except.mapError] using parsed

theorem runs_repair {actor : Principal} {document : CollaborationDocumentId}
    {reason : String}
    (invariant : StoreInvariant port setting world)
    (admitted : setting.Admitted caller)
    (call : caller.call = .repair actor document reason) :
    Runs port setting caller (fun log result _ => FailsUnstored log result)
      (repair port caller.service actor document reason :
        Attempt crates StoreError _).run world := by
  unfold repair
  refine Runs.attempt invariant (runs_auditRequest invariant) ?_ ?_
  · rintro log error later _ audited _ _
    exact audited.unstored
  rintro log _ first _ holdsFirst audited
  refine Runs.attempt holdsFirst (runs_storedBytes holdsFirst) ?_ ?_
  · rintro rest error later _ ⟨quiet, -⟩ _ _
    exact audited.unstored.append quiet.told.unstored
  rintro rest stored second _ holdsSecond ⟨quiet, names⟩
  have unstored := audited.unstored.append quiet.told.unstored
  refine Runs.settled (fun _ _ _ _ => ?_) ?_
  · simpa using unstored
  intro envelope parsed
  refine Runs.settled (fun _ _ _ _ => ?_) ?_
  · simpa using unstored
  intro _ _
  refine Runs.attempt holdsSecond runs_preserve ?_ ?_
  · rintro more error later _ preserved
    exact fun _ _ => audited.unstored.append
      (quiet.told.unstored.append preserved)
  rintro more evidence third _ holdsThird preserved
  refine Runs.always holdsThird
    (runs_acceptedFrontier holdsThird admitted rfl) ?_
  rintro asked frontier fourth _ holdsFourth quietFrontier
  have decoded := decodeEnvelope_of_parse parsed
  have format := (fromSlice_of_decodeEnvelope decoded).2
  refine Runs.attempt holdsFourth
    (runs_swap holdsFourth (StoreLater.refl fourth) admitted format ?_) ?_ ?_
  · intro peers bytes valid encoded current _ invariantNow same version
    obtain ⟨content, there, sameVersion⟩ := Option.map_eq_some_iff.mp same
    refine .repaired call rfl there ?_ valid encoded
    rw [← invariantNow.bytes there, sameVersion, names stored rfl]
    exact decoded
  · rintro swapped error later _ ⟨-, stale⟩ _ _
    exact audited.unstored.append (quiet.told.unstored.append
      (preserved.append (quietFrontier.told.unstored.append stale)))
  rintro swapped held last _ holdsLast ⟨-, swappedAs⟩
  cases held with
  | none =>
      intro _ _
      exact audited.unstored.append (quiet.told.unstored.append
        (preserved.append (quietFrontier.told.unstored.append
          (Unstored.append swappedAs quiet_nil.told.unstored))))
  | some held =>
      refine Runs.always holdsLast
        (runs_announce holdsLast fun current _ holdsNow => ?_) ?_
      · refine Runs.bind holdsNow
          (runs_acceptedFrontier holdsNow admitted rfl) ?_
        rintro read _ _ _ _ quietRead
        exact quietRead.append quiet_nil
      · rintro told _ final _ _ _ _ ⟨⟩

/-! ## Creation -/

theorem runs_seedAttempts {commit : CollaborationCommit} (turns : Nat)
    (invariant : StoreInvariant port setting world)
    (admitted : setting.Admitted caller)
    (asks : Asks crates caller none commit) :
    Runs port setting caller (fun log result _ => FailsUnstored log result)
      (seedAttempts port caller.service commit turns :
        Attempt crates StoreError _).run world := by
  induction turns generalizing world with
  | zero => trivial
  | succ turns inductionHypothesis =>
      unfold seedAttempts
      refine Runs.attempt invariant
        (runs_readEnvelope caller.service invariant (StoreLater.refl world))
        ?_ ?_
      · rintro log error later _ ⟨quiet, -⟩ _ _
        exact quiet.told.unstored
      rintro log read later _ holds ⟨quiet, -⟩
      cases read with
      | some current => rintro _ ⟨⟩
      | none =>
          refine Runs.attempt holds
            (runs_commitOver holds (StoreLater.refl later) admitted rfl
              (by rintro _ ⟨⟩) asks) ?_ ?_
          · rintro rest error last _ ⟨-, unstored⟩ _ _
            exact quiet.told.unstored.append unstored
          rintro rest outcome last _ holdsLast ⟨-, committed⟩
          cases outcome with
          | accepted seeded => rintro _ ⟨⟩
          | duplicate seeded => rintro _ ⟨⟩
          | stale =>
              refine (inductionHypothesis holdsLast).mono ?_
              intro more result final _ fails
              exact (fails.prepend committed).prepend quiet.told.unstored

theorem runs_seed {plan : CollaborationEntitySpec}
    {document : CollaborationDocumentId} {incarnation : Option String}
    {acceptedUpdate : Bytes} {turns : Nat}
    (invariant : StoreInvariant port setting world)
    (admitted : setting.Admitted caller)
    (named : incarnation.any Text.isBlank = false)
    (loads : Loads crates plan acceptedUpdate)
    (asks : ∀ commit,
      SeedAsks crates caller.service plan document incarnation none commit →
        Asks crates caller none commit) :
    Runs port setting caller (fun log result _ => FailsUnstored log result)
      (seed port caller.service plan document incarnation acceptedUpdate
        turns).run world := by
  unfold seed
  refine Runs.settled (fun _ _ _ _ => quiet_nil.told.unstored) ?_
  intro peers held
  exact runs_seedAttempts turns invariant admitted
    (asks _ ⟨rfl, named, acceptedUpdate, peers, loads,
      orStoreError_ok_iff.mp held, rfl⟩)

/-- What a seed document is written as loads as its plan's. -/
theorem loads_of_seedUpdate {Failure : Type}
    {ofStore : StoreError → Failure} {plan : CollaborationEntitySpec}
    {document : CollaborationDocumentId} {seedDocument : Json} {peer : Nat}
    {validate : Json → Except Failure Unit} {acceptedUpdate : Bytes}
    (seeded :
      seedUpdate crates ofStore plan document seedDocument peer validate
        = .ok acceptedUpdate) :
    Loads crates plan acceptedUpdate := by
  unfold seedUpdate at seeded
  obtain ⟨authoring, written, seeded⟩ := except_bind_ok seeded
  obtain ⟨update, exported, seeded⟩ := except_bind_ok seeded
  obtain ⟨value, reads, seeded⟩ := except_bind_ok seeded
  obtain ⟨-, -, seeded⟩ := except_bind_ok seeded
  obtain rfl := Except.ok.inj seeded
  have same : authoring.plan = plan := by
    have written := orStoreError_ok_iff.mp (mapError_ok_iff.mp written)
    unfold CollaborationReplica.fromDocument at written
    obtain ⟨-, -, written⟩ := except_bind_ok written
    obtain ⟨doc, -, written⟩ := except_bind_ok written
    obtain ⟨-, -, written⟩ := except_bind_ok written
    obtain rfl := Except.ok.inj written
    rfl
  rw [← same]
  exact loads_of_export
    (exportedUpdate_ok_iff.mp (mapError_ok_iff.mp exported))
    (revision_checkpointEtag _)
    (orStoreError_ok_iff.mp (mapError_ok_iff.mp reads))

/-- A history an update is checked as loads as its plan's. -/
theorem loads_of_checkedHistory {Failure : Type}
    {ofStore : StoreError → Failure} {plan : CollaborationEntitySpec}
    {document : CollaborationDocumentId} {schemaVersion : Nat}
    {updateBase64 : String} {undecodable : String → StoreError}
    {validate : Json → Except Failure Unit}
    {history : CollaborationReplica crates.toCrates × Bytes}
    (checked :
      checkedHistory crates ofStore plan document schemaVersion updateBase64
        undecodable validate = .ok history) :
    crates.base64.decode updateBase64 = .ok history.2
      ∧ Loads crates plan history.2 := by
  unfold checkedHistory at checked
  obtain ⟨authoring, loads, checked⟩ := except_bind_ok checked
  obtain ⟨update, decoded, checked⟩ := except_bind_ok checked
  obtain ⟨value, -, checked⟩ := except_bind_ok checked
  obtain ⟨⟨⟩, -, checked⟩ := except_bind_ok checked
  obtain rfl := Except.ok.inj checked
  have decodes := mapError_ok_iff.mp (mapError_ok_iff.mp decoded)
  refine ⟨decodes, authoring, ?_⟩
  have loaded := orStoreError_ok_iff.mp (mapError_ok_iff.mp loads)
  unfold CollaborationReplica.fromVersionedUpdateBase64 at loaded ⊢
  obtain ⟨⟨⟩, -, loaded⟩ := except_bind_ok loaded
  obtain ⟨doc, whole, loaded⟩ := except_bind_ok loaded
  have again :
      importWhole crates.loro.new (crates.base64.encode update) = .ok doc := by
    unfold importWhole decodeBase64 at whole ⊢
    rw [crates.base64.decode_encode, ← decodes]
    exact whole
  simp only [requireSupportedSchemaVersion, ne_eq, not_true_eq_false, if_false,
    again, bind, Except.bind]
  exact loaded

theorem runs_bootstrap {plan : CollaborationEntitySpec}
    {document : CollaborationDocumentId} {seedDocument : Json}
    {validate : Json → Except application.Failure Unit} {turns : Nat}
    (invariant : StoreInvariant port setting world)
    (admitted : setting.Admitted caller)
    (call :
      caller.call = .bootstrap plan document seedDocument validate turns) :
    Runs port setting caller (fun log result _ => FailsUnstored log result)
      (bootstrap port caller.service application.ofStore plan document
        seedDocument validate turns : Attempt crates _ _).run world := by
  unfold bootstrap
  refine Runs.adapted invariant
    (runs_readEnvelope caller.service invariant (StoreLater.refl world))
    ?_ ?_
  · rintro log error later _ ⟨quiet, -⟩ _ _
    exact quiet.told.unstored
  rintro log read later _ holds ⟨quiet, -⟩
  cases read with
  | some current => rintro _ ⟨⟩
  | none =>
      refine Runs.always holds (runs_allocatePeers holds) ?_
      rintro allocated block next _ holdsNext quietBlock
      refine Runs.settled (fun _ _ _ _ => ?_) ?_
      · exact quiet.told.unstored.append (quietBlock.told.unstored.append
          quiet_nil.told.unstored)
      intro acceptedUpdate seeded
      refine Runs.adapted holdsNext
        (runs_seed holdsNext admitted rfl (loads_of_seedUpdate seeded) ?_)
        ?_ ?_
      · intro commit asks
        rw [Asks, call]
        exact asks
      · rintro rest error last _ fails _ _
        exact quiet.told.unstored.append (quietBlock.told.unstored.append
          (fails error rfl))
      · rintro rest held last _ _ _ _ ⟨⟩

theorem runs_bootstrapUpdate {plan : CollaborationEntitySpec}
    {document : CollaborationDocumentId} {schemaVersion : Nat}
    {updateBase64 : String} {incarnation : Option String}
    {validate : Json → Except application.Failure Unit} {turns : Nat}
    (invariant : StoreInvariant port setting world)
    (admitted : setting.Admitted caller)
    (call : caller.call =
      .bootstrapUpdate plan document schemaVersion updateBase64 incarnation
        validate turns) :
    Runs port setting caller (fun log result _ => FailsUnstored log result)
      (bootstrapUpdate port caller.service application.ofStore plan document
        schemaVersion updateBase64 incarnation validate turns :
        Attempt crates _ _).run world := by
  unfold bootstrapUpdate
  refine Runs.adapted invariant
    (runs_readEnvelope caller.service invariant (StoreLater.refl world))
    ?_ ?_
  · rintro log error later _ ⟨quiet, -⟩ _ _
    exact quiet.told.unstored
  rintro log read later _ holds ⟨quiet, -⟩
  cases read with
  | some current => rintro _ ⟨⟩
  | none =>
      simp only
      split
      · rintro _ _
        exact quiet.told.unstored.append quiet_nil.told.unstored
      rename_i named
      refine Runs.settled (fun _ _ _ _ => ?_) ?_
      · exact quiet.told.unstored.append quiet_nil.told.unstored
      rintro ⟨authoring, acceptedUpdate⟩ checked
      refine Runs.adapted holds
        (runs_seed holds admitted (Bool.not_eq_true _ ▸ named)
          (loads_of_checkedHistory checked).2 ?_) ?_ ?_
      · intro commit asks
        rw [Asks, call]
        exact asks
      · rintro rest error last _ fails _ _
        exact quiet.told.unstored.append (fails error rfl)
      · rintro rest held last _ _ _ _ ⟨⟩

/-! ## Migration -/

/-- How a migration that returns a document ended. -/
inductive MigratedAs (port : PortContract)
    (start later : StoreWorld crates application) (service : Service)
    (plan : CollaborationEntitySpec) (document : CollaborationDocumentId)
    (fromSchemaVersion : Nat) (updateBase64 : String) (log : Log crates)
    (held : Held) : Prop
  | found (unstored : Unstored log)
      (version : held.envelope.schemaVersion = plan.schemaVersion)
  | kept {commit : CollaborationCommit} (unstored : Unstored log)
      (asks : MigrationAsks crates service plan document fromSchemaVersion
        updateBase64 (some held.envelope) commit)
      (duplicates : Duplicates crates held.envelope commit)
  | rewritten {read : Held} {commit : CollaborationCommit}
      (known : Known later (port.source document) read)
      (carried :
        CarriedSince port start later (port.source document) read.version)
      (asks : MigrationAsks crates service plan document fromSchemaVersion
        updateBase64 (some read.envelope) commit)
      (builds : Builds crates service.policy (some read.envelope) commit
        held.envelope)
      (fresh : start.Unused held.envelope.incarnation)

theorem MigratedAs.prepend {later : StoreWorld crates application}
    {service : Service} {plan : CollaborationEntitySpec}
    {document : CollaborationDocumentId} {fromSchemaVersion : Nat}
    {updateBase64 : String} {log rest : Log crates} {held : Held}
    (migrated : MigratedAs port start later service plan document
      fromSchemaVersion updateBase64 rest held)
    (unstored : Unstored log) :
    MigratedAs port start later service plan document fromSchemaVersion
      updateBase64 (log ++ rest) held := by
  cases migrated with
  | found more version => exact .found (unstored.append more) version
  | kept more asks duplicates =>
      exact .kept (unstored.append more) asks duplicates
  | rewritten known carried asks builds fresh =>
      exact .rewritten known carried asks builds fresh

theorem MigratedAs.later {world later : StoreWorld crates application}
    {service : Service} {plan : CollaborationEntitySpec}
    {document : CollaborationDocumentId} {fromSchemaVersion : Nat}
    {updateBase64 : String} {log : Log crates} {held : Held}
    (migrated : MigratedAs port start world service plan document
      fromSchemaVersion updateBase64 log held)
    (after : StoreLater setting world later) :
    MigratedAs port start later service plan document fromSchemaVersion
      updateBase64 log held := by
  cases migrated with
  | found unstored version => exact .found unstored version
  | kept unstored asks duplicates => exact .kept unstored asks duplicates
  | rewritten known carried asks builds fresh =>
      exact .rewritten (known.later after) (carried.later after) asks builds
        fresh

/-- What a migration was answered with. -/
def MigrationAnsweredAs {ε : Type} (port : PortContract)
    (start later : StoreWorld crates application) (service : Service)
    (plan : CollaborationEntitySpec) (document : CollaborationDocumentId)
    (fromSchemaVersion : Nat) (updateBase64 : String) (log : Log crates) :
    Except ε Held → Prop
  | .error _ => Unstored log
  | .ok held =>
      Known later (port.source document) held
        ∧ CarriedSince port start later (port.source document) held.version
        ∧ MigratedAs port start later service plan document fromSchemaVersion
            updateBase64 log held

theorem World.Unused.earlier {later : StoreWorld crates application}
    {incarnation : String} (unused : later.Unused incarnation)
    (after : StoreLater setting world later) : world.Unused incarnation :=
  fun source change member =>
    unused source change ((after.kept source).suffix.subset member)

/-- An incarnation nothing kept is of is not that of a document read. -/
theorem incarnation_ne_of_unused {source : String} {held : Held}
    {incarnation : String}
    (invariant : StoreInvariant port setting world)
    (known : Known world source held)
    (carried : CarriedSince port start world source held.version)
    (unused : world.Unused incarnation) :
    incarnation ≠ held.envelope.incarnation := by
  obtain ⟨stored, ⟨seen, -, within, kept⟩, bytes⟩ := carried
  obtain ⟨change, newest, content⟩ := Option.bind_eq_some_iff.mp kept
  have member := within.subset (List.mem_of_mem_head? newest)
  have decoded := (known.holds invariant).decoded
  rw [← bytes] at decoded
  exact (unused source change member stored held.envelope content
    (fromSlice_of_decodeEnvelope decoded).1).symm

theorem runs_migrateAttempts {plan : CollaborationEntitySpec}
    {document : CollaborationDocumentId} {fromSchemaVersion : Nat}
    {updateBase64 : String} {migrated : CollaborationReplica crates.toCrates}
    {acceptedUpdate : Bytes} (turns : Nat)
    (invariant : StoreInvariant port setting world)
    (after : StoreLater setting start world)
    (admitted : setting.Admitted caller)
    (decoded : crates.base64.decode updateBase64 = .ok acceptedUpdate)
    (loads : Loads crates plan acceptedUpdate)
    (asks : ∀ current commit,
      MigrationAsks crates caller.service plan document fromSchemaVersion
          updateBase64 current commit →
        Asks crates caller current commit) :
    Runs port setting caller
      (fun log result later =>
        MigrationAnsweredAs port start later caller.service plan document
          fromSchemaVersion updateBase64 log result)
      (migrateAttempts port caller.service plan document fromSchemaVersion
        updateBase64 migrated acceptedUpdate turns).run world := by
  induction turns generalizing world with
  | zero => trivial
  | succ turns inductionHypothesis =>
      unfold migrateAttempts
      refine Runs.attempt invariant
        (runs_readEnvelope caller.service invariant after) ?_ ?_
      · rintro log error later _ ⟨quiet, -⟩
        exact quiet.told.unstored
      rintro log read later next holds ⟨quiet, readAs⟩
      cases read with
      | none => exact quiet.told.unstored.append quiet_nil.told.unstored
      | some read =>
          obtain ⟨known, carried⟩ := readAs
          simp only
          split
          · rename_i version
            exact ⟨known, carried, .found
              (quiet.told.unstored.append quiet_nil.told.unstored) version⟩
          rename_i unmigrated
          split
          · exact quiet.told.unstored.append quiet_nil.told.unstored
          rename_i expected
          rw [not_not] at expected
          refine Runs.settled (fun _ _ => ?_) ?_
          · exact quiet.told.unstored.append quiet_nil.told.unstored
          intro peers unbound
          refine Runs.perform holds runs_uuid ?_
          rintro minted incarnation middle further holdsMiddle
            ⟨quietMinted, named, unused⟩
          have differs := incarnation_ne_of_unused holdsMiddle
            (known.later further) (carried.later further) unused
          have asked : MigrationAsks crates caller.service plan document
              fromSchemaVersion updateBase64 (some read.envelope)
              (migrationCommit crates caller.service plan document
                fromSchemaVersion migrated acceptedUpdate incarnation
                peers) :=
            ⟨read.envelope, migrated, acceptedUpdate, incarnation, peers, rfl,
              expected, fun same => unmigrated (expected.trans same), decoded,
              loads, unbound, by simp [named], differs, rfl⟩
          have unstored := quiet.told.unstored.append
            quietMinted.told.unstored
          refine Runs.attempt holdsMiddle
            (runs_commitOver holdsMiddle ((after.trans next).trans further)
              admitted rfl
              (by rintro _ ⟨⟩; exact known.later further)
              (asks _ _ asked)) ?_ ?_
          · rintro rest error last _ ⟨-, stale⟩
            exact quiet.told.unstored.append
              (quietMinted.told.unstored.append stale)
          rintro rest outcome last onward holdsLast ⟨-, committed⟩
          cases outcome with
          | accepted stored =>
              obtain ⟨knownStored, carriedStored, builds⟩ := committed
              refine ⟨knownStored, carriedStored,
                .rewritten ((known.later further).later onward)
                  ((carried.later further).later onward) asked builds ?_⟩
              obtain ⟨given, -, same⟩ := builds.built
              rw [same]
              exact unused.earlier ((after.trans next).trans further)
          | duplicate stored =>
              obtain ⟨stale, is_read, duplicates⟩ := committed
              obtain rfl := Option.some.inj is_read
              refine ⟨(known.later further).later onward,
                (carried.later further).later onward, ?_⟩
              refine .kept ?_ asked duplicates
              exact quiet.told.unstored.append
                (quietMinted.told.unstored.append
                  (Unstored.append stale quiet_nil.told.unstored))
          | stale =>
              refine (inductionHypothesis holdsLast
                (((after.trans next).trans further).trans onward)).mono ?_
              intro more result final _ answered
              cases result with
              | error error =>
                  exact quiet.told.unstored.append
                    (quietMinted.told.unstored.append
                      (Unstored.append committed answered))
              | ok held =>
                  obtain ⟨knownHeld, carriedHeld, migratedAs⟩ := answered
                  exact ⟨knownHeld, carriedHeld,
                    ((migratedAs.prepend committed).prepend
                      quietMinted.told.unstored).prepend
                      quiet.told.unstored⟩

theorem runs_migrate {plan : CollaborationEntitySpec}
    {document : CollaborationDocumentId} {fromSchemaVersion : Nat}
    {updateBase64 : String} {validate : Json → Except application.Failure Unit}
    {turns : Nat}
    (invariant : StoreInvariant port setting world)
    (admitted : setting.Admitted caller)
    (call : caller.call =
      .migrate plan document fromSchemaVersion updateBase64 validate turns) :
    Runs port setting caller
      (fun log result later => ∃ answer : Except application.Failure Held,
        result = answer.map CollaborationDocumentSummary.of
          ∧ MigrationAnsweredAs port world later caller.service plan document
              fromSchemaVersion updateBase64 log answer)
      (migrate port caller.service application.ofStore plan document
        fromSchemaVersion updateBase64 validate turns :
        Attempt crates _ _).run world := by
  unfold migrate
  refine Runs.settled (fun error _ => ⟨.error error, rfl,
    quiet_nil.told.unstored⟩) ?_
  rintro ⟨migrated, acceptedUpdate⟩ checked
  obtain ⟨decoded, loads⟩ := loads_of_checkedHistory checked
  refine Runs.adapted invariant
    (runs_migrateAttempts turns invariant (StoreLater.refl world) admitted
      decoded loads ?_) ?_ ?_
  · intro current commit asks
    rw [Asks, call]
    exact asks
  · rintro log error later _ unstored
    exact ⟨.error (application.ofStore error), rfl, unstored⟩
  · rintro log held later _ _ answered
    refine ⟨.ok held, rfl, ?_⟩
    rw [List.append_nil]
    exact answered

end Recovering

end Clerkenwell.Store
