import Clerkenwell.Store.Judging

/-!
# Commits

A commit stores the envelope it built over the one it read, or changes
nothing.  What replaces an envelope was built over that very envelope, since a
version names its bytes.
-/

namespace Clerkenwell.Store

open Clerkenwell.Foundation
open Clerkenwell.Doc

section Committing

variable {crates : StoreCrates} {port : PortContract}
variable {application : Application} {setting : Setting crates application}

/-! ## Writes and audits in a log -/

/-- Whether an action was answered by storing or removing an envelope. -/
def isStored : Program.Answered (@StoreAction.Response crates) → Bool
  | ⟨.compareAndSwap _ _ _, .ok (some _)⟩ => true
  | ⟨.compareAndRemove _ _, .ok true⟩ => true
  | _ => false

/-- A log in which nothing was stored. -/
def Unstored (log : Log crates) : Prop :=
  ∀ answered ∈ log, isStored answered = false

def StoreAction.isAudit : StoreAction crates → Bool
  | .appendAudit _ => true
  | _ => false

/-- A log in which nothing was audited. -/
def Unaudited (log : Log crates) : Prop :=
  ∀ answered ∈ log, answered.1.isAudit = false

theorem Told.unstored {log : Log crates} (told : Told log) :
    Unstored log := by
  intro answered member
  have is_told := told answered member
  obtain ⟨action, response⟩ := answered
  cases action <;>
    simp_all [StoreAction.isTold, StoreAction.isQuiet, isStored]

theorem Told.unaudited {log : Log crates} (told : Told log) :
    Unaudited log := by
  intro answered member
  have is_told := told answered member
  obtain ⟨action, response⟩ := answered
  cases action <;>
    simp_all [StoreAction.isTold, StoreAction.isQuiet, StoreAction.isAudit]

theorem Unstored.append {log rest : Log crates} (unstored : Unstored log)
    (more : Unstored rest) : Unstored (log ++ rest) := by
  intro answered member
  rcases List.mem_append.mp member with first | later
  · exact unstored answered first
  · exact more answered later

theorem Unaudited.append {log rest : Log crates} (unaudited : Unaudited log)
    (more : Unaudited rest) : Unaudited (log ++ rest) := by
  intro answered member
  rcases List.mem_append.mp member with first | later
  · exact unaudited answered first
  · exact more answered later

section Runs

variable {caller : Caller application}
variable {start world : StoreWorld crates application}

/-! ## Swapping and removing -/

/-- What a conditional write was answered with. -/
def SwappedAs (port : PortContract) (start later : StoreWorld crates application)
    (document : CollaborationDocumentId)
    (envelope : DurableCollaborationEnvelope) (log : Log crates) :
    StoreResult (Option Held) → Prop
  | .ok (some held) =>
      Known later (port.source document) held
        ∧ CarriedSince port start later (port.source document) held.version
        ∧ held.envelope = envelope
        ∧ validateEnvelope crates document envelope
            = .ok held.accepted.peers
  | .ok none => Unstored log
  | .error _ => Unstored log

theorem runs_compareAndSwap {document : CollaborationDocumentId}
    {expected : Option String} {bytes : Bytes}
    (after : StoreLater setting start world)
    (admitted : setting.Admitted caller)
    (writes : ∀ current, StoreLater setting world current →
      StoreInvariant port setting current →
        (current.stored (port.source document)).map StoredEnvelope.version
            = expected →
          ∀ version, Writes crates port caller (port.source document)
            (current.stored (port.source document))
            (some { version := version, bytes := bytes })) :
    Runs port setting caller
      (fun log result later => Unaudited log
        ∧ (∀ version, result = .ok (some version) →
            port.bytes (port.source document) version = bytes
              ∧ SeenSince start later (port.source document)
                  (some { version := version, bytes := bytes }))
        ∧ (result = .ok none → Unstored log)
        ∧ (∀ error, result = .error error → Unstored log))
      (act (.compareAndSwap document expected bytes)) world := by
  refine Runs.act (.compareAndSwap document expected bytes)
    fun current later invariant response next _ answered => ?_
  rcases answered with ⟨rfl, answer⟩ | ⟨version, rfl, same, names, rfl⟩
  · refine ⟨Keeps.of_same invariant rfl rfl rfl,
      by simp [Unaudited, StoreAction.isAudit], ?_, ?_, ?_⟩
    · rintro version rfl
      rcases answer with ⟨_, -, failed⟩ | none
      · cases failed
      · cases none
    · rintro rfl
      simp [Unstored, isStored]
    · rintro error rfl
      simp [Unstored, isStored]
  · have keeps : Keeps port setting caller current
        (current.keep (port.source document)
          { content := some { version := version, bytes := bytes }
            writer := some caller }) := by
      refine Keeps.keep invariant ?_ ?_ ?_
      · rintro stored ⟨⟩
        exact names
      · rintro writer ⟨⟩
        exact writes current later invariant same version
      · exact admitted
    refine ⟨keeps, by simp [Unaudited, StoreAction.isAudit], ?_,
      by rintro ⟨⟩, by rintro error ⟨⟩⟩
    rintro _ ⟨⟩
    refine ⟨names, ?_⟩
    have seen := SeenSince.now ((after.trans later).trans keeps.later)
      (port.source document)
    simpa [World.stored, World.keep] using seen

theorem runs_swap {service : Service} {document : CollaborationDocumentId}
    {expected : Option String} {envelope : DurableCollaborationEnvelope}
    (invariant : StoreInvariant port setting world)
    (after : StoreLater setting start world)
    (admitted : setting.Admitted caller)
    (format : envelope.envelopeVersion = envelopeVersion)
    (writes : ∀ peers bytes,
      validateEnvelope crates document envelope = .ok peers →
      crates.toVecPretty envelope = .ok bytes →
      ∀ current, StoreLater setting world current →
        StoreInvariant port setting current →
          (current.stored (port.source document)).map StoredEnvelope.version
              = expected →
            ∀ version, Writes crates port caller (port.source document)
              (current.stored (port.source document))
              (some { version := version, bytes := bytes })) :
    Runs port setting caller
      (fun log result later => Unaudited log
        ∧ SwappedAs port start later document envelope log result)
      (swap port service document expected envelope).run world := by
  unfold swap
  refine Runs.settled (fun error _ => ⟨quiet_nil.told.unaudited,
    quiet_nil.told.unstored⟩) ?_
  intro peers valid
  refine Runs.settled (fun error _ => ⟨quiet_nil.told.unaudited,
    quiet_nil.told.unstored⟩) ?_
  intro bytes encodes
  have encoded : crates.toVecPretty envelope = .ok bytes := by
    cases result : crates.toVecPretty envelope with
    | error message =>
        rw [result] at encodes
        cases encodes
    | ok written =>
        rw [result] at encodes
        exact congrArg Except.ok (Except.ok.inj encodes)
  refine Runs.attempt invariant
    (runs_compareAndSwap after admitted (writes peers bytes valid encoded))
    ?_ ?_
  · rintro log error later _ ⟨unaudited, -, -, fails⟩
    exact ⟨unaudited, fails error rfl⟩
  rintro log swapped later next holds ⟨unaudited, stored, stale, -⟩
  cases swapped with
  | none =>
      exact ⟨unaudited.append quiet_nil.told.unaudited,
        (stale rfl).append quiet_nil.told.unstored⟩
  | some version =>
      obtain ⟨names, seen⟩ := stored version rfl
      have named := validateEnvelope_document valid
      have coherent : Coherent port setting later
          (newResident crates (port.source document) version none envelope
            peers) :=
        { holds := by
            refine ⟨?_, ?_⟩
            · show decodeEnvelope crates
                (port.bytes (port.source document) version) = .ok envelope
              rw [names]
              exact decodeEnvelope_toVecPretty encoded format
            · show validateEnvelope crates envelope.document envelope
                = .ok peers
              rw [named]
              exact valid
          incarnation := rfl
          placed := fun _ => congrArg port.source named
          vouched := by rintro token ⟨⟩
          replica := by rintro _ replica ⟨⟩
          materialized := by rintro _ value ⟨⟩ }
      refine Runs.always holds
        (runs_hold holds (after.trans next) coherent
          (fun _ => congrArg port.source named) seen names.symm) ?_
      rintro heldLog held last further _ ⟨quiet, known, same⟩
      refine ⟨unaudited.append (quiet.told.unaudited.append
        quiet_nil.told.unaudited), known, ?_, ?_, ?_⟩
      · rw [same]
        exact ⟨_, seen.later further, names.symm⟩
      · rw [same]
        rfl
      · rw [same]
        exact valid

theorem runs_compareAndRemove {document : CollaborationDocumentId}
    {expected : String}
    (after : StoreLater setting start world)
    (admitted : setting.Admitted caller)
    (writes : ∀ older, Writes crates port caller (port.source document) older
      none) :
    Runs port setting caller
      (fun log result later => Unaudited log
        ∧ (result = .ok true →
            SeenSince start later (port.source document) none)
        ∧ (result ≠ .ok true → Unstored log))
      (act (.compareAndRemove document expected)) world := by
  refine Runs.act (.compareAndRemove document expected)
    fun current later invariant response next _ answered => ?_
  rcases answered with ⟨rfl, answer⟩ | ⟨rfl, -, rfl⟩
  · refine ⟨Keeps.of_same invariant rfl rfl rfl,
      by simp [Unaudited, StoreAction.isAudit], ?_, ?_⟩
    · rintro rfl
      rcases answer with ⟨_, -, failed⟩ | kept
      · cases failed
      · cases kept
    · intro _
      rcases answer with ⟨_, -, rfl⟩ | rfl <;> simp [Unstored, isStored]
  · have keeps : Keeps port setting caller current
        (current.keep (port.source document)
          { content := none, writer := some caller }) := by
      refine Keeps.keep invariant ?_ ?_ ?_
      · rintro stored ⟨⟩
      · rintro writer ⟨⟩
        exact writes _
      · exact admitted
    refine ⟨keeps, by simp [Unaudited, StoreAction.isAudit], ?_,
      fun different => absurd rfl different⟩
    intro _
    have seen := SeenSince.now ((after.trans later).trans keeps.later)
      (port.source document)
    simpa [World.stored, World.keep] using seen

theorem runs_remove {service : Service} {document : CollaborationDocumentId}
    {expected : String}
    (invariant : StoreInvariant port setting world)
    (after : StoreLater setting start world)
    (admitted : setting.Admitted caller)
    (writes : ∀ older, Writes crates port caller (port.source document) older
      none) :
    Runs port setting caller
      (fun log result _ => Unaudited log
        ∧ (result ≠ .ok true → Unstored log))
      (remove port service document expected).run world := by
  unfold remove
  refine Runs.attempt invariant
    (runs_compareAndRemove after admitted writes) ?_ ?_
  · rintro log error later _ ⟨unaudited, -, kept⟩
    exact ⟨unaudited, fun _ => kept (by simp)⟩
  rintro log removed later next holds ⟨unaudited, seen, kept⟩
  cases removed with
  | false =>
      exact ⟨unaudited.append quiet_nil.told.unaudited,
        fun _ => (kept (by simp)).append quiet_nil.told.unstored⟩
  | true =>
      refine Runs.perform holds
        (runs_forget (after.trans next) (seen rfl)) ?_
      rintro forgot _ last _ _ ⟨quiet, -⟩
      exact ⟨unaudited.append (quiet.told.unaudited.append
        quiet_nil.told.unaudited), fun different => absurd rfl different⟩

/-! ## Committing -/

/-- An envelope already holds what a commit adds. -/
def Duplicates (crates : StoreCrates)
    (envelope : DurableCollaborationEnvelope)
    (commit : CollaborationCommit) : Prop :=
  (∃ existing,
      retainedOperation envelope commit.operationId = some existing
        ∧ existing.updateSha256 = crates.sha256Hex commit.importedUpdate)
    ∨ (retainedOperation envelope commit.operationId = none
        ∧ (commit.hasNewOperations = false
          ∨ envelope.checkpointSha256
              = crates.sha256Hex commit.acceptedUpdate))

theorem judgeCommit_some {read : Option Held} {commit : CollaborationCommit}
    {outcome : CollaborationCommitOutcome}
    (judged : judgeCommit crates read commit = .ok (some outcome)) :
    ∃ held, read = some held ∧ outcome = .duplicate held
      ∧ Duplicates crates held.envelope commit := by
  unfold judgeCommit at judged
  cases read with
  | none => cases judged
  | some held =>
      refine ⟨held, rfl, ?_⟩
      simp only at judged
      cases retained :
          retainedOperation held.envelope commit.operationId with
      | some existing =>
          simp only [retained] at judged
          split at judged
          · rename_i same
            cases judged
            exact ⟨rfl, .inl ⟨existing, retained, same⟩⟩
          · cases judged
      | none =>
          simp only [retained] at judged
          split at judged
          · rename_i duplicate
            cases judged
            refine ⟨rfl, .inr ⟨retained, ?_⟩⟩
            simpa using duplicate
          · split at judged <;> cases judged

theorem judgeCommit_none {read : Option Held} {commit : CollaborationCommit}
    (judged : judgeCommit crates read commit = .ok none) :
    ∀ envelope, read.map Held.envelope = some envelope →
      AddsOperation crates envelope commit := by
  intro envelope is_read
  obtain ⟨held, rfl, rfl⟩ := Option.map_eq_some_iff.mp is_read
  unfold judgeCommit at judged
  simp only at judged
  cases retained : retainedOperation held.envelope commit.operationId with
  | some existing =>
      simp only [retained] at judged
      split at judged <;> cases judged
  | none =>
      simp only [retained] at judged
      split at judged
      · cases judged
      · rename_i adds
        split at judged
        · cases judged
        · rename_i bound
          simp only [Bool.or_eq_true, Bool.not_eq_true', beq_iff_eq, not_or,
            Bool.not_eq_false] at adds
          exact ⟨retained, adds.1, adds.2, not_not.mp bound⟩

/-- What a commit was answered with. -/
def CommittedAs (port : PortContract)
    (start later : StoreWorld crates application) (service : Service)
    (read : Option Held) (commit : CollaborationCommit) (log : Log crates) :
    StoreResult CollaborationCommitOutcome → Prop
  | .ok (.accepted held) =>
      Known later (port.source commit.document) held
        ∧ CarriedSince port start later (port.source commit.document)
            held.version
        ∧ Builds crates service.policy (read.map Held.envelope) commit
            held.envelope
  | .ok (.duplicate held) =>
      Unstored log ∧ read = some held
        ∧ Duplicates crates held.envelope commit
  | .ok .stale => Unstored log
  | .error _ => Unstored log

theorem runs_mintIncarnation {current : Option DurableCollaborationEnvelope}
    {commit : CollaborationCommit} :
    Runs port setting caller
      (fun log incarnation _ => Quiet log
        ∧ (commit.incarnation = none → current = none →
            ¬ Text.isBlank incarnation))
      (mintIncarnation current commit) world := by
  unfold mintIncarnation
  split
  · refine runs_uuid.mono ?_
    rintro log uuid later _ ⟨quiet, named, -⟩
    exact ⟨quiet, fun _ _ => by simp [named]⟩
  · rename_i other
    exact ⟨quiet_nil, fun none_given none_read =>
      absurd none_read (other none_given)⟩

/-- What is stored under the version of a document read is its envelope. -/
theorem current_of_version {read : Option Held}
    {current : StoreWorld crates application} {source : String}
    (invariant : StoreInvariant port setting current)
    (known : ∀ held, read = some held → Known current source held)
    (same : (current.stored source).map StoredEnvelope.version
      = read.map Held.version) :
    Current crates (current.stored source) (read.map Held.envelope) := by
  cases read with
  | none =>
      rw [Option.map_none, Option.map_eq_none_iff] at same
      rw [same]
      trivial
  | some held =>
      obtain ⟨stored, there, version⟩ := Option.map_eq_some_iff.mp same
      rw [there]
      refine ⟨held.accepted.peers, ?_⟩
      have holds := (known held rfl).holds invariant
      rw [← invariant.bytes there, version]
      exact holds

theorem runs_frontierLeft {service : Service}
    {commit : CollaborationCommit} {envelope : DurableCollaborationEnvelope}
    (invariant : StoreInvariant port setting world)
    (admitted : setting.Admitted caller)
    (serves : caller.service = service) :
    Runs port setting caller (fun log _ _ => Quiet log)
      (frontierLeft port service commit envelope) world := by
  unfold frontierLeft
  split
  · exact quiet_nil
  · exact runs_acceptedFrontier invariant admitted serves

theorem runs_commitOver {service : Service} {read : Option Held}
    {commit : CollaborationCommit}
    (invariant : StoreInvariant port setting world)
    (after : StoreLater setting start world)
    (admitted : setting.Admitted caller) (serves : caller.service = service)
    (known : ∀ held, read = some held →
      Known world (port.source commit.document) held)
    (asks : Asks crates caller (read.map Held.envelope) commit) :
    Runs port setting caller
      (fun log result later => Unaudited log
        ∧ CommittedAs port start later service read commit log result)
      (commitOver port service read commit).run world := by
  unfold commitOver
  refine Runs.settled (fun error _ => ⟨quiet_nil.told.unaudited,
    quiet_nil.told.unstored⟩) ?_
  intro judged judgement
  cases judged with
  | some outcome =>
      obtain ⟨held, is_read, rfl, duplicates⟩ := judgeCommit_some judgement
      exact ⟨quiet_nil.told.unaudited, quiet_nil.told.unstored, is_read,
        duplicates⟩
  | none =>
      refine Runs.always invariant runs_mintIncarnation ?_
      rintro minted incarnation later next holds ⟨quiet, named⟩
      refine Runs.attempt holds
        (runs_swap holds (after.trans next) admitted rfl ?_) ?_ ?_
      · intro peers bytes valid encoded current since invariantNow same version
        exact .committed rfl
          (current_of_version invariantNow
            (fun held is_read =>
              ((known held is_read).later next).later since) same)
          asks
          ⟨judgeCommit_none judgement, ⟨incarnation, named, serves ▸ rfl⟩,
            ⟨peers, valid⟩⟩
          encoded
      · rintro log error last _ ⟨unaudited, unstored⟩
        exact ⟨quiet.told.unaudited.append unaudited,
          quiet.told.unstored.append unstored⟩
      rintro log swapped last further holdsLast ⟨unaudited, swappedAs⟩
      cases swapped with
      | none =>
          exact ⟨quiet.told.unaudited.append (unaudited.append
              quiet_nil.told.unaudited),
            quiet.told.unstored.append (Unstored.append swappedAs
              quiet_nil.told.unstored)⟩
      | some accepted =>
          obtain ⟨knownAccepted, carried, same, valid⟩ := swappedAs
          refine Runs.always holdsLast
            (runs_announce holdsLast fun current _ holdsNow =>
              Runs.bind holdsNow
                (runs_frontierLeft holdsNow admitted serves)
                fun _ _ _ _ _ quiet => quiet.append quiet_nil) ?_
          rintro told _ final onward _ announced
          exact ⟨quiet.told.unaudited.append (unaudited.append
              (announced.unaudited.append quiet_nil.told.unaudited)),
            knownAccepted.later onward, carried.later onward,
            judgeCommit_none judgement, ⟨incarnation, named, same⟩,
            ⟨accepted.accepted.peers, same ▸ valid⟩⟩

end Runs

end Committing

end Clerkenwell.Store
