import Clerkenwell.Doc.Refusals
import Clerkenwell.Foundation.Results

/-!
# Updates offered to a client's replica

A client's replica flushes its text bindings before it does anything else, so
a refused import leaves at most flushed what any later call would have flushed
itself.
-/

namespace Clerkenwell.Client

open Clerkenwell.Doc Clerkenwell.Foundation

/-! ## Replicas -/

inductive ReplicaFailure where
  /-- A `CollaborationUnrelatedHistoryError`. -/
  | unrelatedHistory (entityName : String)
  | unsupportedSchemaVersion (entityName : String) (actual expected : Nat)
  | invalidBase64 (message : String)
  /-- What the replica library throws. -/
  | update (message : String)
  /-- What reading, validating or writing a document throws. -/
  | document (message : String)
deriving DecidableEq

/-- What the documents of a plan are read as, checked by and written through. -/
structure PlanDocuments (crates : Crates) (TDocument : Type) where
  entityName : String
  schemaVersion : Nat
  validatedCollaborationDocument : TDocument → Except String TDocument
  materialize : crates.loro.LoroDoc → Option String →
    Except String TDocument
  writeChanges : crates.loro.LoroDoc → TDocument → TDocument →
    Except String Unit × crates.loro.LoroDoc

/-- A `CollaborationReplica` of a document. -/
structure OfferedReplica {crates : Crates} (library : WaitingLoro crates)
    (TDocument : Type) where
  doc : library.Document
  document : TDocument
  documentDirty : Bool
  /-- What each text binding with something to publish exports, in turn. -/
  unpublished : List Bytes

namespace OfferedReplica

variable {crates : Crates} {library : WaitingLoro crates} {TDocument : Type}

/-- A binding publishes: the document imports what it exported. -/
def publish (replica : OfferedReplica library TDocument) (update : Bytes) :
    OfferedReplica library TDocument :=
  match library.importUpdate replica.doc update with
  | .error _ => replica
  | .ok (doc, _) => { replica with doc := doc, documentDirty := true }

def flushTextBindings (replica : OfferedReplica library TDocument) :
    OfferedReplica library TDocument :=
  { replica.unpublished.foldl publish replica with unpublished := [] }

/-- The operations a replica holds, its bindings' included. -/
def operations (replica : OfferedReplica library TDocument) :
    Set crates.loro.Operation :=
  crates.loro.operations (library.shown replica.flushTextBindings.doc)

variable (plan : PlanDocuments crates TDocument)

def requireCollaborationSchemaVersion (actual : Nat) :
    Except ReplicaFailure Unit :=
  if actual ≠ plan.schemaVersion then
    .error (.unsupportedSchemaVersion plan.entityName actual
      plan.schemaVersion)
  else .ok ()

/-- Refuses a peer of an update whose first change is a root `held` lacks. -/
def requireHeldRoot (scratch : crates.loro.LoroDoc) (held : VersionVector)
    (peer : Nat) : Except ReplicaFailure Unit :=
  match crates.loro.changeIsRoot scratch peer 0 with
  | none => .error (.update "no such change")
  | some isRoot =>
      if isRoot && held.counter peer == 0 then
        .error (.unrelatedHistory plan.entityName)
      else .ok ()

/-- Refuses an update holding a root `doc` lacks. -/
def requireRelatedHistory (doc : library.Document) (update : Bytes) :
    Except ReplicaFailure Unit :=
  match library.importUpdate library.new update with
  | .error message => .error (.update message)
  | .ok (scratch, _) =>
      forM (crates.loro.oplogVv (library.shown scratch)).keys
        (requireHeldRoot plan (library.shown scratch)
          (crates.loro.oplogVv (library.shown doc)))

/--
Imports an update, and answers with whether the document changed and the
replica it leaves.  An update that waits is not refused.
-/
def importUpdateBase64 (replica : OfferedReplica library TDocument)
    (updateBase64 : String) :
    Except ReplicaFailure Bool × OfferedReplica library TDocument :=
  let flushed := replica.flushTextBindings
  match crates.base64.decode updateBase64 with
  | .error message => (.error (.invalidBase64 message), flushed)
  | .ok update =>
      match requireRelatedHistory plan flushed.doc update with
      | .error failure => (.error failure, flushed)
      | .ok () =>
          match library.importUpdate flushed.doc update with
          | .error message => (.error (.update message), flushed)
          | .ok (doc, _) =>
              if library.succeeds flushed.doc update then
                (.ok true, { flushed with doc := doc, documentDirty := true })
              else (.ok false, { flushed with doc := doc })

def importVersionedUpdateBase64 (replica : OfferedReplica library TDocument)
    (schemaVersion : Nat) (updateBase64 : String) :
    Except ReplicaFailure Bool × OfferedReplica library TDocument :=
  match requireCollaborationSchemaVersion plan schemaVersion with
  | .error failure => (.error failure, replica)
  | .ok () => replica.importUpdateBase64 plan updateBase64

/-- Flushes the bindings and reads the document again where it changed. -/
def refreshDocument (replica : OfferedReplica library TDocument) :
    Except ReplicaFailure Unit × OfferedReplica library TDocument :=
  let flushed := replica.flushTextBindings
  if flushed.documentDirty then
    match plan.materialize (library.shown flushed.doc) none with
    | .error message => (.error (.document message), flushed)
    | .ok document =>
        (.ok (), { flushed with document := document, documentDirty := false })
  else (.ok (), flushed)

def replaceDocument (replica : OfferedReplica library TDocument)
    (document : TDocument) :
    Except ReplicaFailure Bool × OfferedReplica library TDocument :=
  match plan.validatedCollaborationDocument document with
  | .error message => (.error (.document message), replica)
  | .ok next =>
      match replica.refreshDocument plan with
      | (.error failure, left) => (.error failure, left)
      | (.ok (), refreshed) =>
          let (written, doc) := plan.writeChanges
            (library.shown refreshed.doc) refreshed.document next
          let left := { refreshed with doc := library.write refreshed.doc doc }
          match written with
          | .error message => (.error (.document message), left)
          | .ok () =>
              (.ok true, { left with document := next, documentDirty := false })

def materializedDocument (replica : OfferedReplica library TDocument)
    (revision : Option String) : Except String TDocument :=
  plan.materialize (library.shown replica.flushTextBindings.doc) revision

end OfferedReplica

/-! ## Later calls -/

/-- What a client's replica may be asked to do. -/
inductive OfferedCall (TDocument : Type) where
  | importUpdateBase64 (updateBase64 : String)
  | importVersionedUpdateBase64 (schemaVersion : Nat) (updateBase64 : String)
  | replaceDocument (document : TDocument)

namespace OfferedReplica

variable {crates : Crates} {library : WaitingLoro crates} {TDocument : Type}
  (plan : PlanDocuments crates TDocument)

def act (replica : OfferedReplica library TDocument) :
    OfferedCall TDocument →
      Except ReplicaFailure Bool × OfferedReplica library TDocument
  | .importUpdateBase64 updateBase64 =>
      replica.importUpdateBase64 plan updateBase64
  | .importVersionedUpdateBase64 schemaVersion updateBase64 =>
      replica.importVersionedUpdateBase64 plan schemaVersion updateBase64
  | .replaceDocument document => replica.replaceDocument plan document

/-- The results of calls, and the replica they leave. -/
def run (replica : OfferedReplica library TDocument) :
    List (OfferedCall TDocument) →
      List (Except ReplicaFailure Bool) × OfferedReplica library TDocument
  | [] => ([], replica)
  | call :: rest =>
      let (result, left) := replica.act plan call
      let (results, last) := left.run rest
      (result :: results, last)

/-- Whether a replica answers later calls as another does. -/
def AnswersAs (offered replica : OfferedReplica library TDocument) : Prop :=
  ∀ later,
    (offered.run plan later).1 = (replica.run plan later).1
      ∧ (offered.run plan later).2.operations
          = (replica.run plan later).2.operations
      ∧ ∀ revision,
          (offered.run plan later).2.materializedDocument plan revision
            = (replica.run plan later).2.materializedDocument plan revision

/-- Whether an update holds a root operation that the replica lacks. -/
def LacksRoot (replica : OfferedReplica library TDocument)
    (updateBase64 : String) : Prop :=
  ∃ op ∈ WaitingReplica.carried crates updateBase64,
    crates.loro.dependencies op = ∅ ∧ op ∉ replica.operations

/--
Whether an import is refused for unrelated history exactly when the update
holds a root that the replica lacks, and any refusal takes nothing.
-/
structure RefusesWhole (replica : OfferedReplica library TDocument)
    (schemaVersion : Nat) (updateBase64 : String) : Prop where
  unrelated : WaitingReplica.Encodes library updateBase64 →
    ((replica.importUpdateBase64 plan updateBase64).1
        = .error (.unrelatedHistory plan.entityName)
      ↔ replica.LacksRoot updateBase64)
  takes_nothing : ∀ failure,
    (replica.importUpdateBase64 plan updateBase64).1 = .error failure →
      AnswersAs plan (replica.importUpdateBase64 plan updateBase64).2 replica
  versioned_takes_nothing : ∀ failure,
    (replica.importVersionedUpdateBase64 plan schemaVersion updateBase64).1
        = .error failure →
      AnswersAs plan
        (replica.importVersionedUpdateBase64 plan schemaVersion
          updateBase64).2 replica

/-! ## What is flushed anyway -/

section Flushing

variable {plan} {offered replica : OfferedReplica library TDocument}

@[simp]
theorem flushTextBindings_flushTextBindings
    (replica : OfferedReplica library TDocument) :
    replica.flushTextBindings.flushTextBindings
      = replica.flushTextBindings := by
  rfl

/-- An import flushes first. -/
theorem importUpdateBase64_flushTextBindings (updateBase64 : String) :
    replica.flushTextBindings.importUpdateBase64 plan updateBase64
      = replica.importUpdateBase64 plan updateBase64 := by
  rfl

theorem refreshDocument_flushTextBindings :
    replica.flushTextBindings.refreshDocument plan
      = replica.refreshDocument plan := by
  rfl

/-- Whatever is asked of a replica comes after a flush, or changes nothing. -/
theorem act_congr (same : offered.flushTextBindings = replica.flushTextBindings)
    (call : OfferedCall TDocument) :
    (offered.act plan call).1 = (replica.act plan call).1
      ∧ (offered.act plan call).2.flushTextBindings
          = (replica.act plan call).2.flushTextBindings := by
  have imports : ∀ updateBase64,
      offered.importUpdateBase64 plan updateBase64
        = replica.importUpdateBase64 plan updateBase64 := by
    intro updateBase64
    rw [← importUpdateBase64_flushTextBindings, same,
      importUpdateBase64_flushTextBindings]
  cases call with
  | importUpdateBase64 updateBase64 =>
      simp only [act, imports, and_self]
  | importVersionedUpdateBase64 schemaVersion updateBase64 =>
      simp only [act, importVersionedUpdateBase64, imports]
      split
      · exact ⟨rfl, same⟩
      · exact ⟨rfl, rfl⟩
  | replaceDocument document =>
      have refreshes : offered.refreshDocument plan
          = replica.refreshDocument plan := by
        rw [← refreshDocument_flushTextBindings, same,
          refreshDocument_flushTextBindings]
      simp only [act, replaceDocument, refreshes]
      split
      · exact ⟨rfl, same⟩
      · exact ⟨rfl, rfl⟩

theorem run_congr (later : List (OfferedCall TDocument))
    (same : offered.flushTextBindings = replica.flushTextBindings) :
    (offered.run plan later).1 = (replica.run plan later).1
      ∧ (offered.run plan later).2.flushTextBindings
          = (replica.run plan later).2.flushTextBindings := by
  induction later generalizing offered replica with
  | nil => exact ⟨rfl, same⟩
  | cons call rest inductionHypothesis =>
      obtain ⟨result, left⟩ := act_congr same call
      obtain ⟨results, last⟩ := inductionHypothesis left
      exact ⟨by simp only [run, result, results], last⟩

/-- Replicas that a flush makes the same answer as one another. -/
theorem answersAs_of_flushTextBindings_eq
    (same : offered.flushTextBindings = replica.flushTextBindings) :
    AnswersAs plan offered replica := by
  intro later
  obtain ⟨results, last⟩ := @run_congr _ _ _ plan _ _ later same
  refine ⟨results, ?_, fun revision => ?_⟩
  · simp only [operations, last]
  · simp only [materializedDocument, last]

end Flushing

/-! ## Refusals -/

section Refusal

variable {plan} {replica : OfferedReplica library TDocument}
  {history : History crates.loro} {updateBase64 : String}

/-- A refused import leaves the replica flushed. -/
theorem importUpdateBase64_refused {failure : ReplicaFailure}
    (refused : (replica.importUpdateBase64 plan updateBase64).1
      = .error failure) :
    (replica.importUpdateBase64 plan updateBase64).2
      = replica.flushTextBindings := by
  unfold importUpdateBase64 at refused ⊢
  cases decoded : crates.base64.decode updateBase64 with
  | error message => rfl
  | ok update =>
      simp only [decoded] at refused ⊢
      cases related : requireRelatedHistory plan
        replica.flushTextBindings.doc update with
      | error failure => rfl
      | ok none_lacking =>
          simp only [related] at refused ⊢
          cases imported : library.importUpdate
            replica.flushTextBindings.doc update with
          | error message => rfl
          | ok answer =>
              simp only [imported] at refused
              split at refused <;> cases refused

theorem counter_nonneg (library : WaitingLoro crates)
    (doc : crates.loro.LoroDoc) (peer : Nat) :
    0 ≤ (crates.loro.oplogVv doc).counter peer := by
  by_cases named : peer ∈ (crates.loro.oplogVv doc).keys
  · exact Int.le_of_lt (library.counter_pos doc peer named)
  · rw [Std.ExtTreeMap.mem_keys] at named
    rw [VersionVector.counter, Std.ExtTreeMap.getElem?_eq_none named,
      Option.getD_none]

/-- Each peer of a scratch document passes, or is refused as unrelated. -/
theorem requireHeldRoot_cases {scratch : library.Document}
    (within : crates.loro.operations (library.shown scratch) ⊆ history.made)
    {doc : library.Document} {peer : Nat}
    (named : peer ∈ (crates.loro.oplogVv (library.shown scratch)).keys) :
    (requireHeldRoot plan (library.shown scratch)
          (crates.loro.oplogVv (library.shown doc)) peer = .ok ()
        ∨ requireHeldRoot plan (library.shown scratch)
          (crates.loro.oplogVv (library.shown doc)) peer
            = .error (.unrelatedHistory plan.entityName))
      ∧ (requireHeldRoot plan (library.shown scratch)
          (crates.loro.oplogVv (library.shown doc)) peer
            = .error (.unrelatedHistory plan.entityName)
        ↔ crates.loro.changeIsRoot (library.shown scratch) peer 0 = some true
          ∧ ¬0 < (crates.loro.oplogVv (library.shown doc)).counter peer) := by
  have counts := library.counter_pos _ peer named
  obtain ⟨op, member, name⟩ := (crates.loro.mem_operations
    (library.shown scratch) peer 0).mpr ⟨le_rfl, counts⟩
  -- A peer that the scratch document names has a first change there.
  obtain ⟨isRoot, change⟩ : ∃ isRoot,
      crates.loro.changeIsRoot (library.shown scratch) peer 0 = some isRoot := by
    by_cases root : crates.loro.dependencies op = ∅
    · exact ⟨true, (history.changeIsRoot _ peer true within).mpr
        ⟨op, member, name, by simp [root]⟩⟩
    · exact ⟨false, (history.changeIsRoot _ peer false within).mpr
        ⟨op, member, name, by simp [root]⟩⟩
  have counted : 0 ≤ (crates.loro.oplogVv (library.shown doc)).counter peer :=
    counter_nonneg library _ peer
  have zero : (crates.loro.oplogVv (library.shown doc)).counter peer = 0
      ↔ ¬0 < (crates.loro.oplogVv (library.shown doc)).counter peer := by
    omega
  simp only [requireHeldRoot, change]
  cases isRoot with
  | false => simp
  | true =>
      by_cases none_held :
          (crates.loro.oplogVv (library.shown doc)).counter peer = 0
      · simp [none_held]
      · simp [none_held, zero.not.mp none_held]

theorem requireRelatedHistory_unrelated_iff {update : Bytes}
    {doc : library.Document}
    (carries : crates.loro.updateOperations update ⊆ history.made)
    (held : crates.loro.operations (library.shown doc) ⊆ history.made)
    (readable : library.readable update = true) :
    (requireRelatedHistory plan doc update = .ok ()
        ∨ requireRelatedHistory plan doc update
          = .error (.unrelatedHistory plan.entityName))
      ∧ (requireRelatedHistory plan doc update
            = .error (.unrelatedHistory plan.entityName)
        ↔ ∃ op ∈ crates.loro.updateOperations update,
            crates.loro.dependencies op = ∅
              ∧ op ∉ crates.loro.operations (library.shown doc)) := by
  obtain ⟨scratch, status, imported⟩ :=
    WaitingReplica.importUpdate_of_readable library.new readable
  have spec := WaitingReplica.imports history
    (by simp [library.operations_new]) (by simp [library.waiting_new])
    carries imported
  have roots := WaitingReplica.exists_lacking_root_iff carries held imported
  have cases_of := fun peer => @requireHeldRoot_cases _ _ _ plan history
    scratch spec.within doc peer
  have fails := forM_eq_error_iff fun peer named => (cases_of peer named).1
  simp only [requireRelatedHistory, imported]
  refine ⟨?_, ?_⟩
  · rw [fails, forM_eq_ok_iff]
    by_cases lacking : ∃ peer ∈
        (crates.loro.oplogVv (library.shown scratch)).keys,
          requireHeldRoot plan (library.shown scratch)
              (crates.loro.oplogVv (library.shown doc)) peer
            = .error (.unrelatedHistory plan.entityName)
    · exact Or.inr lacking
    · exact Or.inl fun peer named => (cases_of peer named).1.resolve_right
        fun refused => lacking ⟨peer, named, refused⟩
  · rw [fails, ← roots]
    exact exists_congr fun peer =>
      and_congr_right fun named => (cases_of peer named).2

/-- An import is refused as unrelated where its update lacks a root. -/
theorem importUpdateBase64_unrelated_iff
    (within : replica.operations ⊆ history.made)
    (offered : WaitingReplica.carried crates updateBase64 ⊆ history.made)
    (encodes : WaitingReplica.Encodes library updateBase64) :
    (replica.importUpdateBase64 plan updateBase64).1
        = .error (.unrelatedHistory plan.entityName)
      ↔ replica.LacksRoot updateBase64 := by
  obtain ⟨update, decoded, readable⟩ := encodes
  have carries := WaitingReplica.carried_of_decode decoded
  obtain ⟨either, lacking⟩ := @requireRelatedHistory_unrelated_iff _ _ _ plan
    _ _ _ (carries ▸ offered) within readable
  unfold LacksRoot operations
  rw [carries, ← lacking]
  obtain ⟨doc, status, imported⟩ := WaitingReplica.importUpdate_of_readable
    replica.flushTextBindings.doc readable
  unfold importUpdateBase64
  rcases either with passes | refuses
  · simp only [decoded, passes, imported]
    split <;> simp
  · simp only [decoded, refuses]

/-- A client's import refuses whole updates. -/
theorem refusesWhole (schemaVersion : Nat)
    (within : replica.operations ⊆ history.made)
    (offered : WaitingReplica.carried crates updateBase64 ⊆ history.made) :
    replica.RefusesWhole plan schemaVersion updateBase64 := by
  have takes_nothing : ∀ failure,
      (replica.importUpdateBase64 plan updateBase64).1 = .error failure →
        AnswersAs plan (replica.importUpdateBase64 plan updateBase64).2
          replica := by
    intro failure refused
    rw [importUpdateBase64_refused refused]
    exact answersAs_of_flushTextBindings_eq
      (flushTextBindings_flushTextBindings replica)
  refine {
    unrelated := importUpdateBase64_unrelated_iff within offered
    takes_nothing := takes_nothing
    versioned_takes_nothing := fun failure refused => ?_ }
  unfold importVersionedUpdateBase64 at refused ⊢
  split
  · exact answersAs_of_flushTextBindings_eq rfl
  · next supported =>
    rw [supported] at refused
    exact takes_nothing failure refused

end Refusal

end OfferedReplica

end Clerkenwell.Client
