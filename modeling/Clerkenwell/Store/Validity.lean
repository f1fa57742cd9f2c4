import Clerkenwell.Store.History

/-!
# Valid envelopes

What `validate_envelope` accepts, said once: the envelope is the document's,
its checkpoint decodes to what its digest and length say, every peer of the
checkpoint is bound, and its window strictly increases from what was compacted
up to the checkpoint's sequence.
-/

namespace Clerkenwell.Store

open Clerkenwell.Foundation
open Clerkenwell.Doc

section Validity

variable (crates : StoreCrates)

/-- An encoded field holds an update of the length and the digest kept with it. -/
def Encodes (encoded : String) (length : Nat) (digest : String)
    (update : Bytes) : Prop :=
  crates.base64.decode encoded = .ok update ∧ update.length = length
    ∧ crates.sha256Hex update = digest

variable {crates}

theorem checkedUpdate_ok_iff {encoded : String} {length : Nat}
    {digest : String} {undecodable : String → StoreError}
    {mismatched : StoreError} {update : Bytes} :
    checkedUpdate crates encoded length digest undecodable mismatched
        = .ok update
      ↔ Encodes crates encoded length digest update := by
  unfold checkedUpdate Encodes
  cases crates.base64.decode encoded with
  | error message => simp
  | ok decoded =>
      simp only [Except.ok.injEq]
      split
      · rename_i mismatch
        constructor
        · rintro ⟨⟩
        · rintro ⟨rfl, lengths, digests⟩
          exact absurd mismatch (by simp [lengths, digests])
      · rename_i matches_
        rw [not_or, not_not, not_not] at matches_
        constructor
        · rintro ⟨⟩
          exact ⟨rfl, matches_⟩
        · rintro ⟨rfl, -⟩
          rfl

theorem encodes_encode (update : Bytes) :
    Encodes crates (crates.base64.encode update) update.length
      (crates.sha256Hex update) update :=
  ⟨crates.base64.decode_encode update, rfl, rfl⟩

/-- The checkpoint of an envelope is an update. -/
def DurableCollaborationEnvelope.HasCheckpoint
    (crates : StoreCrates) (envelope : DurableCollaborationEnvelope)
    (update : Bytes) : Prop :=
  Encodes crates envelope.checkpointUpdateBase64 envelope.checkpointBytes
    envelope.checkpointSha256 update

theorem checkpointUpdate_ok_iff {envelope : DurableCollaborationEnvelope}
    {document : CollaborationDocumentId} {update : Bytes} :
    envelope.checkpointUpdate crates document = .ok update
      ↔ envelope.HasCheckpoint crates update :=
  checkedUpdate_ok_iff

/-! ## Windows -/

/-- Operations whose sequences strictly increase from one to another. -/
inductive Increases : Nat → List CollaborationOperation → Nat → Prop
  | nil (sequence : Nat) : Increases sequence [] sequence
  | cons {previous last : Nat} {operation : CollaborationOperation}
      {rest : List CollaborationOperation}
      (after : previous < operation.sequence)
      (others : Increases operation.sequence rest last) :
      Increases previous (operation :: rest) last

/-- An operation is of a schema version and holds its own update. -/
def WholeOperation (crates : StoreCrates) (schemaVersion : Nat)
    (operation : CollaborationOperation) : Prop :=
  operation.schemaVersion = schemaVersion
    ∧ ∃ update, Encodes crates operation.updateBase64 operation.updateBytes
        operation.updateSha256 update

theorem checkOperation_ok_iff {document : CollaborationDocumentId}
    {envelope : DurableCollaborationEnvelope} {previous next : Nat}
    {operation : CollaborationOperation} :
    checkOperation crates document envelope previous operation = .ok next
      ↔ previous < operation.sequence
        ∧ WholeOperation crates envelope.schemaVersion operation
        ∧ operation.sequence = next := by
  have decodes :
      (∃ update, operation.decode crates document = .ok update)
        ↔ ∃ update, Encodes crates operation.updateBase64
            operation.updateBytes operation.updateSha256 update :=
    exists_congr fun update => checkedUpdate_ok_iff
  unfold checkOperation WholeOperation
  rw [← decodes]
  by_cases order : operation.sequence ≤ previous
  · simp [order, throw, throwThe, MonadExceptOf.throw, bind, Except.bind,
      Nat.not_lt.mpr order]
  · by_cases version : operation.schemaVersion = envelope.schemaVersion
    · cases operation.decode crates document <;>
        simp [version, bind, Except.bind, pure, Except.pure, order,
          Nat.lt_of_not_le order]
    · simp [order, version, throw, throwThe, MonadExceptOf.throw, bind,
        Except.bind]

theorem validateWindow_ok_iff {document : CollaborationDocumentId}
    {envelope : DurableCollaborationEnvelope} {last : Nat} :
    validateWindow crates document envelope = .ok last
      ↔ Increases envelope.compactedThroughSequence
          envelope.retainedOperations last
        ∧ ∀ operation ∈ envelope.retainedOperations,
            WholeOperation crates envelope.schemaVersion operation := by
  unfold validateWindow
  generalize envelope.retainedOperations = operations
  generalize envelope.compactedThroughSequence = previous
  induction operations generalizing previous with
  | nil =>
      constructor
      · rintro ⟨⟩
        exact ⟨.nil _, by simp⟩
      · rintro ⟨⟨⟩, -⟩
        rfl
  | cons operation rest inductionHypothesis =>
      rw [List.foldlM_cons]
      cases checked :
          checkOperation crates document envelope previous operation with
      | error error =>
          constructor
          · rintro ⟨⟩
          · rintro ⟨increases, whole⟩
            cases increases with
            | cons after others =>
                rw [checkOperation_ok_iff.mpr
                  ⟨after, whole operation List.mem_cons_self, rfl⟩] at checked
                cases checked
      | ok next =>
          obtain ⟨after, wholeFirst, rfl⟩ := checkOperation_ok_iff.mp checked
          refine (inductionHypothesis operation.sequence).trans ?_
          constructor
          · rintro ⟨increases, whole⟩
            refine ⟨.cons after increases, ?_⟩
            intro other member
            rcases List.mem_cons.mp member with rfl | later
            · exact wholeFirst
            · exact whole other later
          · rintro ⟨increases, whole⟩
            cases increases with
            | cons after others =>
                exact ⟨others, fun other later =>
                  whole other (List.mem_cons_of_mem _ later)⟩

/-! ## The check -/

/-- An envelope that is a document's and whole, of a checkpoint's version. -/
structure Valid (crates : StoreCrates) (document : CollaborationDocumentId)
    (envelope : DurableCollaborationEnvelope)
    (accepted : List (Nat × Nat)) : Prop where
  named : envelope.document = document
  versioned : envelope.schemaVersion ≠ 0
  incarnation : Text.isBlank envelope.incarnation = false
  checkpoint : ∃ update, envelope.HasCheckpoint crates update
  accepts :
    CollaborationReplica.versionOfUpdate crates.toCrates
      envelope.checkpointUpdateBase64 = .ok accepted
  bound : ∀ peer ∈ accepted.map Prod.fst,
    envelope.peers.contains peer = true
  increases : Increases envelope.compactedThroughSequence
    envelope.retainedOperations envelope.checkpointSequence
  whole : ∀ operation ∈ envelope.retainedOperations,
    WholeOperation crates envelope.schemaVersion operation

theorem validateEnvelope_ok_iff {document : CollaborationDocumentId}
    {envelope : DurableCollaborationEnvelope}
    {accepted : List (Nat × Nat)} :
    validateEnvelope crates document envelope = .ok accepted
      ↔ Valid crates document envelope accepted := by
  have same : ¬ (envelope.entity ≠ document.entity
        ∨ envelope.resourceId ≠ document.resourceId)
      ↔ envelope.document = document := by
    cases document
    simp [DurableCollaborationEnvelope.document]
  constructor
  · intro checked
    unfold validateEnvelope at checked
    simp only [throw, throwThe, MonadExceptOf.throw, bind, Except.bind, pure,
      Except.pure] at checked
    split at checked
    · cases checked
    · rename_i named
      split at checked
      · cases checked
      · rename_i versioned
        split at checked
        · cases checked
        · rename_i incarnation
          split at checked
          · cases checked
          · rename_i update decoded
            split at checked
            · cases checked
            · rename_i read version
              split at checked
              · cases checked
              · rename_i bound
                split at checked
                · cases checked
                · rename_i last window
                  split at checked
                  · cases checked
                  · rename_i ends
                    cases checked
                    obtain ⟨increases, whole⟩ :=
                      validateWindow_ok_iff.mp window
                    exact
                      { named := same.mp named
                        versioned := versioned
                        incarnation := by simpa using incarnation
                        checkpoint :=
                          ⟨update, checkpointUpdate_ok_iff.mp decoded⟩
                        accepts := by
                          cases result :
                              CollaborationReplica.versionOfUpdate
                                crates.toCrates
                                envelope.checkpointUpdateBase64 with
                          | error error =>
                              rw [result] at version
                              cases version
                          | ok value =>
                              rw [result] at version
                              exact congrArg Except.ok (Except.ok.inj version)
                        bound := by
                          intro peer member
                          by_contra unbound
                          exact bound (List.ne_nil_of_mem
                            (List.mem_filter.mpr
                              ⟨member, by
                                rw [Bool.not_eq_true] at unbound
                                rw [unbound]
                                rfl⟩))
                        increases := (not_not.mp ends) ▸ increases
                        whole := whole }
  · intro valid
    obtain ⟨update, checkpoint⟩ := valid.checkpoint
    have none_unbound :
        (accepted.map Prod.fst).filter
            (fun peer => !envelope.peers.contains peer) = [] := by
      rw [List.filter_eq_nil_iff]
      intro peer member
      simpa using valid.bound peer member
    simp [validateEnvelope, same.mpr valid.named, valid.versioned,
      valid.incarnation, checkpointUpdate_ok_iff.mpr checkpoint,
      valid.accepts, none_unbound,
      validateWindow_ok_iff.mpr ⟨valid.increases, valid.whole⟩, bind,
      Except.bind, pure, Except.pure, Except.mapError]

end Validity

end Clerkenwell.Store
