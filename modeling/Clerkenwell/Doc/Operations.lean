import Mathlib.Data.Set.Basic
import Clerkenwell.Doc.Replica
import Clerkenwell.Doc.Revision

/-!
# The operations replicas hold

Replicas of the same operations read the same.  An import adds an update's
operations, and a replica's export reloads as its operations.
-/

namespace Clerkenwell.Doc

open Clerkenwell.Foundation

section Operations

variable {crates : Crates}

/-! ## Documents that read the same -/

/-- Two documents every container of which reads the same. -/
structure ReadsAlike (doc other : crates.loro.LoroDoc) : Prop where
  mapKeys : crates.loro.mapKeys doc = crates.loro.mapKeys other
  mapGet : crates.loro.mapGet doc = crates.loro.mapGet other
  deepValue : crates.loro.deepValue doc = crates.loro.deepValue other
  textString : crates.loro.textString doc = crates.loro.textString other
  depth : crates.loro.depth doc = crates.loro.depth other

theorem readsAlike_of_operations_eq {doc other : crates.loro.LoroDoc}
    (same : crates.loro.operations doc = crates.loro.operations other) :
    ReadsAlike doc other := by
  obtain ⟨mapKeys, mapGet, deepValue, textString, depth⟩ :=
    crates.loro.reads_congr doc other same
  exact ⟨mapKeys, mapGet, deepValue, textString, depth⟩

namespace ReadsAlike

variable {doc other : crates.loro.LoroDoc}

theorem deepJson_eq (alike : ReadsAlike doc other) :
    deepJson doc = deepJson other := by
  funext container
  simp only [deepJson, alike.deepValue]

theorem deepMember_eq (alike : ReadsAlike doc other) :
    deepMember doc = deepMember other := by
  funext map key
  simp only [deepMember, alike.mapGet, alike.deepJson_eq]

theorem orderStrings_eq (alike : ReadsAlike doc other) :
    orderStrings doc = orderStrings other := by
  funext list
  simp only [orderStrings, alike.deepJson_eq]

theorem readStructured_eq (alike : ReadsAlike doc other) (depth : Nat) :
    readStructuredDocument doc depth
        = readStructuredDocument other depth
      ∧ readKeyedList doc depth
        = readKeyedList other depth := by
  induction depth with
  | zero =>
      constructor <;> funext container <;>
        simp only [readStructuredDocument, readKeyedList]
  | succ depth inductionHypothesis =>
      obtain ⟨documents, lists⟩ := inductionHypothesis
      constructor <;> funext container <;>
        simp only [readStructuredDocument, readKeyedList, alike.mapKeys,
          alike.mapGet, alike.textString, alike.deepJson_eq,
          alike.deepMember_eq, alike.orderStrings_eq, documents, lists]

theorem readField_eq (alike : ReadsAlike doc other) :
    readField doc = readField other := by
  funext field context
  simp only [readField, alike.deepMember_eq, alike.deepJson_eq,
    alike.textString, alike.depth, (alike.readStructured_eq _).1,
    presentObject, alike.mapGet]

theorem uniqueLoroStringList_eq (alike : ReadsAlike doc other) :
    uniqueLoroStringList doc
      = uniqueLoroStringList other := by
  funext list
  simp only [uniqueLoroStringList, listValues, alike.deepValue]

mutual

theorem materializeSequence_eq (alike : ReadsAlike doc other)
    (context : IdentityContext) : ∀ sequence : SequencePlan,
      materializeSequence doc context sequence
        = materializeSequence other context sequence
  | .node sequence fields children => by
      simp only [materializeSequence, readItemFields, alike.readField_eq,
        alike.uniqueLoroStringList_eq]
      have inner := fun context relativePath node =>
        materializeSequences_eq alike context relativePath node children
      simp only [inner]

theorem materializeSequences_eq (alike : ReadsAlike doc other)
    (context : IdentityContext)
    (relativePath : CollaborationFieldSpec → String) (node : Json) :
    ∀ sequences : List SequencePlan,
      materializeSequences doc context relativePath node
          sequences
        = materializeSequences other context relativePath node sequences
  | [] => by simp only [materializeSequences]
  | child :: rest => by
      simp only [materializeSequences, materializeSequence_eq alike context
        child, sequenceIsExplicitlyPresent, alike.mapGet]
      have later := fun node =>
        materializeSequences_eq alike context relativePath node rest
      simp only [later]

end

theorem materializeDocument_eq (alike : ReadsAlike doc other)
    (plan : CollaborationEntitySpec) (revision : String) :
    materializeDocument plan doc revision
      = materializeDocument plan other revision := by
  simp only [materializeDocument, alike.readField_eq,
    materializeSequences_eq alike]

end ReadsAlike

/-! ## Imports and exports -/

theorem importWhole_ok {doc imported : crates.loro.LoroDoc}
    {updateBase64 : String}
    (whole : importWhole doc updateBase64 = .ok imported) :
    ∃ update, crates.base64.decode updateBase64 = .ok update
      ∧ crates.loro.operations imported
          = crates.loro.operations doc
            ∪ crates.loro.newOperations doc update := by
  unfold importWhole decodeBase64 orReplicaError at whole
  cases decoded : crates.base64.decode updateBase64 with
  | error message => simp [decoded, Except.mapError, bind, Except.bind] at whole
  | ok update =>
      simp only [decoded, Except.mapError, bind, Except.bind] at whole
      cases result : crates.loro.importUpdate doc update with
      | error message => simp [result] at whole
      | ok answer =>
          obtain ⟨next, status⟩ := answer
          simp only [result] at whole
          split at whole
          · cases whole
          · cases whole
            exact ⟨update, rfl,
              crates.loro.operations_importUpdate doc update _ status result
                (by simpa using ‹¬ status.pending = true›)⟩

/-- What a document exports reloads as its operations. -/
theorem importWhole_exportAllUpdates {doc : crates.loro.LoroDoc}
    {update : Bytes}
    (exported : crates.loro.exportAllUpdates doc = .ok update) :
    ∃ loaded,
      importWhole crates.loro.new
          (crates.base64.encode update) = .ok loaded
        ∧ crates.loro.operations loaded = crates.loro.operations doc := by
  obtain ⟨loaded, status, imported, settled⟩ :=
    crates.loro.importUpdate_exportAllUpdates doc update exported
  refine ⟨loaded, ?_, ?_⟩
  · simp [importWhole, decodeBase64, orReplicaError,
      crates.base64.decode_encode, imported, settled, Except.mapError, bind,
      Except.bind]
  · have whole :=
      crates.loro.operations_importUpdate _ _ _ _ imported settled
    rw [← Loro.newOperations, crates.loro.newOperations_new,
      crates.loro.operations_new, Set.empty_union] at whole
    rw [whole, crates.loro.updateOperations_exportAllUpdates _ _ exported]

namespace CollaborationReplica

/-- A replica that adopts an update holds its operations besides its own. -/
theorem adoptVersionedUpdateBase64_ok
    {replica adopted : CollaborationReplica crates} {schemaVersion : Nat}
    {updateBase64 : String}
    (adopts : replica.adoptVersionedUpdateBase64 schemaVersion updateBase64
      = .ok adopted) :
    adopted.plan = replica.plan
      ∧ ∃ update, crates.base64.decode updateBase64 = .ok update
          ∧ crates.loro.operations adopted.doc
              = crates.loro.operations replica.doc
                ∪ crates.loro.newOperations replica.doc update := by
  unfold adoptVersionedUpdateBase64 at adopts
  cases supported :
      requireSupportedSchemaVersion replica.plan schemaVersion with
  | error error => simp [supported, bind, Except.bind] at adopts
  | ok accepted =>
      cases related : replica.requireRelatedHistory updateBase64 with
      | error error => simp [supported, related, bind, Except.bind] at adopts
      | ok alike =>
          cases whole : importWhole replica.doc updateBase64 with
          | error error =>
              simp [supported, related, whole, bind, Except.bind] at adopts
          | ok doc =>
              simp only [supported, related, whole, bind, Except.bind,
                Except.ok.injEq] at adopts
              subst adopts
              exact ⟨rfl, importWhole_ok whole⟩

theorem fromVersionedUpdateBase64_ok {plan : CollaborationEntitySpec}
    {schemaVersion : Nat} {updateBase64 : String}
    {replica : CollaborationReplica crates}
    (loads : fromVersionedUpdateBase64 crates plan schemaVersion updateBase64
      = .ok replica) :
    schemaVersion = plan.schemaVersion ∧ replica.plan = plan
      ∧ importWhole crates.loro.new updateBase64 = .ok replica.doc
      ∧ ∃ value,
          materializeDocument plan replica.doc replicaRevision = .ok value := by
  unfold fromVersionedUpdateBase64 requireSupportedSchemaVersion at loads
  by_cases supported : schemaVersion = plan.schemaVersion
  · cases whole :
        importWhole crates.loro.new updateBase64 with
    | error error => simp [supported, whole, bind, Except.bind] at loads
    | ok doc =>
        cases reads : materializeDocument plan doc replicaRevision with
        | error error =>
            simp [supported, whole, reads, bind, Except.bind] at loads
        | ok value =>
            simp only [supported, ne_eq, not_true_eq_false, if_false, whole,
              reads, bind, Except.bind, Except.ok.injEq] at loads
            subst loads
            exact ⟨supported, rfl, rfl, value, reads⟩
  · simp [supported, bind, Except.bind] at loads

end CollaborationReplica

end Operations

end Clerkenwell.Doc
