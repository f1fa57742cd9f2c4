import Clerkenwell.Doc.Waiting
import Mathlib.Data.Set.Function

/-!
# What a refused update leaves

An adoption is refused for unrelated history exactly when its update holds a
root the replica lacks, and takes nothing then.  An update that waits is
imported before it is refused: the operations of it that a related history may
yet complete stay behind.
-/

namespace Clerkenwell.Doc

open Clerkenwell.Foundation

variable {crates : Crates} {library : WaitingLoro crates}
  {history : History crates.loro}

/-! ## Documents of a history -/

/-- A document of a history holds what its operations were made after. -/
theorem History.mem_of_before (history : History crates.loro)
    {doc : crates.loro.LoroDoc} {earlier op : crates.loro.Operation}
    (within : crates.loro.operations doc ⊆ history.made)
    (before : crates.loro.Before history.made earlier op)
    (member : op ∈ crates.loro.operations doc) :
    earlier ∈ crates.loro.operations doc := by
  have step : ∀ first later, first ∈ history.made →
      crates.loro.id first ∈ crates.loro.dependencies later →
        later ∈ crates.loro.operations doc →
          first ∈ crates.loro.operations doc := by
    intro first later made depends held
    obtain ⟨other, there, same⟩ :=
      crates.loro.dependencies_subset doc later held depends
    rwa [← history.id_injOn (within there) made same]
  induction before with
  | single link => exact step _ _ link.1 link.2 member
  | tail _ link inductionHypothesis =>
      refine inductionHypothesis (step _ _ ?_ link.2 member)
      exact link.1

namespace WaitingReplica

/-! ## Imports -/

/-- What an import of operations of a history leaves. -/
structure Imports (history : History crates.loro)
    (document : library.Document) (offered : Set crates.loro.Operation)
    (left : library.Document) (status : ImportStatus) : Prop where
  operations : crates.loro.operations (library.shown left) =
    crates.loro.operations (library.shown document)
      ∪ landed crates.loro.id crates.loro.dependencies
          (crates.loro.id '' crates.loro.operations (library.shown document))
          (library.waiting document ∪ offered)
  waiting : library.waiting left =
    (library.waiting document ∪ offered)
      \ crates.loro.operations (library.shown left)
  pending : status.pending = false ↔
    offered ⊆ crates.loro.operations (library.shown left)
  within : crates.loro.operations (library.shown left) ⊆ history.made

theorem imports (history : History crates.loro)
    {document left : library.Document} {update : Bytes}
    {status : ImportStatus}
    (held : crates.loro.operations (library.shown document) ⊆ history.made)
    (waiting : library.waiting document ⊆ history.made)
    (carries : crates.loro.updateOperations update ⊆ history.made)
    (imported : library.importUpdate document update = .ok (left, status)) :
    Imports history document (crates.loro.updateOperations update) left
      status := by
  have distinct := Set.InjOn.mono
    (Set.union_subset (Set.union_subset held waiting) carries) history.id_injOn
  have operations :=
    library.operations_importUpdate document update left status imported distinct
  refine {
    operations := operations
    waiting :=
      library.waiting_importUpdate document update left status imported distinct
    pending :=
      library.pending_importUpdate document update left status imported distinct
    within := ?_ }
  rw [operations]
  exact Set.union_subset held
    (landed_subset.trans (Set.union_subset waiting carries))

/-- An update that encodes operations is imported. -/
theorem importUpdate_of_readable (document : library.Document)
    {update : Bytes} (readable : library.readable update = true) :
    ∃ left status, library.importUpdate document update = .ok (left, status) := by
  have isOk := library.importUpdate_isOk document update
  rw [readable] at isOk
  cases imported : library.importUpdate document update with
  | error message => simp [imported, Except.isOk, Except.toBool] at isOk
  | ok answer => exact ⟨answer.1, answer.2, rfl⟩

theorem importUpdate_of_not_readable (document : library.Document)
    {update : Bytes} (readable : library.readable update = false) :
    ∃ message, library.importUpdate document update = .error message := by
  have isOk := library.importUpdate_isOk document update
  rw [readable] at isOk
  cases imported : library.importUpdate document update with
  | error message => exact ⟨message, rfl⟩
  | ok answer => simp [imported, Except.isOk, Except.toBool] at isOk

/-! ## Roots -/

/-- A peer with an operation counts. -/
theorem mem_keys_of_pos {version : VersionVector} {peer : Nat}
    (counts : 0 < version.counter peer) : peer ∈ version.keys := by
  rw [Std.ExtTreeMap.mem_keys]
  by_contra absent
  rw [VersionVector.counter, Std.ExtTreeMap.getElem?_eq_none absent,
    Option.getD_none] at counts
  exact absurd counts (by decide)

/--
The peers a scratch document finds an update to hold a lacking root of are
those of the roots it carries that a document does not hold.
-/
theorem exists_lacking_root_iff {scratch : library.Document} {update : Bytes}
    {status : ImportStatus} {doc : crates.loro.LoroDoc}
    (carries : crates.loro.updateOperations update ⊆ history.made)
    (held : crates.loro.operations doc ⊆ history.made)
    (imported : library.importUpdate library.new update
      = .ok (scratch, status)) :
    (∃ peer ∈ (crates.loro.oplogVv (library.shown scratch)).keys,
        crates.loro.changeIsRoot (library.shown scratch) peer 0 = some true
          ∧ ¬0 < (crates.loro.oplogVv doc).counter peer)
      ↔ ∃ op ∈ crates.loro.updateOperations update,
          crates.loro.dependencies op = ∅
            ∧ op ∉ crates.loro.operations doc := by
  have spec : Imports history library.new _ scratch status :=
    imports history (by simp [library.operations_new])
      (by simp [library.waiting_new]) carries imported
  have lands := spec.operations
  rw [library.operations_new, library.waiting_new, Set.image_empty,
    Set.empty_union, Set.empty_union] at lands
  constructor
  · rintro ⟨peer, -, isRoot, lacking⟩
    obtain ⟨op, member, name, root⟩ :=
      (history.changeIsRoot _ peer true spec.within).mp isRoot
    refine ⟨op, landed_subset (lands ▸ member), root.mp rfl, fun there => ?_⟩
    exact lacking ((crates.loro.mem_operations doc peer 0).mp
      ⟨op, there, name⟩).2
  · rintro ⟨op, member, root, absent⟩
    have first := history.counter_of_root op (carries member) root
    have member : op ∈ crates.loro.operations (library.shown scratch) :=
      lands ▸ landed_of_dependencies_eq_empty member root
    have name : crates.loro.id op = ((crates.loro.id op).1, 0) :=
      Prod.ext rfl first
    refine ⟨(crates.loro.id op).1, ?_, ?_, fun counted => ?_⟩
    · exact mem_keys_of_pos ((crates.loro.mem_operations _ _ 0).mp
        ⟨op, member, name⟩).2
    · exact (history.changeIsRoot _ (crates.loro.id op).1 true
        spec.within).mpr ⟨op, member, name, by simp [root]⟩
    · obtain ⟨other, there, same⟩ :=
        (crates.loro.mem_operations doc (crates.loro.id op).1 0).mpr
          ⟨le_rfl, counted⟩
      have same := history.id_injOn (held there) (spec.within member)
        (same.trans name.symm)
      exact absent (same ▸ there)

theorem holdsUnrelatedRoot_iff {scratch doc : crates.loro.LoroDoc} :
    CollaborationReplica.holdsUnrelatedRoot scratch
        (crates.loro.oplogVv doc) = true
      ↔ ∃ peer ∈ (crates.loro.oplogVv scratch).keys,
          crates.loro.changeIsRoot scratch peer 0 = some true
            ∧ ¬0 < (crates.loro.oplogVv doc).counter peer := by
  rw [CollaborationReplica.holdsUnrelatedRoot, List.any_eq_true]
  refine exists_congr fun peer => and_congr_right fun _ => ?_
  cases crates.loro.changeIsRoot scratch peer 0 with
  | none => simp
  | some isRoot => simp [VersionVector.includesId]

/-! ## Adoptions -/

section Adoption

variable {replica : WaitingReplica library} {schemaVersion : Nat}
  {updateBase64 : String}

theorem carried_of_decode {update : Bytes}
    (decoded : crates.base64.decode updateBase64 = .ok update) :
    carried crates updateBase64 = crates.loro.updateOperations update := by
  ext op
  constructor
  · rintro ⟨other, also, member⟩
    cases decoded.symm.trans also
    exact member
  · exact fun member => ⟨update, decoded, member⟩

theorem requireRelatedHistory_of_encodes {update : Bytes}
    (within : replica.operations ⊆ history.made)
    (offered : carried crates updateBase64 ⊆ history.made)
    (decoded : crates.base64.decode updateBase64 = .ok update)
    (readable : library.readable update = true) :
    (replica.LacksRoot updateBase64 →
        replica.requireRelatedHistory updateBase64 = .error .unrelatedHistory)
      ∧ (¬replica.LacksRoot updateBase64 →
        replica.requireRelatedHistory updateBase64 = .ok ()) := by
  have carries := carried_of_decode decoded
  obtain ⟨scratch, status, imported⟩ :=
    importUpdate_of_readable library.new readable
  have roots := holdsUnrelatedRoot_iff.trans
    (exists_lacking_root_iff (carries ▸ offered) within imported)
  unfold requireRelatedHistory decodeBase64 orReplicaError LacksRoot
  simp only [decoded, imported, Except.mapError, bind, Except.bind, carries]
  constructor
  · intro lacks
    rw [if_pos (roots.mpr lacks)]
  · intro related
    rw [if_neg fun found => related (roots.mp found)]

/-- An update is accepted that a scratch document finds no lacking root in. -/
theorem acceptedUpdate_eq_ok_iff {update : Bytes}
    (within : replica.operations ⊆ history.made)
    (offered : carried crates updateBase64 ⊆ history.made) :
    replica.acceptedUpdate schemaVersion updateBase64 = .ok update
      ↔ schemaVersion = replica.plan.schemaVersion
        ∧ crates.base64.decode updateBase64 = .ok update
        ∧ library.readable update = true
        ∧ ¬replica.LacksRoot updateBase64 := by
  unfold acceptedUpdate requireSupportedSchemaVersion
  by_cases supported : schemaVersion = replica.plan.schemaVersion
  · cases decoded : crates.base64.decode updateBase64 with
    | error message =>
        simp [supported, requireRelatedHistory, decodeBase64, orReplicaError,
          decoded, Except.mapError, bind, Except.bind]
    | ok bytes =>
        cases readable : library.readable bytes with
        | false =>
            obtain ⟨message, failed⟩ :=
              importUpdate_of_not_readable library.new readable
            simp only [supported, requireRelatedHistory, decodeBase64,
              orReplicaError, decoded, failed, Except.mapError, bind,
              Except.bind, ne_eq, not_true_eq_false, if_false]
            constructor
            · intro same
              cases same
            · rintro ⟨-, same, also, -⟩
              cases same
              exact absurd (readable.symm.trans also) (by decide)
        | true =>
            obtain ⟨refuses, accepts⟩ := requireRelatedHistory_of_encodes
              within offered decoded readable
            by_cases lacks : replica.LacksRoot updateBase64
            · simp [supported, refuses lacks, lacks, bind, Except.bind]
            · simp only [supported, accepts lacks, lacks, decodeBase64,
                orReplicaError, decoded, Except.mapError, bind, Except.bind,
                ne_eq, not_true_eq_false, not_false_eq_true, if_false,
                Except.ok.injEq, and_true, true_and]
              constructor
              · rintro rfl
                exact ⟨rfl, readable⟩
              · exact fun ⟨same, _⟩ => same
  · simp [supported, bind, Except.bind]

/-- An update is refused for its history where it holds a lacking root. -/
theorem acceptedUpdate_unrelated_iff
    (within : replica.operations ⊆ history.made)
    (offered : carried crates updateBase64 ⊆ history.made)
    (supported : schemaVersion = replica.plan.schemaVersion)
    (encodes : Encodes library updateBase64) :
    replica.acceptedUpdate schemaVersion updateBase64
        = .error .unrelatedHistory
      ↔ replica.LacksRoot updateBase64 := by
  obtain ⟨update, decoded, readable⟩ := encodes
  by_cases lacks : replica.LacksRoot updateBase64
  · have refuses := (requireRelatedHistory_of_encodes within offered decoded
      readable).1 lacks
    simp [acceptedUpdate, requireSupportedSchemaVersion, supported, refuses,
      lacks, bind, Except.bind]
  · have accepted := (acceptedUpdate_eq_ok_iff within offered).mpr
      ⟨supported, decoded, readable, lacks⟩
    simp [accepted, lacks]

/-- What a replica accepts depends on its plan and on what it shows. -/
theorem acceptedUpdate_congr {offered : WaitingReplica library}
    (plan : offered.plan = replica.plan)
    (shown : library.shown offered.document
      = library.shown replica.document) :
    offered.acceptedUpdate schemaVersion updateBase64
      = replica.acceptedUpdate schemaVersion updateBase64 := by
  simp only [acceptedUpdate, requireRelatedHistory, plan, shown]

theorem adoptVersionedUpdateBase64_of_error {error : CollaborationReplicaError}
    (refused : replica.acceptedUpdate schemaVersion updateBase64
      = .error error) :
    replica.adoptVersionedUpdateBase64 schemaVersion updateBase64
      = (.error error, replica) := by
  rw [adoptVersionedUpdateBase64, refused]

/-- What an accepted update leaves of a replica. -/
theorem adoptVersionedUpdateBase64_of_ok {update : Bytes}
    {left : library.Document} {status : ImportStatus}
    (accepted : replica.acceptedUpdate schemaVersion updateBase64 = .ok update)
    (imported : library.importUpdate replica.document update
      = .ok (left, status)) :
    replica.adoptVersionedUpdateBase64 schemaVersion updateBase64
      = if status.pending then
          (.error .missingDependency, { replica with document := left })
        else
          (.ok (), { replica with document := left, baseline := none }) := by
  rw [adoptVersionedUpdateBase64, accepted]
  simp only [imported]

end Adoption

/-! ## Operations left behind that nothing completes -/

/--
Two replicas that show the same, one with more operations waiting: each came
of an update, and was made after a root that neither replica holds.
-/
structure Alike (history : History crates.loro) (updateBase64 : String)
    (offered replica : WaitingReplica library) : Prop where
  plan : offered.plan = replica.plan
  baseline : offered.baseline = replica.baseline
  shown : library.shown offered.document = library.shown replica.document
  operations : replica.operations ⊆ history.made
  waiting : library.waiting replica.document
    ⊆ library.waiting offered.document
  made : library.waiting offered.document ⊆ history.made
  rooted : ∀ op ∈ library.waiting offered.document,
    crates.loro.dependencies op ≠ ∅
  left : ∀ op ∈ library.waiting offered.document,
    op ∉ library.waiting replica.document →
      op ∈ carried crates updateBase64
        ∧ ∃ root, crates.loro.Before history.made root op
            ∧ crates.loro.dependencies root = ∅ ∧ root ∉ replica.operations

section Alike

variable {updateBase64 : String} {offered replica : WaitingReplica library}

theorem Alike.toReplica (alike : Alike history updateBase64 offered replica) :
    offered.toReplica = replica.toReplica := by
  simp only [WaitingReplica.toReplica, alike.plan, alike.baseline, alike.shown]

theorem Alike.operations_eq
    (alike : Alike history updateBase64 offered replica) :
    offered.operations = replica.operations := by
  rw [WaitingReplica.operations, alike.shown, ← WaitingReplica.operations]

theorem Alike.offered_operations
    (alike : Alike history updateBase64 offered replica) :
    offered.operations ⊆ history.made := by
  rw [alike.operations_eq]
  exact alike.operations

/--
An import into either applies the same: what only one has waiting comes after
a root that neither holds, no update brings and none has waiting.
-/
theorem Alike.imports (alike : Alike history updateBase64 offered replica)
    {update : Bytes} {offeredLeft left : library.Document}
    {offeredStatus status : ImportStatus}
    (carries : crates.loro.updateOperations update ⊆ history.made)
    (related : ∀ op ∈ crates.loro.updateOperations update,
      crates.loro.dependencies op = ∅ → op ∈ replica.operations)
    (offeredImported : library.importUpdate offered.document update
      = .ok (offeredLeft, offeredStatus))
    (imported : library.importUpdate replica.document update
      = .ok (left, status)) :
    library.shown offeredLeft = library.shown left
      ∧ offeredStatus.pending = status.pending
      ∧ ∀ root, crates.loro.dependencies root = ∅ →
          root ∉ replica.operations →
            root ∉ crates.loro.operations (library.shown left) := by
  have one := WaitingReplica.imports history alike.offered_operations
    alike.made carries offeredImported
  have other := WaitingReplica.imports history alike.operations
    (alike.waiting.trans alike.made) carries imported
  have held := alike.operations_eq
  unfold WaitingReplica.operations at held
  -- No root that the replicas lack is offered to either.
  have lacking : ∀ root, crates.loro.dependencies root = ∅ →
      root ∉ replica.operations →
        root ∉ crates.loro.operations (library.shown offeredLeft) := by
    intro root none_before absent member
    rw [one.operations, held] at member
    rcases member with there | lands
    · exact absent there
    · rcases landed_subset lands with waits | brought
      · exact alike.rooted root waits none_before
      · exact absent (related root brought none_before)
  have kept : landed crates.loro.id crates.loro.dependencies
      (crates.loro.id '' crates.loro.operations
        (library.shown offered.document))
      (library.waiting offered.document
        ∪ crates.loro.updateOperations update)
        ⊆ library.waiting replica.document
          ∪ crates.loro.updateOperations update := by
    intro op lands
    rcases landed_subset lands with waits | brought
    · by_contra beside
      obtain ⟨-, root, before, none_before, absent⟩ :=
        alike.left op waits fun there => beside (Or.inl there)
      have member : op ∈ crates.loro.operations (library.shown offeredLeft) :=
        one.operations ▸ Or.inr lands
      exact lacking root none_before absent
        (history.mem_of_before one.within before member)
    · exact Or.inr brought
  have same : crates.loro.operations (library.shown offeredLeft)
      = crates.loro.operations (library.shown left) := by
    rw [one.operations, other.operations, landed_eq_of_subset
      (Set.union_subset_union_left _ alike.waiting) kept, held]
  have pending := one.pending
  rw [same, ← other.pending] at pending
  refine ⟨library.shown_importUpdate_congr _ _ _ _ _ _ _ offeredImported
    imported alike.shown same, ?_, fun root none_before absent => ?_⟩
  · exact Bool.eq_iff_iff.mpr (by simpa using not_congr pending)
  · exact same ▸ lacking root none_before absent

/-- What either adopts, the other does, with the same result. -/
theorem Alike.adopt (alike : Alike history updateBase64 offered replica)
    (schemaVersion : Nat) {laterBase64 : String}
    (possible : carried crates laterBase64 ⊆ history.made) :
    (offered.adoptVersionedUpdateBase64 schemaVersion laterBase64).1
        = (replica.adoptVersionedUpdateBase64 schemaVersion laterBase64).1
      ∧ Alike history updateBase64
          (offered.adoptVersionedUpdateBase64 schemaVersion laterBase64).2
          (replica.adoptVersionedUpdateBase64 schemaVersion laterBase64).2 := by
  have accepts : offered.acceptedUpdate schemaVersion laterBase64
      = replica.acceptedUpdate schemaVersion laterBase64 :=
    acceptedUpdate_congr alike.plan alike.shown
  cases accepted : replica.acceptedUpdate schemaVersion laterBase64 with
  | error error =>
      rw [adoptVersionedUpdateBase64_of_error accepted,
        adoptVersionedUpdateBase64_of_error (accepts.trans accepted)]
      exact ⟨rfl, alike⟩
  | ok update =>
      obtain ⟨-, decoded, readable, related⟩ :=
        (acceptedUpdate_eq_ok_iff alike.operations possible).mp accepted
      have carries := carried_of_decode decoded
      have roots : ∀ op ∈ crates.loro.updateOperations update,
          crates.loro.dependencies op = ∅ → op ∈ replica.operations := by
        intro op member none_before
        by_contra absent
        exact related ⟨op, carries ▸ member, none_before, absent⟩
      have brings := carries ▸ possible
      obtain ⟨offeredLeft, offeredStatus, offeredImported⟩ :=
        importUpdate_of_readable offered.document readable
      obtain ⟨left, status, imported⟩ :=
        importUpdate_of_readable replica.document readable
      obtain ⟨shown, pending, lacking⟩ :=
        alike.imports brings roots offeredImported imported
      have one := WaitingReplica.imports history alike.offered_operations
        alike.made brings offeredImported
      have other := WaitingReplica.imports history alike.operations
        (alike.waiting.trans alike.made) brings imported
      have later : ∀ baseline offeredBaseline,
          offeredBaseline = baseline →
            Alike history updateBase64
              { offered with
                document := offeredLeft, baseline := offeredBaseline }
              { replica with document := left, baseline := baseline } := by
        rintro baseline _ rfl
        refine {
          plan := alike.plan
          baseline := rfl
          shown := shown
          operations := other.within
          waiting := ?_
          made := ?_
          rooted := ?_
          left := ?_ }
        · rw [one.waiting, other.waiting, shown]
          exact Set.sdiff_subset_sdiff_left
            (Set.union_subset_union_left _ alike.waiting)
        · rw [one.waiting]
          exact Set.sdiff_subset.trans (Set.union_subset alike.made brings)
        · intro op waits none_before
          rw [one.waiting] at waits
          exact waits.2 (one.operations ▸ Or.inr
            (landed_of_dependencies_eq_empty waits.1 none_before))
        · intro op waits beside
          rw [one.waiting, shown] at waits
          rw [other.waiting] at beside
          rcases waits.1 with earlier | brought
          · obtain ⟨came, root, before, none_before, absent⟩ :=
              alike.left op earlier fun there =>
                beside ⟨Or.inl there, waits.2⟩
            exact ⟨came, root, before, none_before,
              lacking root none_before absent⟩
          · exact absurd ⟨Or.inr brought, waits.2⟩ beside
      rw [adoptVersionedUpdateBase64_of_ok accepted imported,
        adoptVersionedUpdateBase64_of_ok (accepts.trans accepted)
          offeredImported, pending]
      by_cases waits : status.pending = true
      · rw [if_pos waits, if_pos waits]
        exact ⟨rfl, later _ _ alike.baseline⟩
      · rw [if_neg waits, if_neg waits]
        exact ⟨rfl, later none none rfl⟩

/-- What is written to either, is written to the other, with the same result. -/
theorem Alike.replaceDocument
    (alike : Alike history updateBase64 offered replica) {document : Json}
    (possible : (replica.replaceDocument document).2.operations
      ⊆ history.made)
    (fresh : ∀ written ∈ (replica.replaceDocument document).2.operations,
      written ∉ replica.operations →
        ∀ op ∈ carried crates updateBase64,
          ¬crates.loro.Before history.made written op) :
    (offered.replaceDocument document).1
        = (replica.replaceDocument document).1
      ∧ Alike history updateBase64 (offered.replaceDocument document).2
          (replica.replaceDocument document).2 := by
  have same := alike.toReplica
  refine ⟨by simp only [WaitingReplica.replaceDocument, same], {
    plan := alike.plan
    baseline := by simp only [WaitingReplica.replaceDocument, same]
    shown := by
      simp only [WaitingReplica.replaceDocument, library.shown_write, same]
    operations := possible
    waiting := ?_
    made := ?_
    rooted := ?_
    left := ?_ }⟩
  · simpa only [WaitingReplica.replaceDocument, library.waiting_write]
      using alike.waiting
  · simpa only [WaitingReplica.replaceDocument, library.waiting_write]
      using alike.made
  · simpa only [WaitingReplica.replaceDocument, library.waiting_write]
      using alike.rooted
  · intro op waits beside
    simp only [WaitingReplica.replaceDocument, library.waiting_write]
      at waits beside
    obtain ⟨came, root, before, none_before, absent⟩ :=
      alike.left op waits beside
    exact ⟨came, root, before, none_before, fun written =>
      fresh root written absent op came before⟩

/-- Whatever either is asked later, the other answers the same. -/
theorem Alike.run {later : List LaterStep}
    (alike : Alike history updateBase64 offered replica)
    (possible : Possible history updateBase64 replica later) :
    (offered.run later).1 = (replica.run later).1
      ∧ Alike history updateBase64 (offered.run later).2
          (replica.run later).2 := by
  induction later generalizing offered replica with
  | nil => exact ⟨rfl, alike⟩
  | cons step rest inductionHypothesis =>
      have acts : (offered.act step).1 = (replica.act step).1
          ∧ Alike history updateBase64 (offered.act step).2
              (replica.act step).2
          ∧ Possible history updateBase64 (replica.act step).2 rest := by
        cases step with
        | adoptVersionedUpdateBase64 schemaVersion laterBase64 =>
            obtain ⟨same, left⟩ := alike.adopt schemaVersion possible.1
            exact ⟨same, left, possible.2⟩
        | replaceDocument document =>
            obtain ⟨same, left⟩ :=
              alike.replaceDocument possible.1 possible.2.1
            exact ⟨same, left, possible.2.2⟩
      obtain ⟨same, left, still⟩ := acts
      obtain ⟨results, last⟩ := inductionHypothesis left still
      exact ⟨by simp only [WaitingReplica.run, same, results], last⟩

theorem Alike.asIfNeverOffered
    (alike : Alike history updateBase64 offered replica) :
    AsIfNeverOffered history updateBase64 offered replica := by
  intro later possible
  obtain ⟨results, last⟩ := alike.run possible
  refine ⟨results, last.operations_eq, fun revision => ?_⟩
  rw [materializedDocument, materializedDocument, last.toReplica]

end Alike

/-! ## When a refusal takes nothing -/

section Refusal

variable {replica : WaitingReplica library} {schemaVersion : Nat}
  {updateBase64 : String}

/-- A replica answers as one that never was offered what left it as it was. -/
theorem asIfNeverOffered_refl :
    AsIfNeverOffered history updateBase64 replica replica :=
  fun _ _ => ⟨rfl, rfl, fun _ => rfl⟩

/-- Where no root is lacking, one that a document of the history holds waits. -/
theorem root_held {update : Bytes} {left : library.Document}
    {status : ImportStatus} (within : replica.Within history)
    (related : ¬replica.LacksRoot updateBase64)
    (carries : carried crates updateBase64
      = crates.loro.updateOperations update)
    (spec : Imports history replica.document
      (crates.loro.updateOperations update) left status)
    {root : crates.loro.Operation}
    (none_before : crates.loro.dependencies root = ∅)
    (member : root ∈ crates.loro.operations (library.shown left)) :
    root ∈ replica.operations := by
  rw [spec.operations] at member
  rcases member with there | lands
  · exact there
  · rcases landed_subset lands with waits | brought
    · exact absurd (none_before ▸ Set.empty_subset _)
        (within.waits root waits)
    · by_contra absent
      exact related ⟨root, carries ▸ brought, none_before, absent⟩

/-- Nothing of an update lands whose every new operation lacks a root. -/
theorem operations_of_not_leaves {update : Bytes} {left : library.Document}
    {status : ImportStatus} (within : replica.Within history)
    (related : ¬replica.LacksRoot updateBase64)
    (carries : carried crates updateBase64
      = crates.loro.updateOperations update)
    (spec : Imports history replica.document
      (crates.loro.updateOperations update) left status)
    (lacking : ∀ op ∈ crates.loro.updateOperations update,
      op ∉ replica.operations → op ∉ library.waiting replica.document →
        ∃ root, crates.loro.Before history.made root op
          ∧ crates.loro.dependencies root = ∅ ∧ root ∉ replica.operations) :
    crates.loro.operations (library.shown left) = replica.operations := by
  have known : ∀ op ∈ crates.loro.operations (library.shown left),
      op ∈ library.waiting replica.document ∨ op ∈ replica.operations := by
    intro op member
    by_contra! neither
    rw [spec.operations] at member
    rcases member with there | lands
    · exact neither.2 there
    · have brought := (landed_subset lands).resolve_left neither.1
      obtain ⟨root, before, none_before, absent⟩ :=
        lacking op brought neither.2 neither.1
      have member : op ∈ crates.loro.operations (library.shown left) :=
        spec.operations ▸ Or.inr lands
      exact absent (root_held within related carries spec none_before
        (history.mem_of_before spec.within before member))
  have takes : TakesReady crates.loro.id crates.loro.dependencies
      (crates.loro.id '' replica.operations)
      (library.waiting replica.document
        ∪ crates.loro.updateOperations update) replica.operations := by
    intro op offered ready
    rw [Set.union_self] at ready
    have lands : op ∈ crates.loro.operations (library.shown left) :=
      spec.operations ▸ Or.inr (takesReady_landed op offered
        (ready.trans Set.subset_union_left))
    rcases known op lands with waits | there
    · exact absurd ready (within.waits op waits)
    · exact there
  rw [spec.operations]
  exact Set.union_eq_left.mpr (landed_subset_of_takesReady takes)

/-- A refusal takes nothing where it leaves nothing behind. -/
theorem takes_nothing_of_not_leavesBehind (within : replica.Within history)
    (offered : carried crates updateBase64 ⊆ history.made)
    (leaves : ¬replica.LeavesBehind history schemaVersion updateBase64)
    {error : CollaborationReplicaError}
    (refused : (replica.adoptVersionedUpdateBase64 schemaVersion
      updateBase64).1 = .error error) :
    AsIfNeverOffered history updateBase64
      (replica.adoptVersionedUpdateBase64 schemaVersion updateBase64).2
      replica := by
  cases accepted : replica.acceptedUpdate schemaVersion updateBase64 with
  | error error =>
      rw [adoptVersionedUpdateBase64_of_error accepted]
      exact asIfNeverOffered_refl
  | ok update =>
      obtain ⟨supported, decoded, readable, related⟩ :=
        (acceptedUpdate_eq_ok_iff within.operations offered).mp accepted
      have carries := carried_of_decode decoded
      obtain ⟨left, status, imported⟩ :=
        importUpdate_of_readable replica.document readable
      have spec := WaitingReplica.imports history within.operations
        within.waiting (carries ▸ offered) imported
      have adopted := adoptVersionedUpdateBase64_of_ok accepted imported
      by_cases waits : status.pending = true
      · rw [if_pos waits] at adopted
        have lacking : ∀ op ∈ crates.loro.updateOperations update,
            op ∉ replica.operations →
              op ∉ library.waiting replica.document →
                ∃ root, crates.loro.Before history.made root op
                  ∧ crates.loro.dependencies root = ∅
                  ∧ root ∉ replica.operations := by
          intro op member absent beside
          by_contra! held
          have part : ¬carried crates updateBase64
              ⊆ crates.loro.operations (library.shown left) := by
            rw [carries, ← spec.pending, waits]
            decide
          rw [spec.operations, ← carries] at part
          exact leaves ⟨supported, ⟨update, decoded, readable⟩, related,
            part, op, carries ▸ member, absent, beside, held⟩
        have same := operations_of_not_leaves within related carries spec
          lacking
        rw [adopted]
        refine Alike.asIfNeverOffered {
          plan := rfl
          baseline := rfl
          shown := library.shown_importUpdate _ _ _ _ imported same
          operations := within.operations
          waiting := ?_
          made := ?_
          rooted := ?_
          left := ?_ }
        · intro op there
          rw [spec.waiting, same]
          refine ⟨Or.inl there, fun held => within.waits op there ?_⟩
          exact crates.loro.dependencies_subset _ op held
        · rw [spec.waiting]
          exact Set.sdiff_subset.trans
            (Set.union_subset within.waiting (carries ▸ offered))
        · intro op there none_before
          rw [spec.waiting] at there
          exact there.2 (spec.operations ▸ Or.inr
            (landed_of_dependencies_eq_empty there.1 none_before))
        · intro op there beside
          rw [spec.waiting, same] at there
          have brought := there.1.resolve_left beside
          exact ⟨carries ▸ brought, lacking op brought there.2 beside⟩
      · rw [if_neg waits] at adopted
        rw [adopted] at refused
        cases refused

/-- What an accepted update leaves a replica holding. -/
theorem operations_adopt {update : Bytes}
    (held : replica.operations ⊆ history.made)
    (waiting : library.waiting replica.document ⊆ history.made)
    (offered : carried crates updateBase64 ⊆ history.made)
    (accepted : replica.acceptedUpdate schemaVersion updateBase64
      = .ok update) :
    (replica.adoptVersionedUpdateBase64 schemaVersion
        updateBase64).2.operations
      = replica.operations
          ∪ landed crates.loro.id crates.loro.dependencies
              (crates.loro.id '' replica.operations)
              (library.waiting replica.document
                ∪ carried crates updateBase64) := by
  obtain ⟨-, decoded, readable, -⟩ :=
    (acceptedUpdate_eq_ok_iff held offered).mp accepted
  have carries := carried_of_decode decoded
  obtain ⟨left, status, imported⟩ :=
    importUpdate_of_readable replica.document readable
  have spec := WaitingReplica.imports history held waiting
    (carries ▸ offered) imported
  rw [adoptVersionedUpdateBase64_of_ok accepted imported, carries]
  split <;> exact spec.operations

theorem made_of_before {earlier op : crates.loro.Operation}
    (before : crates.loro.Before history.made earlier op) :
    earlier ∈ history.made := by
  induction before with
  | single link => exact link.1
  | tail _ _ inductionHypothesis => exact inductionHypothesis

/-- The history an operation was made in, as an update. -/
theorem exists_update_before (library : WaitingLoro crates)
    {op : crates.loro.Operation}
    (made : op ∈ history.made) :
    ∃ update, library.readable update = true
      ∧ crates.loro.updateOperations update
          = {earlier | crates.loro.Before history.made earlier op}
      ∧ op ∉ crates.loro.updateOperations update
      ∧ crates.loro.dependencies op
          ⊆ crates.loro.id '' crates.loro.updateOperations update
      ∧ crates.loro.updateOperations update
          ⊆ landed crates.loro.id crates.loro.dependencies ∅
              (crates.loro.updateOperations update) := by
  obtain ⟨doc, holds, depends, later⟩ := history.madeIn op made
  obtain ⟨update, exported⟩ := crates.loro.exportUpdates_ok doc ∅
  have whole : crates.loro.updateOperations update
      = crates.loro.operations doc := by
    rw [crates.loro.updateOperations_exportUpdates doc ∅ update exported]
    refine Set.sep_eq_self_iff_mem_true.mpr fun other there => ?_
    have counted := (crates.loro.mem_operations doc
      (crates.loro.id other).1 (crates.loro.id other).2).mp
        ⟨other, there, rfl⟩
    have none_named : (∅ : VersionVector).counter (crates.loro.id other).1
        = 0 := rfl
    simp [VersionVector.includesId, none_named, counted.1]
  have readable := library.readable_exportUpdates doc ∅ update exported
  obtain ⟨scratch, status, imported⟩ :=
    importUpdate_of_readable library.new readable
  have carries : crates.loro.updateOperations update ⊆ history.made := by
    rw [whole, holds]
    exact fun _ before => made_of_before before
  have spec := WaitingReplica.imports history
    (by simp [library.operations_new]) (by simp [library.waiting_new])
    carries imported
  have lands := spec.pending.mp
    (library.pending_exportUpdates doc update scratch status exported imported)
  rw [spec.operations, library.operations_new, library.waiting_new,
    Set.image_empty, Set.empty_union, Set.empty_union] at lands
  exact ⟨update, readable, whole.trans holds, whole ▸ later,
    whole ▸ depends, lands⟩

/-- An update that leaves operations behind is imported, and waits. -/
theorem LeavesBehind.adopts (within : replica.Within history)
    (offered : carried crates updateBase64 ⊆ history.made)
    (leaves : replica.LeavesBehind history schemaVersion updateBase64) :
    ∃ left status,
      Imports history replica.document (carried crates updateBase64) left
          status
        ∧ replica.adoptVersionedUpdateBase64 schemaVersion updateBase64
            = (.error .missingDependency,
              { replica with document := left }) := by
  obtain ⟨update, decoded, readable⟩ := leaves.encodes
  have carries := carried_of_decode decoded
  have accepted := (acceptedUpdate_eq_ok_iff within.operations offered).mpr
    ⟨leaves.supported, decoded, readable, leaves.related⟩
  obtain ⟨left, status, imported⟩ :=
    importUpdate_of_readable replica.document readable
  have spec := WaitingReplica.imports history within.operations
    within.waiting (carries ▸ offered) imported
  rw [← carries] at spec
  have waits : status.pending = true := by
    have part : ¬carried crates updateBase64
        ⊆ crates.loro.operations (library.shown left) := by
      rw [spec.operations]
      exact leaves.waits
    rw [← spec.pending] at part
    simpa using part
  have adopted := adoptVersionedUpdateBase64_of_ok accepted imported
  rw [if_pos waits] at adopted
  exact ⟨left, status, spec, adopted⟩

/-- What a refusal leaves behind, the history it waits for completes. -/
theorem not_asIfNeverOffered (within : replica.Within history)
    (offered : carried crates updateBase64 ⊆ history.made)
    (leaves : replica.LeavesBehind history schemaVersion updateBase64) :
    ¬AsIfNeverOffered history updateBase64
      (replica.adoptVersionedUpdateBase64 schemaVersion updateBase64).2
      replica := by
  intro alike
  obtain ⟨left, status, spec, adopted⟩ := leaves.adopts within offered
  rw [adopted] at alike
  obtain ⟨op, brought, absent, beside, rooted⟩ := leaves.leaves
  obtain ⟨before, beforeReadable, holds, later, depends, lands⟩ :=
    exists_update_before library (offered brought)
  by_cases applied : op ∈ crates.loro.operations (library.shown left)
  · -- The import applied it: the replica holds more at once.
    have same := (alike [] trivial).2.1
    exact absent (same ▸ applied)
  · -- It waits: the history it was made in completes it.
    have encoded := carried_of_decode (crates.base64.decode_encode before)
    have past : carried crates (crates.base64.encode before)
        ⊆ history.made := by
      rw [encoded, holds]
      exact fun _ earlier => made_of_before earlier
    have related : ∀ holding : WaitingReplica library,
        replica.operations ⊆ holding.operations →
          ¬holding.LacksRoot (crates.base64.encode before) := by
      rintro holding more ⟨root, there, none_before, lacking⟩
      rw [encoded, holds] at there
      exact lacking (more (rooted root there none_before))
    have supported := leaves.supported
    have grows : replica.operations
        ⊆ crates.loro.operations (library.shown left) := by
      rw [spec.operations]
      exact Set.subset_union_left
    have heldBy : ({ replica with document := left } :
        WaitingReplica library).operations ⊆ history.made := spec.within
    have waiting : library.waiting left ⊆ history.made := by
      rw [spec.waiting]
      exact Set.sdiff_subset.trans (Set.union_subset within.waiting offered)
    have one := operations_adopt heldBy waiting past
      ((acceptedUpdate_eq_ok_iff heldBy past).mpr
        ⟨supported, crates.base64.decode_encode before, beforeReadable,
          related _ grows⟩)
    have other := operations_adopt within.operations within.waiting past
      ((acceptedUpdate_eq_ok_iff within.operations past).mpr
        ⟨supported, crates.base64.decode_encode before, beforeReadable,
          related _ le_rfl⟩)
    have same := (alike [.adoptVersionedUpdateBase64 schemaVersion
      (crates.base64.encode before)] ⟨past, trivial⟩).2.1
    have holdsIt : op ∈ (({ replica with document := left } :
        WaitingReplica library).adoptVersionedUpdateBase64 schemaVersion
          (crates.base64.encode before)).2.operations := by
      rw [one]
      refine Or.inr (takesReady_landed op (Or.inl ?_) ?_)
      · rw [spec.waiting]
        exact ⟨Or.inr brought, applied⟩
      · refine depends.trans (Set.subset_union_of_subset_right ?_ _)
        refine Set.image_mono (lands.trans (landed_mono
          (Set.empty_subset _) ?_))
        rw [encoded]
        exact Set.subset_union_right
    have lacksIt : op ∉ (replica.adoptVersionedUpdateBase64 schemaVersion
        (crates.base64.encode before)).2.operations := by
      rw [other]
      rintro (there | lands)
      · exact absent there
      · rcases landed_subset lands with waiting | there
        · exact beside waiting
        · exact later (encoded ▸ there)
    exact lacksIt (same ▸ holdsIt)

/-- An adoption is refused as unrelated where its update lacks a root. -/
theorem adopt_unrelated_iff (within : replica.operations ⊆ history.made)
    (offered : carried crates updateBase64 ⊆ history.made)
    (supported : schemaVersion = replica.plan.schemaVersion)
    (encodes : Encodes library updateBase64) :
    (replica.adoptVersionedUpdateBase64 schemaVersion updateBase64).1
        = .error .unrelatedHistory
      ↔ replica.LacksRoot updateBase64 := by
  rw [← acceptedUpdate_unrelated_iff within offered supported encodes]
  cases accepted : replica.acceptedUpdate schemaVersion updateBase64 with
  | error error => simp [adoptVersionedUpdateBase64_of_error accepted]
  | ok update =>
      obtain ⟨-, -, readable, -⟩ :=
        (acceptedUpdate_eq_ok_iff within offered).mp accepted
      obtain ⟨left, status, imported⟩ :=
        importUpdate_of_readable replica.document readable
      rw [adoptVersionedUpdateBase64_of_ok accepted imported]
      split <;> simp

/-- An adoption refuses whole updates exactly where it leaves nothing behind. -/
theorem refusesWhole_iff (within : replica.Within history)
    (offered : carried crates updateBase64 ⊆ history.made) :
    replica.RefusesWhole history schemaVersion updateBase64
      ↔ ¬replica.LeavesBehind history schemaVersion updateBase64 := by
  constructor
  · intro whole leaves
    obtain ⟨left, status, -, adopted⟩ := leaves.adopts within offered
    refine not_asIfNeverOffered within offered leaves
      (whole.takes_nothing .missingDependency ?_)
    rw [adopted]
  · intro leaves
    exact {
      unrelated := fun supported encodes =>
        adopt_unrelated_iff within.operations offered supported encodes
      takes_nothing := fun _ refused =>
        takes_nothing_of_not_leavesBehind within offered leaves refused }

end Refusal

end WaitingReplica

end Clerkenwell.Doc
