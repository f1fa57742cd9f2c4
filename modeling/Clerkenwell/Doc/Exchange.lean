import Clerkenwell.Doc.Operations
import Mathlib.Data.Set.Image

/-!
# What an exchange carries

A peer names what it holds by a frontier or a version, and is sent the
operations beyond it.  What a name covers of a document is what the peer holds,
unless two operations share an id.
-/

namespace Clerkenwell.Doc

open Clerkenwell.Foundation

/-! ## Versions -/

section Versions

namespace VersionVector

theorem includesId_iff {version : VersionVector} {peer : Nat}
    {counter : Int} :
    version.includesId peer counter = true
      ↔ counter < version.counter peer := by
  rw [includesId, decide_eq_true_eq]

theorem counter_insert (version : VersionVector) (inserted peer : Nat)
    (end_ : Int) :
    VersionVector.counter (version.insert inserted end_) peer
      = if inserted = peer then end_ else version.counter peer := by
  rw [VersionVector.counter, Std.ExtTreeMap.getElem?_insert]
  by_cases same : inserted = peer
  · simp [same]
  · rw [if_neg (by simpa using same), if_neg same, VersionVector.counter]

theorem includesId_raise {version : VersionVector} {raised peer : Nat}
    {counter end_ : Int} (positive : 0 ≤ counter) :
    (version.raise raised end_).includesId peer counter = true
      ↔ version.includesId peer counter = true
        ∨ (raised = peer ∧ counter < end_) := by
  have held : version.counter raised = version[raised]?.getD 0 := rfl
  rw [includesId_iff, includesId_iff, raise]
  cases there : version[raised]? with
  | some before =>
      rw [there, Option.getD_some] at held
      show counter < VersionVector.counter (version.insert raised _) peer ↔ _
      rw [counter_insert]
      split
      · rename_i same
        subst same
        simp [held]
      · rename_i other
        simp [other]
  | none =>
      rw [there, Option.getD_none] at held
      show counter < VersionVector.counter (version.insert raised _) peer ↔ _
      rw [counter_insert]
      split
      · rename_i same
        subst same
        simp [held]
        omega
      · rename_i other
        simp [other]

/-- What merged versions name, either of them names. -/
theorem includesId_merge {left right : VersionVector}
    {peer : Nat} {counter : Int} (positive : 0 ≤ counter) :
    (left.merge right).includesId peer counter = true
      ↔ left.includesId peer counter = true
        ∨ right.includesId peer counter = true := by
  have listed : right.includesId peer counter = true
      ↔ ∃ end_, (peer, end_) ∈ right.toList ∧ counter < end_ := by
    have held : right.counter peer = right[peer]?.getD 0 := rfl
    simp only [includesId_iff, Std.ExtTreeMap.mem_toList_iff_getElem?_eq_some]
    rw [held]
    cases there : right[peer]? with
    | none => simpa using positive
    | some end_ => simp
  rw [listed, merge, Std.ExtTreeMap.foldl_eq_foldl_toList]
  generalize right.toList = ends
  induction ends generalizing left with
  | nil => simp
  | cons head rest inductionHypothesis =>
      rw [List.foldl_cons]
      refine (@inductionHypothesis (left.raise head.1 head.2)).trans ?_
      rw [includesId_raise positive]
      constructor
      · rintro ((named | ⟨rfl, below⟩) | ⟨end_, member, below⟩)
        · exact .inl named
        · exact .inr ⟨head.2, List.mem_cons_self, below⟩
        · exact .inr ⟨end_, List.mem_cons_of_mem _ member, below⟩
      · rintro (named | ⟨end_, member, below⟩)
        · exact .inl (.inl named)
        · rcases List.mem_cons.mp member with rfl | later
          · exact .inl (.inr ⟨rfl, below⟩)
          · exact .inr ⟨end_, later, below⟩

end VersionVector

/-- The counter after the last operation that counts name of a peer. -/
def counterOf (counts : List (Nat × Nat)) (peer : Nat) : Nat :=
  (counts.lookup peer).getD 0

theorem counter_foldr_insert (counts : List (Nat × Nat)) (peer : Nat) :
    ((counts.map fun (peer, count) => (peer, (count : Int))).foldr
        (fun (peer, counter) named => named.insert peer counter)
        (∅ : VersionVector)).counter peer
      = (counterOf counts peer : Nat) := by
  induction counts with
  | nil => rfl
  | cons count rest inductionHypothesis =>
      rw [List.map_cons, List.foldr_cons, VersionVector.counter,
        Std.ExtTreeMap.getElem?_insert, counterOf, List.lookup_cons]
      by_cases same : count.1 = peer
      · simp [same]
      · have other : (peer == count.1) = false := by simp [Ne.symm same]
        rw [if_neg (by simpa using same), other]
        exact inductionHypothesis

end Versions

section Exchange

variable {crates : Crates}

/-! ## Operations an encoding carries and a version names -/

/-- The operations an encoded update carries. -/
def carriedBy (crates : Crates) (encoded : String) :
    Set crates.loro.Operation :=
  match crates.base64.decode encoded with
  | .ok update => crates.loro.updateOperations update
  | .error _ => ∅

/-- Whether a version names an operation. -/
def Loro.NamedBy (loro : Loro) (version : VersionVector)
    (operation : loro.Operation) : Prop :=
  version.includesId (loro.id operation).1 (loro.id operation).2 = true

/-- Operations of two sets that share an id are the same. -/
def Loro.Agree (loro : Loro) (left right : Set loro.Operation) : Prop :=
  ∀ operation ∈ left, ∀ other ∈ right,
    loro.id operation = loro.id other → operation = other

theorem Loro.agree_of_subset {loro : Loro} {doc : loro.LoroDoc}
    {held : Set loro.Operation} (within : held ⊆ loro.operations doc) :
    loro.Agree held (loro.operations doc) :=
  fun _ member _ other same => loro.id_injOn doc (within member) other same

theorem Loro.subset_of_agree {loro : Loro}
    {held accepted : Set loro.Operation} (agree : loro.Agree held accepted)
    (names : loro.id '' held ⊆ loro.id '' accepted) : held ⊆ accepted := by
  intro operation member
  obtain ⟨other, accepted_other, same⟩ := names ⟨operation, member, rfl⟩
  rwa [agree operation member other accepted_other same.symm]

theorem Loro.id_counter_nonneg {loro : Loro} {doc : loro.LoroDoc}
    {operation : loro.Operation} (member : operation ∈ loro.operations doc) :
    0 ≤ (loro.id operation).2 :=
  ((loro.mem_operations doc _ _).mp ⟨operation, member, rfl⟩).1

/-- A document holds exactly the ids its version names. -/
theorem Loro.mem_id_iff_namedBy {loro : Loro} {doc : loro.LoroDoc}
    {operation : loro.Operation} (positive : 0 ≤ (loro.id operation).2) :
    loro.id operation ∈ loro.id '' loro.operations doc
      ↔ loro.NamedBy (loro.oplogVv doc) operation := by
  rw [Loro.NamedBy, VersionVector.includesId, decide_eq_true_eq]
  constructor
  · exact fun member => ((loro.mem_operations doc _ _).mp member).2
  · exact fun below => (loro.mem_operations doc _ _).mpr ⟨positive, below⟩

/-- What is sent of a document to a peer that holds what a version names. -/
theorem exportSince_ok (doc : crates.loro.LoroDoc) (version : VersionVector) :
    ∃ encoded, CollaborationReplica.exportSince doc version = .ok encoded
      ∧ carriedBy crates encoded
        = {operation ∈ crates.loro.operations doc |
            ¬ crates.loro.NamedBy version operation} := by
  obtain ⟨update, exported⟩ := crates.loro.exportUpdates_ok doc version
  refine ⟨crates.base64.encode update, ?_, ?_⟩
  · simp [CollaborationReplica.exportSince, orReplicaError, exported,
      Except.mapError, bind, Except.bind]
  · rw [carriedBy, crates.base64.decode_encode]
    show crates.loro.updateOperations update = _
    rw [crates.loro.updateOperations_exportUpdates doc version update exported]
    simp [Loro.NamedBy]

theorem carriedBy_exportSince {doc : crates.loro.LoroDoc}
    {version : VersionVector} {encoded : String}
    (exported : CollaborationReplica.exportSince doc version = .ok encoded) :
    carriedBy crates encoded
      = {operation ∈ crates.loro.operations doc |
          ¬ crates.loro.NamedBy version operation} := by
  obtain ⟨other, exports, carries⟩ := exportSince_ok doc version
  rw [exports] at exported
  cases exported
  exact carries

/-! ## Frontiers -/

/-- A document's heads, encoded as a peer that holds it names them. -/
def frontierBase64 (crates : Crates) (doc : crates.loro.LoroDoc) : String :=
  crates.base64.encode
    (crates.loro.encodeFrontiers (crates.loro.oplogFrontiers doc))

/-- A document holds an operation under the id of each of another's heads. -/
def Places (doc client : crates.loro.LoroDoc) : Prop :=
  crates.loro.heads (crates.loro.oplogFrontiers client)
    ⊆ crates.loro.id '' crates.loro.operations doc

theorem heads_subset (doc : crates.loro.LoroDoc) : Places doc doc := by
  obtain ⟨version, known, -⟩ := crates.loro.frontiersToVv_oplogFrontiers doc
  exact (crates.loro.frontiersToVv_isSome _ _).mp (by rw [known]; rfl)

theorem places_of_subset {doc client : crates.loro.LoroDoc}
    (fewer : crates.loro.operations client ⊆ crates.loro.operations doc) :
    Places doc client :=
  (heads_subset client).trans (Set.image_mono fewer)

/--
A document that holds another's heads holds all that they were made after,
unless some operations of the two share an id.
-/
theorem subset_of_places {doc client : crates.loro.LoroDoc}
    (places : Places doc client)
    (agree : crates.loro.Agree (crates.loro.operations client)
      (crates.loro.operations doc)) :
    crates.loro.operations client ⊆ crates.loro.operations doc := by
  let both : Set crates.loro.Operation :=
    crates.loro.operations client ∩ crates.loro.operations doc
  have in_both : ∀ name,
      name ∈ crates.loro.id '' crates.loro.operations client →
        name ∈ crates.loro.id '' crates.loro.operations doc →
          name ∈ crates.loro.id '' both := by
    rintro _ ⟨operation, held, rfl⟩ ⟨other, accepted, same⟩
    have equal := agree operation held other accepted same.symm
    subst equal
    exact ⟨operation, ⟨held, accepted⟩, rfl⟩
  have all : crates.loro.id '' crates.loro.operations client
      ⊆ crates.loro.id '' both := by
    refine crates.loro.operations_of_heads client _ ?_ ?_
    · intro name head
      exact in_both name (heads_subset client head) (places head)
    · rintro operation held ⟨other, ⟨other_held, accepted⟩, same⟩ name made
      obtain rfl := crates.loro.id_injOn client held other_held same.symm
      exact in_both name
        (crates.loro.dependencies_subset client operation held made)
        (crates.loro.dependencies_subset doc operation accepted made)
  intro operation held
  obtain ⟨other, ⟨other_held, accepted⟩, same⟩ := all ⟨operation, held, rfl⟩
  rwa [crates.loro.id_injOn client held other_held same.symm]

theorem decodeFrontiers_frontierBase64 (client : crates.loro.LoroDoc) :
    decodeFrontiers crates (frontierBase64 crates client)
      = .ok (crates.loro.oplogFrontiers client) := by
  simp [decodeFrontiers, decodeBase64, frontierBase64, orReplicaError,
    crates.base64.decode_encode, crates.loro.decode_encodeFrontiers,
    Except.mapError, bind, Except.bind]

/-- A frontier a document cannot place is one it does not know. -/
theorem frontierVersion_of_not_places {doc client : crates.loro.LoroDoc}
    (unplaced : ¬ Places doc client) :
    CollaborationReplica.frontierVersion doc (frontierBase64 crates client)
      = .error .unknownFrontier := by
  have unknown : crates.loro.frontiersToVv doc
      (crates.loro.oplogFrontiers client) = none := by
    rw [← Option.not_isSome_iff_eq_none, crates.loro.frontiersToVv_isSome]
    exact unplaced
  simp [CollaborationReplica.frontierVersion, decodeFrontiers_frontierBase64,
    unknown, bind, Except.bind]

theorem frontierVersion_of_places {doc client : crates.loro.LoroDoc}
    (places : Places doc client) :
    ∃ version, CollaborationReplica.frontierVersion doc
        (frontierBase64 crates client) = .ok version := by
  obtain ⟨version, known⟩ := Option.isSome_iff_exists.mp
    ((crates.loro.frontiersToVv_isSome doc _).mpr places)
  refine ⟨version, ?_⟩
  simp [CollaborationReplica.frontierVersion, decodeFrontiers_frontierBase64,
    known, bind, Except.bind]

/-- A document of more operations reads another's frontier as its version. -/
theorem frontierVersion_of_subset {doc client : crates.loro.LoroDoc}
    (fewer : crates.loro.operations client ⊆ crates.loro.operations doc) :
    ∃ version, CollaborationReplica.frontierVersion doc
        (frontierBase64 crates client) = .ok version
      ∧ ∀ operation, crates.loro.NamedBy version operation
          ↔ crates.loro.NamedBy (crates.loro.oplogVv client) operation := by
  obtain ⟨version, known, counters⟩ :=
    crates.loro.frontiersToVv_oplogFrontiers client
  have knows := crates.loro.frontiersToVv_mono client doc _ version fewer known
  refine ⟨version, ?_, ?_⟩
  · simp [CollaborationReplica.frontierVersion,
      decodeFrontiers_frontierBase64, knows, bind, Except.bind]
  · intro operation
    simp only [Loro.NamedBy, VersionVector.includesId, counters]

theorem frontierBase64_injective {doc other : crates.loro.LoroDoc}
    (same : frontierBase64 crates doc = frontierBase64 crates other) :
    crates.loro.oplogFrontiers doc = crates.loro.oplogFrontiers other := by
  have decoded := decodeFrontiers_frontierBase64 doc
  rw [same, decodeFrontiers_frontierBase64] at decoded
  exact (Except.ok.inj decoded).symm

/-- A document that grew without its heads moving holds no new id. -/
theorem ids_subset_of_frontier_eq {doc later : crates.loro.LoroDoc}
    (fewer : crates.loro.operations doc ⊆ crates.loro.operations later)
    (same : frontierBase64 crates doc = frontierBase64 crates later) :
    crates.loro.id '' crates.loro.operations later
      ⊆ crates.loro.id '' crates.loro.operations doc := by
  refine crates.loro.operations_of_heads later _ ?_ ?_
  · rw [← frontierBase64_injective same]
    exact heads_subset doc
  · rintro operation held ⟨other, member, names⟩
    obtain rfl := crates.loro.id_injOn later held (fewer member) names.symm
    exact crates.loro.dependencies_subset doc operation member

/-! ## What the update of an exchange covers -/

/--
An update goes on from a version: of each peer, it starts no later than the
version ends.
-/
def Continues (crates : Crates) (base : VersionVector) (encoded : String) :
    Prop :=
  ∀ update ends, crates.base64.decode encoded = .ok update →
    crates.loro.decodeImportBlobMeta update = .ok ends →
      ∀ peer, (crates.loro.partialStartVv update).counter peer
          ≤ base.counter peer
        ∨ ends.counter peer ≤ base.counter peer

theorem updateEndVersion_ok {encoded : String} {ends : VersionVector}
    (found : updateEndVersion crates encoded = .ok ends) :
    ∃ update, crates.base64.decode encoded = .ok update
      ∧ crates.loro.decodeImportBlobMeta update = .ok ends
      ∧ carriedBy crates encoded = crates.loro.updateOperations update := by
  unfold updateEndVersion decodeBase64 orReplicaError at found
  cases decoded : crates.base64.decode encoded with
  | error message => simp [decoded, Except.mapError, bind, Except.bind] at found
  | ok update =>
      cases meta_ : crates.loro.decodeImportBlobMeta update with
      | error message =>
          simp [decoded, meta_, Except.mapError, bind, Except.bind] at found
      | ok version =>
          simp only [decoded, meta_, Except.mapError, bind, Except.bind,
            Except.ok.injEq] at found
          subst found
          exact ⟨update, rfl, meta_, by simp [carriedBy, decoded]⟩

/--
The operations up to a base, those of an update and those beyond both are all
of a document's exactly when the update goes on from the base and its
operations are the document's.
-/
theorem covers_iff {doc : crates.loro.LoroDoc} {base ends : VersionVector}
    {encoded : String}
    (within : ∀ peer, 0 ≤ base.counter peer)
    (found : updateEndVersion crates encoded = .ok ends)
    (names : crates.loro.id '' carriedBy crates encoded
      ⊆ crates.loro.id '' crates.loro.operations doc) :
    {operation ∈ crates.loro.operations doc |
        crates.loro.NamedBy base operation}
          ∪ carriedBy crates encoded
          ∪ {operation ∈ crates.loro.operations doc |
              ¬ crates.loro.NamedBy (base.merge ends) operation}
        = crates.loro.operations doc
      ↔ crates.loro.Agree (carriedBy crates encoded)
          (crates.loro.operations doc)
        ∧ Continues crates base encoded := by
  obtain ⟨update, decoded, meta_, carries⟩ := updateEndVersion_ok found
  have ids := crates.loro.mem_updateOperations update ends meta_
  have named_merge : ∀ operation ∈ crates.loro.operations doc,
      crates.loro.NamedBy (base.merge ends) operation
        ↔ crates.loro.NamedBy base operation
          ∨ crates.loro.NamedBy ends operation := fun operation member =>
    VersionVector.includesId_merge (Loro.id_counter_nonneg member)
  constructor
  · intro covers
    have sent : carriedBy crates encoded ⊆ crates.loro.operations doc := by
      intro operation member
      rw [← covers]
      exact .inl (.inr member)
    refine ⟨Loro.agree_of_subset sent, ?_⟩
    intro other otherEnds decodes ends_at peer
    rw [decoded] at decodes
    cases decodes
    rw [meta_] at ends_at
    cases ends_at
    by_contra gap
    rw [not_or, not_le, not_le] at gap
    -- The operation the base ends at is before the update and below its end.
    have first : (peer, (crates.loro.partialStartVv update).counter peer)
        ∈ crates.loro.id '' carriedBy crates encoded := by
      rw [carries]
      refine (ids _ _).mpr ⟨le_rfl, ?_⟩
      exact crates.loro.partialStartVv_lt update ends meta_ peer
        (lt_of_le_of_lt (within peer) gap.2)
    have last := ((crates.loro.mem_operations doc _ _).mp (names first)).2
    obtain ⟨operation, member, same⟩ :=
      (crates.loro.mem_operations doc peer (base.counter peer)).mpr
        ⟨within peer, lt_trans gap.1 last⟩
    have beyond : ¬ crates.loro.NamedBy base operation := by
      simp [Loro.NamedBy, VersionVector.includesId, same]
    have below : crates.loro.NamedBy ends operation := by
      simpa [Loro.NamedBy, VersionVector.includesId, same] using gap.2
    have unsent : operation ∉ carriedBy crates encoded := by
      intro sent_it
      rw [carries] at sent_it
      have starts := ((ids peer (base.counter peer)).mp
        ⟨operation, sent_it, same⟩).1
      exact absurd gap.1 (not_lt.mpr starts)
    rw [← covers] at member
    rcases member with (⟨-, named⟩ | sent_it) | ⟨member, unnamed⟩
    · exact beyond named
    · exact unsent sent_it
    · exact unnamed ((named_merge operation member).mpr (.inr below))
  · rintro ⟨agree, goes_on⟩
    have sent := Loro.subset_of_agree agree names
    ext operation
    constructor
    · rintro ((⟨member, -⟩ | member) | ⟨member, -⟩)
      · exact member
      · exact sent member
      · exact member
    · intro member
      by_cases named : crates.loro.NamedBy base operation
      · exact .inl (.inl ⟨member, named⟩)
      by_cases below : crates.loro.NamedBy ends operation
      · refine .inl (.inr ?_)
        simp only [Loro.NamedBy, VersionVector.includesId, decide_eq_true_eq,
          not_lt] at named below
        have starts : (crates.loro.partialStartVv update).counter
            (crates.loro.id operation).1 ≤ (crates.loro.id operation).2 := by
          rcases goes_on update ends decoded meta_ (crates.loro.id operation).1
            with starts | passed
          · exact starts.trans named
          · exact absurd (passed.trans named) (not_le.mpr below)
        have taken := (ids _ _).mpr ⟨starts, below⟩
        rw [← carries] at taken
        obtain ⟨other, sent_it, same⟩ := taken
        rwa [← agree other sent_it operation member same]
      · exact .inr ⟨member, fun both =>
          ((named_merge operation member).mp both).elim named below⟩

/-- An update that imports whole goes on from what the document held. -/
theorem continues_of_importWhole {held imported : crates.loro.LoroDoc}
    {version : VersionVector} {encoded : String}
    (positive : ∀ peer, 0 ≤ version.counter peer)
    (named : ∀ operation ∈ crates.loro.operations held,
      crates.loro.NamedBy version operation)
    (whole : importWhole held encoded = .ok imported) :
    Continues crates version encoded := by
  intro update ends decodes meta_ peer
  obtain ⟨other, decodes_other, operations⟩ := importWhole_ok whole
  cases Except.ok.inj (decodes_other.symm.trans decodes)
  by_contra gap
  rw [not_or, not_le, not_le] at gap
  have ids := crates.loro.mem_updateOperations update ends meta_
  -- What the version ends at would be held of neither.
  have first : (peer, (crates.loro.partialStartVv update).counter peer)
      ∈ crates.loro.id '' crates.loro.operations imported := by
    rw [operations, Loro.id_image_union_newOperations]
    refine .inr ((ids _ _).mpr ⟨le_rfl, ?_⟩)
    exact crates.loro.partialStartVv_lt update ends meta_ peer
      (lt_of_le_of_lt (positive peer) gap.2)
  have last := ((crates.loro.mem_operations imported _ _).mp first).2
  obtain ⟨operation, member, same⟩ :=
    (crates.loro.mem_operations imported peer (version.counter peer)).mpr
      ⟨positive peer, lt_trans gap.1 last⟩
  rw [operations] at member
  rcases member with held_it | ⟨sent, -⟩
  · have below := named operation held_it
    simp [Loro.NamedBy, VersionVector.includesId, same] at below
  · have starts := ((ids peer (version.counter peer)).mp
      ⟨operation, sent, same⟩).1
    exact absurd gap.1 (not_lt.mpr starts)

theorem frontierVersion_ok {doc : crates.loro.LoroDoc}
    {frontierBase64 : String} {version : VersionVector}
    (known :
      CollaborationReplica.frontierVersion doc frontierBase64 = .ok version) :
    ∃ frontiers, decodeFrontiers crates frontierBase64 = .ok frontiers
      ∧ crates.loro.frontiersToVv doc frontiers = some version := by
  unfold CollaborationReplica.frontierVersion at known
  cases decoded : decodeFrontiers crates frontierBase64 with
  | error error => simp [decoded, bind, Except.bind] at known
  | ok frontiers =>
      refine ⟨frontiers, rfl, ?_⟩
      cases found : crates.loro.frontiersToVv doc frontiers with
      | none => simp [decoded, found, bind, Except.bind] at known
      | some held =>
          simp only [decoded, found, bind, Except.bind,
            Except.ok.injEq] at known
          rw [known]

/-- A branch at a frontier holds what the version of the frontier names. -/
theorem branchAt_ok {doc branch : crates.loro.LoroDoc}
    {frontierBase64 : String}
    (forked : CollaborationReplica.branchAt doc frontierBase64
      = .ok branch) :
    ∃ version,
      CollaborationReplica.frontierVersion doc frontierBase64 = .ok version
        ∧ (∀ peer, 0 ≤ version.counter peer)
        ∧ crates.loro.operations branch
          = {operation ∈ crates.loro.operations doc |
              crates.loro.NamedBy version operation} := by
  unfold CollaborationReplica.branchAt at forked
  cases frontiers : decodeFrontiers crates frontierBase64 with
  | error error => simp [frontiers, bind, Except.bind] at forked
  | ok decoded =>
      simp only [frontiers, bind, Except.bind] at forked
      cases result : crates.loro.forkAt doc decoded with
      | error message => simp [result] at forked
      | ok fork =>
          simp only [result, Except.ok.injEq] at forked
          subst forked
          obtain ⟨version, known, holds⟩ :=
            crates.loro.operations_forkAt doc decoded fork result
          refine ⟨version, ?_, ?_, holds⟩
          · simp [CollaborationReplica.frontierVersion, frontiers, known,
              bind, Except.bind]
          · exact fun peer =>
              (crates.loro.counter_frontiersToVv doc decoded version known
                peer).1

end Exchange

end Clerkenwell.Doc
