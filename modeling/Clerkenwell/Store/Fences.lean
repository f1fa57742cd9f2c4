import Clerkenwell.Store.Windows
import Mathlib.Data.Set.BooleanAlgebra
import Mathlib.Order.CompletePartialOrder

/-!
# Fences

A request fenced on an etag is accepted only over the state of that etag, and
what is accepted leaves a state of more operations.  So of the requests fenced
on one etag, a document's history accepts at most one before it begins anew.
-/

namespace Clerkenwell.Store

open Clerkenwell.Foundation
open Clerkenwell.Doc

section Fences

variable {crates : StoreCrates} {port : PortContract}
variable {application : Application} {setting : Setting crates application}

/-- The etag a call's commit is fenced on. -/
def Call.fencedOn : Call application → Option String
  | .importUpdate _ request _ =>
      match request.fence with
      | .etag expected => some expected
      | .frontier => none
  | .edit _ change _ => some change.etag
  | _ => none

/-- The etag that the writer of a change was fenced on. -/
def Change.fencedOn (change : Change (Caller application)) : Option String :=
  change.writer.bind fun caller => caller.call.fencedOn

/-- A change goes on with its document's history, as a call of a service. -/
structure Change.Continues (change : Change (Caller application)) : Prop where
  written : change.writer ≠ none
  stored : change.content ≠ none
  carries : change.gives = false

theorem Change.Continues.caller {change : Change (Caller application)}
    (goes : change.Continues) :
    ∃ caller, change.writer = some caller ∧ caller.call.gives = false := by
  rcases Option.ne_none_iff_exists'.mp goes.written with ⟨caller, wrote⟩
  have given := goes.carries
  rw [Change.gives, wrote] at given
  exact ⟨caller, wrote, given⟩

/-! ## What a fenced commit is over -/

/-- A fence lets only its own etag through. -/
theorem requireFence_etag {plan : CollaborationEntitySpec}
    {request : CollaborationImportRequest}
    {held : CollaborationReplica crates.toCrates}
    {currentEtag expected : String}
    (passes : requireFence plan request held currentEtag = .ok ())
    (fenced : request.fence = .etag expected) : expected = currentEtag := by
  rw [requireFence, fenced] at passes
  dsimp only at passes
  split at passes
  · rcases except_bind_ok passes with ⟨current, -, ⟨⟩⟩
  · rename_i same
    exact not_not.mp same

/-- A commit of operations its document lacked leaves it with more. -/
theorem ImportAsks.gains {service : Service} {plan : CollaborationEntitySpec}
    {request : CollaborationImportRequest}
    {validate : Json → Except application.Failure Unit}
    {current : Option DurableCollaborationEnvelope}
    {commit : CollaborationCommit}
    (asks : ImportAsks crates service plan request validate current commit)
    (incremental : request.exchangeMode = .incremental)
    (gains : ∀ envelope, current = some envelope →
      commit.hasNewOperations = true) :
    ∃ envelope checkpoint, current = some envelope
      ∧ envelope.HasCheckpoint crates checkpoint
      ∧ crates.loro.updateOperations checkpoint
          ⊂ crates.loro.updateOperations commit.acceptedUpdate
      ∧ ∀ expected, request.fence = .etag expected →
          expected = collaborationEtag crates checkpoint := by
  rcases asks.judged with ⟨update, isNew, against, judged, imported,
    judgedAgainst, accepted, rfl⟩
  cases judgedAgainst with
  | created bootstrap => simp [incremental] at bootstrap
  | stored =>
      have established := judgeImport_ok accepted
      rcases established.established with ⟨held, loads, -, -,
        ⟨checkpoint, has, fence⟩, -, adopts, differs⟩
      rcases loadAuthoringDocument_ok loads with ⟨-, -, loaded, -⟩
      rcases CollaborationReplica.adoptVersionedUpdateBase64_ok adopts
        with ⟨-, adopted, -, operations⟩
      refine ⟨against, checkpoint, rfl, has, ?_, fun expected fenced =>
        requireFence_etag fence fenced⟩
      rw [established.acceptedUpdate,
        crates.loro.updateOperations_exportAllUpdates _ _
          established.exported,
        ← loaded.operations has]
      apply Set.ssubset_iff_subset_ne.mpr
      constructor
      · rw [operations]
        exact Set.subset_union_left
      · -- documents of the same operations have the same frontier
        intro same
        rw [gains against rfl, eq_comm, decide_eq_true_eq] at differs
        apply differs
        rw [CollaborationReplica.acceptedFrontierBase64,
          crates.loro.oplogFrontiers_congr _ _ same,
          CollaborationReplica.acceptedFrontierBase64]

/-! ## Operations kept -/

variable (crates) in
/-- What is kept holds an envelope of a checkpoint. -/
def CheckpointAt (content : Option StoredEnvelope) (checkpoint : Bytes) :
    Prop :=
  ∃ stored envelope, content = some stored
    ∧ decodeEnvelope crates stored.bytes = .ok envelope
    ∧ envelope.HasCheckpoint crates checkpoint

theorem CheckpointAt.unique {content : Option StoredEnvelope}
    {checkpoint other : Bytes} (here : CheckpointAt crates content checkpoint)
    (also : CheckpointAt crates content other) : checkpoint = other := by
  rcases here with ⟨stored, envelope, rfl, decoded, has⟩
  rcases also with ⟨_, _, same, decodes, holds⟩
  cases Option.some.inj same
  cases Except.ok.inj (decoded.symm.trans decodes)
  exact Except.ok.inj (has.1.symm.trans holds.1)

variable {caller : Caller application} {source : String}
variable {older newer : Option StoredEnvelope}

/-- A write that goes on with a history keeps the operations there were. -/
theorem Writes.grows (writes : Writes crates port caller source older newer)
    (carries : caller.call.gives = false) (kept : newer ≠ none)
    {before : Bytes} (held : CheckpointAt crates older before) :
    ∃ after, CheckpointAt crates newer after
      ∧ crates.loro.updateOperations before
          ⊆ crates.loro.updateOperations after := by
  rcases Option.ne_none_iff_exists'.mp kept with ⟨stored, rfl⟩
  rcases writes.whole rfl with ⟨envelope, accepted, holds, gives | carried⟩
  · rw [carries] at gives
    cases gives
  · rcases carried with ⟨replaced, previous, rfl, decoded, carried⟩
    rcases held with ⟨_, _, same, decodes, has⟩
    cases Option.some.inj same
    cases Except.ok.inj (decoded.symm.trans decodes)
    rcases carried.operations before has with ⟨more, holdsMore, within⟩
    exact ⟨more, ⟨stored, envelope, rfl, holds.decoded, holdsMore⟩, within⟩

variable (crates) in
/-- What was kept has an etag, and what is kept instead more operations. -/
abbrev GainsOver (older newer : Option StoredEnvelope) (etag : String) : Prop :=
  ∃ before after, CheckpointAt crates older before
    ∧ CheckpointAt crates newer after
    ∧ crates.loro.updateOperations before ⊂ crates.loro.updateOperations after
    ∧ etag = collaborationEtag crates before

/-- What a fenced import is committed over has its etag, and less to it. -/
theorem fenced_of_builds {plan : CollaborationEntitySpec}
    {request : CollaborationImportRequest}
    {validate : Json → Except application.Failure Unit}
    {current : Option DurableCollaborationEnvelope}
    {commit : CollaborationCommit} {next : DurableCollaborationEnvelope}
    {version expected : String} {bytes : Bytes}
    (asks : ImportAsks crates caller.service plan request validate current
      commit)
    (incremental : request.exchangeMode = .incremental)
    (fence : request.fence = .etag expected)
    (above : Current crates older current)
    (builds : Builds crates caller.service.policy current commit next)
    (encoded : crates.toVecPretty next = .ok bytes) :
    GainsOver crates older (some { version := version, bytes := bytes })
      expected := by
  rcases asks.gains incremental fun envelope there =>
    (builds.adds envelope there).hasNew with ⟨envelope, checkpoint, rfl, has,
      within, fences⟩
  cases older with
  | none => cases above
  | some stored =>
      rcases above with ⟨accepted, holds⟩
      have decoded := builds.decoded encoded
      rcases builds.built with ⟨incarnation, -, rfl⟩
      exact ⟨checkpoint, commit.acceptedUpdate,
        ⟨stored, envelope, rfl, holds.decoded, has⟩,
        ⟨_, _, rfl, decoded, encodes_encode _⟩, within,
        fences expected fence⟩

theorem Writes.fenced (writes : Writes crates port caller source older newer)
    (carries : caller.call.gives = false) {expected : String}
    (fenced : caller.call.fencedOn = some expected) (kept : newer ≠ none) :
    GainsOver crates older newer expected := by
  cases writes with
  | removed call place => exact absurd rfl kept
  | repaired call place above opened valid encoded =>
      rw [call] at fenced
      cases fenced
  | committed place above asks builds encoded =>
      rcases caller with ⟨service, call⟩
      cases call with
      | importUpdate plan request validate =>
          have incremental : request.exchangeMode = .incremental := by
            cases mode : request.exchangeMode with
            | incremental => rfl
            | bootstrap => simp [Call.gives, mode] at carries
          have fence : request.fence = .etag expected := by
            cases named : request.fence with
            | frontier => simp [Call.fencedOn, named] at fenced
            | etag other =>
                simp only [Call.fencedOn, named, Option.some.injEq] at fenced
                rw [fenced]
          exact fenced_of_builds asks incremental fence above builds encoded
      | edit plan change validate =>
          rcases asks with ⟨request, ⟨base, update, nonces, rfl⟩, asked⟩
          exact fenced_of_builds asked rfl
            (congrArg _ (Option.some.inj fenced)) above builds encoded
      | _ => cases fenced

/-! ## Histories -/

theorem checkpointEtag_injective : Function.Injective checkpointEtag := by
  intro digest other same
  have texts := congrArg String.toList same
  have digests : (toString digest).toList = (toString other).toList := by
    simpa [checkpointEtag] using texts
  exact String.toList_injective digests

/-- A history that goes on keeps the operations there were. -/
theorem Written.grows {changes earlier : List (Change (Caller application))}
    {before : Bytes}
    (written : Written crates port source (changes ++ earlier))
    (continues : ∀ change ∈ changes, change.Continues)
    (held : CheckpointAt crates (contentOf earlier) before) :
    ∃ after, CheckpointAt crates (contentOf (changes ++ earlier)) after
      ∧ crates.loro.updateOperations before
          ⊆ crates.loro.updateOperations after := by
  induction changes with
  | nil => exact ⟨before, held, subset_rfl⟩
  | cons newest rest inductionHypothesis =>
      rcases inductionHypothesis written.2 fun change member =>
        continues change (List.mem_cons_of_mem _ member) with
          ⟨middle, there, within⟩
      have goes := continues newest List.mem_cons_self
      rcases goes.caller with ⟨caller, wrote, carries⟩
      rcases (written.1 caller wrote).grows carries goes.stored there with
        ⟨after, here, more⟩
      exact ⟨after, here, within.trans more⟩

/-- What a change that goes on with a history was fenced on it replaced. -/
theorem Change.Continues.fenced
    {newest : Change (Caller application)}
    {earlier : List (Change (Caller application))} {expected : String}
    (goes : newest.Continues)
    (written : Written crates port source (newest :: earlier))
    (fenced : newest.fencedOn = some expected) :
    GainsOver crates (contentOf earlier) newest.content expected := by
  rcases goes.caller with ⟨caller, wrote, carries⟩
  rw [Change.fencedOn, wrote] at fenced
  exact (written.1 caller wrote).fenced carries fenced goes.stored

theorem fencedOn_nodup {segment earlier : List (Change (Caller application))}
    (collisionFree : Function.Injective crates.sha256Hex)
    (written : Written crates port source (segment ++ earlier))
    (continues : ∀ change ∈ segment, change.Continues) :
    (segment.filterMap Change.fencedOn).Nodup := by
  induction segment with
  | nil => exact List.nodup_nil
  | cons newest rest inductionHypothesis =>
      have later := inductionHypothesis written.2 fun change member =>
        continues change (List.mem_cons_of_mem _ member)
      rw [List.filterMap_cons]
      cases fenced : newest.fencedOn with
      | none => exact later
      | some expected =>
          refine List.nodup_cons.mpr ⟨fun again => ?_, later⟩
          rcases List.mem_filterMap.mp again with ⟨first, member, was⟩
          rcases List.append_of_mem member with ⟨between, older, rfl⟩
          have goes := continues newest List.mem_cons_self
          rcases goes.fenced written fenced with ⟨before, -, held, -, -, etag⟩
          -- the first of the two left more operations than its etag is of
          have run : Written crates port source
              (between ++ first :: (older ++ earlier)) := by
            have all : Written crates port source
                ((between ++ first :: older) ++ earlier) := written.2
            rwa [List.append_assoc] at all
          have since := Written.suffix crates port
            (List.suffix_append between _) run
          have began := continues first
            (List.mem_cons_of_mem _ (List.mem_append_right _
              List.mem_cons_self))
          rcases began.fenced since was with ⟨least, left, -, there, more,
            same⟩
          rcases run.grows (fun change inside => continues change
              (List.mem_cons_of_mem _ (List.mem_append_left _ inside)))
            there with ⟨after, here, kept⟩
          have here_eq : after = before := by
            have replaced : CheckpointAt crates
                (contentOf ((between ++ first :: older) ++ earlier)) before :=
              held
            rw [List.append_assoc] at replaced
            exact here.unique replaced
          have least_eq : least = before :=
            collisionFree (checkpointEtag_injective (same.symm.trans etag))
          subst here_eq
          subst least_eq
          exact more.not_subset kept

/-- Of requests fenced on one etag no interleaving accepts two. -/
theorem fences_once {start : StoreWorld crates application}
    {pool : StorePool crates application} (begun : Begun port start)
    (collisionFree : Function.Injective crates.sha256Hex)
    (reaches : StoreReaches port setting (Pool.idle start) pool)
    (source : String) :
    ∀ segment, segment <:+: pool.world.kept source →
      (∀ change ∈ segment, change.Continues) →
        (segment.filterMap Change.fencedOn).Nodup := by
  rintro segment ⟨later, earlier, kept⟩ continues
  rcases sound_of_reaches begun reaches with ⟨sound, -⟩
  have written := sound.invariant.written source
  rw [← kept, List.append_assoc] at written
  exact fencedOn_nodup collisionFree
    (Written.suffix crates port (List.suffix_append later _) written)
    continues

end Fences

/-! ## Two titles on one etag -/

section Titles

open Serving

/-- The etag of the note with its first title. -/
def firstEtag : String :=
  "loro:" ++ updateText [(0, titles.take 1)]

/-- A second title for the note, if it still has its first. -/
def secondTitle (operationId : String) : CollaborationImportRequest :=
  { noteRequest .incremental operationId (frontierText [(0, 1)])
      (updateText [(1, [titled false operationId])]) with
    fence := .etag firstEtag }

/-- A note is titled, and given a second title by two that saw the first. -/
def rivals : List (Caller notes) :=
  [noteRequest .bootstrap "first" "" (updateText [(0, titles.take 1)]),
    secondTitle "b", secondTitle "c"].map (importer 8)

/-- One of the rivals titles the note. -/
theorem rivals_fenced :
    (served rivals).map (fun pool =>
        (pool.world.kept (source note)).filterMap Change.fencedOn)
      = some [firstEtag] := by
  decide +kernel

theorem fences_once_rivals :
    ∃ pool, served rivals = some pool
      ∧ (pool.world.kept (source note)).filterMap Change.fencedOn
          = [firstEtag]
      ∧ ∀ segment, segment <:+: pool.world.kept (source note) →
          (∀ change ∈ segment, change.Continues) →
            (segment.filterMap Change.fencedOn).Nodup := by
  rcases Option.map_eq_some_iff.mp rivals_fenced with ⟨pool, ran, one⟩
  exact ⟨pool, ran, one, fences_once begun_emptyWorld sha256Hex_injective
    (reaches_served ran) (source note)⟩

end Titles

end Clerkenwell.Store
