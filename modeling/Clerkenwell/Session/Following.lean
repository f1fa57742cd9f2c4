import Clerkenwell.Session.Materialize
import Clerkenwell.Session.Windows

/-!
# A client of a connection

A client is sent what its connection's trail shows and answers it, in order.
What its state holds is what the snapshot it was built from holds and what was
applied to that since.  A state that is at the last of the subscription's
revisions was built from the last of its snapshots.
-/

namespace Clerkenwell.Session

open Clerkenwell.Foundation
open Clerkenwell.Doc

variable {Delivery Snapshot Patch Plan : Type}

/-! ## What a trail sends -/

/-- The update an entry of a trail made, sent or not. -/
def Trail.update : Trail Snapshot Patch → Option (Update Snapshot Patch)
  | .shown _ update => some update
  | .answered _ _ update => update
  | .unsent update => some update
  | .lost _ _ => none

/-- The updates made of one subscription. -/
def updatesIn (trail : List (Trail Snapshot Patch)) (id : Nat) :
    List (Update Snapshot Patch) :=
  (trail.filterMap Trail.update).filter fun update =>
    update.subscriptionId == id

/--
What the last of a subscription's snapshots holds, after one more entry; `none`
once an update could not be sent, until the next snapshot.
-/
def basisStep (id : Nat) (basis : Option Nat) :
    Trail Snapshot Patch → Option Nat
  | .shown through update =>
      if update.subscriptionId = id then some through else basis
  | .unsent update => if update.subscriptionId = id then none else basis
  | .answered _ _ _ | .lost _ _ => basis

def basisOf (trail : List (Trail Snapshot Patch)) (id : Nat) : Option Nat :=
  trail.foldl (basisStep id) none

theorem basisOf_append (trail : List (Trail Snapshot Patch))
    (entry : Trail Snapshot Patch) (id : Nat) :
    basisOf (trail ++ [entry]) id = basisStep id (basisOf trail id) entry := by
  rw [basisOf, basisOf, List.foldl_append]
  rfl

theorem updatesIn_append (trail : List (Trail Snapshot Patch))
    (entry : Trail Snapshot Patch) (id : Nat) :
    updatesIn (trail ++ [entry]) id
      = updatesIn trail id
        ++ entry.update.toList.filter fun update =>
            update.subscriptionId == id := by
  simp only [updatesIn, List.filterMap_append, List.filter_append]
  congr 2

/-! ## What a client's state holds -/

/-- A client, and the modifications its state holds. -/
structure Following (Snapshot Patch : Type) where
  watching : Watching Snapshot Patch
  /-- What its snapshot holds, and what was applied to it since. -/
  holding : Option Window

namespace Following

/-- A client that was sent nothing yet. -/
def empty : Following Snapshot Patch where
  watching := .empty
  holding := none

/-- A client's state holds a modification. -/
def Holds (following : Following Snapshot Patch) (number : Nat) : Prop :=
  ∃ window, following.holding = some window
    ∧ (number ≤ window.through ∨ number ∈ window.numbers)

variable (composition : Composition Snapshot Patch Plan)

/-- The client of a subscription after one more entry of its trail. -/
def take (resumed : Projected Snapshot) (id : Nat)
    (following : Following Snapshot Patch) :
    Trail (Projected Snapshot) (Projected Patch) → Following Snapshot Patch
  | .shown through update =>
      if update.subscriptionId = id then
        { watching := following.watching.take composition resumed update
          holding :=
            if Takes composition following.watching update then
              some { through := through, answers := [] }
            else following.holding }
      else following
  | .answered _ number
      (some (.sent
        (.patch patched fromRevision toRevision patch token))) =>
      if patched = id then
        { watching :=
            following.watching.take composition resumed
              (.sent (.patch patched fromRevision toRevision patch token))
          holding :=
            if Applies composition following.watching
                (.patch patched fromRevision toRevision patch token) then
              following.holding.map fun window => window.add number true
            else following.holding }
      else following
  | .answered _ _ _ | .unsent _ | .lost _ _ => following

/-- The client of a subscription after a trail. -/
def follow (resumed : Projected Snapshot) (id : Nat)
    (trail : List (Trail (Projected Snapshot) (Projected Patch))) :
    Following Snapshot Patch :=
  trail.foldl (take composition resumed id) .empty

/-! ## States at the last revision -/

/--
A client is at no revision past the last of its subscription, and at that one
its state was built from the last snapshot.
-/
def Abreast (following : Following Snapshot Patch)
    (trail : List (Trail (Projected Snapshot) (Projected Patch)))
    (id : Nat) : Prop :=
  ∀ held, following.watching.held = some held →
    ∃ last, lastReached (updatesIn trail id) = some last
      ∧ held.revision ≤ last
      ∧ (held.revision = last → ∃ window,
          following.holding = some window
            ∧ basisOf trail id = some window.through)

variable {composition} {resumed : Projected Snapshot} {id : Nat}
variable {following : Following Snapshot Patch}
variable {trail : List (Trail (Projected Snapshot) (Projected Patch))}
variable {entry : Trail (Projected Snapshot) (Projected Patch)}

/-- An update that is not taken leaves a client behind its subscription. -/
theorem Abreast.passed (abreast : following.Abreast trail id)
    {update : Update (Projected Snapshot) (Projected Patch)}
    (made : updatesIn (trail ++ [entry]) id = updatesIn trail id ++ [update])
    (further : ∀ revision,
      lastReached (updatesIn trail id) = some revision →
        update.From revision)
    {later : Following Snapshot Patch}
    (same : later.watching = following.watching) :
    later.Abreast (trail ++ [entry]) id := by
  intro held there
  rw [same] at there
  rcases abreast held there with ⟨last, reached, within, -⟩
  have past : last < update.reaches := (further last reached).1
  refine ⟨update.reaches, ?_, by omega, by omega⟩
  rw [made, lastReached, List.getLast?_concat]
  rfl

/-- An entry of no update of the subscription leaves a client as abreast. -/
theorem Abreast.idle (abreast : following.Abreast trail id)
    (made : updatesIn (trail ++ [entry]) id = updatesIn trail id)
    (basis : basisOf (trail ++ [entry]) id = basisOf trail id) :
    following.Abreast (trail ++ [entry]) id := by
  rw [Abreast, made, basis]
  exact abreast

/-- An update that is taken leaves a client at its subscription's last. -/
theorem abreast_of_taken
    {update : Update (Projected Snapshot) (Projected Patch)}
    (made : updatesIn (trail ++ [entry]) id = updatesIn trail id ++ [update])
    {later : Following Snapshot Patch}
    (taken : ∃ held, later.watching.held = some held
      ∧ held.revision = update.reaches)
    (holding : ∃ window, later.holding = some window
      ∧ basisOf (trail ++ [entry]) id = some window.through) :
    later.Abreast (trail ++ [entry]) id := by
  intro held there
  rcases taken with ⟨known, known_there, reached⟩
  cases there.symm.trans known_there
  refine ⟨update.reaches, ?_, reached.le, fun _ => holding⟩
  rw [made, lastReached, List.getLast?_concat]
  rfl

/-- A patch is applied only to a state that is at the subscription's last. -/
theorem Abreast.of_applies (abreast : following.Abreast trail id)
    {patched fromRevision toRevision : Nat} {patch : Projected Patch}
    {token : Option Json}
    (further : ∀ revision,
      lastReached (updatesIn trail id) = some revision →
        fromRevision = revision)
    (applies : Applies composition following.watching
      (.patch patched fromRevision toRevision patch token)) :
    ∃ window, following.holding = some window
      ∧ basisOf trail id = some window.through := by
  rcases applies with ⟨-, update, applied⟩
  rcases held_of_applied_patch applied with ⟨previous, there, starts⟩
  rcases abreast previous there with ⟨last, reached, -, at_last⟩
  exact at_last (starts.trans (further last reached))

/-- The link an update adds to its subscription's chain. -/
theorem from_of_chain
    {updates : List (Update (Projected Snapshot) (Projected Patch))}
    {update : Update (Projected Snapshot) (Projected Patch)}
    (chain : (updates ++ [update]).IsChain Update.Follows) :
    ∀ revision, lastReached updates = some revision →
      update.From revision := by
  intro revision reached
  rcases Option.map_eq_some_iff.mp reached with ⟨last, ending, rfl⟩
  exact (List.isChain_append.mp chain).2.2 last
    (Option.mem_def.mpr ending) update (by simp)

/-- One more entry of a chain of updates leaves its client abreast. -/
theorem Abreast.take (abreast : following.Abreast trail id)
    (chain : (updatesIn (trail ++ [entry]) id).IsChain Update.Follows) :
    (following.take composition resumed id entry).Abreast (trail ++ [entry])
      id := by
  have made := updatesIn_append trail entry id
  have basis := basisOf_append trail entry id
  cases entry with
  | lost other number =>
      exact abreast.idle (made.trans (List.append_nil _)) basis
  | unsent update =>
      by_cases subject : update.subscriptionId = id
      · have added : updatesIn (trail ++ [.unsent update]) id
            = updatesIn trail id ++ [update] := by
          simp [made, Trail.update, subject]
        rw [added] at chain
        exact abreast.passed added (from_of_chain chain) rfl
      · apply abreast.idle
        · simp [made, Trail.update, subject]
        · simp [basis, basisStep, subject]
  | shown through update =>
      by_cases subject : update.subscriptionId = id
      · have added : updatesIn (trail ++ [.shown through update]) id
            = updatesIn trail id ++ [update] := by
          simp [made, Trail.update, subject]
        simp only [Following.take, if_pos subject]
        by_cases takes : Takes composition following.watching update
        · rw [if_pos takes]
          apply abreast_of_taken added (held_take_of_takes takes).1
          refine ⟨_, rfl, ?_⟩
          rw [basis]
          exact if_pos subject
        · rw [added] at chain
          exact abreast.passed added (from_of_chain chain)
            (take_of_not_takes takes)
      · have same : following.take composition resumed id
            (.shown through update) = following := if_neg subject
        rw [same]
        apply abreast.idle
        · simp [made, Trail.update, subject]
        · simp [basis, basisStep, subject]
  | answered other number update =>
      have passed : ∀ update : Update (Projected Snapshot) (Projected Patch),
          updatesIn (trail ++ [.answered other number (some update)]) id
              = updatesIn trail id
                ++ [update].filter
                  (fun update => update.subscriptionId == id) →
            (updatesIn (trail ++ [.answered other number (some update)])
              id).IsChain Update.Follows →
            following.Abreast
              (trail ++ [.answered other number (some update)]) id := by
        intro update made chain
        by_cases subject : update.subscriptionId = id
        · have added : updatesIn
              (trail ++ [.answered other number (some update)]) id
                = updatesIn trail id ++ [update] := by
            simp [made, subject]
          rw [added] at chain
          exact abreast.passed added (from_of_chain chain) rfl
        · apply abreast.idle
          · simp [made, subject]
          · exact basisOf_append _ _ _
      match update with
      | none => exact abreast.idle (made.trans (List.append_nil _)) basis
      | some (.upToDate accepted revision) => exact passed _ made chain
      | some (.recorded recorded revision) => exact passed _ made chain
      | some (.sent (.snapshot shown revision snapshot token)) =>
          exact passed _ made chain
      | some (.sent (.patch patched fromRevision toRevision patch token)) =>
          by_cases subject : patched = id
          · subst subject
            have added : updatesIn
                (trail ++ [.answered other number
                  (some (.sent
                    (.patch patched fromRevision toRevision patch token)))])
                patched
                  = updatesIn trail patched
                    ++ [.sent
                      (.patch patched fromRevision toRevision patch
                        token)] := by
              simp [made, Trail.update, Update.subscriptionId,
                ProjectionTransportEvent.subscriptionId]
            rw [added] at chain
            have starts := from_of_chain chain
            simp only [Following.take, if_pos]
            by_cases applies : Applies composition following.watching
                (.patch patched fromRevision toRevision patch token)
            · rw [if_pos applies]
              rcases abreast.of_applies (fun revision reached =>
                  (starts revision reached).2) applies with
                ⟨window, holding, at_basis⟩
              have taken : Takes composition following.watching
                  (.sent
                    (.patch patched fromRevision toRevision patch token)) :=
                applies
              apply abreast_of_taken added
                (@held_take_of_takes _ _ _ _ resumed _ _ taken).1
              refine ⟨window.add number true, ?_, basis.trans at_basis⟩
              rw [holding]
              rfl
            · have not_taken : ¬ Takes composition following.watching
                  (.sent
                    (.patch patched fromRevision toRevision patch token)) :=
                applies
              exact abreast.passed added starts
                (@take_of_not_takes _ _ _ _ resumed _ _ not_taken)
          · have same : following.take composition resumed id
                (.answered other number (some (.sent
                  (.patch patched fromRevision toRevision patch token))))
                  = following := if_neg subject
            rw [same]
            exact passed _ made chain

/-- A client that follows a chain of updates is abreast of it. -/
theorem abreast_follow
    (chain : (updatesIn trail id).IsChain Update.Follows) :
    (follow composition resumed id trail).Abreast trail id := by
  induction trail using List.reverseRecOn with
  | nil =>
      intro held there
      cases there
  | append_singleton earlier entry inductionHypothesis =>
      rw [follow, List.foldl_append]
      have earlier_chain : (updatesIn earlier id).IsChain Update.Follows := by
        rw [updatesIn_append] at chain
        exact chain.left_of_append
      exact (inductionHypothesis earlier_chain).take chain

end Following

end Clerkenwell.Session
