import Clerkenwell.Session.RevisionChain

/-!
# A client of a subscription

A client materialises the updates it receives.  A snapshot replaces what it
holds, and a patch is applied only to the revision it starts from.  Whichever
updates of a subscription reach it, it applies each patch to the state that the
update right before the patch left.
-/

namespace Clerkenwell.Session

open Clerkenwell.Foundation
open Clerkenwell.Doc

/-! ## What a client holds -/

/-- A snapshot or a patch of a projection. -/
structure Projected (Value : Type) where
  projection : String
  value : Value
deriving DecidableEq

structure MaterializedProjection (Snapshot : Type) where
  projection : String
  subscriptionId : Nat
  revision : Nat
  snapshot : Snapshot
deriving DecidableEq

section Client

variable {Snapshot Patch Plan Delivery : Type}

/-- How a client composes a projection's patches. -/
structure Composition (Snapshot Patch Plan : Type) where
  plans : String → Option Plan
  materializePatch : Snapshot → Projected Patch → Plan →
    Except String Snapshot

/-- An update as a client receives it. -/
abbrev ClientEvent (Snapshot Patch : Type) :=
  ProjectionTransportEvent (Projected Snapshot) (Projected Patch)

variable (composition : Composition Snapshot Patch Plan)

/-- What a subscription holds after an update, or why it does not apply. -/
def applyProjectionEvent
    (materialized : Option (MaterializedProjection Snapshot)) :
    ClientEvent Snapshot Patch →
      Except String (MaterializedProjection Snapshot)
  | .snapshot subscriptionId revision snapshot _ =>
      .ok
        { projection := snapshot.projection
          subscriptionId := subscriptionId
          revision := revision
          snapshot := snapshot.value }
  | .patch subscriptionId fromRevision toRevision patch _ =>
      match materialized with
      | none =>
          .error s!"Received patch for unknown subscription {subscriptionId}."
      | some held =>
          if held.projection ≠ patch.projection then
            .error
              (s!"Received {patch.projection} patch for {held.projection} "
                ++ s!"subscription {subscriptionId}.")
          else if held.revision ≠ fromRevision then
            .error
              (s!"Received patch from revision {fromRevision} for "
                ++ s!"subscription {subscriptionId} at revision "
                ++ s!"{held.revision}.")
          else if toRevision ≤ fromRevision then
            .error
              (s!"Received non-advancing patch revision {fromRevision} -> "
                ++ s!"{toRevision} for subscription {subscriptionId}.")
          else
            match composition.plans patch.projection with
            | none =>
                .error
                  ("No composition plan exists for projection "
                    ++ s!"{patch.projection}.")
            | some plan =>
                (composition.materializePatch held.snapshot patch plan).map
                  fun snapshot =>
                    { held with snapshot := snapshot, revision := toRevision }

/-- What a watch holds after an update; one it does not apply changes nothing. -/
def receive (held : Option (MaterializedProjection Snapshot))
    (event : ClientEvent Snapshot Patch) :
    Option (MaterializedProjection Snapshot) :=
  if held.any fun previous => event.revision ≤ previous.revision then held
  else
    match applyProjectionEvent composition held event with
    | .ok update => some update
    | .error _ => held

/-! ## What a client received -/

/-- What a client holds and the update that left it so. -/
structure Watching (Snapshot Patch : Type) where
  held : Option (MaterializedProjection Snapshot)
  leftBy : Option (Update (Projected Snapshot) (Projected Patch))

/-- A client that holds nothing yet. -/
def Watching.empty : Watching Snapshot Patch where
  held := none
  leftBy := none

/-- A client applies an update. -/
def Applies (watching : Watching Snapshot Patch)
    (event : ClientEvent Snapshot Patch) : Prop :=
  (∀ previous, watching.held = some previous →
      previous.revision < event.revision)
    ∧ ∃ update,
        applyProjectionEvent composition watching.held event = .ok update

instance (watching : Watching Snapshot Patch)
    (event : ClientEvent Snapshot Patch) :
    Decidable (Applies composition watching event) :=
  match held : watching.held, result :
      applyProjectionEvent composition watching.held event with
  | none, .ok update => .isTrue ⟨by simp [held], update, result⟩
  | some previous, .ok update =>
      if earlier : previous.revision < event.revision then
        .isTrue ⟨by simp [held, earlier], update, result⟩
      else .isFalse fun applies => earlier (applies.1 previous held)
  | _, .error _ => .isFalse fun ⟨_, _, applied⟩ => by
      rw [result] at applied
      cases applied

/--
A client once it took an update: an up-to-date acceptance keeps `resumed`, what
it held before, at the revision accepted, and a recorded delivery reached it
some other way.
-/
def Watching.take (resumed : Projected Snapshot)
    (watching : Watching Snapshot Patch)
    (update : Update (Projected Snapshot) (Projected Patch)) :
    Watching Snapshot Patch :=
  match update with
  | .upToDate subscriptionId revision =>
      { held := some
          { projection := resumed.projection
            subscriptionId := subscriptionId
            revision := revision
            snapshot := resumed.value }
        leftBy := some update }
  | .sent event =>
      { held := receive composition watching.held event
        leftBy :=
          if Applies composition watching event then some update
          else watching.leftBy }
  | .recorded _ _ => watching

/-- A client once it took a list of updates. -/
def Watching.takeAll (resumed : Projected Snapshot)
    (received : List (Update (Projected Snapshot) (Projected Patch))) :
    Watching Snapshot Patch :=
  received.foldl (Watching.take composition resumed) .empty

/-! ## What a client's state was left by -/

variable {composition}

theorem revision_of_applied
    {held : Option (MaterializedProjection Snapshot)}
    {event : ClientEvent Snapshot Patch}
    {update : MaterializedProjection Snapshot}
    (applied : applyProjectionEvent composition held event = .ok update) :
    update.revision = event.revision := by
  cases event with
  | snapshot id revision snapshot token =>
      cases applied
      rfl
  | patch id fromRevision toRevision patch token =>
      unfold applyProjectionEvent at applied
      cases held with
      | none => cases applied
      | some held =>
          dsimp only at applied
          split at applied
          · cases applied
          · split at applied
            · cases applied
            · split at applied
              · cases applied
              · split at applied
                · cases applied
                · rename_i plan planned
                  cases composed : composition.materializePatch held.snapshot
                      patch plan with
                  | error message =>
                      rw [composed] at applied
                      cases applied
                  | ok snapshot =>
                      rw [composed] at applied
                      cases applied
                      rfl

/-- A patch is applied only to the revision it starts from. -/
theorem held_of_applied_patch
    {held : Option (MaterializedProjection Snapshot)}
    {id fromRevision toRevision : Nat} {patch : Projected Patch}
    {token : Option Json} {update : MaterializedProjection Snapshot}
    (applied : applyProjectionEvent composition held
      (.patch id fromRevision toRevision patch token) = .ok update) :
    ∃ previous, held = some previous
      ∧ previous.revision = fromRevision := by
  cases held with
  | none => cases applied
  | some previous =>
      refine ⟨previous, rfl, ?_⟩
      by_contra differs
      simp only [applyProjectionEvent, if_pos differs] at applied
      split at applied <;> cases applied

/-- A client's state comes from an update. -/
def Takes (composition : Composition Snapshot Patch Plan)
    (watching : Watching Snapshot Patch) :
    Update (Projected Snapshot) (Projected Patch) → Prop
  | .upToDate _ _ => True
  | .sent event => Applies composition watching event
  | .recorded _ _ => False

instance (watching : Watching Snapshot Patch)
    (update : Update (Projected Snapshot) (Projected Patch)) :
    Decidable (Takes composition watching update) :=
  match update with
  | .upToDate _ _ => .isTrue trivial
  | .sent event =>
      inferInstanceAs (Decidable (Applies composition watching event))
  | .recorded _ _ => .isFalse id

/-- An update that is taken leaves its client at the revision it reaches. -/
theorem held_take_of_takes {resumed : Projected Snapshot}
    {watching : Watching Snapshot Patch}
    {update : Update (Projected Snapshot) (Projected Patch)}
    (takes : Takes composition watching update) :
    (∃ held, (watching.take composition resumed update).held = some held
        ∧ held.revision = update.reaches)
      ∧ (watching.take composition resumed update).leftBy = some update := by
  cases update with
  | upToDate id revision => exact ⟨⟨_, rfl, rfl⟩, rfl⟩
  | recorded id revision => cases takes
  | sent event =>
      constructor
      · rcases takes with ⟨later, applied, result⟩
        refine ⟨applied, ?_, revision_of_applied result⟩
        have not_held : ¬ watching.held.any
            (fun previous => decide (event.revision ≤ previous.revision))
              = true := by
          cases present : watching.held with
          | none => simp
          | some previous => simpa using later previous present
        show receive composition watching.held event = some applied
        rw [receive, if_neg not_held, result]
      · exact if_pos takes

/-- An update that is not taken leaves its client as it is. -/
theorem take_of_not_takes {resumed : Projected Snapshot}
    {watching : Watching Snapshot Patch}
    {update : Update (Projected Snapshot) (Projected Patch)}
    (not_taken : ¬ Takes composition watching update) :
    watching.take composition resumed update = watching := by
  cases update with
  | upToDate id revision => exact absurd trivial not_taken
  | recorded id revision => rfl
  | sent event =>
      have unmoved : receive composition watching.held event
          = watching.held := by
        unfold receive
        split
        · rfl
        · rename_i not_held
          cases result : applyProjectionEvent composition watching.held
              event with
          | error message => rfl
          | ok applied =>
              refine absurd ⟨?_, applied, result⟩ not_taken
              intro previous present
              simpa [present] using not_held
      have leftBy : (if Applies composition watching event then
          some (Update.sent event) else watching.leftBy) = watching.leftBy :=
        if_neg not_taken
      rw [Watching.take, unmoved, leftBy]

/-- What a client holds is at the revision the update that left it reached. -/
def Watching.Consistent (watching : Watching Snapshot Patch)
    (received : List (Update (Projected Snapshot) (Projected Patch))) :
    Prop :=
  ∀ held, watching.held = some held →
    ∃ update ∈ received, watching.leftBy = some update
      ∧ update.reaches = held.revision

theorem Watching.Consistent.take {resumed : Projected Snapshot}
    {watching : Watching Snapshot Patch}
    {received : List (Update (Projected Snapshot) (Projected Patch))}
    (consistent : watching.Consistent received)
    (update : Update (Projected Snapshot) (Projected Patch)) :
    (watching.take composition resumed update).Consistent
      (received ++ [update]) := by
  intro held there
  by_cases takes : Takes composition watching update
  · rcases @held_take_of_takes _ _ _ composition resumed _ _ takes with
      ⟨⟨taken, taken_there, reached⟩, left⟩
    cases there.symm.trans taken_there
    exact ⟨update, List.mem_append_right _ (List.mem_singleton_self _), left,
      reached.symm⟩
  · rw [take_of_not_takes takes] at there ⊢
    rcases consistent held there with ⟨other, member, left, reaches⟩
    exact ⟨other, List.mem_append_left _ member, left, reaches⟩

theorem consistent_takeAll (resumed : Projected Snapshot)
    (received : List (Update (Projected Snapshot) (Projected Patch))) :
    (Watching.takeAll composition resumed received).Consistent received := by
  induction received using List.reverseRecOn with
  | nil =>
      intro held there
      cases there
  | append_singleton earlier update inductionHypothesis =>
      rw [Watching.takeAll, List.foldl_append]
      exact inductionHypothesis.take update

/-! ## The update right before a patch -/

/-- In a chain the update at the revision another starts from is right before. -/
theorem adjacent_of_reaches
    {updates : List (Update (Projected Snapshot) (Projected Patch))}
    (chain : updates.IsChain Update.Follows)
    {left : Update (Projected Snapshot) (Projected Patch)}
    {id fromRevision toRevision : Nat} {patch : Projected Patch}
    {token : Option Json}
    (left_member : left ∈ updates)
    (member : .sent (.patch id fromRevision toRevision patch token) ∈ updates)
    (advancing : fromRevision < toRevision)
    (reaches : left.reaches = fromRevision) :
    ∃ before after, updates
      = before ++ left :: .sent (.patch id fromRevision toRevision patch token)
        :: after := by
  have increasing : updates.Pairwise
      (fun earlier later => earlier.reaches < later.reaches) := by
    have shorter : updates.IsChain
        (fun earlier later => earlier.reaches < later.reaches) :=
      chain.imp fun _ _ follows => follows.1
    exact List.isChain_iff_pairwise.mp shorter
  rcases List.append_of_mem member with ⟨before, after, rfl⟩
  rw [List.pairwise_append] at increasing
  rcases increasing with ⟨increasingBefore, increasingAfter, across⟩
  have left_before : left ∈ before := by
    rcases List.mem_append.mp left_member with earlier | later
    · exact earlier
    · exfalso
      rcases List.mem_cons.mp later with rfl | last
      · have same : toRevision = fromRevision := reaches
        omega
      · have further : toRevision < left.reaches :=
          (List.pairwise_cons.mp increasingAfter).1 left last
        omega
  rcases List.eq_nil_or_concat' before with rfl | ⟨first, previous, rfl⟩
  · cases left_before
  · have follows : (Update.sent (.patch id fromRevision toRevision patch token)
        : Update (Projected Snapshot) (Projected Patch)).From
          previous.reaches :=
      (List.isChain_append.mp chain).2.2 previous (by simp) _ (by simp)
    have starts : fromRevision = previous.reaches := follows.2
    rcases List.mem_append.mp left_before with earlier | last
    · have lower : left.reaches < previous.reaches :=
        (List.pairwise_append.mp increasingBefore).2.2 left earlier previous
          (List.mem_singleton_self previous)
      omega
    · rw [List.mem_singleton.mp last]
      exact ⟨first, after, by simp⟩

/--
A client that received any of a subscription's updates applies a patch only to
the state the update right before it left.
-/
theorem adjacent_of_applies
    {updates received : List (Update (Projected Snapshot) (Projected Patch))}
    (chain : updates.IsChain Update.Follows)
    {resumed : Projected Snapshot} {id fromRevision toRevision : Nat}
    {patch : Projected Patch} {token : Option Json}
    (within : List.Sublist
      (received ++ [.sent (.patch id fromRevision toRevision patch token)])
      updates)
    (applies : Applies composition
      (Watching.takeAll composition resumed received)
      (.patch id fromRevision toRevision patch token)) :
    ∃ left before after,
      (Watching.takeAll composition resumed received).leftBy = some left
        ∧ updates
          = before ++ left
            :: .sent (.patch id fromRevision toRevision patch token)
            :: after := by
  rcases applies with ⟨later, update, applied⟩
  rcases held_of_applied_patch applied with ⟨previous, held, starts⟩
  rcases consistent_takeAll resumed received previous held with
    ⟨left, left_received, leftBy, reaches⟩
  have advancing : fromRevision < toRevision := starts ▸ later previous held
  rcases adjacent_of_reaches chain
      (within.subset (List.mem_append_left _ left_received))
      (within.subset
        (List.mem_append_right _ (List.mem_singleton_self _)))
      advancing (reaches.trans starts) with
    ⟨before, after, adjacent⟩
  exact ⟨left, before, after, leftBy, adjacent⟩

variable [DecidableEq Delivery]

/--
Every subscription's updates form one chain of increasing revisions in any run
that moves subscriptions forward, and a client that receives any of them
applies each patch to the state the update right before it left.
-/
theorem updates_chained (composition : Composition Snapshot Patch Plan)
    (toValue : Delivery → Option Json) (principal : Principal)
    (operations : List (SubscriptionOperation Delivery (Projected Snapshot)
      (Projected Patch)))
    (advancing : Machine.EveryStep (Served.next toValue) Advances
      (.new principal) operations)
    (subscriptionId : Nat) :
    let updates :=
      (Machine.run (Served.next toValue) (.new principal) operations).updatesOf
        subscriptionId
    updates.IsChain Update.Follows
      ∧ ∀ (resumed : Projected Snapshot) received id fromRevision toRevision
          patch token,
        List.Sublist
            (received
              ++ [.sent (.patch id fromRevision toRevision patch token)])
            updates →
          Applies composition
              (Watching.takeAll composition resumed received)
              (.patch id fromRevision toRevision patch token) →
            ∃ left before after,
              (Watching.takeAll composition resumed received).leftBy
                  = some left
                ∧ updates
                  = before ++ left
                    :: .sent (.patch id fromRevision toRevision patch token)
                    :: after := by
  intro updates
  have chain : updates.IsChain Update.Follows :=
    (chained_run principal advancing operations (List.prefix_refl _)).chain
      subscriptionId
  exact ⟨chain, fun resumed received id fromRevision toRevision patch token
    within applies => adjacent_of_applies chain within applies⟩

/-- A subscription to notes, and a patch of it. -/
def patchedOnce :
    List (SubscriptionOperation Unit (Projected Unit) (Projected Unit)) :=
  [.accept "notes" (.object []) none
      { snapshot := { projection := "notes", value := () }, through := 0 }
      none,
    .deliverPatch 1 0 { projection := "notes", value := () } none]

theorem updates_chained_patchedOnce :
    let updates :=
      (Machine.run (Served.next fun _ => none)
        (.new { id := "ada", kind := .human }) patchedOnce).updatesOf 1
    updates.length = 2 ∧ updates.IsChain Update.Follows := by
  have advancing : Machine.EveryStep (Served.next fun _ => none) Advances
      (.new { id := "ada", kind := .human }) patchedOnce := by
    rw [patchedOnce, Machine.everyStep_cons, Machine.everyStep_cons]
    refine ⟨trivial, ?_, Machine.everyStep_nil _ _ _⟩
    intro subscription there
    cases there
    decide
  have chained :=
    updates_chained
      ({ plans := fun _ => none
         materializePatch := fun _ _ _ => .error "" } :
        Composition Unit Unit Unit)
      (fun _ => none) { id := "ada", kind := .human } patchedOnce advancing 1
  exact ⟨by decide, chained.1⟩

/-- The updates that are sent, without the deliveries recorded between them. -/
def Update.isSent : Update Snapshot Patch → Bool
  | .recorded _ _ => false
  | _ => true

/-- What a subscription is sent in a run, with nothing named as held. -/
def sentBy (operations : List (SubscriptionOperation Unit Unit Unit))
    (subscriptionId : Nat) : List (Update Unit Unit) :=
  ((Machine.run (Served.next fun _ => none)
    (.new { id := "ada", kind := .human }) operations).updatesOf
      subscriptionId).filter Update.isSent

/--
A delivery recorded at another revision breaks the chain of what is sent, and
so does a patch that is sent from the last revision.
-/
theorem recorded_delivery_breaks_chain :
    ¬ (sentBy
        [.accept "notes" (.object []) none { snapshot := (), through := 0 }
            none,
          .recordDelivery 1 5 none, .deliverPatch 1 0 () none]
        1).IsChain Update.Follows
      ∧ ¬ (sentBy
        [.accept "notes" (.object []) none { snapshot := (), through := 0 }
            none,
          .deliverPatch 1 lastRevision () none, .deliverPatch 1 0 () none]
        1).IsChain Update.Follows := by
  constructor
  · intro chained
    have starts : (5 : Nat) = 1 := (List.isChain_cons_cons.mp chained).1.2
    cases starts
  · intro chained
    have increases : lastRevision < max 0 (nextRevision lastRevision) :=
      (List.isChain_cons_cons.mp (List.isChain_cons_cons.mp chained).2).1.1
    exact absurd increases (by decide)

end Client

end Clerkenwell.Session
