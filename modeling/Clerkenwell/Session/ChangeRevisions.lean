import Clerkenwell.Session.RevisionChain

/-!
# The revision of a change

A connection keeps no counter: the revision a change reaches is recomputed from
the subscriptions it still holds.  A change is given its revision when it is
published, and its patches reach each subscription it affects later.
-/

namespace Clerkenwell.Session

open Clerkenwell.Foundation
open Clerkenwell.Doc

variable {Delivery Snapshot Patch : Type}

/-! ## Revisions held -/

namespace ProjectionSubscriptions

variable {held : ProjectionSubscriptions Delivery}

/-- The revision a subscription is held at. -/
def revisionOf (held : ProjectionSubscriptions Delivery) (id : Nat) :
    Option Nat :=
  (held.get id).map ProjectionSubscription.revision

theorem revisionOf_eq_some {id revision : Nat} :
    held.revisionOf id = some revision
      ↔ ∃ subscription, held.get id = some subscription
        ∧ subscription.revision = revision :=
  Option.map_eq_some_iff

theorem foldl_max_le (values : List Nat) :
    ∀ {start bound : Nat}, start ≤ bound →
      (∀ value ∈ values, value ≤ bound) → values.foldl max start ≤ bound := by
  induction values with
  | nil => exact fun within _ => within
  | cons first rest inductionHypothesis =>
      intro start bound within all
      exact inductionHypothesis
        (max_le within (all first List.mem_cons_self))
        fun value member => all value (List.mem_cons_of_mem _ member)

/-- The current revision is the least that none held is past. -/
theorem currentRevision_le {bound : Nat} :
    held.currentRevision ≤ bound
      ↔ ∀ id revision, held.revisionOf id = some revision →
        revision ≤ bound := by
  constructor
  · intro within id revision there
    obtain ⟨subscription, present, rfl⟩ := revisionOf_eq_some.mp there
    exact (revision_le_currentRevision present).trans within
  · intro all
    apply foldl_max_le _ (Nat.zero_le _)
    intro value member
    obtain ⟨entry, listed, rfl⟩ := List.mem_map.mp member
    have present : held.get entry.1 = some entry.2 :=
      Std.ExtTreeMap.mem_toList_iff_getElem?_eq_some.mp listed
    exact all entry.1 _ (revisionOf_eq_some.mpr ⟨_, present, rfl⟩)

theorem changeRevision_eq (bounded : held.currentRevision < lastRevision)
    (publishes : Bool) :
    held.changeRevision publishes
      = max held.currentRevision 1 + if publishes then 1 else 0 := by
  have room : max held.currentRevision 1 < lastRevision := by
    have some_revisions : 1 < lastRevision := by decide
    omega
  cases publishes with
  | true => exact nextRevision_eq room
  | false => rfl

end ProjectionSubscriptions

/-! ## Changes and their patches -/

/-- A connection and the revisions of the changes published on it. -/
structure Changing (Delivery Snapshot Patch : Type) where
  served : Served Delivery Snapshot Patch
  changes : List Nat

/-- An operation, or the patch a change brings one subscription. -/
inductive ChangeStep (Delivery Snapshot Patch : Type) where
  | operate (operation : SubscriptionOperation Delivery Snapshot Patch)
  | deliverChange (change subscriptionId : Nat) (patch : Patch)
      (delivered : Option Delivery)

namespace Changing

def new (principal : Principal) : Changing Delivery Snapshot Patch where
  served := .new principal
  changes := []

variable [DecidableEq Delivery] (toValue : Delivery → Option Json)

def next (changing : Changing Delivery Snapshot Patch) :
    ChangeStep Delivery Snapshot Patch → Changing Delivery Snapshot Patch
  | .operate operation =>
      { served := changing.served.next toValue operation
        changes :=
          match operation with
          | .changeRevision true =>
              changing.changes ++ [changing.served.held.changeRevision true]
          | _ => changing.changes }
  | .deliverChange change id patch delivered =>
      match changing.changes[change]? with
      | none => changing
      | some revision =>
          { changing with
            served := changing.served.next toValue
              (.deliverPatch id revision patch delivered) }

omit [DecidableEq Delivery] in
/-- The revision of the next change is past everything sent so far. -/
def PastAllSent (changing : Changing Delivery Snapshot Patch) : Prop :=
  ∀ update ∈ changing.served.updates,
    update.reaches < changing.served.held.changeRevision true

/--
A step does not lower the revision of the next change, and a change's patch
reaches the revision the change was answered with.
-/
def StepKept (changing : Changing Delivery Snapshot Patch)
    (step : ChangeStep Delivery Snapshot Patch) : Prop :=
  (∀ publishes, changing.served.held.changeRevision publishes
    ≤ (changing.next toValue step).served.held.changeRevision publishes)
  ∧ match step with
    | .operate _ => True
    | .deliverChange change id patch delivered =>
        ∀ revision, changing.changes[change]? = some revision →
          ∀ update ∈ (Served.perform toValue changing.served.held
            (.deliverPatch id revision patch delivered
              : SubscriptionOperation Delivery Snapshot Patch)).1,
            update.reaches = revision

end Changing

/-- Another subscription is held at this one's revision, or past it. -/
def Outlived (held : ProjectionSubscriptions Delivery) (id bound : Nat) :
    Prop :=
  ∀ subscription, held.get id = some subscription →
    subscription.revision ≤ max bound 1
      ∨ ∃ other otherRevision, other ≠ id
        ∧ held.revisionOf other = some otherRevision
        ∧ subscription.revision ≤ otherRevision

/--
A step leaves some subscription at each revision it takes one from, brings none
to the last revision there is, and brings a change's patch to no subscription
that has reached the change's revision already.
-/
def LeavesHighest (changing : Changing Delivery Snapshot Patch) :
    ChangeStep Delivery Snapshot Patch → Prop
  | .operate (.accept _ _ _ _ _) => True
  | .operate (.changeRevision _) => True
  | .operate (.deliverPatch id toRevision _ _) =>
      ∀ subscription, changing.served.held.get id = some subscription →
        max toRevision (subscription.revision + 1) < lastRevision
  | .operate (.deliverFollowing id fromRevision _ delivered) =>
      ∀ subscription, changing.served.held.get id = some subscription →
        subscription.revision = fromRevision →
          subscription.delivered ≠ some delivered →
            fromRevision + 1 < lastRevision
  | .operate (.resync id _ _) =>
      ∀ subscription, changing.served.held.get id = some subscription →
        subscription.revision + 1 < lastRevision
  | .operate (.recordDelivery id revision _) =>
      ∀ subscription, changing.served.held.get id = some subscription →
        revision < lastRevision
          ∧ Outlived changing.served.held id revision
  | .operate (.remove id) => Outlived changing.served.held id 0
  | .deliverChange change id _ _ =>
      ∀ revision, changing.changes[change]? = some revision →
        ∀ subscription, changing.served.held.get id = some subscription →
          subscription.revision < revision ∧ revision < lastRevision

/-! ## What a step does to the revisions held -/

/-- One subscription is left at a revision an update reached, or at none. -/
structure Revises (held : ProjectionSubscriptions Delivery)
    (updates : List (Update Snapshot Patch))
    (after : ProjectionSubscriptions Delivery) (id : Nat)
    (reached : Option Nat) : Prop where
  there : ∀ other, after.revisionOf other
    = if id = other then reached else held.revisionOf other
  made : updates.map Update.reaches = reached.toList

/--
Everything sent is behind the next change, and what each subscription is held
at was sent.
-/
structure SentBefore (served : Served Delivery Snapshot Patch) : Prop where
  bounded : served.held.currentRevision < lastRevision
  past : ∀ update ∈ served.updates,
    update.reaches ≤ max served.held.currentRevision 1
  carried : ∀ id revision, served.held.revisionOf id = some revision →
    ∃ update ∈ served.updates, update.reaches = revision

theorem sentBefore_new (principal : Principal) :
    SentBefore (.new principal : Served Delivery Snapshot Patch) where
  bounded := by
    apply lt_of_le_of_lt (b := 0) _ (by decide)
    apply ProjectionSubscriptions.currentRevision_le.mpr
    intro id revision there
    simp [Served.new, ProjectionSubscriptions.revisionOf] at there
  past := by simp [Served.new]
  carried := by
    intro id revision there
    simp [Served.new, ProjectionSubscriptions.revisionOf] at there

namespace SentBefore

variable {served : Served Delivery Snapshot Patch}

theorem pastAllSent (before : SentBefore served) :
    ∀ update ∈ served.updates,
      update.reaches < served.held.changeRevision true := by
  intro update made
  have bound := before.past update made
  rw [ProjectionSubscriptions.changeRevision_eq before.bounded, if_pos rfl]
  omega

/-- A revision that is past everything sent leaves another at each. -/
theorem outlived_of_past (before : SentBefore served)
    {updates : List (Update Snapshot Patch)}
    {after : ProjectionSubscriptions Delivery} {id : Nat}
    {reached : Option Nat}
    (revises : Revises served.held updates after id reached)
    (past : ∀ update ∈ served.updates ++ updates,
      update.reaches < after.changeRevision true) :
    reached.getD 0 < lastRevision
      ∧ Outlived served.held id (reached.getD 0) := by
  have next_le : after.changeRevision true
      ≤ max after.currentRevision 1 + 1 := Nat.mod_le _ _
  have next_lt : after.changeRevision true ≤ lastRevision :=
    Nat.le_pred_of_lt (Nat.mod_lt _ (by decide))
  constructor
  · cases reached with
    | none => exact Nat.zero_lt_of_lt before.bounded
    | some revision =>
        have made := revises.made
        obtain ⟨update, there, rfl⟩ : ∃ update ∈ updates,
            update.reaches = revision := by
          apply List.mem_map.mp
          rw [made]
          exact List.mem_singleton_self _
        exact (past update (List.mem_append_right _ there)).trans_le next_lt
  · intro subscription present
    obtain ⟨update, sent, reaches⟩ := before.carried id subscription.revision
      (ProjectionSubscriptions.revisionOf_eq_some.mpr ⟨_, present, rfl⟩)
    have still := past update (List.mem_append_left _ sent)
    rw [reaches] at still
    by_contra alone
    rw [not_or] at alone
    obtain ⟨beyond, none_other⟩ := alone
    have lower : after.currentRevision ≤ subscription.revision - 1 := by
      apply ProjectionSubscriptions.currentRevision_le.mpr
      intro other revision there
      rw [revises.there] at there
      split at there
      · subst there
        rw [Option.getD_some] at beyond
        omega
      · rename_i differs
        by_contra reached_it
        exact none_other ⟨other, revision, Ne.symm differs, there, by omega⟩
    omega

/-- A subscription whose revision others are held at, or past, may move. -/
theorem revise (before : SentBefore served)
    {updates : List (Update Snapshot Patch)}
    {after : ProjectionSubscriptions Delivery} {id : Nat}
    {reached : Option Nat}
    (revises : Revises served.held updates after id reached)
    (room : reached.getD 0 < lastRevision)
    (outlived : Outlived served.held id (reached.getD 0)) :
    SentBefore { held := after, updates := served.updates ++ updates }
      ∧ max served.held.currentRevision 1 ≤ max after.currentRevision 1 := by
  have reached_le : ∀ revision, reached = some revision →
      revision ≤ after.currentRevision := by
    rintro revision rfl
    apply ProjectionSubscriptions.currentRevision_le.mp le_rfl id
    rw [revises.there, if_pos rfl]
  have kept_le : ∀ other revision, id ≠ other →
      served.held.revisionOf other = some revision →
        revision ≤ after.currentRevision := by
    intro other revision differs there
    apply ProjectionSubscriptions.currentRevision_le.mp le_rfl other
    rw [revises.there, if_neg differs]
    exact there
  have bound_le : reached.getD 0 ≤ after.currentRevision := by
    cases reached with
    | none => exact Nat.zero_le _
    | some revision => exact reached_le revision rfl
  have higher : max served.held.currentRevision 1
      ≤ max after.currentRevision 1 := by
    apply max_le _ (le_max_right _ _)
    apply ProjectionSubscriptions.currentRevision_le.mpr
    intro other revision there
    by_cases same : id = other
    · subst same
      obtain ⟨subscription, present, rfl⟩ :=
        ProjectionSubscriptions.revisionOf_eq_some.mp there
      rcases outlived subscription present with
        low | ⟨further, revision, differs, held_at, within⟩
      · omega
      · have still := kept_le further revision (Ne.symm differs) held_at
        omega
    · have still := kept_le other revision same there
      omega
  refine ⟨⟨?_, ?_, ?_⟩, higher⟩
  · show after.currentRevision < lastRevision
    apply Nat.lt_of_le_pred (Nat.zero_lt_of_lt before.bounded)
    apply ProjectionSubscriptions.currentRevision_le.mpr
    intro other revision there
    rw [revises.there] at there
    split at there
    · subst there
      exact Nat.le_pred_of_lt room
    · have earlier := ProjectionSubscriptions.currentRevision_le.mp le_rfl
        other revision there
      exact Nat.le_pred_of_lt (lt_of_le_of_lt earlier before.bounded)
  · intro update made
    show update.reaches ≤ max after.currentRevision 1
    rcases List.mem_append.mp made with earlier | new
    · exact (before.past update earlier).trans higher
    · have reaches : update.reaches ∈ reached.toList := by
        rw [← revises.made]
        exact List.mem_map_of_mem new
      exact (reached_le _ (Option.mem_toList.mp reaches)).trans
        (le_max_left _ _)
  · intro other revision there
    show ∃ update ∈ served.updates ++ updates, update.reaches = revision
    rw [show (⟨after, served.updates ++ updates⟩
      : Served Delivery Snapshot Patch).held.revisionOf other
      = after.revisionOf other from rfl, revises.there] at there
    split at there
    · subst there
      have made : revision ∈ updates.map Update.reaches := by
        rw [revises.made]
        exact List.mem_singleton_self _
      obtain ⟨update, new, reaches⟩ := List.mem_map.mp made
      exact ⟨update, List.mem_append_right _ new, reaches⟩
    · obtain ⟨update, sent, reaches⟩ := before.carried other revision there
      exact ⟨update, List.mem_append_left _ sent, reaches⟩

/-- One revision moves exactly as it may. -/
theorem revise_iff (before : SentBefore served)
    {updates : List (Update Snapshot Patch)}
    {after : ProjectionSubscriptions Delivery} {id : Nat}
    {reached : Option Nat}
    (revises : Revises served.held updates after id reached) :
    ((∀ update ∈ served.updates ++ updates,
        update.reaches < after.changeRevision true)
      ∧ ∀ publishes, served.held.changeRevision publishes
        ≤ after.changeRevision publishes)
      ↔ reached.getD 0 < lastRevision
        ∧ Outlived served.held id (reached.getD 0) := by
  constructor
  · rintro ⟨past, -⟩
    exact before.outlived_of_past revises past
  · rintro ⟨room, outlived⟩
    obtain ⟨later, higher⟩ := before.revise revises room outlived
    refine ⟨later.pastAllSent, fun publishes => ?_⟩
    have bounded : after.currentRevision < lastRevision := later.bounded
    rw [ProjectionSubscriptions.changeRevision_eq before.bounded,
      ProjectionSubscriptions.changeRevision_eq bounded]
    omega

/-- What moves no revision keeps the next change where it is. -/
theorem unrevised (before : SentBefore served)
    {after : ProjectionSubscriptions Delivery}
    (same : ∀ id, after.revisionOf id = served.held.revisionOf id) :
    SentBefore { held := after, updates := served.updates }
      ∧ ∀ publishes, after.changeRevision publishes
        = served.held.changeRevision publishes := by
  have current : after.currentRevision = served.held.currentRevision := by
    apply le_antisymm <;> apply ProjectionSubscriptions.currentRevision_le.mpr
    · intro id revision there
      rw [same] at there
      exact ProjectionSubscriptions.currentRevision_le.mp le_rfl id _ there
    · intro id revision there
      rw [← same] at there
      exact ProjectionSubscriptions.currentRevision_le.mp le_rfl id _ there
  refine ⟨⟨?_, ?_, ?_⟩, ?_⟩
  · show after.currentRevision < lastRevision
    rw [current]
    exact before.bounded
  · show ∀ update ∈ served.updates,
      update.reaches ≤ max after.currentRevision 1
    rw [current]
    exact before.past
  · intro id revision there
    exact before.carried id revision ((same id).symm.trans there)
  · intro publishes
    simp only [ProjectionSubscriptions.changeRevision, current]

end SentBefore

section Steps

variable [DecidableEq Delivery] {toValue : Delivery → Option Json}

open ProjectionSubscriptions

omit [DecidableEq Delivery] in
theorem revisionOf_modify {held : ProjectionSubscriptions Delivery}
    {moving : Nat} {revision : Nat}
    {change : ProjectionSubscription Delivery →
      ProjectionSubscription Delivery}
    {subscription : ProjectionSubscription Delivery}
    (present : held.get moving = some subscription)
    (moves : ∀ earlier, (change earlier).revision = revision) (id : Nat) :
    (held.modify moving change).revisionOf id
      = if moving = id then some revision else held.revisionOf id := by
  rw [revisionOf, get_modify]
  split_ifs with same
  · subst same
    simp [present, moves]
  · rfl

/-- An operation moves one revision, as far as it may, or none. -/
theorem perform_revises (changing : Changing Delivery Snapshot Patch)
    (before : SentBefore changing.served)
    (operation : SubscriptionOperation Delivery Snapshot Patch) :
    (∃ id reached,
        Revises changing.served.held
          (Served.perform toValue changing.served.held operation).1
          (Served.perform toValue changing.served.held operation).2 id reached
        ∧ (LeavesHighest changing (.operate operation)
          ↔ reached.getD 0 < lastRevision
            ∧ Outlived changing.served.held id (reached.getD 0)))
      ∨ (Served.perform toValue changing.served.held operation).1 = []
        ∧ (∀ id,
          (Served.perform toValue changing.served.held operation).2.revisionOf
              id
            = changing.served.held.revisionOf id)
        ∧ LeavesHighest changing (.operate operation) := by
  have room : ∀ id subscription,
      changing.served.held.get id = some subscription →
        nextRevision subscription.revision = subscription.revision + 1 := by
    intro id subscription present
    exact nextRevision_eq
      ((revision_le_currentRevision present).trans_lt before.bounded)
  have forward : ∀ id revision subscription,
      changing.served.held.get id = some subscription →
        subscription.revision ≤ revision →
          Outlived changing.served.held id revision := by
    intro id revision subscription present further other other_present
    cases other_present.symm.trans present
    exact .inl (by omega)
  cases operation with
  | accept projection params clientHeld snapshot delivered =>
      refine .inl ⟨changing.served.held.nextSubscriptionId,
        some (max changing.served.held.currentRevision 1), ⟨?_, ?_⟩, ?_⟩
      · intro other
        simp only [Served.perform, acceptSubscription, revisionOf]
        rw [get_recordDelivery, get_insert]
        by_cases same : changing.served.held.nextSubscriptionId = other <;>
          simp [ProjectionSubscriptions.insert, same]
      · simp only [Served.perform, acceptSubscription]
        split <;> simp [Update.reaches, ProjectionTransportEvent.revision]
      · have some_revisions : 1 < lastRevision := by decide
        have bounded := before.bounded
        have outlives : Outlived changing.served.held
            changing.served.held.nextSubscriptionId
            (max changing.served.held.currentRevision 1) := by
          intro subscription present
          have current := revision_le_currentRevision present
          exact .inl (by omega)
        simp only [LeavesHighest, Option.getD_some, outlives, and_true,
          true_iff]
        omega
  | deliverPatch id toRevision patch delivered =>
      simp only [Served.perform, deliverPatch]
      cases present : changing.served.held.get id with
      | none =>
          exact .inr ⟨rfl, fun _ => rfl, by simp [LeavesHighest, present]⟩
      | some subscription =>
          refine .inl ⟨id,
            some (max toRevision (nextRevision subscription.revision)),
            ⟨revisionOf_modify present fun _ => rfl, rfl⟩, ?_⟩
          have outlives := forward id
            (max toRevision (subscription.revision + 1)) subscription present
            (by omega)
          simp [LeavesHighest, present, room id subscription present, outlives]
  | deliverFollowing id fromRevision patch delivered =>
      simp only [Served.perform, deliverFollowing]
      cases present : changing.served.held.get id with
      | none =>
          exact .inr ⟨rfl, fun _ => rfl, by simp [LeavesHighest, present]⟩
      | some subscription =>
          dsimp only
          split
          · rename_i differs
            exact .inr ⟨rfl, fun _ => rfl, by
              simp [LeavesHighest, present, differs]⟩
          · rename_i follows
            rw [not_not] at follows
            subst follows
            split
            · rename_i already
              exact .inr ⟨rfl, fun _ => rfl, by
                simp [LeavesHighest, present, already]⟩
            · rename_i other
              refine .inl ⟨id, some (nextRevision subscription.revision),
                ⟨revisionOf_modify present fun _ => rfl, rfl⟩, ?_⟩
              have outlives := forward id (subscription.revision + 1)
                subscription present (by omega)
              simp [LeavesHighest, present, other,
                room id subscription present, outlives]
  | resync id snapshot delivered =>
      simp only [Served.perform, resync]
      cases present : changing.served.held.get id with
      | none =>
          exact .inr ⟨rfl, fun _ => rfl, by simp [LeavesHighest, present]⟩
      | some subscription =>
          refine .inl ⟨id, some (nextRevision subscription.revision),
            ⟨?_, rfl⟩, ?_⟩
          · intro other
            simp only [revisionOf, get_recordDelivery, get_modify]
            split_ifs with same
            · subst same
              simp [present]
            · rfl
          · have outlives := forward id (subscription.revision + 1)
              subscription present (by omega)
            simp [LeavesHighest, present, room id subscription present,
              outlives]
  | recordDelivery id revision delivered =>
      simp only [Served.perform]
      cases present : changing.served.held.get id with
      | none =>
          refine .inr ⟨rfl, ?_, by simp [LeavesHighest, present]⟩
          intro other
          simp only [revisionOf, get_recordDelivery]
          split_ifs with same
          · subst same
            simp [present]
          · rfl
      | some subscription =>
          refine .inl ⟨id, some revision,
            ⟨revisionOf_modify present fun _ => rfl, rfl⟩, ?_⟩
          simp [LeavesHighest, present]
  | remove id =>
      refine .inl ⟨id, none, ⟨?_, rfl⟩, ?_⟩
      · intro other
        simp only [Served.perform, revisionOf, get_remove]
        split <;> rfl
      · have some_revisions : 0 < lastRevision := by decide
        simp [LeavesHighest, some_revisions]
  | changeRevision publishes =>
      exact .inr ⟨rfl, fun _ => rfl, trivial⟩

/-- A served operation keeps what is asked of it exactly as it may. -/
theorem operate_iff (changing : Changing Delivery Snapshot Patch)
    (before : SentBefore changing.served)
    (operation : SubscriptionOperation Delivery Snapshot Patch) :
    ((∀ update ∈ (changing.served.next toValue operation).updates,
        update.reaches
          < (changing.served.next toValue operation).held.changeRevision true)
      ∧ ∀ publishes, changing.served.held.changeRevision publishes
        ≤ (changing.served.next toValue operation).held.changeRevision
          publishes)
      ↔ LeavesHighest changing (.operate operation) := by
  rcases @perform_revises _ _ _ _ toValue changing before operation with
    ⟨id, reached, revises, may⟩ | ⟨none_made, same, may⟩
  · rw [may]
    exact before.revise_iff revises
  · obtain ⟨kept, unmoved⟩ := before.unrevised same
    refine iff_of_true ⟨?_, ?_⟩ may
    · simp only [Served.next, none_made, List.append_nil]
      exact kept.pastAllSent
    · intro publishes
      exact (unmoved publishes).ge

theorem SentBefore.operate {changing : Changing Delivery Snapshot Patch}
    (before : SentBefore changing.served)
    {operation : SubscriptionOperation Delivery Snapshot Patch}
    (may : LeavesHighest changing (.operate operation)) :
    SentBefore (changing.served.next toValue operation) := by
  rcases @perform_revises _ _ _ _ toValue changing before operation with
    ⟨id, reached, revises, iff⟩ | ⟨none_made, same, _⟩
  · obtain ⟨room, outlived⟩ := iff.mp may
    exact (before.revise revises room outlived).1
  · simp only [Served.next, none_made, List.append_nil]
    exact (before.unrevised same).1

/-- A change's patch reaches its revision where that is not reached yet. -/
theorem deliverPatch_reaches (changing : Changing Delivery Snapshot Patch)
    (before : SentBefore changing.served) (id revision : Nat) (patch : Patch)
    (delivered : Option Delivery) :
    (∀ update ∈ (Served.perform toValue changing.served.held
        (.deliverPatch id revision patch delivered
          : SubscriptionOperation Delivery Snapshot Patch)).1,
        update.reaches = revision)
      ↔ ∀ subscription, changing.served.held.get id = some subscription →
        subscription.revision < revision := by
  simp only [Served.perform, deliverPatch]
  cases present : changing.served.held.get id with
  | none => simp
  | some subscription =>
      have room := nextRevision_eq
        ((revision_le_currentRevision present).trans_lt before.bounded)
      simp only [Option.toList_some, List.map_cons, List.map_nil,
        List.mem_singleton, forall_eq, Update.reaches,
        ProjectionTransportEvent.revision, room, Option.some.injEq,
        forall_eq']
      omega

theorem SentBefore.next {changing : Changing Delivery Snapshot Patch}
    (before : SentBefore changing.served)
    {step : ChangeStep Delivery Snapshot Patch}
    (may : LeavesHighest changing step) :
    SentBefore (changing.next toValue step).served := by
  cases step with
  | operate operation => exact before.operate may
  | deliverChange change id patch delivered =>
      cases answered : changing.changes[change]? with
      | none =>
          simp only [Changing.next, answered]
          exact before
      | some revision =>
          simp only [Changing.next, answered]
          apply before.operate
          intro subscription present
          have room := may revision answered subscription present
          omega

/-- A step keeps what is asked of it exactly when it leaves the highest. -/
theorem step_iff (changing : Changing Delivery Snapshot Patch)
    (before : SentBefore changing.served)
    (step : ChangeStep Delivery Snapshot Patch) :
    ((changing.next toValue step).PastAllSent
        ∧ changing.StepKept toValue step)
      ↔ LeavesHighest changing step := by
  cases step with
  | operate operation =>
      rw [← @operate_iff _ _ _ _ toValue changing before operation]
      simp [Changing.PastAllSent, Changing.StepKept, Changing.next]
  | deliverChange change id patch delivered =>
      cases answered : changing.changes[change]? with
      | none =>
          simp only [Changing.PastAllSent, Changing.StepKept, Changing.next,
            LeavesHighest, answered]
          simp only [reduceCtorEq, false_implies, implies_true, and_true,
            iff_true, le_refl]
          exact before.pastAllSent
      | some revision =>
          have operated := @operate_iff _ _ _ _ toValue changing before
            (.deliverPatch id revision patch delivered)
          have reaching := @deliverPatch_reaches _ Snapshot _ _ toValue
            changing before id revision patch delivered
          simp only [Changing.PastAllSent, Changing.StepKept, Changing.next,
            answered, Option.some.injEq, forall_eq'] at operated ⊢
          rw [← and_assoc, operated, reaching]
          simp only [LeavesHighest, answered, Option.some.injEq, forall_eq',
            ← forall_and]
          refine forall_congr' fun subscription => ?_
          refine imp_congr_right fun _ => ?_
          omega

end Steps

/-! ## Whole runs -/

/--
In every state a run reaches the next change is past everything sent, no step
lowers it, and every change's patch reaches its revision, exactly when every
step leaves the highest revision with a subscription.
-/
theorem changes_pastAllSent_iff [DecidableEq Delivery]
    (toValue : Delivery → Option Json) (principal : Principal)
    (steps : List (ChangeStep Delivery Snapshot Patch)) :
    Machine.Throughout (Changing.next toValue) Changing.PastAllSent
        (.new principal) steps
      ∧ Machine.EveryStep (Changing.next toValue) (Changing.StepKept toValue)
        (.new principal) steps
      ↔ Machine.EveryStep (Changing.next toValue) LeavesHighest
        (.new principal) steps := by
  apply Machine.throughout_and_everyStep_iff
    fun changing => SentBefore changing.served
  · exact fun _ before => before.pastAllSent
  · exact fun changing step before => step_iff changing before step
  · exact fun changing step before may => before.next may
  · exact sentBefore_new principal

/-- A subscription is taken to revision five and removed. -/
def removedAtFive : List (ChangeStep Unit Unit Unit) :=
  [.operate (.accept "notes" (.object []) none
      { snapshot := (), through := 0 } none),
    .operate (.deliverPatch 1 5 () none),
    .operate (.remove 1)]

/-- The next change is at revision two, which the connection has sent past. -/
theorem removal_lowers_change_revision :
    ¬ Machine.Throughout (Changing.next fun _ => none) Changing.PastAllSent
      (.new { id := "ada", kind := .human }) removedAtFive := by
  intro throughout
  have past := throughout removedAtFive (List.prefix_refl _)
    (.sent (.patch 1 1 5 () none))
  have sent : (5 : Nat) < 2 := past (.tail _ (.head _))
  exact absurd sent (by decide)

end Clerkenwell.Session
