import Clerkenwell.Session.ExactlyOnce
import Clerkenwell.Session.Following

/-!
# After a lag

A connection that fell behind its queue resynchronises every subscription.  A
client then applies a patch only to a state that holds what the subscription
lost, in every run that leaves no subscription that lost something without the
snapshot it needs and sends it no patch before that.
-/

namespace Clerkenwell.Session

open Clerkenwell.Foundation
open Clerkenwell.Doc

variable {Delivery Snapshot Patch Plan : Type}

namespace Connection

section Recovering

variable (connection : Connection Delivery Snapshot Patch)

/-- A modification was among those the connection fell behind. -/
def Lost (id number : Nat) : Prop :=
  .lost id number ∈ connection.trail

/-- A subscription was sent no snapshot that holds a modification it lost. -/
def Behind (id number : Nat) : Prop :=
  connection.Lost id number
    ∧ ∀ window, windowOf connection.trail id = some window →
        window.through < number

/-- A subscription is not at the last revision there is. -/
def Room (id : Nat) : Prop :=
  ∀ subscription, connection.held.get id = some subscription →
    subscription.revision < lastRevision

/-- A snapshot holds what a subscription lost, unless a later one is to. -/
def Catches (id : Nat) (snapshot : NumberedSnapshot Snapshot) : Prop :=
  ∀ number, connection.Lost id number →
    number ≤ snapshot.through ∨ connection.Restored id number

/--
A step sends a subscription no patch before the snapshot a lag is to bring it,
passes over no subscription that lost something and installs no snapshot from
before a lag.
-/
def Recovers : ConnectionStep Delivery Snapshot Patch → Prop
  | .patch index _ =>
      ∀ modification revision id subscription rest,
        connection.deliveries[index]?
          = some ⟨modification, .sending revision ((id, subscription) :: rest)⟩ →
        connection.Room id
          ∧ ∀ resyncing ∈ connection.resyncs, id ∉ resyncing.remaining
  | .install index _ =>
      ∀ installing id, connection.installs[index]? = some installing →
        installing.request = .resync id →
        connection.Room id ∧ connection.Catches id installing.snapshot
  | .readLagged index none =>
      ∀ id rest, connection.resyncs[index]?
          = some { remaining := id :: rest, read := none } →
        (scopeOf connection.held id).isSome →
          ∀ number, ¬ connection.Behind id number
  | .installLagged index _ =>
      ∀ id rest snapshot delivered, connection.resyncs[index]?
          = some { remaining := id :: rest, read := some (snapshot, delivered) } →
        connection.Room id ∧ connection.Catches id snapshot
  | _ => True

/-- What is lost, and the snapshots that hold it. -/
structure Recovered : Prop where
  chained : Chained
    { held := connection.held
      updates := connection.trail.filterMap Trail.update }
  saved : ∀ modification ∈ connection.unpublished ++ connection.queue,
    modification.number ≤ connection.last
  lost_saved : ∀ id number, connection.Lost id number →
    number ≤ connection.last
  lost_known : ∀ id number, connection.Lost id number →
    id < connection.held.nextSubscriptionId
  restored : ∀ id number, connection.Lost id number →
    (scopeOf connection.held id).isSome →
      ∀ basis, basisOf connection.trail id = some basis →
        number ≤ basis ∨ connection.Restored id number
  answered : ∀ before other number update after,
    connection.trail = before ++ .answered other number (some update) :: after →
      ∀ lost, .lost update.subscriptionId lost ∈ before →
        ∀ basis, basisOf before update.subscriptionId = some basis →
          lost ≤ basis

end Recovering

/--
A client applies a patch only to a state that holds every modification lost to
its subscription before.
-/
def NoMissedUpdate (composition : Composition Snapshot Patch Plan)
    (resumed : Projected Snapshot)
    (connection : Connection Delivery (Projected Snapshot) (Projected Patch)) :
    Prop :=
  ∀ before other number id fromRevision toRevision patch token after,
    connection.trail
      = before
        ++ .answered other number
            (some (.sent (.patch id fromRevision toRevision patch token)))
          :: after →
    Applies composition
        (Following.follow composition resumed id before).watching
        (.patch id fromRevision toRevision patch token) →
    ∀ lost, .lost id lost ∈ before →
      (Following.follow composition resumed id before).Holds lost

/-! ## Trails taken further -/

section Trails

variable {trail before after : List (Trail Snapshot Patch)}
variable {entry : Trail Snapshot Patch}

/-- An entry is where it was, or it is the one just made. -/
theorem split_of_append_singleton {made : Trail Snapshot Patch}
    (split : trail ++ [made] = before ++ entry :: after) :
    (∃ rest, trail = before ++ entry :: rest)
      ∨ before = trail ∧ made = entry := by
  rcases List.append_eq_append_iff.mp split with
    ⟨rest, shape, ending⟩ | ⟨rest, shape, ending⟩
  · cases rest with
    | nil =>
        rw [List.nil_append] at ending
        rw [List.append_nil] at shape
        exact .inr ⟨shape, (List.cons.inj ending).1⟩
    | cons first others =>
        have short := congrArg List.length ending
        simp at short
  · cases rest with
    | nil =>
        rw [List.nil_append] at ending
        rw [List.append_nil] at shape
        exact .inr ⟨shape.symm, (List.cons.inj ending).1.symm⟩
    | cons first others =>
        left
        rw [List.cons_append] at ending
        exact ⟨others, by rw [shape, (List.cons.inj ending).1]⟩

/-- An entry that is not among those just made is where it was. -/
theorem split_of_append {made : List (Trail Snapshot Patch)}
    (not_made : entry ∉ made)
    (split : trail ++ made = before ++ entry :: after) :
    ∃ rest, trail = before ++ entry :: rest := by
  rcases List.append_eq_append_iff.mp split with
    ⟨rest, shape, ending⟩ | ⟨rest, shape, ending⟩
  · exact absurd (ending ▸ List.mem_append_right _ List.mem_cons_self) not_made
  · cases rest with
    | nil =>
        rw [List.nil_append] at ending
        exact absurd (ending ▸ List.mem_cons_self) not_made
    | cons first others =>
        rw [List.cons_append] at ending
        exact ⟨others, by rw [shape, (List.cons.inj ending).1]⟩

@[simp]
theorem update_withheld (number : Nat) (entry : Trail Snapshot Patch) :
    (withheld number entry).update = entry.update := by
  cases entry with
  | shown through update => rfl
  | unsent update => rfl
  | lost id lost => rfl
  | answered id answered update =>
      cases update with
      | none => rfl
      | some update =>
          simp only [withheld]
          split <;> rfl

theorem withheld_eq_lost {number id lost : Nat} :
    withheld number entry = .lost id lost ↔ entry = .lost id lost := by
  cases entry with
  | shown through update => rfl
  | unsent update => rfl
  | lost other number => rfl
  | answered other answered update =>
      cases update with
      | none => simp [withheld]
      | some update =>
          simp only [withheld]
          split <;> simp

theorem eq_answered_of_withheld {number other answered : Nat}
    {update : Update Snapshot Patch}
    (same : withheld number entry = .answered other answered (some update)) :
    entry = .answered other answered (some update) := by
  cases entry with
  | shown through update => cases same
  | unsent update => cases same
  | lost other number => cases same
  | answered other answered update =>
      cases update with
      | none => cases same
      | some update =>
          simp only [withheld] at same
          split at same
          · cases same
          · exact same

/-- What is withheld makes no snapshot the last one. -/
theorem basisOf_of_withheld {number id basis : Nat}
    (there : basisOf (trail.map (withheld number)) id = some basis) :
    basisOf trail id = some basis := by
  induction trail using List.reverseRecOn generalizing basis with
  | nil => cases there
  | append_singleton earlier entry inductionHypothesis =>
      rw [List.map_append, List.map_singleton, basisOf_append] at there
      rw [basisOf_append]
      cases entry with
      | lost other lost => exact inductionHypothesis there
      | shown through update =>
          simp only [withheld, basisStep] at there ⊢
          split
          · rename_i subject
            rwa [if_pos subject] at there
          · rename_i other
            rw [if_neg other] at there
            exact inductionHypothesis there
      | unsent update =>
          simp only [withheld, basisStep] at there ⊢
          split
          · rename_i subject
            rwa [if_pos subject] at there
          · rename_i other
            rw [if_neg other] at there
            exact inductionHypothesis there
      | answered other answered update =>
          cases update with
          | none => exact inductionHypothesis there
          | some update =>
              simp only [withheld] at there
              split at there
              · simp only [basisStep] at there
                split at there
                · cases there
                · exact inductionHypothesis there
              · exact inductionHypothesis there

/-- The last snapshot is the one its window is of. -/
theorem window_of_basisOf {id basis : Nat}
    (there : basisOf trail id = some basis) :
    ∃ window, windowOf trail id = some window ∧ window.through = basis := by
  induction trail using List.reverseRecOn generalizing basis with
  | nil => cases there
  | append_singleton earlier entry inductionHypothesis =>
      rw [basisOf_append] at there
      rw [windowOf_append]
      cases entry with
      | lost other lost => exact inductionHypothesis there
      | shown through update =>
          simp only [basisStep] at there
          simp only [windowStep]
          split
          · rename_i subject
            rw [if_pos subject] at there
            exact ⟨_, rfl, Option.some.inj there⟩
          · rename_i other
            rw [if_neg other] at there
            exact inductionHypothesis there
      | unsent update =>
          simp only [basisStep] at there
          split at there
          · cases there
          · exact inductionHypothesis there
      | answered other answered update =>
          rcases inductionHypothesis there with ⟨window, present, same⟩
          simp only [windowStep, present, Option.map_some]
          split
          · exact ⟨_, rfl, same⟩
          · exact ⟨_, rfl, same⟩

theorem showing_eq (through : Nat) (encodes : Bool)
    (update : Update Snapshot Patch) :
    showing through encodes update = .shown through update
      ∨ showing through encodes update = .unsent update := by
  cases update with
  | upToDate id revision => exact .inl rfl
  | recorded id revision => exact .inl rfl
  | sent event =>
      cases encodes with
      | true => exact .inl rfl
      | false => exact .inr rfl

end Trails

/-! ## Steps -/

section Keeping

variable {host : ServedHost}
variable {connection after : Connection Delivery Snapshot Patch}

/-- A step that sends nothing and lets no lag's snapshot go. -/
theorem Recovered.carried (recovered : connection.Recovered)
    (last : connection.last ≤ after.last)
    (held : after.held = connection.held)
    (trail : after.trail = connection.trail)
    (saved : ∀ modification ∈ after.unpublished ++ after.queue,
      modification.number ≤ after.last)
    (restored : ∀ id number, connection.Lost id number →
      (scopeOf connection.held id).isSome →
        connection.Restored id number →
          after.Restored id number
            ∨ ∀ basis, basisOf connection.trail id = some basis →
                number ≤ basis) :
    after.Recovered where
  chained := by
    rw [held, trail]
    exact recovered.chained
  saved := saved
  lost_saved := by
    intro id number lost
    rw [Lost, trail] at lost
    exact (recovered.lost_saved id number lost).trans last
  lost_known := by
    intro id number lost
    rw [Lost, trail] at lost
    rw [held]
    exact recovered.lost_known id number lost
  restored := by
    intro id number lost present basis there
    rw [Lost, trail] at lost
    rw [held] at present
    rw [trail] at there
    rcases recovered.restored id number lost present basis there with
      within | restoring
    · exact .inl within
    · rcases restored id number lost present restoring with kept | within
      · exact .inr kept
      · exact .inl (within basis there)
  answered := by
    rw [trail]
    exact recovered.answered

/-- One more entry of the trail. -/
theorem Recovered.appended (recovered : connection.Recovered)
    {entry : Trail Snapshot Patch}
    {deliveries : List (Delivering Delivery)}
    {installs : List (Installing Delivery Snapshot)}
    {resyncs : List (ResyncingAll Delivery Snapshot)}
    {held : ProjectionSubscriptions Delivery}
    (chained : Chained
      { held := held
        updates := (connection.trail ++ [entry]).filterMap Trail.update })
    (known : connection.held.nextSubscriptionId ≤ held.nextSubscriptionId)
    (not_lost : ∀ id number, entry ≠ .lost id number)
    (restored : ∀ id number, connection.Lost id number →
      (scopeOf held id).isSome →
        ∀ basis, basisOf (connection.trail ++ [entry]) id = some basis →
          number ≤ basis
            ∨ ∃ resyncing ∈ resyncs, resyncing.Covers id number)
    (answered : ∀ other number update,
      entry = .answered other number (some update) →
        ∀ lost, connection.Lost update.subscriptionId lost →
          ∀ basis, basisOf connection.trail update.subscriptionId
              = some basis →
            lost ≤ basis) :
    Recovered
      { connection with
        deliveries := deliveries
        installs := installs
        resyncs := resyncs
        held := held
        trail := connection.trail ++ [entry] } := by
  have earlier : ∀ {id number},
      .lost id number ∈ connection.trail ++ [entry] →
        connection.Lost id number := by
    intro id number lost
    rcases List.mem_append.mp lost with there | now
    · exact there
    · exact absurd (List.mem_singleton.mp now).symm (not_lost id number)
  constructor
  · exact chained
  · exact recovered.saved
  · exact fun id number lost =>
      recovered.lost_saved id number (earlier lost)
  · exact fun id number lost =>
      (recovered.lost_known id number (earlier lost)).trans_le known
  · exact fun id number lost => restored id number (earlier lost)
  · intro before other number update rest split lost member basis there
    rcases split_of_append_singleton split with ⟨others, shape⟩ | ⟨rfl, made⟩
    · exact recovered.answered before other number update others shape lost
        member basis there
    · exact answered other number update made lost member basis there

/-- A subscription that is there was accepted before the next one. -/
theorem Recovered.id_lt (recovered : connection.Recovered) {id : Nat}
    {subscription : ProjectionSubscription Delivery}
    (there : connection.held.get id = some subscription) :
    id < connection.held.nextSubscriptionId := by
  by_contra past
  have none_made := recovered.chained.fresh id (Nat.le_of_not_lt past)
  have reached := recovered.chained.reached id subscription there
  rw [none_made] at reached
  cases reached

/-- A trail that nothing is answered on anew keeps what was answered. -/
theorem Recovered.answered_kept (recovered : connection.Recovered)
    {made : List (Trail Snapshot Patch)}
    (none_answered : ∀ other number update,
      Trail.answered other number (some update) ∉ made) :
    ∀ before other number update rest,
      connection.trail ++ made
          = before ++ .answered other number (some update) :: rest →
        ∀ lost, .lost update.subscriptionId lost ∈ before →
          ∀ basis, basisOf before update.subscriptionId = some basis →
            lost ≤ basis := by
  intro before other number update rest split
  rcases split_of_append (none_answered other number update) split with
    ⟨others, shape⟩
  exact recovered.answered before other number update others shape

variable [DecidableEq Delivery] {toValue : Delivery → Option Json}

theorem Recovered.save (recovered : connection.Recovered) (change : Change) :
    (next host toValue connection (.save change)).Recovered := by
  refine recovered.carried (Nat.le_succ _) rfl rfl ?_
    (fun _ _ _ _ restoring => .inl restoring)
  intro modification member
  show modification.number ≤ connection.last + 1
  simp only [next, List.mem_append, List.mem_singleton] at member
  rcases member with (early | rfl) | queued
  · exact (recovered.saved modification
      (List.mem_append_left _ early)).trans (Nat.le_succ _)
  · exact le_rfl
  · exact (recovered.saved modification
      (List.mem_append_right _ queued)).trans (Nat.le_succ _)

omit [DecidableEq Delivery] in
/-- A step that only takes modifications out of the queues. -/
theorem Recovered.moved (recovered : connection.Recovered)
    {unpublished queue : List Modification}
    {deliveries : List (Delivering Delivery)}
    {installs : List (Installing Delivery Snapshot)}
    (within : ∀ modification ∈ unpublished ++ queue,
      modification ∈ connection.unpublished ++ connection.queue) :
    Recovered
      { connection with
        unpublished := unpublished
        queue := queue
        deliveries := deliveries
        installs := installs } :=
  recovered.carried le_rfl rfl rfl
    (fun modification member =>
      recovered.saved modification (within modification member))
    (fun _ _ _ _ restoring => .inl restoring)

theorem Recovered.publish (recovered : connection.Recovered) (index : Nat) :
    (next host toValue connection (.publish index)).Recovered := by
  unfold next
  dsimp only
  split
  · exact recovered
  · rename_i modification found
    apply recovered.moved
    intro other member
    simp only [List.mem_append, List.mem_singleton] at member ⊢
    rcases member with early | queued | rfl
    · exact .inl (List.mem_of_mem_eraseIdx early)
    · exact .inr queued
    · exact .inl (List.mem_of_getElem? found)

theorem Recovered.publishOwn (recovered : connection.Recovered)
    (index : Nat) :
    (next host toValue connection (.publishOwn index)).Recovered := by
  unfold next
  dsimp only
  split
  · exact recovered
  · apply recovered.moved
    intro other member
    rcases List.mem_append.mp member with early | queued
    · exact List.mem_append_left _ (List.mem_of_mem_eraseIdx early)
    · exact List.mem_append_right _ queued

theorem Recovered.refuse (recovered : connection.Recovered) (index : Nat) :
    (next host toValue connection (.refuse index)).Recovered := by
  unfold next
  dsimp only
  split
  · apply recovered.moved
    intro other member
    rcases List.mem_append.mp member with early | queued
    · exact List.mem_append_left _ (List.mem_of_mem_eraseIdx early)
    · exact List.mem_append_right _ queued
  · exact recovered

theorem Recovered.take (recovered : connection.Recovered) :
    (next host toValue connection .take).Recovered := by
  unfold next
  dsimp only
  split
  · exact recovered
  · rename_i modification rest shape
    apply recovered.moved
    intro other member
    rw [shape]
    rcases List.mem_append.mp member with early | queued
    · exact List.mem_append_left _ early
    · exact List.mem_append_right _ (List.mem_cons_of_mem _ queued)

theorem Recovered.number (recovered : connection.Recovered) (index : Nat) :
    (next host toValue connection (.number index)).Recovered := by
  unfold next
  dsimp only
  split
  · exact recovered.moved fun _ member => member
  · exact recovered

theorem Recovered.collect (recovered : connection.Recovered) (index : Nat) :
    (next host toValue connection (.collect index)).Recovered := by
  unfold next
  dsimp only
  split
  · exact recovered.moved fun _ member => member
  · exact recovered

theorem Recovered.read (recovered : connection.Recovered)
    (request : SnapshotRequest Delivery) (snapshot : Snapshot)
    (delivered : Option Delivery) :
    (next host toValue connection
      (.read request snapshot delivered)).Recovered :=
  recovered.moved fun _ member => member

omit [DecidableEq Delivery] in
theorem known_of_performed {held after : ProjectionSubscriptions Delivery}
    {updates : List (Update Snapshot Patch)}
    (performed : Performed held updates after) :
    held.nextSubscriptionId ≤ after.nextSubscriptionId := by
  cases performed with
  | nothing kept next => exact next.ge
  | accepted new there next => exact next ▸ Nat.le_succ _
  | moved held_at further there next => exact next.ge

/-- An operation that makes no update. -/
theorem Recovered.unsent (recovered : connection.Recovered)
    {operation : SubscriptionOperation Delivery Snapshot Patch}
    (advances : Advances
      { held := connection.held
        updates := connection.trail.filterMap Trail.update } operation)
    (nothing : (Served.perform toValue connection.held operation).1 = [])
    (within : ∀ id,
      (scopeOf (Served.perform toValue connection.held operation).2 id).isSome →
        (scopeOf connection.held id).isSome)
    {deliveries : List (Delivering Delivery)}
    {installs : List (Installing Delivery Snapshot)}
    {resyncs : List (ResyncingAll Delivery Snapshot)}
    (restored : ∀ id number, connection.Lost id number →
      (scopeOf connection.held id).isSome →
        connection.Restored id number →
          ∃ resyncing ∈ resyncs, resyncing.Covers id number) :
    Recovered
      { connection with
        deliveries := deliveries
        installs := installs
        resyncs := resyncs
        held := (Served.perform toValue connection.held operation).2 } := by
  have chained := @Chained.next _ _ _ _ toValue _ _ recovered.chained advances
  have known := known_of_performed
    (@performed _ _ _ _ toValue _ operation advances)
  unfold Served.next at chained
  simp only [nothing, List.append_nil] at chained
  constructor
  · exact chained
  · exact recovered.saved
  · exact recovered.lost_saved
  · exact fun id number lost =>
      (recovered.lost_known id number lost).trans_le known
  · intro id number lost present basis there
    rcases recovered.restored id number lost (within id present) basis there
      with held_already | restoring
    · exact .inl held_already
    · exact .inr (restored id number lost (within id present) restoring)
  · exact recovered.answered

/-- The chain with one more update. -/
theorem Recovered.chained_append (recovered : connection.Recovered)
    {operation : SubscriptionOperation Delivery Snapshot Patch}
    (advances : Advances
      { held := connection.held
        updates := connection.trail.filterMap Trail.update } operation)
    {update : Update Snapshot Patch}
    (made : (Served.perform toValue connection.held operation).1 = [update])
    {entry : Trail Snapshot Patch} (same : entry.update = some update) :
    Chained
      { held := (Served.perform toValue connection.held operation).2
        updates := (connection.trail ++ [entry]).filterMap Trail.update } := by
  have chained := @Chained.next _ _ _ _ toValue _ _ recovered.chained advances
  have updates : (connection.trail ++ [entry]).filterMap Trail.update
      = connection.trail.filterMap Trail.update ++ [update] := by
    simp [List.filterMap_append, same]
  unfold Served.next at chained
  simp only [made] at chained
  rw [updates]
  exact chained

theorem Recovered.patch (recovered : connection.Recovered) (index : Nat)
    (answered : Option (Patch × Option Delivery × Bool))
    (recovers : connection.Recovers
      (.patch index answered)) :
    (next host toValue connection (.patch index answered)).Recovered := by
  unfold next
  dsimp only
  split
  · rename_i modification revision id subscription rest found
    rcases recovers modification revision id subscription rest found with
      ⟨room, none_pending⟩
    match answered with
    | none =>
        refine recovered.appended ?_ le_rfl (fun _ _ same => nomatch same) ?_ ?_
        · rw [List.filterMap_append, List.filterMap_cons_none rfl,
            List.filterMap_nil, List.append_nil]
          exact recovered.chained
        · intro other number lost present basis there
          rw [basisOf_append] at there
          exact recovered.restored other number lost present basis there
        · intro other number update same
          cases same
    | some (patch, delivered, encodes) =>
        let operation : SubscriptionOperation Delivery Snapshot Patch :=
          .deliverPatch id revision patch delivered
        have scopes : ∀ other, scopeOf
            (Served.perform toValue connection.held operation).2 other
              = scopeOf connection.held other :=
          fun other => scopeOf_perform operation other
        have advances : Advances
            { held := connection.held
              updates := connection.trail.filterMap Trail.update }
            operation := room
        unfold operate
        dsimp only
        rcases @updates_deliverPatch _ Snapshot _ _ toValue connection.held id
            revision patch delivered with
          ⟨absent, none_sent⟩ | ⟨update, present, same, sent⟩
        · rw [none_sent, List.map_nil, List.append_nil]
          exact recovered.unsent advances none_sent
            (fun other present => by rwa [scopes] at present)
            (fun _ _ _ _ restoring => restoring)
        · have known := known_of_performed
            (@performed _ _ _ _ toValue _ operation advances)
          have caught_up : ∀ lost, connection.Lost id lost →
              ∀ basis, basisOf connection.trail id = some basis →
                lost ≤ basis := by
            intro lost member basis there
            rcases recovered.restored id lost member present basis there with
              within | ⟨resyncing, listed, pending, -⟩
            · exact within
            · exact absurd pending (none_pending resyncing listed)
          rw [sent, List.map_singleton]
          cases encodes with
          | true =>
              refine recovered.appended
                (recovered.chained_append advances sent rfl) known
                (fun _ _ equal => nomatch equal) ?_ ?_
              · intro other number lost there basis at_basis
                rw [scopes] at there
                rw [basisOf_append] at at_basis
                exact recovered.restored other number lost there basis at_basis
              · intro other number made equal
                cases equal
                rw [same]
                exact caught_up
          | false =>
              refine recovered.appended
                (recovered.chained_append advances sent rfl) known
                (fun _ _ equal => nomatch equal) ?_
                (fun _ _ _ equal => nomatch equal)
              intro other number lost there basis at_basis
              rw [scopes] at there
              rw [basisOf_append] at at_basis
              change (if update.subscriptionId = other then none
                else basisOf connection.trail other) = some basis at at_basis
              split at at_basis
              · cases at_basis
              · exact recovered.restored other number lost there basis at_basis
  · exact recovered

omit [DecidableEq Delivery] in
/-- What is withheld was made, and makes no snapshot the last one. -/
theorem Recovered.withhold (recovered : connection.Recovered)
    (number : Nat) :
    Recovered
      { connection with
        trail := connection.trail.map (withheld number) } := by
  have updates : (connection.trail.map (withheld number)).filterMap
      Trail.update = connection.trail.filterMap Trail.update := by
    rw [List.filterMap_map]
    congr 1
    funext entry
    exact update_withheld number entry
  have earlier : ∀ {trail : List (Trail Snapshot Patch)} {id lost},
      .lost id lost ∈ trail.map (withheld number) → .lost id lost ∈ trail := by
    intro trail id lost member
    rcases List.mem_map.mp member with ⟨entry, listed, same⟩
    rwa [withheld_eq_lost.mp same] at listed
  constructor
  · show Chained { held := connection.held, updates := _ }
    rw [updates]
    exact recovered.chained
  · exact recovered.saved
  · exact fun id lost member => recovered.lost_saved id lost (earlier member)
  · exact fun id lost member => recovered.lost_known id lost (earlier member)
  · intro id lost member present basis there
    exact recovered.restored id lost (earlier member) present basis
      (basisOf_of_withheld there)
  · intro before other answered update rest split lost member basis there
    rcases List.map_eq_append_iff.mp split with
      ⟨early, late, shape, rfl, late_shape⟩
    rcases List.map_eq_cons_iff.mp late_shape with
      ⟨entry, others, rfl, made, -⟩
    rw [eq_answered_of_withheld made] at shape
    exact recovered.answered early other answered update others shape lost
      (earlier member) basis (basisOf_of_withheld there)

theorem Recovered.refuseReply (recovered : connection.Recovered)
    (index : Nat) :
    (next host toValue connection (.refuseReply index)).Recovered := by
  unfold next
  dsimp only
  split
  · exact recovered.withhold _
  · exact recovered

theorem Recovered.unsubscribe (recovered : connection.Recovered)
    (id : Nat) :
    (next host toValue connection (.unsubscribe id)).Recovered := by
  let operation : SubscriptionOperation Delivery Snapshot Patch := .remove id
  have trail_same : (next host toValue connection (.unsubscribe id)).trail
      = connection.trail := List.append_nil _
  have kept := @Recovered.unsent _ _ _ _ _ toValue recovered operation trivial
    rfl (fun other present => by
      rw [scopeOf_perform] at present
      change (if id = other then none
        else scopeOf connection.held other).isSome at present
      split at present
      · cases present
      · exact present) connection.deliveries connection.installs
    connection.resyncs (fun _ _ _ _ restoring => restoring)
  unfold next operate
  dsimp only
  rw [show connection.trail ++ List.map Trail.unsent
    (Served.perform toValue connection.held operation).1 = connection.trail
    from List.append_nil _]
  exact kept

/-! ## Snapshots -/

/-- A lag leaves every subscription that lost something to be resynchronised. -/
theorem Recovered.lag (recovered : connection.Recovered) :
    (next host toValue connection .lag).Recovered := by
  let entries : List (Trail Snapshot Patch) :=
    connection.held.subscriptions.toList.flatMap
      (lostTo host connection.queue)
  have made : ∀ entry ∈ entries, ∃ id number, entry = .lost id number
      ∧ (∃ subscription, connection.held.get id = some subscription)
      ∧ number ≤ connection.last := by
    intro entry member
    rcases List.mem_flatMap.mp member with ⟨⟨id, subscription⟩, listed, lost⟩
    rcases List.mem_map.mp lost with ⟨modification, queued, rfl⟩
    refine ⟨id, modification.number, rfl, ⟨subscription, ?_⟩, ?_⟩
    · exact Std.ExtTreeMap.mem_toList_iff_getElem?_eq_some.mp listed
    · exact recovered.saved modification
        (List.mem_append_right _ (List.mem_of_mem_filter queued))
  have idle : entries.filterMap Trail.update = [] := by
    rw [List.filterMap_eq_nil_iff]
    intro entry member
    rcases made entry member with ⟨id, number, rfl, -⟩
    rfl
  have basis_same : ∀ id, basisOf (connection.trail ++ entries) id
      = basisOf connection.trail id := by
    intro id
    rw [basisOf, basisOf, List.foldl_append]
    apply List.foldlRecOn (motive := fun basis =>
      basis = connection.trail.foldl (basisStep id) none) entries
    · rfl
    · intro basis same entry member
      rcases made entry member with ⟨other, number, rfl, -⟩
      exact same
  constructor
  · show Chained { held := connection.held, updates := List.filterMap _ _ }
    rw [show (next host toValue connection .lag).trail
      = connection.trail ++ entries from rfl, List.filterMap_append, idle,
      List.append_nil]
    exact recovered.chained
  · intro modification member
    simp only [next, List.append_nil] at member
    exact recovered.saved modification (List.mem_append_left _ member)
  · intro id number lost
    rcases List.mem_append.mp lost with earlier | now
    · exact recovered.lost_saved id number earlier
    · rcases made _ now with ⟨other, held_number, same, -, within⟩
      cases same
      exact within
  · intro id number lost
    rcases List.mem_append.mp lost with earlier | now
    · exact recovered.lost_known id number earlier
    · rcases made _ now with ⟨other, held_number, same, ⟨subscription, there⟩, -⟩
      cases same
      exact recovered.id_lt there
  · intro id number lost present basis at_basis
    rw [show (next host toValue connection .lag).trail
      = connection.trail ++ entries from rfl, basis_same] at at_basis
    right
    refine ⟨_, List.mem_append_right _ (List.mem_singleton_self _), ?_, ?_⟩
    · rcases Option.isSome_iff_exists.mp present with ⟨scope, there⟩
      rcases Option.map_eq_some_iff.mp there with ⟨subscription, got, -⟩
      apply List.mem_map.mpr
      exact ⟨(id, subscription),
        Std.ExtTreeMap.mem_toList_iff_getElem?_eq_some.mpr got, rfl⟩
    · intro snapshot delivered read
      cases read
  · apply recovered.answered_kept
    intro other number update member
    rcases made _ member with ⟨id, lost, same, -⟩
    cases same

theorem Recovered.readLagged (recovered : connection.Recovered) (index : Nat)
    (answered : Option (Snapshot × Option Delivery))
    (recovers : connection.Recovers (.readLagged index answered)) :
    (next host toValue connection
      (.readLagged index answered)).Recovered := by
  unfold next
  dsimp only
  split
  · rename_i next_id rest found
    refine recovered.carried le_rfl rfl rfl recovered.saved ?_
    rintro id number lost present ⟨resyncing, there, listed, covers⟩
    rcases mem_set_or_eq found there _ with kept | rfl
    · exact .inl ⟨resyncing, kept, listed, covers⟩
    · rcases List.mem_cons.mp listed with rfl | later
      · right
        intro basis at_basis
        rcases window_of_basisOf at_basis with ⟨window, shown, rfl⟩
        by_contra past
        refine recovers _ _ found present number ⟨lost, ?_⟩
        intro other other_shown
        cases shown.symm.trans other_shown
        omega
      · left
        refine ⟨_, mem_set_self found _, later, ?_⟩
        intro snapshot delivered read
        cases read
  · rename_i next_id rest snapshot delivered found
    refine recovered.carried le_rfl rfl rfl recovered.saved ?_
    rintro id number lost present ⟨resyncing, there, listed, covers⟩
    left
    rcases mem_set_or_eq found there _ with kept | rfl
    · exact ⟨resyncing, kept, listed, covers⟩
    · refine ⟨_, mem_set_self found _, listed, ?_⟩
      intro read_snapshot read_delivered read _
      cases read
      exact recovered.lost_saved id number lost
  · exact recovered

/-- A snapshot that holds what its subscription lost. -/
theorem Recovered.resynced (recovered : connection.Recovered) (id : Nat)
    (snapshot : NumberedSnapshot Snapshot) (delivered : Option Delivery)
    (encodes : Bool) (room : connection.Room id)
    (catches : connection.Catches id snapshot)
    {installs : List (Installing Delivery Snapshot)}
    {resyncs : List (ResyncingAll Delivery Snapshot)}
    (restored : ∀ other number, (other = id → snapshot.through < number) →
      connection.Restored other number →
      ∃ resyncing ∈ resyncs, resyncing.Covers other number) :
    (operate toValue
      { connection with installs := installs, resyncs := resyncs }
      (.resync id snapshot delivered)
      (showing snapshot.through encodes)).Recovered := by
  let operation : SubscriptionOperation Delivery Snapshot Patch :=
    .resync id snapshot delivered
  have advances : Advances
      { held := connection.held
        updates := connection.trail.filterMap Trail.update } operation := room
  have present_iff : ∀ other, (scopeOf
      (Served.perform toValue connection.held operation).2 other).isSome →
        (scopeOf connection.held other).isSome := by
    intro other present
    rw [scopeOf_perform] at present
    change (if id = other then (scopeOf connection.held other).map _
      else scopeOf connection.held other).isSome at present
    split at present
    · simpa using present
    · exact present
  unfold operate
  dsimp only
  rcases @updates_resync _ _ Patch _ toValue connection.held id snapshot
      delivered with
    ⟨absent, none_sent⟩ | ⟨update, present, same, sent⟩
  · rw [none_sent, List.map_nil, List.append_nil]
    apply recovered.unsent advances none_sent present_iff
    intro other number lost there restoring
    apply restored other number _ restoring
    rintro rfl
    rw [absent] at there
    cases there
  · have known := known_of_performed
      (@performed _ _ _ _ toValue _ operation advances)
    -- What is lost elsewhere, or past the snapshot, is restored as before.
    have elsewhere : ∀ other number, connection.Lost other number →
        (scopeOf (Served.perform toValue connection.held operation).2
          other).isSome →
        id ≠ other → ∀ basis, basisOf connection.trail other = some basis →
          number ≤ basis
            ∨ ∃ resyncing ∈ resyncs, resyncing.Covers other number := by
      intro other number lost there different basis at_basis
      rcases recovered.restored other number lost (present_iff other there)
          basis at_basis with within | restoring
      · exact .inl within
      · exact .inr (restored other number
          (fun equal => absurd equal.symm different) restoring)
    rw [sent, List.map_singleton]
    rcases showing_eq snapshot.through encodes update with shown | unsent
    · rw [shown]
      refine recovered.appended
        (recovered.chained_append advances sent rfl) known
        (fun _ _ equal => nomatch equal) ?_
        (fun _ _ _ equal => nomatch equal)
      intro other number lost there basis at_basis
      rw [basisOf_append] at at_basis
      change (if update.subscriptionId = other then some snapshot.through
        else basisOf connection.trail other) = some basis at at_basis
      rw [same] at at_basis
      split at at_basis
      · rename_i equal
        subst equal
        cases at_basis
        rcases catches number lost with within | restoring
        · exact .inl within
        · by_cases within : number ≤ snapshot.through
          · exact .inl within
          · exact .inr (restored _ number
              (fun _ => Nat.lt_of_not_le within) restoring)
      · rename_i different
        exact elsewhere other number lost there different basis at_basis
    · rw [unsent]
      refine recovered.appended
        (recovered.chained_append advances sent rfl) known
        (fun _ _ equal => nomatch equal) ?_
        (fun _ _ _ equal => nomatch equal)
      intro other number lost there basis at_basis
      rw [basisOf_append] at at_basis
      change (if update.subscriptionId = other then none
        else basisOf connection.trail other) = some basis at at_basis
      rw [same] at at_basis
      split at at_basis
      · cases at_basis
      · rename_i different
        exact elsewhere other number lost there different basis at_basis

theorem Recovered.install (recovered : connection.Recovered) (index : Nat)
    (encodes : Bool)
    (recovers : connection.Recovers (.install index encodes)) :
    (next host toValue connection (.install index encodes)).Recovered := by
  unfold next
  dsimp only
  split
  · exact recovered
  · rename_i installing found
    have permits := recovers installing
    rcases installing with ⟨request, snapshot, delivered⟩
    cases request with
    | resync id =>
        rcases permits id found rfl with ⟨room, catches⟩
        exact recovered.resynced id snapshot delivered encodes room catches
          fun _ _ _ restoring => restoring
    | subscribe projection params clientHeld =>
        let operation : SubscriptionOperation Delivery Snapshot Patch :=
          .accept projection params clientHeld snapshot delivered
        have advances : Advances
            { held := connection.held
              updates := connection.trail.filterMap Trail.update }
            operation := trivial
        rcases @updates_accept _ _ Patch _ toValue connection.held projection
            params clientHeld snapshot delivered with ⟨update, subject, sent⟩
        have known := known_of_performed
          (@performed _ _ _ _ toValue _ operation advances)
        have kept : ∀ entry : Trail Snapshot Patch,
            (∀ id, connection.held.nextSubscriptionId ≠ id →
              ∀ basis, basisStep id basis entry = basis) →
            ∀ id number, connection.Lost id number →
              (scopeOf (Served.perform toValue connection.held operation).2
                id).isSome →
                ∀ basis, basisOf (connection.trail ++ [entry]) id
                    = some basis →
                  number ≤ basis ∨ connection.Restored id number := by
          intro entry idle id number lost there basis at_basis
          have different : connection.held.nextSubscriptionId ≠ id := by
            have earlier := recovered.lost_known id number lost
            omega
          rw [basisOf_append, idle id different] at at_basis
          rw [scopeOf_perform] at there
          change (if connection.held.nextSubscriptionId = id then _
            else scopeOf connection.held id).isSome at there
          rw [if_neg different] at there
          exact recovered.restored id number lost there basis at_basis
        unfold operate
        dsimp only [installOperation]
        rw [sent, List.map_singleton]
        rcases showing_eq snapshot.through encodes update with shown | unsent
        · rw [shown]
          refine recovered.appended
            (recovered.chained_append advances sent rfl) known
            (fun _ _ equal => nomatch equal) (kept _ ?_)
            (fun _ _ _ equal => nomatch equal)
          intro id different basis
          rw [← subject] at different
          exact if_neg different
        · rw [unsent]
          refine recovered.appended
            (recovered.chained_append advances sent rfl) known
            (fun _ _ equal => nomatch equal) (kept _ ?_)
            (fun _ _ _ equal => nomatch equal)
          intro id different basis
          rw [← subject] at different
          exact if_neg different

theorem Recovered.installLagged (recovered : connection.Recovered)
    (index : Nat) (encodes : Bool)
    (recovers : connection.Recovers (.installLagged index encodes)) :
    (next host toValue connection
      (.installLagged index encodes)).Recovered := by
  unfold next
  dsimp only
  split
  · rename_i id rest snapshot delivered found
    rcases recovers id rest snapshot delivered found with ⟨room, catches⟩
    apply recovered.resynced id snapshot delivered encodes room catches
    rintro other number past ⟨resyncing, there, listed, covers⟩
    rcases mem_set_or_eq found there _ with kept | rfl
    · exact ⟨resyncing, kept, listed, covers⟩
    · refine ⟨_, mem_set_self found _, ?_, ?_⟩
      · rcases List.mem_cons.mp listed with rfl | later
        · have held := covers snapshot delivered rfl rfl
          have lacked := past rfl
          omega
        · exact later
      · intro read_snapshot read_delivered read
        cases read
  · exact recovered

/-! ## Runs -/

omit [DecidableEq Delivery] in
theorem Recovered.new (principal : Principal) :
    (Connection.new principal :
      Connection Delivery Snapshot Patch).Recovered where
  chained := chained_new principal
  saved := by simp [Connection.new]
  lost_saved := by simp [Lost, Connection.new]
  lost_known := by simp [Lost, Connection.new]
  restored := by simp [Lost, Connection.new]
  answered := by simp [Connection.new]

/-- A recovering step keeps every lost modification where its client needs it. -/
theorem Recovered.next {step : ConnectionStep Delivery Snapshot Patch}
    (recovered : connection.Recovered) (recovers : connection.Recovers step) :
    (next host toValue connection step).Recovered := by
  cases step with
  | save change => exact recovered.save change
  | publish index => exact recovered.publish index
  | publishOwn index => exact recovered.publishOwn index
  | refuse index => exact recovered.refuse index
  | take => exact recovered.take
  | number index => exact recovered.number index
  | collect index => exact recovered.collect index
  | patch index answered => exact recovered.patch index answered recovers
  | refuseReply index => exact recovered.refuseReply index
  | read request snapshot delivered =>
      exact recovered.read request snapshot delivered
  | install index encodes => exact recovered.install index encodes recovers
  | unsubscribe id => exact recovered.unsubscribe id
  | lag => exact recovered.lag
  | readLagged index answered =>
      exact recovered.readLagged index answered recovers
  | installLagged index encodes =>
      exact recovered.installLagged index encodes recovers

end Keeping

/-- What a client applies is on a state that the last snapshot is the base of. -/
theorem Recovered.noMissedUpdate {composition : Composition Snapshot Patch Plan}
    {resumed : Projected Snapshot}
    {connection : Connection Delivery (Projected Snapshot) (Projected Patch)}
    (recovered : connection.Recovered) :
    NoMissedUpdate composition resumed connection := by
  intro before other number id fromRevision toRevision patch token after split
    applies lost member
  have chain : (updatesIn connection.trail id).IsChain Update.Follows :=
    recovered.chained.chain id
  have reached : (updatesIn (before ++
      [.answered other number
        (some (.sent (.patch id fromRevision toRevision patch token)))])
      id).IsChain Update.Follows := by
    rw [split, List.append_cons] at chain
    simp only [updatesIn, List.filterMap_append, List.filter_append] at chain ⊢
    exact chain.left_of_append
  have added := updatesIn_append before (.answered other number
    (some (.sent (.patch id fromRevision toRevision patch token)))) id
  have made : updatesIn (before ++
      [.answered other number
        (some (.sent (.patch id fromRevision toRevision patch token)))]) id
        = updatesIn before id
          ++ [.sent (.patch id fromRevision toRevision patch token)] := by
    simpa [Trail.update, Update.subscriptionId,
      ProjectionTransportEvent.subscriptionId] using added
  rw [made] at reached
  have abreast := @Following.abreast_follow _ _ _ composition resumed id before
    reached.left_of_append
  have starts := Following.from_of_chain reached
  rcases abreast.of_applies
      (fun revision last => (starts revision last).2) applies with
    ⟨window, holding, at_basis⟩
  refine ⟨window, holding, .inl ?_⟩
  exact recovered.answered before other number _ after split lost member
    window.through at_basis

/--
In every run whose steps recover what a lag loses, a client applies a patch only
to a state that holds every modification lost to its subscription before.
-/
theorem noMissedUpdate_of_recovers [DecidableEq Delivery]
    (host : ServedHost) (toValue : Delivery → Option Json)
    (composition : Composition Snapshot Patch Plan)
    (resumed : Projected Snapshot) (principal : Principal)
    (steps : List (ConnectionStep Delivery (Projected Snapshot)
      (Projected Patch)))
    (recovering : Machine.EveryStep (Connection.next host toValue) Recovers
      (.new principal) steps) :
    Machine.Throughout (Connection.next host toValue)
      (NoMissedUpdate composition resumed) (.new principal) steps := by
  have throughout := Machine.throughout_of_everyStep
    (fun _ _ recovered recovers => recovered.next recovers)
    (Recovered.new principal) recovering
  intro reached within
  exact (throughout reached within).noMissedUpdate

end Connection

/-! ## Notes after a lag -/

abbrev NotesUpdateStep :=
  ConnectionStep Unit (Projected Unit) (Projected Unit)

def notesProjected : Projected Unit where
  projection := "notes"
  value := ()

/-- Every patch of the notes applies. -/
def notesComposition : Composition Unit Unit Unit where
  plans := fun _ => some ()
  materializePatch := fun _ _ _ => .ok ()

/-- A connection subscribes to the notes and falls behind a rename. -/
def fallBehind : List NotesUpdateStep :=
  [.read (.subscribe "notes" (.object []) none) notesProjected none,
    .install 0 true, .save (.mutation "note.rename"), .publish 0, .lag]

/-- Another rename is delivered. -/
def renameNext : List NotesUpdateStep :=
  [.save (.mutation "note.rename"), .publish 0, .take, .number 0, .collect 0,
    .patch 0 (some (notesProjected, none, true))]

/-- A connection that fell behind is sent a snapshot, then the next rename. -/
def lagRecovered : List NotesUpdateStep :=
  fallBehind ++ [.readLagged 0 (some (notesProjected, none)),
    .installLagged 0 true] ++ renameNext

/-- A connection that fell behind builds no snapshot, and sends the next rename. -/
def lagUnrecovered : List NotesUpdateStep :=
  fallBehind ++ [.readLagged 0 none] ++ renameNext

def notesUpdates : Connection Unit (Projected Unit) (Projected Unit) :=
  .new { id := "ada", kind := .human }

/-- What recovering asks of a patch, told from where the patch goes. -/
theorem recovers_patch
    {connection : Connection Unit (Projected Unit) (Projected Unit)}
    {index : Nat}
    {answered : Option (Projected Unit × Option Unit × Bool)} {id : Nat}
    (following : connection.deliveries[index]?.map nextOf = some (some id))
    (room : (connection.held.get id).any fun subscription =>
      decide (subscription.revision < lastRevision))
    (none_pending : ∀ resyncing ∈ connection.resyncs,
      id ∉ resyncing.remaining) :
    connection.Recovers (.patch index answered) := by
  intro modification revision other subscription rest found
  rw [found] at following
  cases following
  refine ⟨?_, none_pending⟩
  intro held there
  rw [there] at room
  simpa using room

/-- Which subscription a resynchronisation is at, and what its snapshot holds. -/
def installingOf (resyncing : ResyncingAll Unit (Projected Unit)) :
    Option Nat × Option Nat :=
  (resyncing.remaining.head?,
    resyncing.read.map fun read => read.1.through)

/-- Nothing lost to a subscription is past a number. -/
def lostWithin (id through : Nat) :
    Trail (Projected Unit) (Projected Unit) → Bool
  | .lost other number => other != id || decide (number ≤ through)
  | _ => true

/-- What recovering asks of a snapshot, told from where the snapshot goes. -/
theorem recovers_installLagged
    {connection : Connection Unit (Projected Unit) (Projected Unit)}
    {index : Nat} {encodes : Bool} {id through : Nat}
    (installing : connection.resyncs[index]?.map installingOf
      = some (some id, some through))
    (room : (connection.held.get id).any fun subscription =>
      decide (subscription.revision < lastRevision))
    (caught : connection.trail.all (lostWithin id through)) :
    connection.Recovers (.installLagged index encodes) := by
  intro other rest snapshot delivered found
  rw [found] at installing
  cases installing
  constructor
  · intro held there
    rw [there] at room
    simpa using room
  · intro number lost
    left
    simpa [lostWithin] using List.all_eq_true.mp caught _ lost

/-- A rename that is delivered after a lag's snapshot recovers what was lost. -/
theorem noMissedUpdate_lagRecovered :
    Connection.NoMissedUpdate notesComposition notesProjected
      (Machine.run (Connection.next notesHost fun _ => none) notesUpdates
        lagRecovered) := by
  have recovering : Machine.EveryStep
      (Connection.next notesHost fun _ => none) Connection.Recovers
      notesUpdates lagRecovered := by
    simp only [lagRecovered, fallBehind, renameNext, List.cons_append,
      List.nil_append, Machine.everyStep_cons]
    refine ⟨trivial, ?_, trivial, trivial, trivial, trivial, ?_, trivial,
      trivial, trivial, trivial, trivial, ?_, Machine.everyStep_nil _ _ _⟩
    · intro installing id found request
      cases found
      cases request
    · exact @recovers_installLagged _ _ _ 1 1 (by decide +kernel)
        (by decide +kernel) (by decide +kernel)
    · exact @recovers_patch _ _ _ 1 (by decide +kernel) (by decide +kernel)
        (by decide +kernel)
  exact Connection.noMissedUpdate_of_recovers notesHost (fun _ => none)
    notesComposition notesProjected { id := "ada", kind := .human }
    lagRecovered recovering lagRecovered (List.prefix_refl _)

/--
A connection that fell behind and built no snapshot sends its client a patch
that the client applies to a state without the rename it lost.
-/
theorem failed_snapshot_misses_rename :
    ¬ Connection.NoMissedUpdate notesComposition notesProjected
      (Machine.run (Connection.next notesHost fun _ => none) notesUpdates
        lagUnrecovered) := by
  intro noMissed
  have applies : Applies notesComposition
      (Following.follow notesComposition notesProjected 1
        [.shown 0 (.sent (.snapshot 1 1 notesProjected none)),
          .lost 1 1]).watching
      (.patch 1 1 2 notesProjected none) := by
    decide +kernel
  rcases noMissed
      [.shown 0 (.sent (.snapshot 1 1 notesProjected none)), .lost 1 1]
      1 2 1 1 2 notesProjected none [] rfl applies 1 (by simp) with
    ⟨window, holding, held⟩
  have shown : some window = some { through := 0, answers := [] } := by
    rw [← holding]
    decide +kernel
  cases shown
  simp [Window.numbers] at held

end Clerkenwell.Session
