import Clerkenwell.Session.ExactlyOnce
import Mathlib.Data.List.Sort

/-!
# Modifications in order

A connection that begins each modification in its turn, after every one
numbered before it, sends a subscription patches of increasing numbers.  Folded
onto the subscription's snapshot they give the host's state at the last of them.
-/

namespace Clerkenwell.Session

open Clerkenwell.Foundation
open Clerkenwell.Doc

variable {Delivery Snapshot Patch : Type}

/-- A delivery sent all it had to. -/
def Delivering.Ended (delivering : Delivering Delivery) : Prop :=
  ∃ revision, delivering.stage = .sending revision []

theorem Delivering.not_ended_of_still {delivering : Delivering Delivery}
    {id : Nat} (still : delivering.Still id) : ¬ delivering.Ended := by
  rintro ⟨revision, stage⟩
  rw [Delivering.Still, stage] at still
  cases still

namespace Connection

section Order

variable (connection : Connection Delivery Snapshot Patch)

/-- No delivery and no resynchronisation is in progress. -/
def Idle : Prop :=
  (∀ delivering ∈ connection.deliveries, delivering.Ended)
    ∧ ∀ resyncing ∈ connection.resyncs, resyncing.remaining = []

/-- Every other modification still to be begun is numbered after one. -/
def First (modification : Modification) : Prop :=
  ∀ other ∈ connection.unpublished ++ connection.queue,
    other = modification ∨ modification.number < other.number

/--
A connection does one thing at a time, and begins a modification when none
numbered before it is still to be published or taken.
-/
def InTurn : ConnectionStep Delivery Snapshot Patch → Prop
  | .publishOwn index =>
      connection.Idle ∧ ∀ modification,
        connection.unpublished[index]? = some modification →
          connection.First modification
  | .take =>
      connection.Idle ∧ ∀ modification rest,
        connection.queue = modification :: rest →
          connection.First modification
  | .lag => connection.Idle
  | .install _ _ | .installLagged _ _ =>
      ∀ delivering ∈ connection.deliveries, delivering.Ended
  | _ => True

/-- The modifications a host's projection holds at a number, in order. -/
def heldAt (host : ServedHost) (projection : String) (number : Nat) :
    List Nat :=
  (connection.modifications.filter fun modification =>
      host.publishes modification.change
        && host.affects modification.change projection
        && !host.isAuthoring projection
        && decide (modification.number ≤ number)).map Modification.number

/-- What a host's projection is at a number, each modification applied. -/
def stateAt {State : Type} (host : ServedHost) (projection : String)
    (apply : State → Nat → State) (start : State) (number : Nat) : State :=
  (connection.heldAt host projection number).foldl apply start

/--
The patches a subscription is sent between two snapshots are of increasing
number.  Where the host has no patch only for what leaves the projection as it
is, they give, applied to what the snapshot holds, what the host's projection is
at the last of them.
-/
def InOrder (host : ServedHost) : Prop :=
  ∀ id window, windowOf connection.trail id = some window →
    window.sent.Pairwise (· < ·)
      ∧ ∀ projection through,
          scopeOf connection.held id = some (projection, through) →
          window.through = through
            ∧ ∀ last, window.sent.getLast? = some last →
              ∀ (State : Type) (apply : State → Nat → State) (start : State),
                (∀ number, (number, false) ∈ window.answers →
                  ∀ state, apply state number = state) →
                window.sent.foldl apply
                    (connection.stateAt host projection apply start through)
                  = connection.stateAt host projection apply start last

/-- What is saved, begun, ended and answered, in order. -/
structure Ordered (host : ServedHost) : Prop where
  sorted : (connection.modifications.map Modification.number).Pairwise (· < ·)
  known : ∀ modification ∈ connection.placed,
    modification ∈ connection.modifications
  pending : ∀ modification ∈ connection.unpublished ++ connection.queue,
    ∀ delivering ∈ connection.deliveries,
      delivering.modification.number < modification.number
  begun : (connection.deliveries.map fun delivering =>
    delivering.modification.number).Pairwise (· < ·)
  ended : ∀ index delivering,
    connection.deliveries[index]? = some delivering →
      index + 1 < connection.deliveries.length → delivering.Ended
  alone : (∃ delivering ∈ connection.deliveries, ¬ delivering.Ended) →
    ∀ resyncing ∈ connection.resyncs, resyncing.remaining = []
  collected : ∀ delivering ∈ connection.deliveries, ∀ revision remaining,
    delivering.stage = .sending revision remaining →
      ∀ id ∈ remaining.map Prod.fst, (scopeOf connection.held id).isSome →
        connection.Concerned host delivering.modification id
  increasing : ∀ id window, windowOf connection.trail id = some window →
    window.numbers.Pairwise (· < ·)
  concerned : ∀ id window, windowOf connection.trail id = some window →
    (scopeOf connection.held id).isSome →
      ∀ number ∈ window.numbers, ∃ modification ∈ connection.modifications,
        modification.number = number
          ∧ connection.Concerned host modification id
  gapless : ∀ id window, windowOf connection.trail id = some window →
    ∀ modification ∈ connection.modifications,
      connection.Concerned host modification id →
        ∀ number ∈ window.numbers, modification.number < number →
          modification.number ∈ window.numbers

end Order

section Keeping

variable {host : ServedHost}
variable {connection : Connection Delivery Snapshot Patch}

/-- A step that changes no delivery and answers nothing. -/
theorem Ordered.carried (ordered : connection.Ordered host)
    {after : Connection Delivery Snapshot Patch}
    (modifications : after.modifications = connection.modifications)
    (pending : ∀ modification ∈ after.unpublished ++ after.queue,
      modification ∈ connection.unpublished ++ connection.queue)
    (deliveries : after.deliveries = connection.deliveries)
    (alone : (∃ delivering ∈ connection.deliveries, ¬ delivering.Ended) →
      ∀ resyncing ∈ after.resyncs, resyncing.remaining = [])
    (scopes : ∀ id, (scopeOf after.held id).isSome →
      (∃ window, windowOf after.trail id = some window ∧ window.numbers = []
          ∧ ∀ delivering ∈ connection.deliveries, delivering.Ended)
        ∨ scopeOf after.held id = scopeOf connection.held id)
    (windows : ∀ id window, windowOf after.trail id = some window →
      window.numbers = []
        ∨ windowOf connection.trail id = some window) :
    after.Ordered host where
  sorted := by
    rw [modifications]
    exact ordered.sorted
  known := by
    intro modification member
    rw [modifications]
    apply ordered.known
    rcases List.mem_append.mp member with waiting | begun
    · exact List.mem_append_left _ (pending modification waiting)
    · rw [deliveries] at begun
      exact List.mem_append_right _ begun
  pending := by
    rw [deliveries]
    exact fun modification member =>
      ordered.pending modification (pending modification member)
  begun := by
    rw [deliveries]
    exact ordered.begun
  ended := by
    rw [deliveries]
    exact ordered.ended
  alone := by
    rw [deliveries]
    exact alone
  collected := by
    intro delivering member revision remaining stage id listed present
    rw [deliveries] at member
    rcases scopes id present with ⟨-, -, -, all_ended⟩ | same
    · rcases all_ended delivering member with ⟨other, stage_ended⟩
      rw [stage] at stage_ended
      cases stage_ended
      cases listed
    · rw [Concerned, same]
      rw [same] at present
      exact ordered.collected delivering member revision remaining stage id
        listed present
  increasing := by
    intro id window there
    rcases windows id window there with none_answered | held
    · rw [none_answered]
      exact .nil
    · exact ordered.increasing id window held
  concerned := by
    intro id window there present number member
    rcases windows id window there with none_answered | held
    · rw [none_answered] at member
      cases member
    · rcases scopes id present with ⟨other, other_there, none_answered, -⟩ | same
      · cases there.symm.trans other_there
        rw [none_answered] at member
        cases member
      · rw [same] at present
        rcases ordered.concerned id window held present number member with
          ⟨modification, saved, numbered, concerned⟩
        refine ⟨modification, ?_, numbered, ?_⟩
        · rwa [modifications]
        · rwa [Concerned, same]
  gapless := by
    rintro id window there modification member
      ⟨projection, through, scope, concerned⟩ number listed before
    rcases windows id window there with none_answered | held
    · rw [none_answered] at listed
      cases listed
    · rcases scopes id (by rw [scope]; rfl) with
        ⟨other, other_there, none_answered, -⟩ | same
      · cases there.symm.trans other_there
        rw [none_answered] at listed
        cases listed
      · rw [modifications] at member
        rw [same] at scope
        exact ordered.gapless id window held modification member
          ⟨projection, through, scope, concerned⟩ number listed before

/-- A delivery in progress is the last one begun. -/
theorem Ordered.last_of_not_ended (ordered : connection.Ordered host)
    {index : Nat} {delivering : Delivering Delivery}
    (found : connection.deliveries[index]? = some delivering)
    (ongoing : ¬ delivering.Ended) :
    index + 1 = connection.deliveries.length := by
  have within := (List.getElem?_eq_some_iff.mp found).1
  by_contra earlier
  exact ongoing (ordered.ended index delivering found (by omega))

/-- Two deliveries in progress are one. -/
theorem Ordered.eq_of_not_ended (ordered : connection.Ordered host)
    {index : Nat} {delivering other : Delivering Delivery}
    (found : connection.deliveries[index]? = some delivering)
    (ongoing : ¬ delivering.Ended) (member : other ∈ connection.deliveries)
    (other_ongoing : ¬ other.Ended) : other = delivering := by
  rcases List.mem_iff_getElem?.mp member with ⟨other_index, there⟩
  have last := ordered.last_of_not_ended found ongoing
  have other_last := ordered.last_of_not_ended there other_ongoing
  have same : other_index = index := by omega
  rw [same, found] at there
  exact (Option.some.inj there).symm

/-- What a delivery that is not the one in progress carries is numbered before. -/
theorem Ordered.number_lt_of_not_ended (ordered : connection.Ordered host)
    {index : Nat} {delivering other : Delivering Delivery}
    (found : connection.deliveries[index]? = some delivering)
    (ongoing : ¬ delivering.Ended) (member : other ∈ connection.deliveries)
    (different : other ≠ delivering) :
    other.modification.number < delivering.modification.number := by
  rcases List.mem_iff_getElem?.mp member with ⟨other_index, there⟩
  have last := ordered.last_of_not_ended found ongoing
  rcases List.getElem?_eq_some_iff.mp found with ⟨within, rfl⟩
  rcases List.getElem?_eq_some_iff.mp there with ⟨other_within, rfl⟩
  have earlier : other_index < index := by
    by_contra later
    have same : other_index = index := by omega
    subst same
    exact different rfl
  have sorted := List.pairwise_iff_getElem.mp ordered.begun other_index index
    (by simpa using other_within) (by simpa using within) earlier
  simpa using sorted

/-- A delivery in progress comes further, and nothing else changes. -/
theorem Ordered.advanced (ordered : connection.Ordered host)
    {index : Nat} {modification : Modification}
    {stage : DeliveryStage Delivery}
    (found : connection.deliveries[index]? = some ⟨modification, stage⟩)
    (ongoing : ¬ Delivering.Ended ⟨modification, stage⟩)
    (further : DeliveryStage Delivery)
    {held : ProjectionSubscriptions Delivery}
    {trail : List (Trail Snapshot Patch)}
    (scopes : scopeOf held = scopeOf connection.held)
    (windows : windowOf trail = windowOf connection.trail)
    (collected : ∀ revision remaining, further = .sending revision remaining →
      ∀ id ∈ remaining.map Prod.fst, (scopeOf connection.held id).isSome →
        connection.Concerned host modification id) :
    Ordered
      { connection with
        deliveries := connection.deliveries.set index ⟨modification, further⟩
        held := held
        trail := trail } host := by
  have numbers : (connection.deliveries.set index
      ⟨modification, further⟩).map (fun delivering =>
        delivering.modification.number)
      = connection.deliveries.map fun delivering =>
        delivering.modification.number :=
    map_set_of_eq found rfl
  have concerned_same : ∀ other id, Concerned
      { connection with
        deliveries := connection.deliveries.set index ⟨modification, further⟩
        held := held
        trail := trail } host other id
        ↔ connection.Concerned host other id := by
    intro other id
    rw [Concerned, scopes, Concerned]
  constructor
  · exact ordered.sorted
  · intro other member
    apply ordered.known
    simp only [placed] at member ⊢
    rwa [modifications_set found] at member
  · intro other member delivering begun
    rcases List.mem_or_eq_of_mem_set begun with earlier | rfl
    · exact ordered.pending other member delivering earlier
    · have before := ordered.pending other member _
        (List.mem_of_getElem? found)
      exact before
  · show ((connection.deliveries.set index _).map _).Pairwise _
    rw [numbers]
    exact ordered.begun
  · intro other delivering there within
    rw [List.length_set] at within
    have last := ordered.last_of_not_ended found ongoing
    rw [List.getElem?_set_ne (by omega)] at there
    exact ordered.ended other delivering there within
  · intro _
    exact ordered.alone ⟨_, List.mem_of_getElem? found, ongoing⟩
  · intro delivering member revision remaining stage_eq id listed present
    rw [scopes] at present
    rw [concerned_same]
    rcases List.mem_or_eq_of_mem_set member with earlier | rfl
    · exact ordered.collected delivering earlier revision remaining stage_eq id
        listed present
    · exact collected revision remaining stage_eq id listed present
  · rw [windows]
    exact ordered.increasing
  · simp only [concerned_same]
    rw [windows, scopes]
    exact ordered.concerned
  · simp only [concerned_same]
    rw [windows]
    exact ordered.gapless

/-- A delivery in progress answers its next subscription. -/
theorem Ordered.answered (ordered : connection.Ordered host)
    (accounted : connection.Accounted host)
    {index revision id : Nat} {modification : Modification}
    {subscription : ProjectionSubscription Delivery}
    {rest : List (Nat × ProjectionSubscription Delivery)}
    (found : connection.deliveries[index]?
      = some ⟨modification, .sending revision ((id, subscription) :: rest)⟩)
    {held : ProjectionSubscriptions Delivery}
    {update : Option (Update Snapshot Patch)}
    (scopes : scopeOf held = scopeOf connection.held) :
    Ordered
      { connection with
        deliveries :=
          connection.deliveries.set index
            ⟨modification, .sending revision rest⟩
        held := held
        trail := connection.trail ++
          [.answered id modification.number update] } host := by
  have member := List.mem_of_getElem? found
  have still : Delivering.Still
      ⟨modification, .sending revision ((id, subscription) :: rest)⟩ id :=
    List.mem_cons_self
  have ongoing := Delivering.not_ended_of_still still
  have base : Ordered
      { connection with
        deliveries :=
          connection.deliveries.set index
            ⟨modification, .sending revision rest⟩
        held := held
        trail := connection.trail } host := by
    refine ordered.advanced found ongoing _ scopes rfl ?_
    intro other remaining stage further listed present
    cases stage
    exact ordered.collected _ member revision _ rfl further
      (List.mem_cons_of_mem _ listed) present
  have concerned_same : ∀ other further, Concerned
      { connection with
        deliveries :=
          connection.deliveries.set index
            ⟨modification, .sending revision rest⟩
        held := held
        trail := connection.trail ++
          [.answered id modification.number update] } host other further
        ↔ connection.Concerned host other further := by
    intro other further
    rw [Concerned, scopes, Concerned]
  have before : ∀ window, windowOf connection.trail id = some window →
      ∀ number ∈ window.numbers, number < modification.number := by
    intro window there number listed
    rcases accounted.told id number ⟨window, there, listed⟩ with
      ⟨delivering, begun, rfl, ended⟩
    apply ordered.number_lt_of_not_ended found ongoing begun
    rintro rfl
    exact ended still
  have caught_up : ∀ window, windowOf connection.trail id = some window →
      ∀ other ∈ connection.modifications,
        connection.Concerned host other id →
          other.number < modification.number →
            other.number ∈ window.numbers := by
    intro window there other saved concerned earlier
    rcases accounted.complete other saved id concerned with
      (waiting | waiting | ⟨delivering, begun, rfl, other_still⟩)
        | ⟨resyncing, listed, covered, -⟩ | ⟨other_window, present, told⟩
    · have later := ordered.pending other (List.mem_append_left _ waiting) _
        member
      exact absurd (later.trans earlier) (lt_irrefl _)
    · have later := ordered.pending other (List.mem_append_right _ waiting) _
        member
      exact absurd (later.trans earlier) (lt_irrefl _)
    · have same := ordered.eq_of_not_ended found ongoing begun
        (Delivering.not_ended_of_still other_still)
      rw [same] at earlier
      exact absurd earlier (lt_irrefl _)
    · rw [ordered.alone ⟨_, member, ongoing⟩ resyncing listed] at covered
      cases covered
    · cases there.symm.trans present
      exact told
  have window_cases : ∀ other window,
      windowOf (connection.trail ++ [.answered id modification.number update])
          other = some window →
        windowOf connection.trail other = some window
          ∨ other = id ∧ ∃ earlier, windowOf connection.trail id = some earlier
            ∧ window.numbers = earlier.numbers ++ [modification.number] := by
    intro other window there
    rw [windowOf_answered] at there
    split at there
    · rename_i same
      subst same
      rcases Option.map_eq_some_iff.mp there with ⟨earlier, held_there, rfl⟩
      exact .inr ⟨rfl, earlier, held_there, by
        simp [Window.add, Window.numbers]⟩
    · exact .inl there
  constructor
  · exact base.sorted
  · exact base.known
  · exact base.pending
  · exact base.begun
  · exact base.ended
  · exact base.alone
  · exact base.collected
  · intro other window there
    rcases window_cases other window there with
      same | ⟨rfl, earlier, held_there, numbers⟩
    · exact ordered.increasing other window same
    · rw [numbers, List.pairwise_append]
      refine ⟨ordered.increasing other earlier held_there,
        List.pairwise_singleton _ _, ?_⟩
      intro number listed last now
      rw [List.mem_singleton.mp now]
      exact before earlier held_there number listed
  · intro other window there present number listed
    simp only [concerned_same]
    rw [scopes] at present
    rcases window_cases other window there with
      same | ⟨rfl, earlier, held_there, numbers⟩
    · exact ordered.concerned other window same present number listed
    · rw [numbers] at listed
      rcases List.mem_append.mp listed with told | now
      · exact ordered.concerned other earlier held_there present number told
      · rw [List.mem_singleton.mp now]
        refine ⟨modification, ?_, rfl, ?_⟩
        · apply ordered.known
          exact List.mem_append_right _ (List.mem_map_of_mem member)
        · exact ordered.collected _ member revision _ rfl other
            List.mem_cons_self present
  · intro other window there another saved concerned number listed earlier_number
    rw [concerned_same] at concerned
    rcases window_cases other window there with
      same | ⟨rfl, earlier, held_there, numbers⟩
    · exact ordered.gapless other window same another saved concerned number
        listed earlier_number
    · rw [numbers] at listed ⊢
      apply List.mem_append_left
      rcases List.mem_append.mp listed with told | now
      · exact ordered.gapless other earlier held_there another saved concerned
          number told earlier_number
      · rw [List.mem_singleton.mp now] at earlier_number
        exact caught_up earlier held_there another saved concerned
          earlier_number

variable [DecidableEq Delivery] {toValue : Delivery → Option Json}

theorem Ordered.save (ordered : connection.Ordered host)
    (accounted : connection.Accounted host) (change : Change) :
    (next host toValue connection (.save change)).Ordered host where
  sorted := by
    simp only [next, List.map_append, List.map_cons, List.map_nil]
    rw [List.pairwise_append]
    refine ⟨ordered.sorted, List.pairwise_singleton _ _, ?_⟩
    intro number member last now
    rcases List.mem_map.mp member with ⟨modification, saved, rfl⟩
    rw [List.mem_singleton.mp now]
    exact Nat.lt_succ_of_le (accounted.saved modification saved)
  known := by
    intro modification member
    simp only [placed, next, List.mem_append, List.mem_singleton] at member ⊢
    rcases member with ((early | rfl) | queued) | delivering
    · exact .inl (ordered.known modification (by simp [placed, early]))
    · exact .inr rfl
    · exact .inl (ordered.known modification (by simp [placed, queued]))
    · exact .inl (ordered.known modification (by simp [placed, delivering]))
  pending := by
    intro modification member delivering begun
    have before := accounted.placed_saved delivering.modification
      (List.mem_append_right _ (List.mem_map_of_mem begun))
    simp only [next, List.mem_append, List.mem_singleton] at member
    rcases member with (early | rfl) | queued
    · exact ordered.pending modification (List.mem_append_left _ early)
        delivering begun
    · exact Nat.lt_succ_of_le before
    · exact ordered.pending modification (List.mem_append_right _ queued)
        delivering begun
  begun := ordered.begun
  ended := ordered.ended
  alone := ordered.alone
  collected := ordered.collected
  increasing := ordered.increasing
  concerned := by
    intro id window there present number member
    rcases ordered.concerned id window there present number member with
      ⟨modification, saved, numbered, concerned⟩
    exact ⟨modification, List.mem_append_left _ saved, numbered, concerned⟩
  gapless := by
    intro id window there modification member concerned number listed before
    rcases List.mem_append.mp member with earlier | new
    · exact ordered.gapless id window there modification earlier concerned
        number listed before
    · rw [List.mem_singleton.mp new] at before
      rcases accounted.told id number ⟨window, there, listed⟩ with
        ⟨delivering, begun, rfl, -⟩
      have saved := accounted.placed_saved delivering.modification
        (List.mem_append_right _ (List.mem_map_of_mem begun))
      exact absurd (Nat.lt_of_lt_of_le before saved)
        (Nat.not_lt.mpr (Nat.le_succ _))

/-- A modification is begun in its turn. -/
theorem Ordered.begins (ordered : connection.Ordered host)
    (accounted : connection.Accounted host) (idle : connection.Idle)
    {modification : Modification} (first : connection.First modification)
    {unpublished queue : List Modification}
    (permuted : (modification :: (unpublished ++ queue)).Perm
      (connection.unpublished ++ connection.queue)) :
    Ordered
      { connection with
        unpublished := unpublished
        queue := queue
        deliveries := connection.deliveries ++ [⟨modification, .begun⟩] }
      host where
  sorted := ordered.sorted
  known := by
    intro other member
    apply ordered.known
    simp only [placed, List.map_append, List.map_cons, List.map_nil,
      List.mem_append, List.mem_singleton] at member
    rcases member with waiting | begun | rfl
    · apply List.mem_append_left
      exact permuted.subset (List.mem_cons_of_mem _ (List.mem_append.mpr waiting))
    · exact List.mem_append_right _ begun
    · exact List.mem_append_left _ (permuted.subset List.mem_cons_self)
  pending := by
    intro other member delivering begun
    have waiting := permuted.subset (List.mem_cons_of_mem modification member)
    rcases List.mem_append.mp begun with earlier | new
    · exact ordered.pending other waiting delivering earlier
    · rw [List.mem_singleton.mp new]
      rcases first other waiting with rfl | later
      · have apart := accounted.apart
        rw [placed, List.map_append] at apart
        have waiting_apart := ((permuted.map
          Modification.number).nodup_iff.mpr (List.nodup_append.mp apart).1)
        rw [List.map_cons, List.nodup_cons] at waiting_apart
        exact absurd (List.mem_map_of_mem member) waiting_apart.1
      · exact later
  begun := by
    rw [List.map_append, List.pairwise_append]
    refine ⟨ordered.begun, List.pairwise_singleton _ _, ?_⟩
    intro number member last now
    rcases List.mem_map.mp member with ⟨delivering, begun, rfl⟩
    rw [List.map_singleton, List.mem_singleton] at now
    rw [now]
    exact ordered.pending modification (permuted.subset List.mem_cons_self)
      delivering begun
  ended := by
    intro index delivering there within
    rw [List.length_append, List.length_singleton] at within
    rw [List.getElem?_append_left (by omega)] at there
    exact idle.1 delivering (List.mem_of_getElem? there)
  alone := fun _ => idle.2
  collected := by
    intro delivering member revision remaining stage
    rcases List.mem_append.mp member with earlier | new
    · exact ordered.collected delivering earlier revision remaining stage
    · rw [List.mem_singleton.mp new] at stage
      cases stage
  increasing := ordered.increasing
  concerned := ordered.concerned
  gapless := ordered.gapless

theorem Ordered.publish (ordered : connection.Ordered host) (index : Nat) :
    (next host toValue connection (.publish index)).Ordered host := by
  unfold next
  dsimp only
  split
  · exact ordered
  · rename_i modification found
    refine ordered.carried rfl ?_ rfl ordered.alone (fun _ _ => .inr rfl)
      (fun _ _ there => .inr there)
    intro other member
    simp only [List.mem_append, List.mem_singleton] at member ⊢
    rcases member with early | queued | rfl
    · exact .inl (List.mem_of_mem_eraseIdx early)
    · exact .inr queued
    · exact .inl (List.mem_of_getElem? found)

theorem Ordered.publishOwn (ordered : connection.Ordered host)
    (accounted : connection.Accounted host) (index : Nat)
    (inTurn : connection.InTurn (.publishOwn index)) :
    (next host toValue connection (.publishOwn index)).Ordered host := by
  unfold next
  dsimp only
  split
  · exact ordered
  · rename_i modification found
    apply ordered.begins accounted inTurn.1 (inTurn.2 modification found)
    exact (cons_eraseIdx_perm found).append_right _

theorem Ordered.take (ordered : connection.Ordered host)
    (accounted : connection.Accounted host)
    (inTurn : connection.InTurn .take) :
    (next host toValue connection .take).Ordered host := by
  unfold next
  dsimp only
  split
  · exact ordered
  · rename_i modification rest shape
    apply ordered.begins accounted inTurn.1 (inTurn.2 modification rest shape)
    rw [shape]
    exact List.perm_middle.symm

theorem Ordered.refuse (ordered : connection.Ordered host) (index : Nat) :
    (next host toValue connection (.refuse index)).Ordered host := by
  unfold next
  dsimp only
  split
  · refine ordered.carried rfl ?_ rfl ordered.alone (fun _ _ => .inr rfl)
      (fun _ _ there => .inr there)
    intro other member
    rcases List.mem_append.mp member with early | queued
    · exact List.mem_append_left _ (List.mem_of_mem_eraseIdx early)
    · exact List.mem_append_right _ queued
  · exact ordered

theorem Ordered.number (ordered : connection.Ordered host) (index : Nat) :
    (next host toValue connection (.number index)).Ordered host := by
  unfold next
  dsimp only
  split
  · rename_i modification found
    refine ordered.advanced found ?_ _ rfl rfl ?_
    · rintro ⟨revision, stage⟩
      cases stage
    · intro revision remaining stage
      cases stage
  · exact ordered

theorem Ordered.collect (ordered : connection.Ordered host) (index : Nat) :
    (next host toValue connection (.collect index)).Ordered host := by
  unfold next
  dsimp only
  split
  · rename_i modification revision found
    refine ordered.advanced found ?_ _ rfl rfl ?_
    · rintro ⟨other, stage⟩
      cases stage
    · intro other remaining stage id listed _
      cases stage
      exact mem_affected_iff.mp listed
  · exact ordered

theorem Ordered.patch (ordered : connection.Ordered host)
    (accounted : connection.Accounted host) (index : Nat)
    (answered : Option (Patch × Option Delivery × Bool)) :
    (next host toValue connection (.patch index answered)).Ordered host := by
  unfold next
  dsimp only
  split
  · rename_i modification revision id subscription rest found
    match answered with
    | none => exact ordered.answered accounted found rfl
    | some (patch, delivered, encodes) =>
        let operation : SubscriptionOperation Delivery Snapshot Patch :=
          .deliverPatch id revision patch delivered
        have scopes : scopeOf
            (Served.perform toValue connection.held operation).2
              = scopeOf connection.held :=
          funext fun other => scopeOf_perform operation other
        have member := List.mem_of_getElem? found
        have ongoing : ¬ Delivering.Ended
            ⟨modification, .sending revision ((id, subscription) :: rest)⟩ := by
          rintro ⟨other, stage⟩
          cases stage
        have further : ∀ other remaining,
            DeliveryStage.sending revision rest = .sending other remaining →
            ∀ listed ∈ remaining.map Prod.fst,
              (scopeOf connection.held listed).isSome →
                connection.Concerned host modification listed := by
          intro other remaining stage listed within present
          cases stage
          exact ordered.collected _ member revision _ rfl listed
            (List.mem_cons_of_mem _ within) present
        unfold operate
        dsimp only
        rcases @updates_deliverPatch _ Snapshot _ _ toValue connection.held id
            revision patch delivered with
          ⟨absent, none_sent⟩ | ⟨update, present, same, sent⟩
        · rw [none_sent, List.map_nil, List.append_nil]
          exact ordered.advanced found ongoing _ scopes rfl further
        · rw [sent]
          cases encodes with
          | true => exact ordered.answered accounted found scopes
          | false =>
              refine ordered.advanced found ongoing _ scopes ?_ further
              funext other
              exact windowOf_append _ _ other
  · exact ordered

/-- A reply that is not returned loses its patches and no other. -/
theorem Ordered.refuseReply (ordered : connection.Ordered host) (index : Nat)
    (heeds : connection.Heeds host (.refuseReply index)) :
    (next host toValue connection (.refuseReply index)).Ordered host := by
  unfold next
  dsimp only
  split
  · rename_i number name revision found
    have windows : ∀ id window,
        windowOf (connection.trail.map (withheld number)) id = some window →
          ∃ earlier, windowOf connection.trail id = some earlier
            ∧ earlier.without number = window := by
      intro id window there
      rw [windowOf_withheld] at there
      exact Option.map_eq_some_iff.mp there
    have within : ∀ window : Window,
        (window.without number).numbers.Sublist window.numbers :=
      fun _ => List.filter_sublist.map Prod.fst
    constructor
    · exact ordered.sorted
    · exact ordered.known
    · exact ordered.pending
    · exact ordered.begun
    · exact ordered.ended
    · exact ordered.alone
    · exact ordered.collected
    · intro id window there
      rcases windows id window there with ⟨earlier, held, rfl⟩
      exact (ordered.increasing id earlier held).sublist (within earlier)
    · intro id window there present told listed
      rcases windows id window there with ⟨earlier, held, rfl⟩
      exact ordered.concerned id earlier held present told
        ((within earlier).subset listed)
    · intro id window there modification saved concerned later listed before
      rcases windows id window there with ⟨earlier, held, rfl⟩
      have told := ordered.gapless id earlier held modification saved concerned
        later ((within earlier).subset listed) before
      rcases List.mem_map.mp told with ⟨⟨answered, sent⟩, entry, rfl⟩
      apply List.mem_map.mpr
      refine ⟨(modification.number, sent), List.mem_filter.mpr ⟨entry, ?_⟩, rfl⟩
      cases sent with
      | false => simp
      | true =>
          have other : modification.number ≠ number := by
            intro same
            apply heeds number name revision found modification saved same id
              concerned earlier held
            rw [← same]
            exact entry
          simp [other]
  · exact ordered

theorem Ordered.read (ordered : connection.Ordered host)
    (request : SnapshotRequest Delivery) (snapshot : Snapshot)
    (delivered : Option Delivery) :
    (next host toValue connection
      (.read request snapshot delivered)).Ordered host :=
  ordered.carried rfl (fun _ member => member) rfl ordered.alone
    (fun _ _ => .inr rfl) (fun _ _ there => .inr there)

theorem Ordered.unsubscribe (ordered : connection.Ordered host) (id : Nat) :
    (next host toValue connection (.unsubscribe id)).Ordered host := by
  have scopes : ∀ other, scopeOf (connection.held.remove id).2 other
      = if id = other then none else scopeOf connection.held other :=
    fun other => @scopeOf_perform Delivery Snapshot Patch _ toValue
      connection.held (.remove id) other
  refine ordered.carried rfl (fun _ member => member) rfl ordered.alone ?_ ?_
  · intro other present
    right
    change (scopeOf (connection.held.remove id).2 other).isSome at present
    change scopeOf (connection.held.remove id).2 other = _
    rw [scopes] at present ⊢
    split at present
    · cases present
    · rename_i different
      rw [if_neg different]
  · intro other window there
    right
    rwa [show (next host toValue connection (.unsubscribe id)).trail
      = connection.trail from List.append_nil _] at there

theorem Ordered.lag (ordered : connection.Ordered host)
    (inTurn : connection.InTurn .lag) :
    (next host toValue connection .lag).Ordered host := by
  refine ordered.carried rfl ?_ rfl ?_ (fun _ _ => .inr rfl) ?_
  · intro modification member
    simp only [next, List.append_nil] at member
    exact List.mem_append_left _ member
  · rintro ⟨delivering, member, ongoing⟩
    exact absurd (inTurn.1 delivering member) ongoing
  · intro id window there
    right
    rw [← there]
    symm
    apply windowOf_append_of_idle
    intro entry member idle
    rcases List.mem_flatMap.mp member with ⟨listed, -, lost⟩
    rcases List.mem_map.mp lost with ⟨modification, -, rfl⟩
    rfl

theorem Ordered.readLagged (ordered : connection.Ordered host) (index : Nat)
    (answered : Option (Snapshot × Option Delivery)) :
    (next host toValue connection
      (.readLagged index answered)).Ordered host := by
  have replaced : ∀ {resyncing : ResyncingAll Delivery Snapshot} further,
      connection.resyncs[index]? = some resyncing →
      resyncing.remaining ≠ [] →
      Ordered { connection with
        resyncs := connection.resyncs.set index further } host := by
    intro resyncing further found remaining
    refine ordered.carried rfl (fun _ member => member) rfl ?_
      (fun _ _ => .inr rfl) (fun _ _ there => .inr there)
    intro ongoing
    exact absurd (ordered.alone ongoing resyncing (List.mem_of_getElem? found))
      remaining
  unfold next
  dsimp only
  split
  · rename_i found
    exact replaced _ found (List.cons_ne_nil _ _)
  · rename_i found
    exact replaced _ found (List.cons_ne_nil _ _)
  · exact ordered

omit [DecidableEq Delivery] in
/-- A subscription is shown a snapshot while nothing is being delivered. -/
theorem Ordered.shown (ordered : connection.Ordered host)
    (all_ended : ∀ delivering ∈ connection.deliveries, delivering.Ended)
    {id through : Nat} {update : Update Snapshot Patch}
    {held : ProjectionSubscriptions Delivery}
    (subject : update.subscriptionId = id)
    (scopes : ∀ other, id ≠ other →
      scopeOf held other = scopeOf connection.held other)
    {installs : List (Installing Delivery Snapshot)}
    {resyncs : List (ResyncingAll Delivery Snapshot)} :
    Ordered
      { connection with
        installs := installs
        resyncs := resyncs
        held := held
        trail := connection.trail ++ [.shown through update] } host := by
  have windows : ∀ other, windowOf
      (connection.trail ++ [.shown through update]) other
        = if id = other then some { through := through, answers := [] }
          else windowOf connection.trail other := by
    intro other
    rw [windowOf_append, ← subject]
    rfl
  refine ordered.carried rfl (fun _ member => member) rfl ?_ ?_ ?_
  · rintro ⟨delivering, member, ongoing⟩
    exact absurd (all_ended delivering member) ongoing
  · intro other _
    by_cases same : id = other
    · left
      refine ⟨_, (windows other).trans (if_pos same), rfl, all_ended⟩
    · exact .inr (scopes other same)
  · intro other window there
    have shown := (windows other).symm.trans there
    split at shown
    · cases shown
      exact .inl rfl
    · exact .inr shown

theorem Ordered.resynced (ordered : connection.Ordered host)
    (all_ended : ∀ delivering ∈ connection.deliveries, delivering.Ended)
    (id : Nat) (snapshot : NumberedSnapshot Snapshot)
    (delivered : Option Delivery)
    {installs : List (Installing Delivery Snapshot)}
    {resyncs : List (ResyncingAll Delivery Snapshot)} :
    (operate toValue
      { connection with installs := installs, resyncs := resyncs }
      (.resync id snapshot delivered)
      (showing snapshot.through true)).Ordered host := by
  let operation : SubscriptionOperation Delivery Snapshot Patch :=
    .resync id snapshot delivered
  have scopes : ∀ other, id ≠ other → scopeOf
      (Served.perform toValue connection.held operation).2 other
        = scopeOf connection.held other := by
    intro other different
    rw [scopeOf_perform operation other]
    exact if_neg different
  unfold operate
  dsimp only
  rcases @updates_resync _ _ Patch _ toValue connection.held id snapshot
      delivered with
    ⟨absent, none_sent⟩ | ⟨update, present, same, sent⟩
  · rw [none_sent]
    refine ordered.carried rfl (fun _ member => member) rfl ?_ ?_ ?_
    · rintro ⟨delivering, member, ongoing⟩
      exact absurd (all_ended delivering member) ongoing
    · intro other _
      right
      by_cases equal : id = other
      · show scopeOf (Served.perform toValue connection.held operation).2 other
          = _
        rw [scopeOf_perform operation other, ← equal, absent]
        show (if id = id then (scopeOf connection.held id).map _ else _) = _
        rw [if_pos rfl, absent]
        rfl
      · exact scopes other equal
    · intro other window there
      right
      rwa [show connection.trail ++ List.map _ [] = connection.trail from
        List.append_nil _] at there
  · rw [sent, List.map_singleton, showing_true]
    exact ordered.shown all_ended same scopes

theorem Ordered.install (ordered : connection.Ordered host) (index : Nat)
    (encodes : Bool) (heeds : connection.Heeds host (.install index encodes))
    (inTurn : connection.InTurn (.install index encodes)) :
    (next host toValue connection (.install index encodes)).Ordered host := by
  rcases heeds with ⟨rfl, -⟩
  unfold next
  dsimp only
  split
  · exact ordered
  · rename_i installing found
    rcases installing with ⟨request, snapshot, delivered⟩
    cases request with
    | resync id => exact ordered.resynced inTurn id snapshot delivered
    | subscribe projection params clientHeld =>
        rcases @updates_accept _ _ Patch _ toValue connection.held projection
            params clientHeld snapshot delivered with ⟨update, subject, sent⟩
        unfold operate
        dsimp only [installOperation]
        rw [sent, List.map_singleton, showing_true]
        apply ordered.shown inTurn subject
        intro other different
        rw [scopeOf_perform]
        exact if_neg different

theorem Ordered.installLagged (ordered : connection.Ordered host) (index : Nat)
    (encodes : Bool)
    (heeds : connection.Heeds host (.installLagged index encodes))
    (inTurn : connection.InTurn (.installLagged index encodes)) :
    (next host toValue connection
      (.installLagged index encodes)).Ordered host := by
  rcases heeds with ⟨rfl, -⟩
  unfold next
  dsimp only
  split
  · exact ordered.resynced inTurn _ _ _
  · exact ordered

omit [DecidableEq Delivery] in
theorem Ordered.new (principal : Principal) :
    (Connection.new principal :
      Connection Delivery Snapshot Patch).Ordered host where
  sorted := .nil
  known := by simp [Connection.new, placed]
  pending := by simp [Connection.new]
  begun := .nil
  ended := by simp [Connection.new]
  alone := by simp [Connection.new]
  collected := by simp [Connection.new]
  increasing := by
    intro id window there
    cases there
  concerned := by
    intro id window there
    cases there
  gapless := by
    intro id window there
    cases there

/-- A step in its turn that loses nothing keeps everything in order. -/
theorem Ordered.next {step : ConnectionStep Delivery Snapshot Patch}
    (ordered : connection.Ordered host)
    (accounted : connection.Accounted host)
    (heeds : connection.Heeds host step) (inTurn : connection.InTurn step) :
    (next host toValue connection step).Ordered host := by
  cases step with
  | save change => exact ordered.save accounted change
  | publish index => exact ordered.publish index
  | publishOwn index => exact ordered.publishOwn accounted index inTurn
  | refuse index => exact ordered.refuse index
  | take => exact ordered.take accounted inTurn
  | number index => exact ordered.number index
  | collect index => exact ordered.collect index
  | patch index answered => exact ordered.patch accounted index answered
  | refuseReply index => exact ordered.refuseReply index heeds
  | read request snapshot delivered =>
      exact ordered.read request snapshot delivered
  | install index encodes => exact ordered.install index encodes heeds inTurn
  | unsubscribe id => exact ordered.unsubscribe id
  | lag => exact ordered.lag inTurn
  | readLagged index answered => exact ordered.readLagged index answered
  | installLagged index encodes =>
      exact ordered.installLagged index encodes heeds inTurn

end Keeping

section Folding

variable {host : ServedHost}
variable {connection : Connection Delivery Snapshot Patch}

/-- Patches the host has none for change nothing, so a fold may leave them out. -/
theorem foldl_sent {State : Type} {apply : State → Nat → State}
    {answers : List (Nat × Bool)}
    (idle : ∀ number, (number, false) ∈ answers →
      ∀ state, apply state number = state) (start : State) :
    ((answers.filter Prod.snd).map Prod.fst).foldl apply start
      = (answers.map Prod.fst).foldl apply start := by
  induction answers generalizing start with
  | nil => rfl
  | cons answer rest inductionHypothesis =>
      rcases answer with ⟨number, sent⟩
      have rest_idle : ∀ other, (other, false) ∈ rest →
          ∀ state, apply state other = state :=
        fun other member => idle other (List.mem_cons_of_mem _ member)
      cases sent with
      | true => exact inductionHypothesis rest_idle _
      | false =>
          rw [List.map_cons, List.foldl_cons, idle number List.mem_cons_self]
          exact inductionHypothesis rest_idle start

theorem mem_heldAt {projection : String} {number held : Nat} :
    held ∈ connection.heldAt host projection number ↔
      ∃ modification ∈ connection.modifications,
        host.publishes modification.change = true
          ∧ host.affects modification.change projection = true
          ∧ host.isAuthoring projection = false
          ∧ modification.number ≤ number ∧ modification.number = held := by
  simp [heldAt, and_assoc]

theorem Ordered.pairwise_heldAt (ordered : connection.Ordered host)
    (projection : String) (number : Nat) :
    (connection.heldAt host projection number).Pairwise (· < ·) :=
  ordered.sorted.sublist (List.filter_sublist.map Modification.number)

/-- What is held at an answered number is the snapshot's and the answers to it. -/
theorem Ordered.heldAt_answered (ordered : connection.Ordered host)
    {id : Nat} {window : Window}
    (there : windowOf connection.trail id = some window)
    {projection : String} {through : Nat}
    (scope : scopeOf connection.held id = some (projection, through))
    {last : Nat} (answered : last ∈ window.numbers) :
    connection.heldAt host projection last
      = connection.heldAt host projection through
        ++ window.numbers.filter fun number => decide (number ≤ last) := by
  have concerned : ∀ number ∈ window.numbers,
      ∃ modification ∈ connection.modifications,
        modification.number = number
          ∧ host.publishes modification.change = true
          ∧ host.affects modification.change projection = true
          ∧ host.isAuthoring projection = false
          ∧ through < modification.number := by
    intro number member
    rcases ordered.concerned id window there (by rw [scope]; rfl) number member
      with ⟨modification, saved, numbered, concernedProjection,
        concernedThrough, same, publishes, concerns⟩
    rw [scope] at same
    cases same
    simp only [ServedHost.concerns, Bool.and_eq_true, Bool.not_eq_true',
      decide_eq_true_eq] at concerns
    exact ⟨modification, saved, numbered, publishes, concerns.1.1,
      concerns.1.2, concerns.2⟩
  have past : ∀ number ∈ window.numbers, through < number := by
    intro number member
    rcases concerned number member with ⟨modification, -, rfl, -, -, -, past⟩
    exact past
  have sorted : (connection.heldAt host projection through
      ++ window.numbers.filter fun number =>
        decide (number ≤ last)).Pairwise (· < ·) := by
    rw [List.pairwise_append]
    refine ⟨ordered.pairwise_heldAt projection through,
      (ordered.increasing id window there).sublist List.filter_sublist, ?_⟩
    intro earlier held later member
    rcases mem_heldAt.mp held with ⟨modification, -, -, -, -, within, rfl⟩
    exact within.trans_lt (past later (List.mem_of_mem_filter member))
  apply List.Pairwise.eq_of_mem_iff (ordered.pairwise_heldAt projection last)
    sorted
  intro number
  rw [List.mem_append, mem_heldAt, mem_heldAt, List.mem_filter,
    decide_eq_true_eq]
  constructor
  · rintro ⟨modification, saved, publishes, affects, authoring, within, rfl⟩
    by_cases held : modification.number ≤ through
    · exact .inl ⟨modification, saved, publishes, affects, authoring, held, rfl⟩
    · refine .inr ⟨?_, within⟩
      rcases Nat.lt_or_eq_of_le within with before | same
      · refine ordered.gapless id window there modification saved
          ⟨projection, through, scope, publishes, ?_⟩ last answered before
        simp [ServedHost.concerns, affects, authoring, Nat.lt_of_not_le held]
      · rwa [same]
  · rintro (⟨modification, saved, publishes, affects, authoring, within, rfl⟩
      | ⟨member, within⟩)
    · exact ⟨modification, saved, publishes, affects, authoring,
        within.trans (past last answered).le, rfl⟩
    · rcases concerned number member with
        ⟨modification, saved, rfl, publishes, affects, authoring, -⟩
      exact ⟨modification, saved, publishes, affects, authoring, within, rfl⟩

theorem Ordered.inOrder (ordered : connection.Ordered host)
    (accounted : connection.Accounted host) : connection.InOrder host := by
  intro id window there
  have sent_sorted : window.sent.Pairwise (· < ·) :=
    (ordered.increasing id window there).sublist
      (List.filter_sublist.map Prod.fst)
  refine ⟨sent_sorted, ?_⟩
  intro projection through scope
  rcases accounted.window id projection through scope with
    ⟨other, other_there, same⟩
  cases there.symm.trans other_there
  refine ⟨same, ?_⟩
  intro last is_last State apply start idle
  have member := List.mem_of_getLast? is_last
  have answered : last ∈ window.numbers :=
    (List.filter_sublist.map Prod.fst).subset member
  have upTo : ∀ entry ∈ window.answers.filter Prod.snd,
      decide (entry.1 ≤ last) = true := by
    rcases List.getLast?_eq_some_iff.mp is_last with ⟨earlier, shape⟩
    rw [shape, List.pairwise_append] at sent_sorted
    intro entry listed
    have sent : entry.1 ∈ window.sent := List.mem_map_of_mem listed
    rw [shape] at sent
    rw [decide_eq_true_eq]
    rcases List.mem_append.mp sent with before | now
    · exact (sent_sorted.2.2 entry.1 before last
        (List.mem_singleton_self last)).le
    · rw [List.mem_singleton.mp now]
  have idle_upTo : ∀ number,
      (number, false) ∈ window.answers.filter
          (fun entry => decide (entry.1 ≤ last)) →
        ∀ state, apply state number = state :=
    fun number listed => idle number (List.mem_of_mem_filter listed)
  rw [stateAt, stateAt, ordered.heldAt_answered there scope answered,
    List.foldl_append, Window.numbers, List.filter_map, Window.sent,
    ← List.filter_eq_self.mpr upTo, List.filter_filter]
  rw [show (fun number => decide (number ≤ last)) ∘ Prod.fst
    = fun entry : Nat × Bool => decide (entry.1 ≤ last) from rfl,
    ← foldl_sent idle_upTo, List.filter_filter]
  simp only [Bool.and_comm]

end Folding

/--
In every run that loses no subscription a modification and begins each in its
turn, the patches between two snapshots are in the order of the modifications.
-/
theorem inOrder_of_inTurn [DecidableEq Delivery] (host : ServedHost)
    (toValue : Delivery → Option Json) (principal : Principal)
    (steps : List (ConnectionStep Delivery Snapshot Patch))
    (permitted : Machine.EveryStep (Connection.next host toValue)
      (fun connection step =>
        connection.Heeds host step ∧ connection.InTurn step) (.new principal)
      steps) :
    Machine.Throughout (Connection.next host toValue)
      (fun connection => connection.InOrder host) (.new principal) steps := by
  have keep : ∀ (connection : Connection Delivery Snapshot Patch) step,
      connection.Accounted host ∧ connection.Ordered host →
        connection.Heeds host step ∧ connection.InTurn step →
        (Connection.next host toValue connection step).Accounted host
          ∧ (Connection.next host toValue connection step).Ordered host :=
    fun _ _ held permitted =>
      ⟨held.1.next permitted.1,
        held.2.next held.1 permitted.1 permitted.2⟩
  have throughout := Machine.throughout_of_everyStep keep
    ⟨Accounted.new principal, Ordered.new principal⟩ permitted
  intro reached within
  rcases throughout reached within with ⟨accounted, ordered⟩
  exact ordered.inOrder accounted

end Connection

/-! ## Two renames -/

/-- A rename that is delivered is begun in its turn. -/
theorem renameDelivered_inTurn :
    Machine.EveryStep (Connection.next notesHost fun _ => none)
      (fun connection step => connection.InTurn step) notesConnection
      renameDelivered := by
  simp only [renameDelivered, subscribeToNotes, List.cons_append,
    List.nil_append, Machine.everyStep_cons]
  refine ⟨trivial, ?_, trivial, trivial, ?_, trivial, trivial, trivial,
    Machine.everyStep_nil _ _ _⟩
  · intro delivering member
    cases member
  · refine ⟨⟨(fun _ member => by cases member),
      (fun _ member => by cases member)⟩, ?_⟩
    intro modification rest shape other member
    cases shape
    rw [List.mem_singleton.mp member]
    exact .inl rfl

/-- A rename that is delivered leaves its subscription in order. -/
theorem inOrder_renameDelivered :
    (Machine.run (Connection.next notesHost fun _ => none) notesConnection
      renameDelivered).InOrder notesHost :=
  Connection.inOrder_of_inTurn notesHost (fun _ => none)
    { id := "ada", kind := .human } renameDelivered
    (fun reached step within =>
      ⟨renameDelivered_heeds reached step within,
        renameDelivered_inTurn reached step within⟩)
    renameDelivered (List.prefix_refl _)

/-- The connection's own rename is sent before the one that waits in its queue. -/
theorem own_rename_before_queued :
    ¬ (Machine.run (Connection.next notesHost fun _ => none) notesConnection
      (subscribeToNotes ++
        [.save (.mutation "note.rename"), .publish 0,
          .save (.mutation "note.rename"), .publishOwn 0, .number 0, .collect 0,
          .patch 0 (some ((), none, true)), .take, .number 1, .collect 1,
          .patch 1 (some ((), none, true))])).InOrder notesHost := by
  intro inOrder
  have sorted := (inOrder 1 { through := 0, answers := [(2, true), (1, true)] }
    (by decide +kernel)).1
  exact absurd sorted (by decide)

end Clerkenwell.Session
