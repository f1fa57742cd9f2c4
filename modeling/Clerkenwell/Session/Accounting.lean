import Clerkenwell.Session.Windows
import Mathlib.Data.List.Nodup
import Mathlib.Data.List.Perm.Basic

/-!
# Where every modification is

Every modification a subscription's snapshot does not hold is on its way to the
connection, is held by a snapshot the connection is to send, or was answered
once since the last snapshot.  Each step keeps this as long as it loses no
subscription a modification.
-/

namespace Clerkenwell.Session

open Clerkenwell.Foundation
open Clerkenwell.Doc

variable {Delivery Snapshot Patch : Type}

/-! ## Where a modification is -/

/-- A delivery has yet to decide what it sends a subscription. -/
def Delivering.Still (delivering : Delivering Delivery) (id : Nat) : Prop :=
  match delivering.stage with
  | .begun | .numbered _ => True
  | .sending _ remaining => id ∈ remaining.map Prod.fst

/-- A resynchronisation has yet to send a snapshot that holds a modification. -/
def ResyncingAll.Covers (resyncing : ResyncingAll Delivery Snapshot)
    (id number : Nat) : Prop :=
  id ∈ resyncing.remaining
    ∧ ∀ snapshot delivered, resyncing.read = some (snapshot, delivered) →
        resyncing.remaining.head? = some id → number ≤ snapshot.through

namespace Connection

variable (connection : Connection Delivery Snapshot Patch)

/-- A modification is on its way to a subscription. -/
def Awaits (id : Nat) (modification : Modification) : Prop :=
  modification ∈ connection.unpublished ∨ modification ∈ connection.queue
    ∨ ∃ delivering ∈ connection.deliveries,
        delivering.modification = modification ∧ delivering.Still id

/-- A subscription's next snapshot, after a lag, holds a modification. -/
def Restored (id number : Nat) : Prop :=
  ∃ resyncing ∈ connection.resyncs, resyncing.Covers id number

/-- A subscription was answered with a modification since its last snapshot. -/
def Answered (id number : Nat) : Prop :=
  ∃ window, windowOf connection.trail id = some window
    ∧ number ∈ window.numbers

/-- A modification affects a subscription, whose snapshot does not hold it. -/
def Concerned (host : ServedHost) (modification : Modification) (id : Nat) :
    Prop :=
  ∃ projection through,
    scopeOf connection.held id = some (projection, through)
      ∧ host.publishes modification.change = true
      ∧ host.concerns modification projection through = true

/-- No modification a snapshot lacks was delivered past its subscription. -/
def Fresh (host : ServedHost) (id : Nat) (projection : String)
    (through : Nat) : Prop :=
  ∀ modification ∈ connection.modifications,
    host.publishes modification.change = true →
    host.concerns modification projection through = true →
    connection.Awaits id modification
      ∨ connection.Restored id modification.number

/-- Every modification saved that has not come to an end on the connection. -/
def placed : List Modification :=
  connection.unpublished ++ connection.queue
    ++ connection.deliveries.map Delivering.modification

/--
A step loses no subscription a modification and sends none past its snapshot:
results and replies are encoded, updates too, a snapshot is installed only
before what it lacks is delivered, and a lag's snapshots are built.
-/
def Heeds (host : ServedHost) : ConnectionStep Delivery Snapshot Patch → Prop
  | .refuse index =>
      ∀ modification name, connection.unpublished[index]? = some modification →
        modification.change = .mutation name →
        ∀ id, ¬ connection.Concerned host modification id
  | .patch index answered =>
      ∀ modification revision id subscription rest projection through,
        connection.deliveries[index]?
          = some ⟨modification, .sending revision ((id, subscription) :: rest)⟩ →
        scopeOf connection.held id = some (projection, through) →
        ∀ patch delivered encodes,
          answered = some (patch, delivered, encodes) →
            (through < modification.number ↔ encodes = true)
  | .refuseReply index =>
      ∀ number name revision, connection.deliveries[index]?
          = some ⟨⟨number, .command name⟩, .sending revision []⟩ →
        ∀ modification ∈ connection.modifications,
          modification.number = number →
          ∀ id, connection.Concerned host modification id →
            ∀ window, windowOf connection.trail id = some window →
              (number, true) ∉ window.answers
  | .install index encodes =>
      encodes = true ∧
      ∀ installing, connection.installs[index]? = some installing →
        match installing.request with
        | .subscribe projection _ _ =>
            connection.Fresh host connection.held.nextSubscriptionId projection
              installing.snapshot.through
        | .resync id =>
            ∀ projection through,
              scopeOf connection.held id = some (projection, through) →
              connection.Fresh host id projection installing.snapshot.through
  | .readLagged index none =>
      ∀ id rest, connection.resyncs[index]?
          = some { remaining := id :: rest, read := none } →
        ∀ modification ∈ connection.modifications,
          connection.Concerned host modification id →
            connection.Awaits id modification
              ∨ connection.Answered id modification.number
  | .installLagged index encodes =>
      encodes = true ∧
      ∀ id rest snapshot delivered, connection.resyncs[index]?
          = some { remaining := id :: rest, read := some (snapshot, delivered) } →
        ∀ projection through,
          scopeOf connection.held id = some (projection, through) →
          connection.Fresh host id projection snapshot.through
  | _ => True

/-- Where every modification is, and what every window holds. -/
structure Accounted (host : ServedHost) : Prop where
  saved : ∀ modification ∈ connection.modifications,
    modification.number ≤ connection.last
  placed_saved : ∀ modification ∈ connection.placed,
    modification.number ≤ connection.last
  apart : (connection.placed.map Modification.number).Nodup
  remaining : ∀ delivering ∈ connection.deliveries, ∀ revision remaining,
    delivering.stage = .sending revision remaining →
      (remaining.map Prod.fst).Nodup
  window : ∀ id projection through,
    scopeOf connection.held id = some (projection, through) →
      ∃ window, windowOf connection.trail id = some window
        ∧ window.through = through
  told : ∀ id number, connection.Answered id number →
    ∃ delivering ∈ connection.deliveries,
      delivering.modification.number = number ∧ ¬ delivering.Still id
  once : ∀ id window, windowOf connection.trail id = some window →
    window.numbers.Nodup
      ∧ ∀ number, (number, true) ∈ window.answers → window.through < number
  complete : ∀ modification ∈ connection.modifications, ∀ id,
    connection.Concerned host modification id →
      connection.Awaits id modification
        ∨ connection.Restored id modification.number
        ∨ connection.Answered id modification.number

end Connection

/-! ## Calls taken further -/

section Tasks

variable {α : Type} {tasks : List α} {index : Nat} {task : α}

theorem mem_set_or_eq (found : tasks[index]? = some task) {other : α}
    (member : other ∈ tasks) (further : α) :
    other ∈ tasks.set index further ∨ other = task := by
  rcases List.mem_iff_getElem?.mp member with ⟨at_index, there⟩
  by_cases same : at_index = index
  · subst same
    exact .inr (Option.some.inj (there.symm.trans found))
  · left
    apply List.mem_iff_getElem?.mpr
    exact ⟨at_index, by rw [List.getElem?_set_ne (Ne.symm same)]; exact there⟩

theorem mem_set_self (found : tasks[index]? = some task) (further : α) :
    further ∈ tasks.set index further := by
  rcases List.getElem?_eq_some_iff.mp found with ⟨within, -⟩
  exact List.mem_set within further

theorem cons_eraseIdx_perm (found : tasks[index]? = some task) :
    (task :: tasks.eraseIdx index).Perm tasks := by
  rcases List.getElem?_eq_some_iff.mp found with ⟨within, rfl⟩
  exact List.getElem_cons_eraseIdx_perm within

theorem map_set_of_eq {β : Type} {get : α → β}
    (found : tasks[index]? = some task) {further : α}
    (same : get further = get task) :
    (tasks.set index further).map get = tasks.map get := by
  rw [List.map_set, same]
  apply List.ext_getElem?
  intro at_index
  rw [List.getElem?_set]
  split
  · rename_i equal
    subst equal
    split
    · rw [List.getElem?_map, found]
      rfl
    · rename_i past
      rw [List.getElem?_eq_none (by simpa using past)]
  · rfl

end Tasks

namespace Connection

variable {host : ServedHost}
variable {connection after : Connection Delivery Snapshot Patch}

/-- A step that sends nothing and loses no subscription a modification. -/
theorem Accounted.carried (accounted : connection.Accounted host)
    (last : connection.last ≤ after.last)
    (modifications : after.modifications = connection.modifications)
    (scopes : scopeOf after.held = scopeOf connection.held)
    (windows : windowOf after.trail = windowOf connection.trail)
    (placed : List.Subperm after.placed connection.placed)
    (remaining : ∀ delivering ∈ after.deliveries, ∀ revision remaining,
      delivering.stage = .sending revision remaining →
        (remaining.map Prod.fst).Nodup)
    (told : ∀ delivering ∈ connection.deliveries, ∀ id, ¬ delivering.Still id →
      ∃ further ∈ after.deliveries,
        further.modification.number = delivering.modification.number
          ∧ ¬ further.Still id)
    (kept : ∀ modification ∈ connection.modifications, ∀ id,
      connection.Concerned host modification id →
      connection.Awaits id modification
          ∨ connection.Restored id modification.number →
        after.Awaits id modification
          ∨ after.Restored id modification.number
          ∨ connection.Answered id modification.number) :
    after.Accounted host where
  saved := by
    rw [modifications]
    exact fun modification member =>
      (accounted.saved modification member).trans last
  placed_saved := fun modification member =>
    (accounted.placed_saved modification (placed.subset member)).trans last
  apart := by
    rcases placed with ⟨some_placed, permuted, within⟩
    exact (permuted.map Modification.number).nodup_iff.mp
      (accounted.apart.sublist (within.map Modification.number))
  remaining := remaining
  window := by
    rw [scopes, windows]
    exact accounted.window
  told := by
    intro id number answered
    rw [Answered, windows] at answered
    rcases accounted.told id number answered with
      ⟨delivering, member, same, ended⟩
    rcases told delivering member id ended with
      ⟨further, there, number_same, still⟩
    exact ⟨further, there, number_same.trans same, still⟩
  once := by
    rw [windows]
    exact accounted.once
  complete := by
    intro modification member id concerned
    rw [modifications] at member
    rw [Concerned, scopes] at concerned
    have answered_same : after.Answered id modification.number
        ↔ connection.Answered id modification.number := by
      rw [Answered, windows, Answered]
    rw [answered_same]
    rcases accounted.complete modification member id concerned with
      awaiting | restored | answered
    · exact kept modification member id concerned (.inl awaiting)
    · exact kept modification member id concerned (.inr restored)
    · exact .inr (.inr answered)

/-- A step that only takes modifications further on their way. -/
theorem Accounted.moved (accounted : connection.Accounted host)
    (last : connection.last ≤ after.last)
    (modifications : after.modifications = connection.modifications)
    (scopes : scopeOf after.held = scopeOf connection.held)
    (windows : windowOf after.trail = windowOf connection.trail)
    (resyncs : after.resyncs = connection.resyncs)
    (placed : List.Subperm after.placed connection.placed)
    (remaining : ∀ delivering ∈ after.deliveries, ∀ revision remaining,
      delivering.stage = .sending revision remaining →
        (remaining.map Prod.fst).Nodup)
    (told : ∀ delivering ∈ connection.deliveries, ∀ id, ¬ delivering.Still id →
      ∃ further ∈ after.deliveries,
        further.modification.number = delivering.modification.number
          ∧ ¬ further.Still id)
    (awaits : ∀ id modification,
      connection.Concerned host modification id →
      connection.Awaits id modification → after.Awaits id modification) :
    after.Accounted host := by
  refine accounted.carried last modifications scopes windows placed remaining
    told ?_
  rintro modification - id concerned (awaiting | restored)
  · exact .inl (awaits id modification concerned awaiting)
  · rw [Restored, resyncs]
    exact .inr (.inl restored)

variable [DecidableEq Delivery] {toValue : Delivery → Option Json}

theorem Accounted.save (accounted : connection.Accounted host)
    (change : Change) :
    (next host toValue connection (.save change)).Accounted host where
  saved := by
    intro modification member
    show modification.number ≤ connection.last + 1
    rcases List.mem_append.mp member with earlier | new
    · exact (accounted.saved modification earlier).trans (Nat.le_succ _)
    · rw [List.mem_singleton.mp new]
  placed_saved := by
    intro modification member
    show modification.number ≤ connection.last + 1
    simp only [placed, next, List.mem_append, List.mem_singleton] at member
    rcases member with ((early | rfl) | queued) | delivering
    · exact (accounted.placed_saved modification
        (by simp [placed, early])).trans (Nat.le_succ _)
    · exact le_rfl
    · exact (accounted.placed_saved modification
        (by simp [placed, queued])).trans (Nat.le_succ _)
    · exact (accounted.placed_saved modification
        (by simp [placed, delivering])).trans (Nat.le_succ _)
  apart := by
    have permuted : (next host toValue connection (.save change)).placed.Perm
        (⟨connection.last + 1, change⟩ :: connection.placed) := by
      simp only [placed, next, List.append_assoc, List.singleton_append]
      exact List.perm_middle
    rw [(permuted.map Modification.number).nodup_iff, List.map_cons,
      List.nodup_cons]
    refine ⟨?_, accounted.apart⟩
    intro taken
    rcases List.mem_map.mp taken with ⟨modification, member, same⟩
    have saved := accounted.placed_saved modification member
    rw [same] at saved
    exact absurd saved (Nat.not_succ_le_self _)
  remaining := accounted.remaining
  window := accounted.window
  told := accounted.told
  once := accounted.once
  complete := by
    intro modification member id concerned
    rcases List.mem_append.mp member with earlier | new
    · rcases accounted.complete modification earlier id concerned with
        (unpublished | further) | restored | answered
      · exact .inl (.inl (List.mem_append_left _ unpublished))
      · exact .inl (.inr further)
      · exact .inr (.inl restored)
      · exact .inr (.inr answered)
    · exact .inl (.inl (List.mem_append_right _ new))

omit [DecidableEq Delivery] in
/-- A delivery of a modification that is begun is yet to decide everything. -/
theorem begun_awaits {modification : Modification} {id : Nat}
    (member : ⟨modification, .begun⟩ ∈ connection.deliveries) :
    connection.Awaits id modification :=
  .inr (.inr ⟨_, member, rfl, trivial⟩)

theorem Accounted.publish (accounted : connection.Accounted host)
    (index : Nat) :
    (next host toValue connection (.publish index)).Accounted host := by
  unfold next
  dsimp only
  split
  · exact accounted
  · rename_i modification found
    have permuted := cons_eraseIdx_perm found
    refine accounted.moved (le_refl _) rfl rfl rfl rfl ?_ accounted.remaining
      (fun delivering member id ended => ⟨delivering, member, rfl, ended⟩) ?_
    · apply List.Perm.subperm
      simp only [placed, List.append_assoc, List.singleton_append]
      rw [← List.append_assoc]
      refine List.perm_middle.trans ?_
      rw [List.append_assoc]
      exact permuted.append_right _
    · rintro id other _ (unpublished | queued | delivering)
      · rcases List.mem_cons.mp (permuted.mem_iff.mpr unpublished) with
          rfl | still
        · exact .inr (.inl (List.mem_append_right _ (by simp)))
        · exact .inl still
      · exact .inr (.inl (List.mem_append_left _ queued))
      · exact .inr (.inr delivering)

theorem Accounted.publishOwn (accounted : connection.Accounted host)
    (index : Nat) :
    (next host toValue connection (.publishOwn index)).Accounted host := by
  unfold next
  dsimp only
  split
  · exact accounted
  · rename_i modification found
    have permuted := cons_eraseIdx_perm found
    refine accounted.moved (le_refl _) rfl rfl rfl rfl ?_ ?_ ?_ ?_
    · apply List.Perm.subperm
      simp only [placed, List.map_append, List.map_cons, List.map_nil]
      rw [← List.append_assoc]
      refine List.perm_middle.trans ?_
      rw [List.append_nil, List.append_assoc, List.append_assoc]
      exact permuted.append_right _
    · intro delivering member revision remaining stage
      rcases List.mem_append.mp member with earlier | new
      · exact accounted.remaining delivering earlier revision remaining stage
      · rw [List.mem_singleton.mp new] at stage
        cases stage
    · exact fun delivering member id ended =>
        ⟨delivering, List.mem_append_left _ member, rfl, ended⟩
    · rintro id other _ (unpublished | queued | ⟨delivering, member, rest⟩)
      · rcases List.mem_cons.mp (permuted.mem_iff.mpr unpublished) with
          rfl | still
        · exact begun_awaits (List.mem_append_right _ (by simp))
        · exact .inl still
      · exact .inr (.inl queued)
      · exact .inr (.inr
          ⟨delivering, List.mem_append_left _ member, rest⟩)

theorem Accounted.take (accounted : connection.Accounted host) :
    (next host toValue connection .take).Accounted host := by
  unfold next
  dsimp only
  split
  · exact accounted
  · rename_i modification rest shape
    refine accounted.moved (le_refl _) rfl rfl rfl rfl ?_ ?_ ?_ ?_
    · apply List.Perm.subperm
      simp only [placed, shape, List.map_append, List.map_cons, List.map_nil]
      rw [← List.append_assoc]
      refine List.perm_middle.trans ?_
      rw [List.append_nil, List.append_assoc, List.append_assoc,
        List.cons_append]
      exact List.perm_middle.symm
    · intro delivering member revision remaining stage
      rcases List.mem_append.mp member with earlier | new
      · exact accounted.remaining delivering earlier revision remaining stage
      · rw [List.mem_singleton.mp new] at stage
        cases stage
    · exact fun delivering member id ended =>
        ⟨delivering, List.mem_append_left _ member, rfl, ended⟩
    · rintro id other _ (unpublished | queued | ⟨delivering, member, still⟩)
      · exact .inl unpublished
      · rw [shape] at queued
        rcases List.mem_cons.mp queued with rfl | later
        · exact begun_awaits (List.mem_append_right _ (by simp))
        · exact .inr (.inl later)
      · exact .inr (.inr
          ⟨delivering, List.mem_append_left _ member, still⟩)

omit [DecidableEq Delivery] in
theorem modifications_set {deliveries : List (Delivering Delivery)}
    {index : Nat} {modification : Modification} {stage : DeliveryStage Delivery}
    (found : deliveries[index]? = some ⟨modification, stage⟩)
    (further : DeliveryStage Delivery) :
    (deliveries.set index ⟨modification, further⟩).map Delivering.modification
      = deliveries.map Delivering.modification :=
  map_set_of_eq found rfl

omit [DecidableEq Delivery] in
/-- A delivery that sent nothing came further. -/
theorem Accounted.advanced (accounted : connection.Accounted host)
    {index : Nat} {modification : Modification} {stage : DeliveryStage Delivery}
    (found : connection.deliveries[index]? = some ⟨modification, stage⟩)
    (further : DeliveryStage Delivery)
    (remaining : ∀ revision remaining, further = .sending revision remaining →
      (remaining.map Prod.fst).Nodup)
    (ongoing : ∀ id, Delivering.Still ⟨modification, stage⟩ id)
    (still : ∀ id, connection.Concerned host modification id →
      Delivering.Still ⟨modification, further⟩ id) :
    Accounted
      { connection with
        deliveries := connection.deliveries.set index ⟨modification, further⟩ }
      host := by
  refine accounted.moved (le_refl _) rfl rfl rfl rfl ?_ ?_ ?_ ?_
  · apply List.Perm.subperm
    simp only [placed]
    rw [modifications_set found]
  · intro delivering member revision others stage_eq
    rcases List.mem_or_eq_of_mem_set member with earlier | rfl
    · exact accounted.remaining delivering earlier revision others stage_eq
    · exact remaining revision others stage_eq
  · intro delivering member id ended
    rcases mem_set_or_eq found member _ with kept | rfl
    · exact ⟨delivering, kept, rfl, ended⟩
    · exact absurd (ongoing id) ended
  · rintro id other concerned
      (unpublished | queued | ⟨delivering, member, same, awaiting⟩)
    · exact .inl unpublished
    · exact .inr (.inl queued)
    · rcases mem_set_or_eq found member _ with kept | rfl
      · exact .inr (.inr ⟨delivering, kept, same, awaiting⟩)
      · subst same
        exact .inr (.inr ⟨_, mem_set_self found _, rfl, still id concerned⟩)

theorem Accounted.number (accounted : connection.Accounted host)
    (index : Nat) :
    (next host toValue connection (.number index)).Accounted host := by
  unfold next
  dsimp only
  split
  · rename_i modification found
    apply accounted.advanced found
    · intro revision remaining stage
      cases stage
    · exact fun _ => trivial
    · exact fun _ _ => trivial
  · exact accounted

omit [DecidableEq Delivery] in
/-- A modification concerns the subscriptions its delivery collects. -/
theorem mem_affected_iff {modification : Modification}
    {held : ProjectionSubscriptions Delivery} {id : Nat} :
    id ∈ (host.affected modification held).map Prod.fst
      ↔ ∃ projection through,
        scopeOf held id = some (projection, through)
          ∧ host.publishes modification.change = true
          ∧ host.concerns modification projection through = true := by
  unfold ServedHost.affected
  constructor
  · intro member
    rcases List.mem_map.mp member with ⟨⟨there, subscription⟩, listed, rfl⟩
    split at listed
    · rename_i publishes
      rcases List.mem_filter.mp listed with ⟨present, concerned⟩
      have got := Std.ExtTreeMap.mem_toList_iff_getElem?_eq_some.mp present
      refine ⟨subscription.projection, subscription.through, ?_, publishes,
        concerned⟩
      rw [scopeOf, ProjectionSubscriptions.get, got]
      rfl
    · cases listed
  · rintro ⟨projection, through, scope, publishes, concerned⟩
    rcases Option.map_eq_some_iff.mp scope with ⟨subscription, got, same⟩
    cases same
    rw [if_pos publishes]
    apply List.mem_map.mpr
    refine ⟨(id, subscription), List.mem_filter.mpr ⟨?_, concerned⟩, rfl⟩
    exact Std.ExtTreeMap.mem_toList_iff_getElem?_eq_some.mpr got

omit [DecidableEq Delivery] in
theorem nodup_affected {modification : Modification}
    {held : ProjectionSubscriptions Delivery} :
    ((host.affected modification held).map Prod.fst).Nodup := by
  unfold ServedHost.affected
  split
  · have keys : (held.subscriptions.toList.map Prod.fst).Nodup := by
      rw [Std.ExtTreeMap.map_fst_toList_eq_keys]
      exact Std.ExtTreeMap.nodup_keys
    exact keys.sublist (List.filter_sublist.map Prod.fst)
  · exact List.nodup_nil

theorem Accounted.collect (accounted : connection.Accounted host)
    (index : Nat) :
    (next host toValue connection (.collect index)).Accounted host := by
  unfold next
  dsimp only
  split
  · rename_i modification revision found
    apply accounted.advanced found
    · intro other remaining stage
      cases stage
      exact nodup_affected
    · exact fun _ => trivial
    · exact fun id concerned => mem_affected_iff.mpr concerned
  · exact accounted

theorem Accounted.refuse (accounted : connection.Accounted host)
    (index : Nat) (heeds : connection.Heeds host (.refuse index)) :
    (next host toValue connection (.refuse index)).Accounted host := by
  unfold next
  dsimp only
  split
  · rename_i number name found
    have permuted := cons_eraseIdx_perm found
    refine accounted.moved (le_refl _) rfl rfl rfl rfl ?_ accounted.remaining
      (fun delivering member id ended => ⟨delivering, member, rfl, ended⟩) ?_
    · apply List.Sublist.subperm
      simp only [placed]
      exact ((List.eraseIdx_sublist _ _).append_right _).append_right _
    · rintro id other concerned (unpublished | queued | delivering)
      · rcases List.mem_cons.mp (permuted.mem_iff.mpr unpublished) with
          rfl | still
        · exact absurd concerned (heeds _ name found rfl id)
        · exact .inl still
      · exact .inr (.inl queued)
      · exact .inr (.inr delivering)
  · exact accounted

/-! ## Answers -/

section Sending

variable {index revision id : Nat} {modification : Modification}
variable {subscription : ProjectionSubscription Delivery}
variable {rest : List (Nat × ProjectionSubscription Delivery)}

omit [DecidableEq Delivery] in
/-- A delivery that sent its next subscription nothing. -/
theorem Accounted.passedOver (accounted : connection.Accounted host)
    (found : connection.deliveries[index]?
      = some ⟨modification, .sending revision ((id, subscription) :: rest)⟩)
    (unconcerned : ¬ connection.Concerned host modification id)
    {held : ProjectionSubscriptions Delivery}
    {trail : List (Trail Snapshot Patch)}
    (scopes : scopeOf held = scopeOf connection.held)
    (windows : windowOf trail = windowOf connection.trail) :
    Accounted
      { connection with
        deliveries :=
          connection.deliveries.set index
            ⟨modification, .sending revision rest⟩
        held := held
        trail := trail } host := by
  have nodup := accounted.remaining _ (List.mem_of_getElem? found) revision _
    rfl
  rw [List.map_cons, List.nodup_cons] at nodup
  refine accounted.moved (le_refl _) rfl scopes windows rfl ?_ ?_ ?_ ?_
  · apply List.Perm.subperm
    simp only [placed]
    rw [modifications_set found]
  · intro delivering member other remaining stage
    rcases List.mem_or_eq_of_mem_set member with earlier | rfl
    · exact accounted.remaining delivering earlier other remaining stage
    · cases stage
      exact nodup.2
  · intro delivering member other ended
    rcases mem_set_or_eq found member _ with kept | rfl
    · exact ⟨delivering, kept, rfl, ended⟩
    · refine ⟨_, mem_set_self found _, rfl, ?_⟩
      exact fun still => ended (List.mem_cons_of_mem _ still)
  · rintro other another concerned
      (unpublished | queued | ⟨delivering, member, same, still⟩)
    · exact .inl unpublished
    · exact .inr (.inl queued)
    · rcases mem_set_or_eq found member _ with kept | rfl
      · exact .inr (.inr ⟨delivering, kept, same, still⟩)
      · subst same
        rcases List.mem_cons.mp still with rfl | later
        · exact absurd concerned unconcerned
        · exact .inr (.inr ⟨_, mem_set_self found _, rfl, later⟩)

theorem windowOf_answered (trail : List (Trail Snapshot Patch))
    (answered number other : Nat) (update : Option (Update Snapshot Patch)) :
    windowOf (trail ++ [.answered answered number update]) other
      = if answered = other then
          (windowOf trail other).map fun window =>
            window.add number update.isSome
        else windowOf trail other :=
  windowOf_append trail _ other

theorem mem_numbers_add {window : Window} {number added : Nat} {sent : Bool} :
    number ∈ (window.add added sent).numbers
      ↔ number ∈ window.numbers ∨ number = added := by
  simp [Window.add, Window.numbers]

/-- What was answered stays answered when another answer follows. -/
theorem mem_numbers_answered {trail : List (Trail Snapshot Patch)}
    {answered number other told : Nat}
    {update : Option (Update Snapshot Patch)} :
    (∃ window, windowOf (trail ++ [.answered answered number update]) other
        = some window ∧ told ∈ window.numbers)
      ↔ (∃ window, windowOf trail other = some window ∧ told ∈ window.numbers)
        ∨ (answered = other ∧ told = number
          ∧ (windowOf trail other).isSome = true) := by
  rw [windowOf_answered]
  split
  · rename_i same
    constructor
    · rintro ⟨window, there, member⟩
      rcases Option.map_eq_some_iff.mp there with ⟨earlier, held, rfl⟩
      rcases mem_numbers_add.mp member with before | now
      · exact .inl ⟨earlier, held, before⟩
      · exact .inr ⟨same, now, by rw [held]; rfl⟩
    · rintro (⟨window, held, member⟩ | ⟨-, rfl, present⟩)
      · exact ⟨_, by rw [held]; rfl, mem_numbers_add.mpr (.inl member)⟩
      · rcases Option.isSome_iff_exists.mp present with ⟨window, held⟩
        exact ⟨_, by rw [held]; rfl, mem_numbers_add.mpr (.inr rfl)⟩
  · rename_i other_id
    constructor
    · exact .inl
    · rintro (held | ⟨same, -⟩)
      · exact held
      · exact absurd same other_id

omit [DecidableEq Delivery] in
/-- A delivery is yet to answer the next of its subscriptions. -/
theorem Accounted.not_answered (accounted : connection.Accounted host)
    (found : connection.deliveries[index]?
      = some ⟨modification, .sending revision ((id, subscription) :: rest)⟩) :
    ¬ connection.Answered id modification.number := by
  intro answered
  rcases accounted.told id modification.number answered with
    ⟨delivering, member, same, ended⟩
  rcases List.mem_iff_getElem?.mp member with ⟨other, there⟩
  have numbers := accounted.apart
  rw [placed, List.map_append] at numbers
  have apart := (List.nodup_append.mp numbers).2.1
  have at_index : ((connection.deliveries.map Delivering.modification).map
      Modification.number)[index]? = some modification.number := by
    simp [found]
  have at_other : ((connection.deliveries.map Delivering.modification).map
      Modification.number)[other]? = some modification.number := by
    simp [there, same]
  have equal : index = other := by
    rcases List.getElem?_eq_some_iff.mp at_index with ⟨within, first⟩
    rcases List.getElem?_eq_some_iff.mp at_other with ⟨within_other, second⟩
    exact apart.getElem_inj_iff.mp (first.trans second.symm)
  subst equal
  rw [found] at there
  cases there
  exact ended List.mem_cons_self

omit [DecidableEq Delivery] in
/-- A delivery that answered its next subscription. -/
theorem Accounted.answered (accounted : connection.Accounted host)
    (found : connection.deliveries[index]?
      = some ⟨modification, .sending revision ((id, subscription) :: rest)⟩)
    {held : ProjectionSubscriptions Delivery}
    {update : Option (Update Snapshot Patch)}
    (scopes : scopeOf held = scopeOf connection.held)
    (past : update.isSome = true → ∀ window,
      windowOf connection.trail id = some window →
        window.through < modification.number) :
    Accounted
      { connection with
        deliveries :=
          connection.deliveries.set index
            ⟨modification, .sending revision rest⟩
        held := held
        trail := connection.trail ++
          [.answered id modification.number update] } host := by
  have nodup := accounted.remaining _ (List.mem_of_getElem? found) revision _
    rfl
  rw [List.map_cons, List.nodup_cons] at nodup
  have placed_same : placed
      { connection with
        deliveries :=
          connection.deliveries.set index
            ⟨modification, .sending revision rest⟩
        held := held
        trail := connection.trail ++
          [.answered id modification.number update] }
      = connection.placed := by
    simp only [placed]
    rw [modifications_set found]
  constructor
  · exact accounted.saved
  · rw [placed_same]
    exact accounted.placed_saved
  · rw [placed_same]
    exact accounted.apart
  · intro delivering member other remaining stage
    rcases List.mem_or_eq_of_mem_set member with earlier | rfl
    · exact accounted.remaining delivering earlier other remaining stage
    · cases stage
      exact nodup.2
  · intro other projection through scope
    rw [scopes] at scope
    rcases accounted.window other projection through scope with
      ⟨window, there, same⟩
    show ∃ window, windowOf (connection.trail ++ _) other = some window ∧ _
    rw [windowOf_answered]
    split
    · rw [there]
      exact ⟨_, rfl, same⟩
    · exact ⟨window, there, same⟩
  · intro other number told
    rcases mem_numbers_answered.mp told with before | ⟨rfl, rfl, -⟩
    · rcases accounted.told other number before with
        ⟨delivering, member, same, ended⟩
      rcases mem_set_or_eq found member _ with kept | rfl
      · exact ⟨delivering, kept, same, ended⟩
      · refine ⟨_, mem_set_self found _, same, ?_⟩
        exact fun still => ended (List.mem_cons_of_mem _ still)
    · exact ⟨_, mem_set_self found _, rfl, nodup.1⟩
  · intro other window there
    have appended : (if id = other then
          (windowOf connection.trail other).map fun window =>
            window.add modification.number update.isSome
        else windowOf connection.trail other) = some window := by
      rw [← windowOf_answered]
      exact there
    split at appended
    · rename_i same
      subst same
      rcases Option.map_eq_some_iff.mp appended with ⟨earlier, held_there, rfl⟩
      rcases accounted.once id earlier held_there with ⟨unique, sent⟩
      have new : modification.number ∉ earlier.numbers := fun member =>
        accounted.not_answered found ⟨earlier, held_there, member⟩
      constructor
      · simp only [Window.add, Window.numbers, List.map_append, List.map_cons,
          List.map_nil]
        rw [List.nodup_append]
        refine ⟨unique, List.pairwise_singleton _ _, ?_⟩
        rintro number earlier_member _ last rfl
        rw [List.mem_singleton] at last
        subst last
        exact new earlier_member
      · intro number member
        rcases List.mem_append.mp member with before | now
        · exact sent number before
        · rcases Prod.mk.injEq _ _ _ _ ▸ List.mem_singleton.mp now with
            ⟨rfl, patched⟩
          exact past patched.symm earlier held_there
    · exact accounted.once other window appended
  · intro another member other concerned
    have before : connection.Concerned host another other := by
      rw [Concerned] at concerned ⊢
      rwa [← scopes]
    rcases accounted.complete another member other before with
      (unpublished | queued | ⟨delivering, listed, same, still⟩)
        | restored | told
    · exact .inl (.inl unpublished)
    · exact .inl (.inr (.inl queued))
    · rcases mem_set_or_eq found listed _ with kept | rfl
      · exact .inl (.inr (.inr ⟨delivering, kept, same, still⟩))
      · subst same
        rcases List.mem_cons.mp still with rfl | later
        · rcases before with ⟨projection, through, scope, -⟩
          rcases accounted.window _ projection through scope with
            ⟨window, there, -⟩
          refine .inr (.inr (mem_numbers_answered.mpr ?_))
          exact .inr ⟨rfl, rfl, by rw [there]; rfl⟩
        · exact .inl (.inr (.inr ⟨_, mem_set_self found _, rfl, later⟩))
    · exact .inr (.inl restored)
    · exact .inr (.inr (mem_numbers_answered.mpr (.inl told)))

end Sending

omit [DecidableEq Delivery] in
/-- A subscription whose window is there is one whose snapshot it follows. -/
theorem Accounted.through_of_scope (accounted : connection.Accounted host)
    {id through : Nat} {projection : String} {window : Window}
    (scope : scopeOf connection.held id = some (projection, through))
    (there : windowOf connection.trail id = some window) :
    window.through = through := by
  rcases accounted.window id projection through scope with
    ⟨other, present, same⟩
  cases there.symm.trans present
  exact same

theorem Accounted.patch (accounted : connection.Accounted host)
    (index : Nat) (answered : Option (Patch × Option Delivery × Bool))
    (heeds : connection.Heeds host (.patch index answered)) :
    (next host toValue connection (.patch index answered)).Accounted host := by
  unfold next
  dsimp only
  split
  · rename_i modification revision id subscription rest found
    match answered with
    | none =>
        refine accounted.answered found rfl ?_
        intro patched
        cases patched
    | some (patch, delivered, encodes) =>
        let operation : SubscriptionOperation Delivery Snapshot Patch :=
          .deliverPatch id revision patch delivered
        have scopes : scopeOf
            (Served.perform toValue connection.held operation).2
              = scopeOf connection.held :=
          funext fun other => scopeOf_perform operation other
        have heeded : ∀ projection through,
            scopeOf connection.held id = some (projection, through) →
              (through < modification.number ↔ encodes = true) :=
          fun projection through scope => heeds modification revision id
            subscription rest projection through found scope patch delivered
            encodes rfl
        unfold operate
        dsimp only
        rcases @updates_deliverPatch _ Snapshot _ _ toValue connection.held id
            revision patch delivered with
          ⟨absent, none_sent⟩ | ⟨update, present, same, sent⟩
        · rw [none_sent]
          refine accounted.passedOver found ?_ scopes ?_
          · rintro ⟨projection, through, scope, -⟩
            rw [absent] at scope
            cases scope
          · rw [List.map_nil, List.append_nil]
        · rw [sent]
          rcases Option.isSome_iff_exists.mp present with
            ⟨⟨projection, through⟩, scope⟩
          cases encodes with
          | true =>
              refine accounted.answered found scopes ?_
              intro _ window there
              rw [accounted.through_of_scope scope there]
              exact (heeded projection through scope).mpr rfl
          | false =>
              refine accounted.passedOver found ?_ scopes ?_
              · rintro ⟨other, held, there, -, concerned⟩
                rw [scope] at there
                cases there
                simp only [ServedHost.concerns, Bool.and_eq_true,
                  decide_eq_true_eq] at concerned
                have encoded := (heeded _ _ scope).mp concerned.2
                cases encoded
              · funext other
                exact windowOf_append _ _ other
  · exact accounted

omit [DecidableEq Delivery] in
/-- A step that touches no modification, subscription or window. -/
theorem Accounted.unmoved (accounted : connection.Accounted host)
    {installs : List (Installing Delivery Snapshot)}
    {held : ProjectionSubscriptions Delivery}
    {trail : List (Trail Snapshot Patch)}
    (scopes : scopeOf held = scopeOf connection.held)
    (windows : windowOf trail = windowOf connection.trail) :
    Accounted
      { connection with installs := installs, held := held, trail := trail }
      host := by
  refine accounted.moved (le_refl _) rfl scopes windows rfl ?_
    accounted.remaining
    (fun delivering member id ended => ⟨delivering, member, rfl, ended⟩)
    (fun _ _ _ awaiting => awaiting)
  exact (List.Perm.refl _).subperm

theorem Accounted.refuseReply (accounted : connection.Accounted host)
    (index : Nat) (heeds : connection.Heeds host (.refuseReply index)) :
    (next host toValue connection (.refuseReply index)).Accounted host := by
  unfold next
  dsimp only
  split
  · rename_i number name revision found
    constructor
    · exact accounted.saved
    · exact accounted.placed_saved
    · exact accounted.apart
    · exact accounted.remaining
    · intro id projection through scope
      rcases accounted.window id projection through scope with
        ⟨window, there, same⟩
      show ∃ window, windowOf (connection.trail.map _) id = some window ∧ _
      rw [windowOf_withheld, there]
      exact ⟨_, rfl, same⟩
    · rintro id told ⟨window, there, member⟩
      have withheld_there : (windowOf connection.trail id).map
          (Window.without number) = some window := by
        rw [← windowOf_withheld]
        exact there
      rcases Option.map_eq_some_iff.mp withheld_there with
        ⟨earlier, held, rfl⟩
      apply accounted.told id told
      refine ⟨earlier, held, ?_⟩
      rcases List.mem_map.mp member with ⟨entry, listed, same⟩
      exact List.mem_map.mpr ⟨entry, List.mem_of_mem_filter listed, same⟩
    · intro id window there
      have withheld_there : (windowOf connection.trail id).map
          (Window.without number) = some window := by
        rw [← windowOf_withheld]
        exact there
      rcases Option.map_eq_some_iff.mp withheld_there with
        ⟨earlier, held, rfl⟩
      rcases accounted.once id earlier held with ⟨unique, sent⟩
      constructor
      · exact unique.sublist (List.filter_sublist.map Prod.fst)
      · exact fun other member => sent other (List.mem_of_mem_filter member)
    · intro modification member id concerned
      rcases accounted.complete modification member id concerned with
        awaiting | restored | ⟨window, there, listed⟩
      · exact .inl awaiting
      · exact .inr (.inl restored)
      · refine .inr (.inr ⟨window.without number, ?_, ?_⟩)
        · show windowOf (connection.trail.map _) id = _
          rw [windowOf_withheld, there]
          rfl
        · rcases List.mem_map.mp listed with ⟨⟨answered, sent⟩, entry, rfl⟩
          refine List.mem_map.mpr ⟨(modification.number, sent), ?_, rfl⟩
          refine List.mem_filter.mpr ⟨entry, ?_⟩
          cases sent with
          | false => simp
          | true =>
              have other : modification.number ≠ number := by
                intro same
                refine heeds number name revision found modification member
                  same id concerned window there ?_
                rw [← same]
                exact entry
              simp [other]
  · exact accounted

theorem Accounted.read (accounted : connection.Accounted host)
    (request : SnapshotRequest Delivery) (snapshot : Snapshot)
    (delivered : Option Delivery) :
    (next host toValue connection
      (.read request snapshot delivered)).Accounted host :=
  accounted.unmoved rfl rfl

theorem Accounted.unsubscribe (accounted : connection.Accounted host)
    (id : Nat) :
    (next host toValue connection (.unsubscribe id)).Accounted host := by
  have scopes : ∀ other, scopeOf (connection.held.remove id).2 other
      = if id = other then none else scopeOf connection.held other :=
    fun other => @scopeOf_perform Delivery Snapshot Patch _ toValue
      connection.held (.remove id) other
  have kept : ∀ other scope,
      scopeOf (connection.held.remove id).2 other = some scope →
        scopeOf connection.held other = some scope := by
    intro other scope there
    rw [scopes] at there
    split at there
    · cases there
    · exact there
  have trail_same : (next host toValue connection (.unsubscribe id)).trail
      = connection.trail := List.append_nil _
  constructor
  · exact accounted.saved
  · exact accounted.placed_saved
  · exact accounted.apart
  · exact accounted.remaining
  · rw [trail_same]
    exact fun other projection through scope =>
      accounted.window other projection through (kept other _ scope)
  · intro other number told
    rw [Answered, trail_same] at told
    exact accounted.told other number told
  · rw [trail_same]
    exact accounted.once
  · rintro modification member other ⟨projection, through, scope, rest⟩
    rw [Answered, trail_same]
    exact accounted.complete modification member other
      ⟨projection, through, kept other _ scope, rest⟩

/-! ## Snapshots -/

/-- A lag leaves every subscription to be resynchronised. -/
theorem Accounted.lag (accounted : connection.Accounted host) :
    (next host toValue connection .lag).Accounted host := by
  have windows : windowOf (next host toValue connection .lag).trail
      = windowOf connection.trail := by
    funext id
    apply windowOf_append_of_idle
    intro entry member window
    rcases List.mem_flatMap.mp member with ⟨listed, -, lost⟩
    rcases List.mem_map.mp lost with ⟨modification, -, rfl⟩
    rfl
  refine accounted.carried (le_refl _) rfl rfl windows ?_ accounted.remaining
    (fun delivering member id ended => ⟨delivering, member, rfl, ended⟩) ?_
  · apply List.Sublist.subperm
    simp only [placed, next, List.append_nil]
    exact (List.sublist_append_left _ _).append_right _
  · rintro modification member id ⟨projection, through, scope, rest⟩
      ((unpublished | queued | delivering) | restored)
    · exact .inl (.inl unpublished)
    · right
      left
      refine ⟨_, List.mem_append_right _ (List.mem_singleton_self _), ?_, ?_⟩
      · rcases Option.map_eq_some_iff.mp scope with ⟨subscription, got, -⟩
        apply List.mem_map.mpr
        exact ⟨(id, subscription),
          Std.ExtTreeMap.mem_toList_iff_getElem?_eq_some.mpr got, rfl⟩
      · intro snapshot delivered read
        cases read
    · exact .inl (.inr (.inr delivering))
    · rcases restored with ⟨resyncing, there, covers⟩
      exact .inr (.inl ⟨resyncing, List.mem_append_left _ there, covers⟩)

theorem Accounted.readLagged (accounted : connection.Accounted host)
    (index : Nat) (answered : Option (Snapshot × Option Delivery))
    (heeds : connection.Heeds host (.readLagged index answered)) :
    (next host toValue connection
      (.readLagged index answered)).Accounted host := by
  unfold next
  dsimp only
  split
  · rename_i next_id rest found
    refine accounted.carried (le_refl _) rfl rfl rfl
      (List.Perm.refl _).subperm accounted.remaining
      (fun delivering member id ended => ⟨delivering, member, rfl, ended⟩) ?_
    rintro modification member id concerned (awaiting | restored)
    · exact .inl awaiting
    · rcases restored with ⟨resyncing, there, listed, covers⟩
      rcases mem_set_or_eq found there _ with kept | rfl
      · exact .inr (.inl ⟨resyncing, kept, listed, covers⟩)
      · rcases List.mem_cons.mp listed with rfl | later
        · rcases heeds _ _ found modification member concerned with
            awaiting | answered
          · exact .inl awaiting
          · exact .inr (.inr answered)
        · right
          left
          refine ⟨_, mem_set_self found _, later, ?_⟩
          intro snapshot delivered read
          cases read
  · rename_i next_id rest snapshot delivered found
    refine accounted.carried (le_refl _) rfl rfl rfl
      (List.Perm.refl _).subperm accounted.remaining
      (fun delivering member id ended => ⟨delivering, member, rfl, ended⟩) ?_
    rintro modification member id concerned (awaiting | restored)
    · exact .inl awaiting
    · rcases restored with ⟨resyncing, there, listed, covers⟩
      rcases mem_set_or_eq found there _ with kept | rfl
      · exact .inr (.inl ⟨resyncing, kept, listed, covers⟩)
      · right
        left
        refine ⟨_, mem_set_self found _, listed, ?_⟩
        intro read_snapshot read_delivered read _
        cases read
        exact accounted.saved modification member
  · exact accounted

omit [DecidableEq Delivery] in
/-- A subscription is shown a snapshot that nothing it lacks was sent past. -/
theorem Accounted.shown (accounted : connection.Accounted host)
    {id through : Nat} {projection : String}
    {update : Update Snapshot Patch}
    {held : ProjectionSubscriptions Delivery}
    {installs : List (Installing Delivery Snapshot)}
    {resyncs : List (ResyncingAll Delivery Snapshot)}
    (subject : update.subscriptionId = id)
    (scopes : ∀ other, scopeOf held other
      = if id = other then some (projection, through)
        else scopeOf connection.held other)
    (fresh : connection.Fresh host id projection through)
    (restored : ∀ other number, (other = id → through < number) →
      connection.Restored other number →
      ∃ resyncing ∈ resyncs, resyncing.Covers other number) :
    Accounted
      { connection with
        installs := installs
        resyncs := resyncs
        held := held
        trail := connection.trail ++ [.shown through update] } host := by
  have windows : ∀ other, windowOf
      (connection.trail ++ [.shown through update]) other
        = if id = other then some { through := through, answers := [] }
          else windowOf connection.trail other := by
    intro other
    rw [windowOf_append, ← subject]
    rfl
  constructor
  · exact accounted.saved
  · exact accounted.placed_saved
  · exact accounted.apart
  · exact accounted.remaining
  · intro other shownProjection shownThrough scope
    rw [scopes] at scope
    show ∃ window, windowOf (connection.trail ++ _) other = some window ∧ _
    rw [windows]
    split at scope
    · rename_i same
      cases scope
      rw [if_pos same]
      exact ⟨_, rfl, rfl⟩
    · rename_i different
      rw [if_neg different]
      exact accounted.window other shownProjection shownThrough scope
  · rintro other number ⟨window, there, member⟩
    have shown : (if id = other then
        some { through := through, answers := [] }
        else windowOf connection.trail other) = some window := by
      rw [← windows]
      exact there
    split at shown
    · cases shown
      cases member
    · exact accounted.told other number ⟨window, shown, member⟩
  · intro other window there
    have shown : (if id = other then
        some { through := through, answers := [] }
        else windowOf connection.trail other) = some window := by
      rw [← windows]
      exact there
    split at shown
    · cases shown
      refine ⟨List.nodup_nil, ?_⟩
      intro number member
      cases member
    · exact accounted.once other window shown
  · rintro modification member other
      ⟨concernedProjection, concernedThrough, scope, publishes, concerned⟩
    rw [scopes] at scope
    split at scope
    · rename_i same
      cases scope
      subst same
      rcases fresh modification member publishes concerned with
        awaiting | covered
      · exact .inl awaiting
      · refine .inr (.inl (restored _ _ ?_ covered))
        intro _
        simp only [ServedHost.concerns, Bool.and_eq_true,
          decide_eq_true_eq] at concerned
        exact concerned.2
    · rename_i different
      rcases accounted.complete modification member other
          ⟨concernedProjection, concernedThrough, scope, publishes,
            concerned⟩ with
        awaiting | covered | ⟨window, there, listed⟩
      · exact .inl awaiting
      · exact .inr (.inl (restored _ _
          (fun same => absurd same.symm different) covered))
      · refine .inr (.inr ⟨window, ?_, listed⟩)
        show windowOf (connection.trail ++ _) other = _
        rw [windows, if_neg different]
        exact there

/-- A subscription that is there takes a snapshot that nothing was sent past. -/
theorem Accounted.resynced (accounted : connection.Accounted host)
    (id : Nat) (snapshot : NumberedSnapshot Snapshot)
    (delivered : Option Delivery)
    (fresh : ∀ projection through,
      scopeOf connection.held id = some (projection, through) →
        connection.Fresh host id projection snapshot.through)
    {installs : List (Installing Delivery Snapshot)}
    {resyncs : List (ResyncingAll Delivery Snapshot)}
    (restored : ∀ other number, (other = id → snapshot.through < number) →
      connection.Restored other number →
      ∃ resyncing ∈ resyncs, resyncing.Covers other number) :
    (operate toValue
      { connection with installs := installs, resyncs := resyncs }
      (.resync id snapshot delivered)
      (showing snapshot.through true)).Accounted host := by
  let operation : SubscriptionOperation Delivery Snapshot Patch :=
    .resync id snapshot delivered
  have scopes : ∀ other, scopeOf
      (Served.perform toValue connection.held operation).2 other
        = scopeAfter connection.held other operation :=
    fun other => scopeOf_perform operation other
  unfold operate
  dsimp only
  rcases @updates_resync _ _ Patch _ toValue connection.held id snapshot
      delivered with
    ⟨absent, none_sent⟩ | ⟨update, present, same, sent⟩
  · have scopes_same : scopeOf
        (Served.perform toValue connection.held operation).2
          = scopeOf connection.held := by
      funext other
      rw [scopes]
      show (if id = other then _ else _) = _
      split
      · rename_i equal
        rw [← equal, absent]
        rfl
      · rfl
    rw [none_sent]
    refine accounted.carried (le_refl _) rfl scopes_same ?_
      (List.Perm.refl _).subperm accounted.remaining
      (fun delivering member id ended => ⟨delivering, member, rfl, ended⟩) ?_
    · rw [List.map_nil, List.append_nil]
    · rintro modification - other concerned (awaiting | covered)
      · exact .inl awaiting
      · refine .inr (.inl (restored other _ ?_ covered))
        rintro rfl
        rcases concerned with ⟨projection, through, scope, -⟩
        rw [absent] at scope
        cases scope
  · rcases Option.isSome_iff_exists.mp present with
      ⟨⟨projection, through⟩, scope⟩
    rw [sent, List.map_singleton, showing_true]
    refine accounted.shown same ?_ (fresh projection through scope) restored
    intro other
    rw [scopes]
    show (if id = other then _ else _) = _
    split
    · rename_i equal
      rw [← equal, scope]
      rfl
    · rfl

theorem Accounted.install (accounted : connection.Accounted host)
    (index : Nat) (encodes : Bool)
    (heeds : connection.Heeds host (.install index encodes)) :
    (next host toValue connection (.install index encodes)).Accounted host := by
  rcases heeds with ⟨rfl, heeds⟩
  unfold next
  dsimp only
  split
  · exact accounted
  · rename_i installing found
    rcases installing with ⟨request, snapshot, delivered⟩
    have heeded := heeds _ found
    cases request with
    | resync id =>
        exact accounted.resynced id snapshot delivered heeded
          fun _ _ _ covered => covered
    | subscribe projection params clientHeld =>
        let operation : SubscriptionOperation Delivery Snapshot Patch :=
          .accept projection params clientHeld snapshot delivered
        have scopes : ∀ other, scopeOf
            (Served.perform toValue connection.held operation).2 other
              = scopeAfter connection.held other operation :=
          fun other => scopeOf_perform operation other
        rcases @updates_accept _ _ Patch _ toValue connection.held projection
            params clientHeld snapshot delivered with ⟨update, subject, sent⟩
        unfold operate
        dsimp only [installOperation]
        rw [sent, List.map_singleton, showing_true]
        exact accounted.shown subject scopes heeded
          fun _ _ _ covered => covered

theorem Accounted.installLagged (accounted : connection.Accounted host)
    (index : Nat) (encodes : Bool)
    (heeds : connection.Heeds host (.installLagged index encodes)) :
    (next host toValue connection
      (.installLagged index encodes)).Accounted host := by
  rcases heeds with ⟨rfl, heeds⟩
  unfold next
  dsimp only
  split
  · rename_i id rest snapshot delivered found
    apply accounted.resynced id snapshot delivered
      (heeds id rest snapshot delivered found)
    rintro other number past ⟨resyncing, there, listed, covers⟩
    rcases mem_set_or_eq found there _ with kept | rfl
    · exact ⟨resyncing, kept, listed, covers⟩
    · refine ⟨_, mem_set_self found _, ?_, ?_⟩
      · rcases List.mem_cons.mp listed with rfl | later
        · have held := covers snapshot delivered rfl rfl
          have lacked := past rfl
          omega
        · exact later
      · intro read_snapshot read_delivered read
        cases read
  · exact accounted

/-! ## Runs -/

omit [DecidableEq Delivery] in
theorem Accounted.new (principal : Principal) :
    (Connection.new principal :
      Connection Delivery Snapshot Patch).Accounted host where
  saved := by simp [Connection.new]
  placed_saved := by simp [Connection.new, placed]
  apart := by simp [Connection.new, placed]
  remaining := by simp [Connection.new]
  window := by
    intro id projection through scope
    rw [scopeOf] at scope
    simp [Connection.new] at scope
  told := by
    rintro id number ⟨window, there, -⟩
    cases there
  once := by
    intro id window there
    cases there
  complete := by simp [Connection.new]

/-- A heeding step keeps every modification accounted for. -/
theorem Accounted.next {step : ConnectionStep Delivery Snapshot Patch}
    (accounted : connection.Accounted host)
    (heeds : connection.Heeds host step) :
    (next host toValue connection step).Accounted host := by
  cases step with
  | save change => exact accounted.save change
  | publish index => exact accounted.publish index
  | publishOwn index => exact accounted.publishOwn index
  | refuse index => exact accounted.refuse index heeds
  | take => exact accounted.take
  | number index => exact accounted.number index
  | collect index => exact accounted.collect index
  | patch index answered => exact accounted.patch index answered heeds
  | refuseReply index => exact accounted.refuseReply index heeds
  | read request snapshot delivered =>
      exact accounted.read request snapshot delivered
  | install index encodes => exact accounted.install index encodes heeds
  | unsubscribe id => exact accounted.unsubscribe id
  | lag => exact accounted.lag
  | readLagged index answered => exact accounted.readLagged index answered heeds
  | installLagged index encodes =>
      exact accounted.installLagged index encodes heeds

end Connection

end Clerkenwell.Session
