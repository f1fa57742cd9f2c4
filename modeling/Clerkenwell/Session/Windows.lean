import Clerkenwell.Session.Connection

/-!
# What a subscription was answered

A subscription's window is what its last snapshot holds and what it was answered
since.  Its scope is the projection it is to and what its snapshot holds.
-/

namespace Clerkenwell.Session

open Clerkenwell.Foundation
open Clerkenwell.Doc

variable {Delivery Snapshot Patch : Type}

/-! ## Windows -/

/-- What a snapshot holds, and the modifications answered after it. -/
structure Window where
  through : Nat
  /-- Each modification's number, and whether its patch was sent. -/
  answers : List (Nat × Bool)
deriving DecidableEq, Repr

namespace Window

def numbers (window : Window) : List Nat :=
  window.answers.map Prod.fst

/-- The modifications whose patches were sent. -/
def sent (window : Window) : List Nat :=
  (window.answers.filter Prod.snd).map Prod.fst

def add (window : Window) (number : Nat) (sent : Bool) : Window :=
  { window with answers := window.answers ++ [(number, sent)] }

end Window

/-- A subscription's window after one more entry of the trail. -/
def windowStep (id : Nat) (window : Option Window) :
    Trail Snapshot Patch → Option Window
  | .shown through update =>
      if update.subscriptionId = id then
        some { through := through, answers := [] }
      else window
  | .answered answered number update =>
      if answered = id then
        window.map fun window => window.add number update.isSome
      else window
  | .unsent _ | .lost _ _ => window

def windowOf (trail : List (Trail Snapshot Patch)) (id : Nat) :
    Option Window :=
  trail.foldl (windowStep id) none

theorem windowOf_append (trail : List (Trail Snapshot Patch))
    (entry : Trail Snapshot Patch) (id : Nat) :
    windowOf (trail ++ [entry]) id = windowStep id (windowOf trail id) entry := by
  rw [windowOf, windowOf, List.foldl_append]
  rfl

/-- Entries that are of no window leave every window as it is. -/
theorem windowOf_append_of_idle {entries : List (Trail Snapshot Patch)}
    {id : Nat}
    (idle : ∀ entry ∈ entries, ∀ window, windowStep id window entry = window)
    (trail : List (Trail Snapshot Patch)) :
    windowOf (trail ++ entries) id = windowOf trail id := by
  rw [windowOf, List.foldl_append]
  change entries.foldl (windowStep id) (windowOf trail id) = windowOf trail id
  generalize windowOf trail id = window
  induction entries with
  | nil => rfl
  | cons entry rest inductionHypothesis =>
      rw [List.foldl_cons, idle entry List.mem_cons_self]
      exact inductionHypothesis fun other member =>
        idle other (List.mem_cons_of_mem _ member)

/-- A window without the patches of a modification. -/
def Window.without (number : Nat) (window : Window) : Window :=
  { window with
    answers := window.answers.filter fun answer =>
      !(decide (answer.1 = number) && answer.2) }

theorem windowOf_withheld (trail : List (Trail Snapshot Patch))
    (number id : Nat) :
    windowOf (trail.map (Connection.withheld number)) id
      = (windowOf trail id).map (Window.without number) := by
  have step : ∀ (window : Option Window) (entry : Trail Snapshot Patch),
      windowStep id (window.map (Window.without number))
          (Connection.withheld number entry)
        = (windowStep id window entry).map (Window.without number) := by
    intro window entry
    cases entry with
    | shown through update =>
        simp only [Connection.withheld, windowStep]
        split <;> rfl
    | unsent update => rfl
    | lost other lost => rfl
    | answered other answered update =>
        cases update with
        | none =>
            simp only [Connection.withheld, windowStep]
            split
            · cases window <;> simp [Window.without, Window.add]
            · rfl
        | some update =>
            simp only [Connection.withheld]
            by_cases same : answered = number
            · rw [if_pos same]
              simp only [windowStep]
              split
              · cases window <;> simp [Window.without, Window.add, same]
              · rfl
            · rw [if_neg same]
              simp only [windowStep]
              split
              · cases window <;> simp [Window.without, Window.add, same]
              · rfl
  have folded : ∀ window : Option Window,
      (trail.map (Connection.withheld number)).foldl (windowStep id)
          (window.map (Window.without number))
        = (trail.foldl (windowStep id) window).map
            (Window.without number) := by
    induction trail with
    | nil => exact fun _ => rfl
    | cons entry rest inductionHypothesis =>
        intro window
        rw [List.map_cons, List.foldl_cons, List.foldl_cons, step]
        exact inductionHypothesis _
  exact folded none

/-! ## What subscriptions are to -/

/-- A subscription's projection, and what its snapshot holds. -/
def scopeOf (held : ProjectionSubscriptions Delivery) (id : Nat) :
    Option (String × Nat) :=
  (held.get id).map fun subscription =>
    (subscription.projection, subscription.through)

/-- The scopes an operation leaves. -/
def scopeAfter (held : ProjectionSubscriptions Delivery) (id : Nat) :
    SubscriptionOperation Delivery Snapshot Patch → Option (String × Nat)
  | .accept projection _ _ snapshot _ =>
      if held.nextSubscriptionId = id then some (projection, snapshot.through)
      else scopeOf held id
  | .resync resynced snapshot _ =>
      if resynced = id then
        (scopeOf held id).map fun scope => (scope.1, snapshot.through)
      else scopeOf held id
  | .remove removed => if removed = id then none else scopeOf held id
  | _ => scopeOf held id

section Performing

variable [DecidableEq Delivery] {toValue : Delivery → Option Json}
variable {held : ProjectionSubscriptions Delivery}

open ProjectionSubscriptions

omit [DecidableEq Delivery] in
theorem scopeOf_modify {modified id : Nat}
    {change : ProjectionSubscription Delivery →
      ProjectionSubscription Delivery}
    (kept : ∀ subscription,
      (change subscription).projection = subscription.projection
        ∧ (change subscription).through = subscription.through) :
    scopeOf (held.modify modified change) id = scopeOf held id := by
  rw [scopeOf, get_modify, scopeOf]
  split
  · cases held.get id with
    | none => rfl
    | some subscription =>
        rcases kept subscription with ⟨projection, through⟩
        simp only [Option.map_some, projection, through]
  · rfl

omit [DecidableEq Delivery] in
theorem scopeOf_recordDelivery {recorded revision id : Nat}
    {delivered : Option Delivery} :
    scopeOf (held.recordDelivery recorded revision delivered) id
      = scopeOf held id :=
  scopeOf_modify fun _ => ⟨rfl, rfl⟩

theorem scopeOf_perform
    (operation : SubscriptionOperation Delivery Snapshot Patch) (id : Nat) :
    scopeOf (Served.perform toValue held operation).2 id
      = scopeAfter held id operation := by
  cases operation with
  | accept projection params clientHeld snapshot delivered =>
      simp only [Served.perform, acceptSubscription, scopeAfter]
      rw [scopeOf_recordDelivery, scopeOf, get_insert]
      split <;> rfl
  | deliverPatch patched revision patch delivered =>
      simp only [Served.perform, deliverPatch, scopeAfter]
      cases held.get patched with
      | none => rfl
      | some subscription => exact scopeOf_modify fun _ => ⟨rfl, rfl⟩
  | deliverFollowing following revision patch delivered =>
      simp only [Served.perform, deliverFollowing, scopeAfter]
      cases held.get following with
      | none => rfl
      | some subscription =>
          dsimp only
          split
          · rfl
          · split
            · rfl
            · exact scopeOf_modify fun _ => ⟨rfl, rfl⟩
  | resync resynced snapshot delivered =>
      simp only [Served.perform, resync, scopeAfter]
      cases there : held.get resynced with
      | none =>
          dsimp only
          split
          · rename_i same
            subst same
            simp [scopeOf, there]
          · rfl
      | some subscription =>
          dsimp only
          rw [scopeOf_recordDelivery, scopeOf, get_modify]
          split
          · rw [scopeOf, Option.map_map, Option.map_map]
            rfl
          · rfl
  | recordDelivery recorded revision delivered =>
      exact scopeOf_recordDelivery
  | remove removed =>
      simp only [Served.perform, scopeAfter]
      rw [scopeOf, get_remove]
      split <;> rfl
  | changeRevision publishes => rfl

/-- An acceptance sends its subscription one update. -/
theorem updates_accept (projection : String) (params : Json)
    (clientHeld : Option Delivery) (snapshot : NumberedSnapshot Snapshot)
    (delivered : Option Delivery) :
    ∃ update : Update Snapshot Patch,
      update.subscriptionId = held.nextSubscriptionId
        ∧ (Served.perform toValue held
            (.accept projection params clientHeld snapshot delivered)).1
          = [update] := by
  simp only [Served.perform, acceptSubscription]
  split
  · exact ⟨_, rfl, rfl⟩
  · exact ⟨_, rfl, rfl⟩

/-- A patch is sent to a subscription that is there. -/
theorem updates_deliverPatch (id revision : Nat) (patch : Patch)
    (delivered : Option Delivery) :
    (scopeOf held id = none
        ∧ (@Served.perform Delivery Snapshot Patch _ toValue held
          (.deliverPatch id revision patch delivered)).1 = [])
      ∨ ∃ update : Update Snapshot Patch, (scopeOf held id).isSome = true
        ∧ update.subscriptionId = id
        ∧ (Served.perform toValue held
            (.deliverPatch id revision patch delivered)).1 = [update] := by
  simp only [Served.perform, deliverPatch, scopeOf]
  cases held.get id with
  | none => exact .inl ⟨rfl, rfl⟩
  | some subscription => exact .inr ⟨_, rfl, rfl, rfl⟩

/-- A snapshot is sent to a subscription that is there. -/
theorem updates_resync (id : Nat) (snapshot : NumberedSnapshot Snapshot)
    (delivered : Option Delivery) :
    (scopeOf held id = none
        ∧ (@Served.perform Delivery Snapshot Patch _ toValue held
          (.resync id snapshot delivered)).1 = [])
      ∨ ∃ update : Update Snapshot Patch, (scopeOf held id).isSome = true
        ∧ update.subscriptionId = id
        ∧ (Served.perform toValue held (.resync id snapshot delivered)).1
          = [update] := by
  simp only [Served.perform, resync, scopeOf]
  cases held.get id with
  | none => exact .inl ⟨rfl, rfl⟩
  | some subscription => exact .inr ⟨_, rfl, rfl, rfl⟩

end Performing

end Clerkenwell.Session
