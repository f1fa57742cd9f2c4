import Clerkenwell.Client.TextViews

/-!
# What happens to a replica and its text fields

Each event keeps what is so of the replica, its bindings and its views: each
holds what the replica holds, or will, and none holds an operation that was not
written.
-/

namespace Clerkenwell.Client

variable {Op : Type}

/-! ## What is so of a replica at any time -/

namespace TextReplica

/--
What is so of a replica, but for the flushes that are queued and what is on its
way from a view: each binding and view holds what the replica holds, or will.
-/
structure Fit (replica : TextReplica Op) : Prop where
  sound : replica.BindingsSound
  holds : ∀ field ∈ replica.bindings, ∀ op ∈ replica.doc, field.Holds op
  views_sound : ∀ view ∈ replica.views, view.Sound replica.doc
  views_hold : ∀ view ∈ replica.views, ∀ op ∈ replica.doc, view.Holds op

/-- Whether a flush is queued for each binding with something to publish. -/
def Queued (replica : TextReplica Op) : Prop :=
  ∀ field ∈ replica.bindings, field.pendingPublish → 0 < field.queuedFlushes

/-- Whether what each view published is taken or on its way. -/
def Returned (replica : TextReplica Op) : Prop :=
  ∀ view ∈ replica.views, view.Returned replica.doc

/-- What is so of a replica between events. -/
structure Joined (replica : TextReplica Op) : Prop extends Fit replica where
  queued : replica.Queued
  returned : replica.Returned

/-- Whether an operation is one the replica, a binding or a view holds. -/
def Wrote (replica : TextReplica Op) (op : Op) : Prop :=
  replica.Has op ∨ ∃ view ∈ replica.views, op ∈ view.field.doc

variable {extra more : Finset Op} {before after replica : TextReplica Op}

theorem Takes.binding_of_mem (takes : Takes extra before after)
    {left : FieldBinding Op} (within : left ∈ after.bindings) :
    ∃ field ∈ before.bindings, FieldTakes extra before after field left := by
  obtain ⟨index, found⟩ := List.mem_iff_getElem?.mp within
  obtain ⟨field, earlier, field_takes⟩ := takes.binding_left found
  exact ⟨field, List.mem_of_getElem? earlier, field_takes⟩

theorem Takes.view_of_mem (takes : Takes extra before after)
    {left : AttachedView Op} (within : left ∈ after.views) :
    ∃ view ∈ before.views, ViewTakes before after view left := by
  obtain ⟨index, found⟩ := List.mem_iff_getElem?.mp within
  obtain ⟨view, earlier, view_takes⟩ := takes.view_left found
  exact ⟨view, List.mem_of_getElem? earlier, view_takes⟩

theorem Takes.views_sound (takes : Takes extra before after)
    (sound : ∀ view ∈ before.views, view.Sound before.doc) :
    ∀ view ∈ after.views, view.Sound after.doc := by
  intro left within
  obtain ⟨view, earlier, view_takes⟩ := takes.view_of_mem within
  have view_sound := (sound view earlier).mono takes.grows
  exact
    { unwritten := view_takes.field ▸ view_sound.unwritten
      queued := view_takes.field ▸ view_sound.queued
      waiting := view_takes.field ▸ view_sound.waiting
      composes := view_takes.field ▸ view_sound.composes
      returning := by
        rw [view_takes.field, view_takes.toReplica]
        exact view_sound.returning
      coming := by
        intro message sent
        rcases view_takes.sent message sent with coming | new
        · exact view_sound.coming message coming
        · exact new }

theorem Takes.views_hold (takes : Takes extra before after)
    (hold : ∀ view ∈ before.views, ∀ op ∈ before.doc, view.Holds op) :
    ∀ view ∈ after.views, ∀ op ∈ after.doc, view.Holds op := by
  intro left within op held
  obtain ⟨view, earlier, view_takes⟩ := takes.view_of_mem within
  by_contra lacking
  apply lacking
  exact view_takes.holds op
    (hold view earlier op (view_takes.lacks op held lacking))

/-- Every field stays, composing or not, and a composing one unchanged. -/
theorem Takes.field (takes : Takes extra before after) {place : Place}
    {field : FieldBinding Op} (found : before.field? place = some field) :
    ∃ left, after.field? place = some left
      ∧ left.composing = field.composing
      ∧ (field.composing → left.doc = field.doc) := by
  cases place with
  | binding index =>
      obtain ⟨left, there, field_takes⟩ := takes.binding index field found
      refine ⟨left, there, ?_, field_takes.still⟩
      rw [FieldBinding.composing, field_takes.depth]
      rfl
  | view index =>
      obtain ⟨view, earlier, rfl⟩ := Option.map_eq_some_iff.mp found
      obtain ⟨left, there, view_takes⟩ := takes.view index view earlier
      refine ⟨left.field, Option.map_eq_some_iff.mpr ⟨left, there, rfl⟩, ?_, ?_⟩
      · rw [view_takes.field]
      · exact fun _ => congrArg FieldBinding.doc view_takes.field

theorem Fit.takes (fit : before.Fit) (takes : Takes extra before after) :
    after.Fit where
  sound := takes.sound fit.sound
  holds left within op held := by
    obtain ⟨field, earlier, field_takes⟩ := takes.binding_of_mem within
    by_contra lacking
    apply lacking
    exact field_takes.holds op
      (fit.holds field earlier op (field_takes.lacks op held lacking))
  views_sound := takes.views_sound fit.views_sound
  views_hold := takes.views_hold fit.views_hold

theorem Takes.queued (takes : Takes extra before after)
    (queued : before.Queued) : after.Queued := by
  intro left within pending
  obtain ⟨field, earlier, field_takes⟩ := takes.binding_of_mem within
  rw [field_takes.queued]
  exact queued field earlier (field_takes.publishes pending)

theorem Takes.returned (takes : Takes extra before after)
    (returned : before.Returned) : after.Returned := by
  intro left within op published
  obtain ⟨view, earlier, view_takes⟩ := takes.view_of_mem within
  rw [view_takes.toReplica]
  rw [view_takes.field] at published
  exact (returned view earlier).mono takes.grows op published

theorem Joined.takes (joined : before.Joined)
    (takes : Takes extra before after) : after.Joined where
  toFit := joined.toFit.takes takes
  queued := takes.queued joined.queued
  returned := takes.returned joined.returned

/-- Taking operations writes the new ones. -/
theorem Takes.wrote (takes : Takes extra before after)
    (new : extra ⊆ after.doc) (op : Op) :
    after.Wrote op ↔ before.Wrote op ∨ op ∈ extra := by
  constructor
  · rintro (held | ⟨left, within, held⟩)
    · exact (takes.has_of_has held).imp_left Or.inl
    · obtain ⟨view, earlier, view_takes⟩ := takes.view_of_mem within
      exact Or.inl (Or.inr ⟨view, earlier, view_takes.field ▸ held⟩)
  · rintro (((held | ⟨field, within, held⟩) | ⟨view, within, held⟩) | also)
    · exact Or.inl (Or.inl (takes.grows held))
    · obtain ⟨index, found⟩ := List.mem_iff_getElem?.mp within
      obtain ⟨left, there, field_takes⟩ := takes.binding index field found
      exact Or.inl (Or.inr ⟨left, List.mem_of_getElem? there,
        field_takes.grows held⟩)
    · obtain ⟨index, found⟩ := List.mem_iff_getElem?.mp within
      obtain ⟨left, there, view_takes⟩ := takes.view index view found
      exact Or.inr ⟨left, List.mem_of_getElem? there, view_takes.field ▸ held⟩
    · exact Or.inl (Or.inl (new also))

/-! ## What happens to a replica -/

/--
What an event leaves of a replica, that made no operations but `extra`: nothing
is lost, and a field that composes on is changed at its own place only.
-/
structure Follows (own : Option Place) (extra : Finset Op)
    (before after : TextReplica Op) : Prop where
  joined : after.Joined
  wrote : ∀ op, after.Wrote op ↔ before.Wrote op ∨ op ∈ extra
  still : ∀ place field, some place ≠ own → before.field? place = some field →
    field.composing → ∃ left, after.field? place = some left
      ∧ (left.composing → left.doc = field.doc)

/-- Taking operations, from what an event first leaves of a replica. -/
theorem Takes.follows {own : Option Place} {start : TextReplica Op}
    (takes : Takes extra start after) (joined : after.Joined)
    (fields : ∀ place field, some place ≠ own →
      before.field? place = some field → field.composing →
        ∃ changed, start.field? place = some changed
          ∧ (changed.composing → changed.doc = field.doc))
    (wrote : ∀ op, after.Wrote op ↔ before.Wrote op ∨ op ∈ more) :
    Follows own more before after where
  joined := joined
  wrote := wrote
  still place field elsewhere found composing := by
    obtain ⟨changed, there, same⟩ := fields place field elsewhere found composing
    obtain ⟨left, located, depth, still⟩ := takes.field there
    refine ⟨left, located, fun left_composing => ?_⟩
    rw [depth] at left_composing
    rw [still left_composing, same left_composing]

section OneField

variable {index : Nat}

end OneField

/-! ### Events that flush -/

variable [DecidableEq Op]

section Message

variable {index message : Nat}

end Message

/-! ### The end of a composition, and a queued flush -/

section Binding

variable {index : Nat} {change : FieldBinding Op → FieldBinding Op}

end Binding

/-! ### Every event -/

end TextReplica

end Clerkenwell.Client
