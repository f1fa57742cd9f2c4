import Clerkenwell.Client.TextSharing
import Mathlib.Data.Finset.Card
import Mathlib.Data.List.Range

/-!
# What a flush leaves

A flush publishes what a binding wrote, and so do the flushes it causes: it
makes no operation, loses none, leaves no binding or view without an operation
it would not have lacked anyway, and changes no composing binding.
-/

namespace Clerkenwell.Client

variable {Op : Type}

/-! ## What a field or a view is to come to hold -/

/-- Whether an operation is one of some updates. -/
def AmongUpdates (op : Op) (updates : List (Finset Op)) : Prop :=
  ∃ update ∈ updates, op ∈ update

namespace FieldBinding

/-- Whether a field holds an operation, or will once its composition ends. -/
def Holds (field : FieldBinding Op) (op : Op) : Prop :=
  op ∈ field.doc ∨ AmongUpdates op field.pendingImports

/-- What is so of a binding of a replica of `doc`. -/
structure Sound (doc : Finset Op) (field : FieldBinding Op) : Prop where
  published : field.publishedVersion ⊆ doc
  unwritten : field.pendingPublish = false → field.doc = field.publishedVersion
  waiting : ∀ update ∈ field.pendingImports, update ⊆ doc
  composes : field.composing = false → field.pendingImports = []

theorem Sound.mono {doc later : Finset Op} {field : FieldBinding Op}
    (sound : field.Sound doc) (grows : doc ⊆ later) : field.Sound later where
  published := sound.published.trans grows
  unwritten := sound.unwritten
  waiting update within := (sound.waiting update within).trans grows
  composes := sound.composes

theorem composing_eq_false {field : FieldBinding Op} :
    field.composing = false ↔ field.compositionDepth = 0 := by
  simp [composing]

section Holding

variable [DecidableEq Op] {doc update : Finset Op} {field : FieldBinding Op}

theorem hold_composing (composing : field.composing = true) :
    field.hold update
      = { field with pendingImports := field.pendingImports ++ [update] } := by
  rw [hold, if_pos composing]

theorem hold_not_composing (composing : field.composing = false) :
    field.hold update
      = { field with
          doc := field.doc ∪ update
          publishedVersion := field.doc ∪ update } := by
  rw [hold, if_neg (by simp [composing])]

theorem Holds.hold {op : Op} (held : field.Holds op) :
    (field.hold update).Holds op := by
  cases composing : field.composing with
  | true =>
      rw [hold_composing composing]
      rcases held with in_doc | ⟨waiting, within, among⟩
      · exact Or.inl in_doc
      · exact Or.inr ⟨waiting, List.mem_append_left _ within, among⟩
  | false =>
      rw [hold_not_composing composing]
      rcases held with in_doc | waits
      · exact Or.inl (Finset.mem_union_left _ in_doc)
      · exact Or.inr waits

theorem Sound.hold (sound : field.Sound doc)
    (flushed : field.pendingPublish = false) (taken : update ⊆ doc) :
    (field.hold update).Sound doc := by
  cases composing : field.composing with
  | true =>
      rw [hold_composing composing]
      refine ⟨sound.published, sound.unwritten, ?_, ?_⟩
      · intro waiting within
        rcases List.mem_append.mp within with earlier | new
        · exact sound.waiting waiting earlier
        · rw [List.mem_singleton.mp new]
          exact taken
      · intro ended
        exact absurd (composing.symm.trans ended) (by simp)
  | false =>
      rw [hold_not_composing composing]
      have written := sound.unwritten flushed
      refine ⟨?_, fun _ => rfl, sound.waiting, sound.composes⟩
      exact Finset.union_subset (written ▸ sound.published) taken

end Holding

end FieldBinding

/-- Whether a view holds an operation, or will once messages reach it. -/
def AttachedView.Holds (view : AttachedView Op) (op : Op) : Prop :=
  view.field.Holds op ∨ AmongUpdates op view.toView

namespace TextReplica

/-- Whether an operation is one the replica or a binding of it holds. -/
def Has (replica : TextReplica Op) (op : Op) : Prop :=
  op ∈ replica.doc ∨ ∃ field ∈ replica.bindings, op ∈ field.doc

/-- What is so of every binding. -/
def BindingsSound (replica : TextReplica Op) : Prop :=
  ∀ field ∈ replica.bindings, field.Sound replica.doc

/-- What taking operations, no others than `extra` new, leaves of a binding. -/
structure FieldTakes (extra : Finset Op) (before after : TextReplica Op)
    (field left : FieldBinding Op) : Prop where
  grows : field.doc ⊆ left.doc
  has : ∀ op ∈ left.doc, before.Has op ∨ op ∈ extra
  still : field.composing → left.doc = field.doc
  depth : left.compositionDepth = field.compositionDepth
  queued : left.queuedFlushes = field.queuedFlushes
  publishes : left.pendingPublish → field.pendingPublish
  holds : ∀ op, field.Holds op → left.Holds op
  lacks : ∀ op ∈ after.doc, ¬left.Holds op → op ∈ before.doc

/-- What taking operations leaves of a view. -/
structure ViewTakes (before after : TextReplica Op)
    (view left : AttachedView Op) : Prop where
  field : left.field = view.field
  toReplica : left.toReplica = view.toReplica
  holds : ∀ op, view.Holds op → left.Holds op
  sent : ∀ message ∈ left.toView, message ∈ view.toView ∨ message ⊆ after.doc
  lacks : ∀ op ∈ after.doc, ¬left.Holds op → op ∈ before.doc

/--
What taking operations, no others than `extra` new to the replica and its
bindings, leaves: whatever the replica took, each binding and view came to
hold.
-/
structure Takes (extra : Finset Op) (before after : TextReplica Op) : Prop where
  grows : before.doc ⊆ after.doc
  has : ∀ op ∈ after.doc, before.Has op ∨ op ∈ extra
  length : after.bindings.length = before.bindings.length
  views_length : after.views.length = before.views.length
  binding : ∀ (index : Nat) field, before.bindings[index]? = some field →
    ∃ left, after.bindings[index]? = some left
      ∧ FieldTakes extra before after field left
  view : ∀ (index : Nat) view, before.views[index]? = some view →
    ∃ left, after.views[index]? = some left ∧ ViewTakes before after view left
  sound : before.BindingsSound → after.BindingsSound

variable {extra more : Finset Op} {before after first second third
  replica : TextReplica Op}

theorem Takes.binding_left (takes : Takes extra before after) {index : Nat}
    {left : FieldBinding Op} (found : after.bindings[index]? = some left) :
    ∃ field, before.bindings[index]? = some field
      ∧ FieldTakes extra before after field left := by
  have bound : index < before.bindings.length :=
    takes.length ▸ (List.getElem?_eq_some_iff.mp found).1
  have earlier := List.getElem?_eq_getElem bound
  obtain ⟨other, also, field_takes⟩ := takes.binding index _ earlier
  obtain rfl := Option.some.inj (found.symm.trans also)
  exact ⟨_, earlier, field_takes⟩

theorem Takes.view_left (takes : Takes extra before after) {index : Nat}
    {left : AttachedView Op} (found : after.views[index]? = some left) :
    ∃ view, before.views[index]? = some view
      ∧ ViewTakes before after view left := by
  have bound : index < before.views.length :=
    takes.views_length ▸ (List.getElem?_eq_some_iff.mp found).1
  have earlier := List.getElem?_eq_getElem bound
  obtain ⟨other, also, view_takes⟩ := takes.view index _ earlier
  obtain rfl := Option.some.inj (found.symm.trans also)
  exact ⟨_, earlier, view_takes⟩

theorem Takes.has_of_has (takes : Takes extra before after) {op : Op}
    (held : after.Has op) : before.Has op ∨ op ∈ extra := by
  rcases held with in_doc | ⟨left, within, in_field⟩
  · exact takes.has op in_doc
  · obtain ⟨index, found⟩ := List.mem_iff_getElem?.mp within
    obtain ⟨_, _, field_takes⟩ := takes.binding_left found
    exact field_takes.has op in_field

theorem FieldTakes.unmoved {field : FieldBinding Op}
    (same : after.doc = before.doc) (within : field ∈ before.bindings) :
    FieldTakes extra before after field field where
  grows := fun _ => id
  has _ held := Or.inl (Or.inr ⟨field, within, held⟩)
  still _ := rfl
  depth := rfl
  queued := rfl
  publishes := id
  holds _ := id
  lacks _ held _ := same ▸ held

theorem ViewTakes.unmoved {view : AttachedView Op}
    (same : after.doc = before.doc) : ViewTakes before after view view where
  field := rfl
  toReplica := rfl
  holds _ := id
  sent _ within := Or.inl within
  lacks _ held _ := same ▸ held

theorem Takes.refl (replica : TextReplica Op) : Takes extra replica replica where
  grows := fun _ => id
  has _ held := Or.inl (Or.inl held)
  length := rfl
  views_length := rfl
  binding _ field found :=
    ⟨field, found, FieldTakes.unmoved rfl (List.mem_of_getElem? found)⟩
  view _ view found := ⟨view, found, ViewTakes.unmoved rfl⟩
  sound := id

section Changing

variable {index : Nat} {change : FieldBinding Op → FieldBinding Op}

end Changing

section Combining

variable [DecidableEq Op]

theorem Takes.has_trans (earlier : Takes extra first second) {op : Op}
    (held : second.Has op ∨ op ∈ more) : first.Has op ∨ op ∈ extra ∪ more := by
  rw [Finset.mem_union]
  rcases held with held | new
  · rcases earlier.has_of_has held with held | new
    · exact Or.inl held
    · exact Or.inr (Or.inl new)
  · exact Or.inr (Or.inr new)

theorem Takes.trans (earlier : Takes extra first second)
    (later : Takes more second third) : Takes (extra ∪ more) first third where
  grows := earlier.grows.trans later.grows
  has op held := earlier.has_trans (later.has op held)
  length := later.length.trans earlier.length
  views_length := later.views_length.trans earlier.views_length
  binding index field found := by
    obtain ⟨middle, found_middle, one⟩ := earlier.binding index field found
    obtain ⟨left, found_left, two⟩ := later.binding index middle found_middle
    refine ⟨left, found_left,
      { grows := one.grows.trans two.grows
        has := fun op held => earlier.has_trans (two.has op held)
        still := ?_
        depth := two.depth.trans one.depth
        queued := two.queued.trans one.queued
        publishes := fun pending => one.publishes (two.publishes pending)
        holds := fun op held => two.holds op (one.holds op held)
        lacks := ?_ }⟩
    · intro composing
      have middle_composing : middle.composing = true := by
        rw [FieldBinding.composing, one.depth]
        exact composing
      rw [two.still middle_composing, one.still composing]
    · intro op held lacking
      exact one.lacks op (two.lacks op held lacking)
        fun holds => lacking (two.holds op holds)
  view index view found := by
    obtain ⟨middle, found_middle, one⟩ := earlier.view index view found
    obtain ⟨left, found_left, two⟩ := later.view index middle found_middle
    refine ⟨left, found_left,
      { field := two.field.trans one.field
        toReplica := two.toReplica.trans one.toReplica
        holds := fun op held => two.holds op (one.holds op held)
        sent := ?_
        lacks := ?_ }⟩
    · intro message within
      rcases two.sent message within with earlier_sent | now
      · rcases one.sent message earlier_sent with held | now
        · exact Or.inl held
        · exact Or.inr (now.trans later.grows)
      · exact Or.inr now
    · intro op held lacking
      exact one.lacks op (two.lacks op held lacking)
        fun holds => lacking (two.holds op holds)
  sound before := later.sound (earlier.sound before)

/-- Whether a binding has nothing left to publish. -/
def Flushed (replica : TextReplica Op) (index : Nat) : Prop :=
  ∀ field, replica.bindings[index]? = some field →
    field.pendingPublish = false

omit [DecidableEq Op] in
theorem Takes.flushed {index : Nat} (takes : Takes extra before after)
    (flushed : before.Flushed index) : after.Flushed index := by
  intro left found
  obtain ⟨field, earlier, field_takes⟩ := takes.binding_left found
  have silent := flushed field earlier
  by_contra pending
  rw [field_takes.publishes (by simpa using pending)] at silent
  exact absurd silent (by simp)

/-- The bindings with something to publish. -/
def unpublished (replica : TextReplica Op) : Finset Nat :=
  (Finset.range replica.bindings.length).filter fun index =>
    replica.bindings[index]?.any (·.pendingPublish)

omit [DecidableEq Op] in
theorem mem_unpublished {index : Nat} :
    index ∈ replica.unpublished
      ↔ ∃ field, replica.bindings[index]? = some field
          ∧ field.pendingPublish = true := by
  rw [unpublished, Finset.mem_filter, Finset.mem_range, Option.any_eq_true]
  constructor
  · exact fun within => within.2
  · intro found
    exact ⟨(List.getElem?_eq_some_iff.mp found.choose_spec.1).1, found⟩

omit [DecidableEq Op] in
theorem Takes.unpublished (takes : Takes extra before after) :
    after.unpublished ⊆ before.unpublished := by
  intro index pending
  rw [mem_unpublished] at pending ⊢
  obtain ⟨left, found, unpublished⟩ := pending
  obtain ⟨field, earlier, field_takes⟩ := takes.binding_left found
  exact ⟨field, earlier, field_takes.publishes unpublished⟩

/-- What is handed on of operations a view sent, the view holds. -/
def Sent (update : Finset Op) (source : Option Place)
    (replica : TextReplica Op) : Prop :=
  (∀ index, some (.binding index) ≠ source)
    ∧ ∀ index, some (.view index) = source →
        ∀ view, replica.views[index]? = some view →
          ∀ op ∈ update, view.Holds op

end Combining

end TextReplica

end Clerkenwell.Client
