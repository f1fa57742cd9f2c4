import Clerkenwell.Client.TextFlush

/-!
# Fields and views at any time

What each event of one field leaves of it, and what each event of a view leaves
of the view, in a replica that holds a document.
-/

namespace Clerkenwell.Client

variable {Op : Type}

/-! ## The end of a composition -/

namespace FieldBinding

variable {field : FieldBinding Op} {update : Finset Op}

end FieldBinding

/-! ## What a field writes -/

namespace FieldBinding

/-- What an event of a field leaves of it that makes operations. -/
structure Writes (extra : Finset Op) (field left : FieldBinding Op) : Prop where
  grows : field.doc ⊆ left.doc
  has : ∀ op, op ∈ left.doc ↔ op ∈ field.doc ∨ op ∈ extra
  published : left.publishedVersion = field.publishedVersion
  waiting : left.pendingImports = field.pendingImports
  composes : left.composing = false → field.composing = false
  silent : left.pendingPublish = false →
    field.pendingPublish = false ∧ left.doc = field.doc
  queued : (field.pendingPublish → 0 < field.queuedFlushes) →
    left.pendingPublish → 0 < left.queuedFlushes

theorem Writes.holds {extra : Finset Op} {field left : FieldBinding Op}
    (writes : Writes extra field left) {op : Op} (held : field.Holds op) :
    left.Holds op := by
  rcases held with own | waits
  · exact Or.inl (writes.grows own)
  · exact Or.inr (writes.waiting ▸ waits)

theorem Sound.writes {doc extra : Finset Op} {field left : FieldBinding Op}
    (sound : field.Sound doc) (writes : Writes extra field left) :
    left.Sound doc where
  published := writes.published ▸ sound.published
  unwritten silent := by
    obtain ⟨field_silent, same⟩ := writes.silent silent
    rw [same, writes.published]
    exact sound.unwritten field_silent
  waiting := writes.waiting ▸ sound.waiting
  composes ended := by
    rw [writes.waiting]
    exact sound.composes (writes.composes ended)

variable [DecidableEq Op]

end FieldBinding

/-! ## What is so of a view at any time -/

namespace AttachedView

/-- What is so of a view of a replica of `doc`. -/
structure Sound (doc : Finset Op) (view : AttachedView Op) : Prop where
  unwritten : view.field.pendingPublish = false →
    view.field.doc = view.field.publishedVersion
  queued : view.field.pendingPublish → 0 < view.field.queuedFlushes
  waiting : ∀ update ∈ view.field.pendingImports, update ⊆ doc
  composes : view.field.composing = false → view.field.pendingImports = []
  returning : ∀ message ∈ view.toReplica, message ⊆ view.field.doc
  coming : ∀ message ∈ view.toView, message ⊆ doc

/-- What a view published is in the replica's document or on its way to it. -/
def Returned (doc : Finset Op) (view : AttachedView Op) : Prop :=
  ∀ op ∈ view.field.publishedVersion, op ∈ doc ∨ AmongUpdates op view.toReplica

variable {doc extra later update : Finset Op} {view : AttachedView Op}

theorem Sound.mono (sound : view.Sound doc) (grows : doc ⊆ later) :
    view.Sound later :=
  { sound with
    waiting := fun update within => (sound.waiting update within).trans grows
    coming := fun message within => (sound.coming message within).trans grows }

theorem Returned.mono (returned : view.Returned doc) (grows : doc ⊆ later) :
    view.Returned later :=
  fun op within => (returned op within).imp_left fun held => grows held

variable [DecidableEq Op]

theorem flush_pending (pending : view.field.pendingPublish = true) :
    view.flush
      = { view with
          field := view.field.published
          toReplica := view.toReplica ++ [view.field.exported] } := by
  rw [flush, if_pos pending]

theorem flush_silent (silent : view.field.pendingPublish = false) :
    view.flush = view := by
  rw [flush, if_neg (by simp [silent])]

theorem flushed (view : AttachedView Op) :
    view.flush.field.pendingPublish = false := by
  cases pending : view.field.pendingPublish with
  | true =>
      rw [flush_pending pending]
      rfl
  | false =>
      rw [flush_silent pending]
      exact pending

@[simp]
theorem flush_doc (view : AttachedView Op) :
    view.flush.field.doc = view.field.doc := by
  unfold flush
  split <;> rfl

@[simp]
theorem flush_compositionDepth (view : AttachedView Op) :
    view.flush.field.compositionDepth = view.field.compositionDepth := by
  unfold flush
  split <;> rfl

@[simp]
theorem flush_pendingImports (view : AttachedView Op) :
    view.flush.field.pendingImports = view.field.pendingImports := by
  unfold flush
  split <;> rfl

@[simp]
theorem flush_toView (view : AttachedView Op) :
    view.flush.toView = view.toView := by
  unfold flush
  split <;> rfl

theorem holds_flush {op : Op} : view.flush.Holds op ↔ view.Holds op := by
  simp [Holds, FieldBinding.Holds]

theorem Sound.flush (sound : view.Sound doc) : view.flush.Sound doc := by
  cases pending : view.field.pendingPublish with
  | false =>
      rw [flush_silent pending]
      exact sound
  | true =>
      rw [flush_pending pending]
      refine { sound with
        unwritten := fun _ => rfl
        queued := fun still => absurd still (by simp [FieldBinding.published])
        returning := ?_ }
      intro message within
      rcases List.mem_append.mp within with earlier | new
      · exact sound.returning message earlier
      · rw [List.mem_singleton.mp new]
        exact Finset.sdiff_subset

theorem Returned.flush (returned : view.Returned doc) :
    view.flush.Returned doc := by
  cases pending : view.field.pendingPublish with
  | false =>
      rw [flush_silent pending]
      exact returned
  | true =>
      rw [flush_pending pending]
      intro op within
      by_cases earlier : op ∈ view.field.publishedVersion
      · refine (returned op earlier).imp_right ?_
        rintro ⟨message, among, held⟩
        exact ⟨message, List.mem_append_left _ among, held⟩
      · exact Or.inr ⟨view.field.exported, by simp,
          Finset.mem_sdiff.mpr ⟨within, earlier⟩⟩

/-! ### A view's imports -/

theorem importUpdate_composing (composing : view.field.composing = true) :
    view.importUpdate update
      = { view.flush with
          field := { view.flush.field with
            pendingImports := view.field.pendingImports ++ [update] } } := by
  have still : view.flush.field.composing = true := by
    rw [FieldBinding.composing, flush_compositionDepth]
    exact composing
  rw [importUpdate, modifyField, FieldBinding.hold_composing still,
    flush_pendingImports]

theorem importUpdate_not_composing (composing : view.field.composing = false) :
    view.importUpdate update
      = { view.flush with
          field := { view.flush.field with
            doc := view.field.doc ∪ update
            publishedVersion := view.field.doc ∪ update } } := by
  have still : view.flush.field.composing = false := by
    rw [FieldBinding.composing, flush_compositionDepth]
    exact composing
  rw [importUpdate, modifyField, FieldBinding.hold_not_composing still, flush_doc]

theorem Sound.importUpdate (sound : view.Sound doc) (taken : update ⊆ doc) :
    (view.importUpdate update).Sound doc := by
  have flush_sound := sound.flush
  cases composing : view.field.composing with
  | true =>
      rw [importUpdate_composing composing]
      refine { flush_sound with waiting := ?_, composes := ?_ }
      · intro waiting within
        rcases List.mem_append.mp within with earlier | new
        · exact sound.waiting waiting earlier
        · rw [List.mem_singleton.mp new]
          exact taken
      · intro ended
        have depth : view.flush.field.compositionDepth = 0 :=
          FieldBinding.composing_eq_false.mp ended
        rw [flush_compositionDepth] at depth
        rw [FieldBinding.composing_eq_false.mpr depth] at composing
        exact absurd composing (by simp)
  | false =>
      rw [importUpdate_not_composing composing]
      refine { flush_sound with unwritten := fun _ => rfl, returning := ?_ }
      intro message within
      have earlier := flush_sound.returning message within
      rw [flush_doc] at earlier
      exact earlier.trans Finset.subset_union_left

theorem Returned.importUpdate (returned : view.Returned doc)
    (sound : view.Sound doc) (taken : update ⊆ doc) :
    (view.importUpdate update).Returned doc := by
  have flush_returned := returned.flush
  cases composing : view.field.composing with
  | true =>
      rw [importUpdate_composing composing]
      exact flush_returned
  | false =>
      rw [importUpdate_not_composing composing]
      intro op within
      rcases Finset.mem_union.mp within with own | new
      · have written := sound.flush.unwritten view.flushed
        rw [flush_doc] at written
        exact flush_returned op (written ▸ own)
      · exact Or.inl (taken new)

theorem Holds.importUpdate {op : Op} (held : view.Holds op) :
    (view.importUpdate update).Holds op := by
  rcases holds_flush.mpr held with in_field | coming
  · exact Or.inl in_field.hold
  · exact Or.inr coming

/--
What an event of a view leaves of it, in a replica of `doc`, when no operations
but `extra` are made.
-/
structure Moves (doc extra : Finset Op) (view left : AttachedView Op) :
    Prop where
  sound : left.Sound doc
  returned : view.Returned doc → left.Returned doc
  holds : ∀ op, view.Holds op → left.Holds op
  grows : view.field.doc ⊆ left.field.doc
  has : ∀ op ∈ left.field.doc, op ∈ view.field.doc ∨ op ∈ doc ∨ op ∈ extra

omit [DecidableEq Op] in
theorem Moves.refl (sound : view.Sound doc) : view.Moves doc extra view where
  sound := sound
  returned := id
  holds _ := id
  grows := fun _ => id
  has _ held := Or.inl held

omit [DecidableEq Op] in
theorem Moves.trans {middle left : AttachedView Op}
    (earlier : view.Moves doc extra middle) (later : middle.Moves doc extra left) :
    view.Moves doc extra left where
  sound := later.sound
  returned before := later.returned (earlier.returned before)
  holds op held := later.holds op (earlier.holds op held)
  grows := earlier.grows.trans later.grows
  has op held := by
    rcases later.has op held with own | other
    · exact earlier.has op own
    · exact Or.inr other

end AttachedView

end Clerkenwell.Client
