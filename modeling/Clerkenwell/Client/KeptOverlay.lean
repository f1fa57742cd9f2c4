import Clerkenwell.Client.EditOverlay
import Clerkenwell.Foundation.Machine

/-!
# What an edit overlay keeps

Every field that is not dirty is to show the authoritative draft, and a field
that is edited is to hold its edit until it is reset or committed with it.
Only a draft that is delivered can break either: one that leaves out a field
the overlay shows, or one that settles a commit of an earlier edit.
-/

namespace Clerkenwell.Client

open Clerkenwell.Foundation

section Overlay

variable {Value Revision : Type} [DecidableEq Value] (undefined : Value)

/-! ## What a call leaves -/

omit [DecidableEq Value] in
@[simp]
theorem readField_set (draft : JsMap Value) (field other : String)
    (value : Value) :
    readField undefined (draft.set field value) other
      = if other = field then value else readField undefined draft other := by
  rw [readField, JsMap.get?_set]
  split_ifs <;> rfl

omit [DecidableEq Value] in
theorem readField_of_not_mem {draft : JsMap Value} {field : String}
    (absent : field ∉ draft.keys) : readField undefined draft field = undefined := by
  have none_held : draft.get? field = none := by
    rw [JsMap.mem_keys_iff, Bool.not_eq_true, Option.isSome_eq_false_iff,
      Option.isNone_iff_eq_none] at absent
    exact absent
  rw [readField, none_held]
  rfl

namespace OverlaySnapshot

variable {snapshot : OverlaySnapshot Value Revision}
variable {authoritative : JsMap Value}

omit [DecidableEq Value] in
/-- The fields a source is copied to, but those kept. -/
theorem readField_copied (kept : String → Bool) (source : JsMap Value)
    (fields : List String) (field : String) :
    ∀ draft : JsMap Value,
      readField undefined
          (fields.foldl
            (fun draft field =>
              if kept field then draft
              else draft.set field (readField undefined source field))
            draft) field
        = if field ∈ fields ∧ kept field = false then
            readField undefined source field
          else readField undefined draft field := by
  induction fields with
  | nil => simp
  | cons first rest inductionHypothesis =>
      intro draft
      rw [List.foldl_cons, inductionHypothesis]
      by_cases held : kept first = true
      · rw [if_pos held]
        grind
      · rw [if_neg held, readField_set]
        grind

omit [DecidableEq Value] in
theorem readField_resetFields (source : JsMap Value) (fields : List String)
    (draft : JsMap Value) (field : String) :
    readField undefined
        (fields.foldl
          (fun draft field =>
            draft.set field (readField undefined source field)) draft) field
      = if field ∈ fields then readField undefined source field
        else readField undefined draft field := by
  simpa using readField_copied undefined (fun _ => false) source fields field
    draft

end OverlaySnapshot

/-! ## Edits and commits -/

/-- An overlay, and what became of the edits made in it. -/
structure EditedOverlay (Value Revision : Type) where
  snapshot : OverlaySnapshot Value Revision
  /-- What a field was last set to, until it is reset or committed so. -/
  edits : String → Option Value
  /-- What each unsettled commit of a field carries, in order. -/
  inFlight : String → List Value

namespace EditedOverlay

omit [DecidableEq Value] in
def new (emptyDraft : JsMap Value) : EditedOverlay Value Revision where
  snapshot := .new emptyDraft
  edits := fun _ => none
  inFlight := fun _ => []

omit [DecidableEq Value] in
/-- What the commit of a field that settles next carries. -/
def committedValue (edited : EditedOverlay Value Revision) (field : String) :
    Value :=
  (edited.inFlight field).head?.getD
    (readField undefined edited.snapshot.draft field)

/-- The edits a commit of some fields leaves to be kept. -/
def editsAfterCommit (edited : EditedOverlay Value Revision)
    (fields : List String) (authoritative : JsMap Value) (field : String) :
    Option Value :=
  (edited.edits field).filter fun value =>
    field ∉ fields
      ∨ value ≠ edited.committedValue undefined field
        ∧ value ≠ readField undefined authoritative field

def next (edited : EditedOverlay Value Revision)
    (call : OverlayCall Value Revision) : EditedOverlay Value Revision where
  snapshot := edited.snapshot.call undefined call
  edits :=
    match call with
    | .setField field value =>
        fun other => if other = field then some value else edited.edits other
    | .resetFields fields =>
        fun field =>
          if edited.snapshot.authoritative.isSome ∧ field ∈ fields then none
          else edited.edits field
    | .markCommitted fields authoritative _ =>
        edited.editsAfterCommit undefined fields authoritative
    | .reset _ _ => fun _ => none
    | _ => edited.edits
  inFlight :=
    match call with
    | .markCommitting fields =>
        fun field =>
          if field ∈ fields then
            edited.inFlight field
              ++ [readField undefined edited.snapshot.draft field]
          else edited.inFlight field
    | .markCommitted fields _ _ | .markCommitFailed fields _ =>
        fun field =>
          if field ∈ fields then (edited.inFlight field).tail
          else edited.inFlight field
    | _ => edited.inFlight

end EditedOverlay

omit [DecidableEq Value] in
/--
The overlay mirrors the authoritative draft in every field that is not dirty,
holds every edit, commits nothing that is settled, and has the status its
fields and its conflict give it.
-/
structure OverlayKept (edited : EditedOverlay Value Revision) : Prop where
  mirrored : ∀ authoritative,
    edited.snapshot.authoritative = some authoritative →
      ∀ field, field ∉ edited.snapshot.dirtyFields →
        readField undefined edited.snapshot.draft field
          = readField undefined authoritative field
  held : ∀ field value, edited.edits field = some value →
    readField undefined edited.snapshot.draft field = value
  unsettled : ∀ field ∈ edited.snapshot.committingFields,
    edited.inFlight field ≠ []
  status : edited.snapshot.status
    = overlayStatus edited.snapshot.dirtyFields
      edited.snapshot.committingFields edited.snapshot.conflict

omit [DecidableEq Value] in
/--
An authoritative draft has every field the draft shows that is not dirty, and
no other value for one with an edit.
-/
def Covers (authoritative draft : JsMap Value) (dirty : String → Prop)
    (edits : String → Option Value) : Prop :=
  ∀ field, ¬ dirty field →
    if field ∈ authoritative.keys then
      ∀ value, edits field = some value →
        readField undefined authoritative field = value
    else readField undefined draft field = undefined

omit [DecidableEq Value] in
/-- A draft that is delivered is mirrored and keeps the edits if it covers. -/
theorem covers_iff {authoritative draft after : JsMap Value}
    {dirty dirtyAfter : String → Prop} {edits : String → Option Value}
    (read : ∀ field,
      (field ∈ authoritative.keys → ¬ dirty field →
        readField undefined after field
          = readField undefined authoritative field)
      ∧ (field ∉ authoritative.keys ∨ dirty field →
        readField undefined after field = readField undefined draft field))
    (cleaned : ∀ field, ¬ dirtyAfter field →
      ¬ dirty field
        ∨ readField undefined draft field
          = readField undefined authoritative field)
    (clean : ∀ field, ¬ dirty field → ¬ dirtyAfter field)
    (held : ∀ field value, edits field = some value →
      readField undefined draft field = value) :
    ((∀ field, ¬ dirtyAfter field →
        readField undefined after field
          = readField undefined authoritative field)
      ∧ ∀ field value, edits field = some value →
        readField undefined after field = value)
      ↔ Covers undefined authoritative draft dirty edits := by
  constructor
  · rintro ⟨mirrored, edited⟩ field not_dirty
    have shown := mirrored field (clean field not_dirty)
    split_ifs with named
    · intro value edit
      rw [← shown]
      exact edited field value edit
    · rwa [(read field).2 (.inl named), readField_of_not_mem undefined named]
        at shown
  · intro covers
    constructor
    · intro field not_dirty
      by_cases named : field ∈ authoritative.keys <;>
        by_cases was_dirty : dirty field
      · rw [(read field).2 (.inr was_dirty)]
        exact (cleaned field not_dirty).resolve_left (· was_dirty)
      · exact (read field).1 named was_dirty
      · rw [(read field).2 (.inr was_dirty)]
        exact (cleaned field not_dirty).resolve_left (· was_dirty)
      · have absent := covers field was_dirty
        rw [if_neg named] at absent
        rw [(read field).2 (.inl named), absent,
          readField_of_not_mem undefined named]
    · intro field value edit
      by_cases taken : field ∈ authoritative.keys ∧ ¬ dirty field
      · have covered := covers field taken.2
        rw [if_pos taken.1] at covered
        rw [(read field).1 taken.1 taken.2]
        exact covered value edit
      · rw [(read field).2 (by tauto)]
        exact held field value edit

namespace OverlayKept

variable {edited : EditedOverlay Value Revision}

omit [DecidableEq Value] in
theorem unsettled_removed (kept : OverlayKept undefined edited)
    (fields : List String) :
    ∀ field ∈ removeMembers edited.snapshot.committingFields (setOf fields),
      (if field ∈ fields then (edited.inFlight field).tail
        else edited.inFlight field) ≠ [] := by
  intro field committing
  rw [mem_removeMembers, mem_setOf] at committing
  rw [if_neg committing.2]
  exact kept.unsettled field committing.1

theorem setField (kept : OverlayKept undefined edited) (field : String)
    (value : Value) :
    OverlayKept undefined (edited.next undefined (.setField field value)) := by
  refine ⟨?_, ?_, kept.unsettled, rfl⟩
  · intro authoritative delivered other clean
    have before : edited.snapshot.authoritative = some authoritative :=
      delivered
    have not_dirty : other ∉ (edited.snapshot.setField undefined field
      value).dirtyFields := clean
    show readField undefined (edited.snapshot.draft.set field value) other = _
    simp only [OverlaySnapshot.setField, before, Option.any_some,
      decide_eq_true_eq] at not_dirty
    rw [readField_set]
    split_ifs at not_dirty with same
    · rw [mem_removeMember, not_and_not_right] at not_dirty
      split_ifs with here
      · rw [here, same]
      · exact kept.mirrored authoritative before other
          fun dirty => here (not_dirty dirty)
    · rw [mem_addMember, not_or] at not_dirty
      rw [if_neg not_dirty.2]
      exact kept.mirrored authoritative before other not_dirty.1
  · intro other edit set
    have set : (if other = field then some value else edited.edits other)
      = some edit := set
    show readField undefined (edited.snapshot.draft.set field value) other = _
    rw [readField_set]
    split_ifs at set with here
    · rw [if_pos here]
      exact Option.some.inj set
    · rw [if_neg here]
      exact kept.held other edit set

theorem resetFields (kept : OverlayKept undefined edited)
    (fields : List String) :
    OverlayKept undefined (edited.next undefined (.resetFields fields)) := by
  cases before : edited.snapshot.authoritative with
  | none =>
      have unchanged : edited.snapshot.resetFields undefined fields
          = edited.snapshot := by
        rw [OverlaySnapshot.resetFields, before]
      have same : edited.next undefined (.resetFields fields) = edited := by
        simp [EditedOverlay.next, OverlaySnapshot.call, unchanged, before]
      rwa [same]
  | some authoritative =>
      refine ⟨?_, ?_, ?_, ?_⟩ <;>
        simp only [EditedOverlay.next, OverlaySnapshot.call,
          OverlaySnapshot.resetFields, before, Option.isSome_some, true_and]
      · intro other same field clean
        cases same
        rw [OverlaySnapshot.readField_resetFields]
        rw [mem_removeMembers, not_and_not_right] at clean
        split_ifs with here
        · rfl
        · exact kept.mirrored authoritative before field
            fun dirty => here (clean dirty)
      · intro field value edit
        split_ifs at edit with here
        rw [OverlaySnapshot.readField_resetFields, if_neg here]
        exact kept.held field value edit
      · intro field committing
        rw [mem_removeMembers] at committing
        exact kept.unsettled field committing.1

theorem markCommitting (kept : OverlayKept undefined edited)
    (fields : List String) :
    OverlayKept undefined
      (edited.next undefined (.markCommitting fields)) := by
  refine ⟨kept.mirrored, kept.held, ?_, rfl⟩
  intro field committing
  have either : field ∈ addMembers edited.snapshot.committingFields fields :=
    committing
  show (if field ∈ fields then _ else _) ≠ []
  rw [mem_addMembers] at either
  split_ifs with here
  · simp
  · exact kept.unsettled field (either.resolve_right here)

theorem markCommitFailed (kept : OverlayKept undefined edited)
    (fields : List String) (error : String) :
    OverlayKept undefined
      (edited.next undefined (.markCommitFailed fields error)) :=
  ⟨kept.mirrored, kept.held, kept.unsettled_removed undefined fields, rfl⟩

theorem keepDraft (kept : OverlayKept undefined edited)
    (fields : Option (List String)) :
    OverlayKept undefined (edited.next undefined (.keepDraft fields)) :=
  ⟨kept.mirrored, kept.held, kept.unsettled, rfl⟩

theorem reset (authoritative : Option (JsMap Value))
    (revision : Option Revision) :
    OverlayKept undefined
      (edited.next undefined (.reset authoritative revision)) := by
  refine ⟨?_, ?_, ?_, rfl⟩
  · intro other same field _
    cases same
    rfl
  · intro field value edit
    cases edit
  · intro field committing
    cases committing

end OverlayKept

end Overlay

end Clerkenwell.Client
