import Clerkenwell.Client.Collections
import Clerkenwell.Client.PeerAllocator

/-!
# The edit overlay of a projection surface

`ProjectionEditOverlay` keeps a local draft over the authoritative one a
projection delivers.  A field edited locally is dirty until it is committed,
reset, or matched by a delivery; every other field is to show the authoritative
draft.

A draft's members are any values, compared by `Object.is`; an absent member
reads as `undefined`.
-/

namespace Clerkenwell.Client

/-- `set.delete(member)`. -/
def removeMember (set : List String) (member : String) : List String :=
  set.filter fun held => held ≠ member

@[simp]
theorem mem_removeMember {set : List String} {member other : String} :
    other ∈ removeMember set member ↔ other ∈ set ∧ other ≠ member := by
  simp [removeMember]

/-- `members.forEach((member) => set.delete(member))`. -/
def removeMembers (set members : List String) : List String :=
  members.foldl removeMember set

@[simp]
theorem mem_removeMembers {members : List String} {other : String} :
    ∀ {set : List String}, other ∈ removeMembers set members
      ↔ other ∈ set ∧ other ∉ members := by
  induction members with
  | nil => simp [removeMembers]
  | cons member rest inductionHypothesis =>
      intro set
      rw [removeMembers, List.foldl_cons, ← removeMembers,
        inductionHypothesis, mem_removeMember, List.mem_cons, not_or,
        and_assoc]

/-- `members.forEach((member) => set.add(member))`. -/
def addMembers (set members : List String) : List String :=
  members.foldl addMember set

@[simp]
theorem mem_addMembers {members : List String} {other : String} :
    ∀ {set : List String}, other ∈ addMembers set members
      ↔ other ∈ set ∨ other ∈ members := by
  induction members with
  | nil => simp [addMembers]
  | cons member rest inductionHypothesis =>
      intro set
      rw [addMembers, List.foldl_cons, ← addMembers, inductionHypothesis,
        mem_addMember, List.mem_cons, or_assoc]

/-! ## Snapshots -/

inductive ProjectionOverlayStatus where
  | clean
  | dirty
  | stale
  | committing
  | conflicted
deriving DecidableEq, Repr

inductive OverlayConflictKind where
  | stale
  | commit
deriving DecidableEq, Repr

structure ProjectionOverlayConflict where
  kind : OverlayConflictKind
  fields : List String
  message : String
deriving DecidableEq, Repr

section Overlay

variable {Value Revision : Type}

structure OverlaySnapshot (Value Revision : Type) where
  authoritative : Option (JsMap Value)
  draft : JsMap Value
  dirtyFields : List String
  committingFields : List String
  revision : Option Revision
  status : ProjectionOverlayStatus
  conflict : Option ProjectionOverlayConflict

def overlayStatus (dirtyFields committingFields : List String)
    (conflict : Option ProjectionOverlayConflict) : ProjectionOverlayStatus :=
  match conflict with
  | some conflict =>
      match conflict.kind with
      | .stale => .stale
      | .commit => .conflicted
  | none =>
      if committingFields.isEmpty then
        if dirtyFields.isEmpty then .clean else .dirty
      else .committing

def staleConflict (fields : List String) : ProjectionOverlayConflict where
  kind := .stale
  fields := fields
  message := "Remote changes touched " ++ ", ".intercalate fields
    ++ " while local edits are pending."

def matchingConflict (conflict : Option ProjectionOverlayConflict)
    (dirtyFields : List String) : Option ProjectionOverlayConflict :=
  conflict.bind fun conflict =>
    let fields := conflict.fields.filter fun field => dirtyFields.contains field
    if fields.isEmpty then none else some { conflict with fields := fields }

def removeConflictFields (conflict : Option ProjectionOverlayConflict)
    (fields : Option (List String)) : Option ProjectionOverlayConflict :=
  conflict.bind fun conflict =>
    fields.bind fun fields =>
      let remaining := removeMembers conflict.fields fields
      if remaining.isEmpty then none
      else some { conflict with fields := remaining }

/-- A new overlay over an empty draft. -/
def OverlaySnapshot.new (emptyDraft : JsMap Value) :
    OverlaySnapshot Value Revision where
  authoritative := none
  draft := emptyDraft
  dirtyFields := []
  committingFields := []
  revision := none
  status := .clean
  conflict := none

/-! ## Operations -/

/-- What `restoreDraft` is told beside the draft. -/
structure RestoreOptions (Value Revision : Type) where
  authoritative : Option (JsMap Value)
  dirtyFields : List String
  revision : Option Revision

/-- A call of an overlay. -/
inductive OverlayCall (Value Revision : Type) where
  | hydrate (authoritative : JsMap Value) (revision : Option Revision)
  | restoreDraft (draft : JsMap Value)
      (options : RestoreOptions Value Revision)
  | setField (field : String) (value : Value)
  | keepDraft (fields : Option (List String))
  | resetFields (fields : List String)
  | markCommitting (fields : List String)
  | markCommitted (fields : List String) (authoritative : JsMap Value)
      (revision : Option Revision)
  | markCommitFailed (fields : List String) (error : String)
  | reset (authoritative : Option (JsMap Value)) (revision : Option Revision)

variable [DecidableEq Value] (undefined : Value)

omit [DecidableEq Value] in
/-- `draft[field]`. -/
def readField (draft : JsMap Value) (field : String) : Value :=
  (draft.get? field).getD undefined

namespace OverlaySnapshot

/-- What `hydrate` goes along the authoritative fields with. -/
structure Hydrating (Value : Type) where
  draft : JsMap Value
  dirtyFields : List String
  staleFields : List String

def hydrateField (snapshot : OverlaySnapshot Value Revision)
    (authoritative : JsMap Value) (hydrating : Hydrating Value)
    (field : String) : Hydrating Value :=
  if hydrating.dirtyFields.contains field then
    if readField undefined hydrating.draft field
        = readField undefined authoritative field then
      { hydrating with
        dirtyFields := removeMember hydrating.dirtyFields field }
    else
      match snapshot.authoritative with
      | some before =>
          if readField undefined before field
              = readField undefined authoritative field then
            hydrating
          else
            { hydrating with
              staleFields := addMember hydrating.staleFields field }
      | none => hydrating
  else
    { hydrating with
      draft := hydrating.draft.set field
        (readField undefined authoritative field) }

def hydrate (snapshot : OverlaySnapshot Value Revision)
    (authoritative : JsMap Value) (revision : Option Revision) :
    OverlaySnapshot Value Revision :=
  let hydrated :=
    authoritative.keys.foldl (hydrateField undefined snapshot authoritative)
      { draft := snapshot.draft
        dirtyFields := snapshot.dirtyFields
        staleFields := [] }
  let conflict :=
    if hydrated.staleFields.isEmpty then
      matchingConflict snapshot.conflict hydrated.dirtyFields
    else some (staleConflict hydrated.staleFields)
  { authoritative := some authoritative
    draft := hydrated.draft
    dirtyFields := hydrated.dirtyFields
    committingFields := snapshot.committingFields
    revision := revision
    status := overlayStatus hydrated.dirtyFields snapshot.committingFields
      conflict
    conflict := conflict }

omit [DecidableEq Value] in
def restoreDraft (draft : JsMap Value)
    (options : RestoreOptions Value Revision) :
    OverlaySnapshot Value Revision :=
  let dirtyFields := setOf options.dirtyFields
  { authoritative := options.authoritative
    draft := draft
    dirtyFields := dirtyFields
    committingFields := []
    revision := options.revision
    status := overlayStatus dirtyFields [] none
    conflict := none }

def setField (snapshot : OverlaySnapshot Value Revision) (field : String)
    (value : Value) : OverlaySnapshot Value Revision :=
  let dirtyFields :=
    if (snapshot.authoritative.any fun authoritative =>
        readField undefined authoritative field = value) then
      removeMember snapshot.dirtyFields field
    else addMember snapshot.dirtyFields field
  { snapshot with
    draft := snapshot.draft.set field value
    dirtyFields := dirtyFields
    status := overlayStatus dirtyFields snapshot.committingFields none
    conflict := none }

omit [DecidableEq Value] in
def keepDraft (snapshot : OverlaySnapshot Value Revision)
    (fields : Option (List String)) : OverlaySnapshot Value Revision :=
  let conflict := removeConflictFields snapshot.conflict fields
  { snapshot with
    status := overlayStatus snapshot.dirtyFields snapshot.committingFields
      conflict
    conflict := conflict }

omit [DecidableEq Value] in
def resetFields (snapshot : OverlaySnapshot Value Revision)
    (fields : List String) : OverlaySnapshot Value Revision :=
  match snapshot.authoritative with
  | none => snapshot
  | some authoritative =>
      let dirtyFields := removeMembers snapshot.dirtyFields fields
      let committingFields := removeMembers snapshot.committingFields fields
      let conflict := removeConflictFields snapshot.conflict (some fields)
      { snapshot with
        draft := fields.foldl
          (fun draft field =>
            draft.set field (readField undefined authoritative field))
          snapshot.draft
        dirtyFields := dirtyFields
        committingFields := committingFields
        status := overlayStatus dirtyFields committingFields conflict
        conflict := conflict }

omit [DecidableEq Value] in
def markCommitting (snapshot : OverlaySnapshot Value Revision)
    (fields : List String) : OverlaySnapshot Value Revision :=
  let committingFields := addMembers snapshot.committingFields fields
  { snapshot with
    committingFields := committingFields
    status := overlayStatus snapshot.dirtyFields committingFields none
    conflict := none }

omit [DecidableEq Value] in
def markCommitted (snapshot : OverlaySnapshot Value Revision)
    (fields : List String) (authoritative : JsMap Value)
    (revision : Option Revision) : OverlaySnapshot Value Revision :=
  let dirtyFields := removeMembers snapshot.dirtyFields (setOf fields)
  let committingFields :=
    removeMembers snapshot.committingFields (setOf fields)
  { authoritative := some authoritative
    draft := authoritative.keys.foldl
      (fun draft field =>
        if dirtyFields.contains field then draft
        else draft.set field (readField undefined authoritative field))
      snapshot.draft
    dirtyFields := dirtyFields
    committingFields := committingFields
    revision := revision
    status := overlayStatus dirtyFields committingFields none
    conflict := none }

omit [DecidableEq Value] in
def markCommitFailed (snapshot : OverlaySnapshot Value Revision)
    (fields : List String) (error : String) :
    OverlaySnapshot Value Revision :=
  let failedFields := setOf fields
  { snapshot with
    committingFields := removeMembers snapshot.committingFields failedFields
    status := .conflicted
    conflict := some
      { kind := .commit, fields := failedFields, message := error } }

omit [DecidableEq Value] in
def reset (snapshot : OverlaySnapshot Value Revision)
    (authoritative : Option (JsMap Value)) (revision : Option Revision) :
    OverlaySnapshot Value Revision :=
  let nextAuthoritative :=
    (authoritative.or snapshot.authoritative).getD snapshot.draft
  { authoritative := some nextAuthoritative
    draft := nextAuthoritative
    dirtyFields := []
    committingFields := []
    revision := revision.or snapshot.revision
    status := .clean
    conflict := none }

/-- The snapshot after a call. -/
def call (snapshot : OverlaySnapshot Value Revision) :
    OverlayCall Value Revision → OverlaySnapshot Value Revision
  | .hydrate authoritative revision =>
      snapshot.hydrate undefined authoritative revision
  | .restoreDraft draft options => restoreDraft draft options
  | .setField field value => snapshot.setField undefined field value
  | .keepDraft fields => snapshot.keepDraft fields
  | .resetFields fields => snapshot.resetFields undefined fields
  | .markCommitting fields => snapshot.markCommitting fields
  | .markCommitted fields authoritative revision =>
      snapshot.markCommitted undefined fields authoritative revision
  | .markCommitFailed fields error => snapshot.markCommitFailed fields error
  | .reset authoritative revision => snapshot.reset authoritative revision

end OverlaySnapshot

end Overlay

end Clerkenwell.Client
