import Mathlib.Data.Finset.Basic

/-!
# A replica, its text bindings and its views

A text binding edits a fork of the replica's document, and a view edits a copy
of it elsewhere.  What each wrote is published by a queued flush, and the
replica hands what it takes to every other binding and view.  Handing it to a
binding flushes that binding first, which publishes and hands on in turn: such
a call is run with as many nested flushes as `fuel` allows.

A document is the set of operations it holds.  An import adds operations, and
an export lists those a version lacks.
-/

namespace Clerkenwell.Client

variable {Op : Type} [DecidableEq Op]

/-! ## What holds operations -/

/-- A `LoroFieldTextBinding`: a text field's own document and history. -/
structure FieldBinding (Op : Type) where
  doc : Finset Op
  compositionDepth : Nat
  /-- The updates that wait for the composition to end. -/
  pendingImports : List (Finset Op)
  pendingPublish : Bool
  /-- The operations a flush need not publish. -/
  publishedVersion : Finset Op
  /-- The microtasks queued to flush it. -/
  queuedFlushes : Nat
deriving DecidableEq

/-- A view held elsewhere, and what is on its way to and from it. -/
structure AttachedView (Op : Type) where
  field : FieldBinding Op
  toView : List (Finset Op)
  toReplica : List (Finset Op)
deriving DecidableEq

structure TextReplica (Op : Type) where
  doc : Finset Op
  /-- The bindings, in the order they were made. -/
  bindings : List (FieldBinding Op)
  views : List (AttachedView Op)
deriving DecidableEq

/-- Where a text field of a replica is edited. -/
inductive Place where
  | binding (index : Nat)
  | view (index : Nat)
deriving DecidableEq

/-! ## One field -/

namespace FieldBinding

/-- A field of a fork of a document. -/
def new (doc : Finset Op) : FieldBinding Op where
  doc := doc
  compositionDepth := 0
  pendingImports := []
  pendingPublish := false
  publishedVersion := doc
  queuedFlushes := 0

def composing (field : FieldBinding Op) : Bool :=
  field.compositionDepth != 0

/-- What a flush exports. -/
def exported (field : FieldBinding Op) : Finset Op :=
  field.doc \ field.publishedVersion

def published (field : FieldBinding Op) : FieldBinding Op :=
  { field with pendingPublish := false, publishedVersion := field.doc }

def publishSoon (field : FieldBinding Op) : FieldBinding Op :=
  if field.pendingPublish then field
  else
    { field with
      pendingPublish := true
      queuedFlushes := field.queuedFlushes + 1 }

/-- An edit's operations are committed, and published soon. -/
def edit (operations : Finset Op) (field : FieldBinding Op) :
    FieldBinding Op :=
  { field with doc := field.doc ∪ operations }.publishSoon

/-- An undo or a redo; one that changes nothing publishes nothing. -/
def history (operations : Finset Op) (field : FieldBinding Op) :
    FieldBinding Op :=
  if operations = ∅ then field else field.edit operations

/-- What an import does once the field is flushed. -/
def hold (update : Finset Op) (field : FieldBinding Op) : FieldBinding Op :=
  if field.composing then
    { field with pendingImports := field.pendingImports ++ [update] }
  else
    { field with
      doc := field.doc ∪ update
      publishedVersion := field.doc ∪ update }

def beginComposition (field : FieldBinding Op) : FieldBinding Op :=
  { field with compositionDepth := field.compositionDepth + 1 }

/-- A composition is released; the imports a last one held back are taken. -/
def endComposition (field : FieldBinding Op) : FieldBinding Op :=
  { field with
    compositionDepth := field.compositionDepth - 1
    pendingImports :=
      if field.compositionDepth = 1 then [] else field.pendingImports }

/-- The imports that releasing a composition sets free. -/
def released (field : FieldBinding Op) : List (Finset Op) :=
  if field.compositionDepth = 1 then field.pendingImports else []

def ranFlush (field : FieldBinding Op) : FieldBinding Op :=
  { field with queuedFlushes := field.queuedFlushes - 1 }

end FieldBinding

/-! ## A view -/

namespace AttachedView

def modifyField (change : FieldBinding Op → FieldBinding Op)
    (view : AttachedView Op) : AttachedView Op :=
  { view with field := change view.field }

/-- `send`. -/
def send (update : Finset Op) (view : AttachedView Op) : AttachedView Op :=
  { view with toView := view.toView ++ [update] }

def flush (view : AttachedView Op) : AttachedView Op :=
  if view.field.pendingPublish then
    { view with
      field := view.field.published
      toReplica := view.toReplica ++ [view.field.exported] }
  else
    view

/-- `importUpdate` of the view's field. -/
def importUpdate (view : AttachedView Op) (update : Finset Op) :
    AttachedView Op :=
  view.flush.modifyField (·.hold update)

/-- The view takes a message that was on its way to it. -/
def receive (message : Nat) (view : AttachedView Op) : AttachedView Op :=
  match view.toView[message]? with
  | none => view
  | some update =>
      { view with toView := view.toView.eraseIdx message }.importUpdate update

def endComposition (view : AttachedView Op) : AttachedView Op :=
  view.field.released.foldl importUpdate (view.modifyField (·.endComposition))

/-- A queued flush runs. -/
def runFlush (view : AttachedView Op) : AttachedView Op :=
  if view.field.queuedFlushes = 0 then view
  else (view.modifyField (·.ranFlush)).flush

end AttachedView

/-! ## A replica -/

namespace TextReplica

/-- A replica of a document, with no binding or view yet. -/
def new (doc : Finset Op) : TextReplica Op where
  doc := doc
  bindings := []
  views := []

def modifyBinding (index : Nat) (change : FieldBinding Op → FieldBinding Op)
    (replica : TextReplica Op) : TextReplica Op :=
  { replica with bindings := replica.bindings.modify index change }

def modifyView (index : Nat) (change : AttachedView Op → AttachedView Op)
    (replica : TextReplica Op) : TextReplica Op :=
  { replica with views := replica.views.modify index change }

/-- `doc.import(update)`. -/
def addOperations (update : Finset Op) (replica : TextReplica Op) :
    TextReplica Op :=
  { replica with doc := replica.doc ∪ update }

def sendToViews (update : Finset Op) (source : Option Place)
    (replica : TextReplica Op) : TextReplica Op :=
  { replica with
    views := replica.views.mapIdx fun index view =>
      if some (.view index) = source then view else view.send update }

/-- Hands operations to the bindings and views, except their source. -/
def distribute
    (importUpdate : Finset Op → TextReplica Op → Nat → Option (TextReplica Op))
    (update : Finset Op) (source : Option Place) (replica : TextReplica Op) :
    Option (TextReplica Op) := do
  let handed ← (List.range replica.bindings.length).foldlM
    (fun replica index =>
      if some (.binding index) = source then some replica
      else importUpdate update replica index) replica
  pure (handed.sendToViews update source)

/-- Flushes a binding, publishing what it wrote to everything else. -/
def flush : Nat → TextReplica Op → Nat → Option (TextReplica Op)
  | 0, _, _ => none
  | fuel + 1, replica, index =>
      match replica.bindings[index]? with
      | none => some replica
      | some field =>
          if field.pendingPublish then
            ((replica.modifyBinding index (·.published)).addOperations
              field.exported).distribute
                (fun update replica index => do
                  let flushed ← flush fuel replica index
                  pure (flushed.modifyBinding index (·.hold update)))
                field.exported (some (.binding index))
          else
            some replica

/-- More nested flushes than there are bindings to flush. -/
def enoughFuel (replica : TextReplica Op) : Nat :=
  replica.bindings.length + 1

def flushBinding (replica : TextReplica Op) (index : Nat) :
    Option (TextReplica Op) :=
  flush replica.enoughFuel replica index

/-- `importUpdate` of a binding. -/
def importInto (update : Finset Op) (replica : TextReplica Op) (index : Nat) :
    Option (TextReplica Op) := do
  let flushed ← replica.flushBinding index
  pure (flushed.modifyBinding index (·.hold update))

def flushTextBindings (replica : TextReplica Op) : Option (TextReplica Op) :=
  (List.range replica.bindings.length).foldlM flushBinding replica

/-- Takes operations, handing on those the replica lacked. -/
def take (update : Finset Op) (source : Option Place)
    (replica : TextReplica Op) : Option (TextReplica Op) :=
  if update ⊆ replica.doc then some replica
  else
    (replica.addOperations update).distribute importInto
      (update \ replica.doc) source

/-! ## What happens to a replica -/

/-- A field is bound that was not. -/
def bindText (replica : TextReplica Op) : Option (TextReplica Op) := do
  let flushed ← replica.flushTextBindings
  pure { flushed with bindings := flushed.bindings ++ [.new flushed.doc] }

def attachView (replica : TextReplica Op) : Option (TextReplica Op) := do
  let flushed ← replica.flushTextBindings
  pure
    { flushed with
      views := flushed.views ++
        [{ field := .new flushed.doc, toView := [], toReplica := [] }] }

/-- Takes a message that was on its way from a view. -/
def receive (index message : Nat) (replica : TextReplica Op) :
    Option (TextReplica Op) :=
  match replica.views[index]?.bind fun view => view.toReplica[message]? with
  | none => some replica
  | some update => do
      let flushed ← (replica.modifyView index fun view =>
        { view with
          toReplica := view.toReplica.eraseIdx message }).flushTextBindings
      flushed.take update (some (.view index))

/-- Writes the operations that make the document another. -/
def replaceDocument (operations : Finset Op) (replica : TextReplica Op) :
    Option (TextReplica Op) := do
  let before := replica.doc
  let flushed ← replica.flushTextBindings
  let written := flushed.addOperations operations
  written.distribute importInto (written.doc \ before) none

/-- An operation that depends on nothing, of a history built apart. -/
def holdsUnrelatedHistory (root : Op → Bool) (doc update : Finset Op) : Bool :=
  decide (∃ op ∈ update, root op ∧ op ∉ doc)

/-- Imports an update, unless it holds a history built apart. -/
def importUpdate (root : Op → Bool) (update : Finset Op)
    (replica : TextReplica Op) : Option (TextReplica Op) := do
  let flushed ← replica.flushTextBindings
  if holdsUnrelatedHistory root flushed.doc update then pure flushed
  else flushed.take update none

/-- A binding's composition is released. -/
def endComposition (replica : TextReplica Op) (index : Nat) :
    Option (TextReplica Op) :=
  match replica.bindings[index]? with
  | none => some replica
  | some field =>
      field.released.foldlM
        (fun replica update => importInto update replica index)
        (replica.modifyBinding index (·.endComposition))

/-- A binding's queued flush runs. -/
def runFlush (replica : TextReplica Op) (index : Nat) :
    Option (TextReplica Op) :=
  match replica.bindings[index]? with
  | none => some replica
  | some field =>
      if field.queuedFlushes = 0 then some replica
      else (replica.modifyBinding index (·.ranFlush)).flushBinding index

/-- Changes a field where it is edited. -/
def modifyAt (place : Place) (change : FieldBinding Op → FieldBinding Op)
    (replica : TextReplica Op) : TextReplica Op :=
  match place with
  | .binding index => replica.modifyBinding index change
  | .view index => replica.modifyView index (·.modifyField change)

/-- The field at a place. -/
def field? (replica : TextReplica Op) : Place → Option (FieldBinding Op)
  | .binding index => replica.bindings[index]?
  | .view index => replica.views[index]?.map (·.field)

end TextReplica

/-- What may happen next. -/
inductive TextEvent (Op : Type) where
  | bindText
  | attachView
  | edit (place : Place) (operations : Finset Op)
  | undo (place : Place) (operations : Finset Op)
  | redo (place : Place) (operations : Finset Op)
  | beginComposition (place : Place)
  | endComposition (place : Place)
  /-- A queued flush runs. -/
  | runFlush (place : Place)
  /-- The document is read, which flushes every binding. -/
  | capture
  /-- A view's frontier is read, which flushes it. -/
  | captureView (index : Nat)
  | replaceDocument (operations : Finset Op)
  | importUpdate (update : Finset Op)
  | deliverToView (index message : Nat)
  | deliverToReplica (index message : Nat)

namespace TextReplica

variable (root : Op → Bool)

/-- The replica after an event. -/
def act (replica : TextReplica Op) : TextEvent Op → Option (TextReplica Op)
  | .bindText => replica.bindText
  | .attachView => replica.attachView
  | .edit place operations => some (replica.modifyAt place (·.edit operations))
  | .undo place operations | .redo place operations =>
      some (replica.modifyAt place (·.history operations))
  | .beginComposition place =>
      some (replica.modifyAt place (·.beginComposition))
  | .endComposition (.binding index) => replica.endComposition index
  | .endComposition (.view index) =>
      some (replica.modifyView index (·.endComposition))
  | .runFlush (.binding index) => replica.runFlush index
  | .runFlush (.view index) => some (replica.modifyView index (·.runFlush))
  | .capture => replica.flushTextBindings
  | .captureView index => some (replica.modifyView index (·.flush))
  | .replaceDocument operations => replica.replaceDocument operations
  | .importUpdate update => replica.importUpdate root update
  | .deliverToView index message =>
      some (replica.modifyView index (·.receive message))
  | .deliverToReplica index message => replica.receive index message

/-! ## Runs -/

/-- What an import takes of an update. -/
def imported (root : Op → Bool) (update : Finset Op) (replica : TextReplica Op) :
    Finset Op :=
  match replica.flushTextBindings with
  | none => ∅
  | some flushed =>
      if holdsUnrelatedHistory root flushed.doc update then ∅ else update

/-- What an event writes. -/
def writes (root : Op → Bool) (replica : TextReplica Op) :
    TextEvent Op → Finset Op
  | .edit place operations | .undo place operations | .redo place operations =>
      if (replica.field? place).isSome then operations else ∅
  | .replaceDocument operations => operations
  | .importUpdate update => replica.imported root update
  | _ => ∅

/-- No flush is queued and no message is on its way. -/
structure Settled (replica : TextReplica Op) : Prop where
  bindings : ∀ field ∈ replica.bindings, field.queuedFlushes = 0
  views : ∀ view ∈ replica.views, view.field.queuedFlushes = 0
    ∧ view.toView = [] ∧ view.toReplica = []

end TextReplica

/-- Where an event changes the text itself. -/
def TextEvent.writer : TextEvent Op → Option Place
  | .edit place _ | .undo place _ | .redo place _ => some place
  | _ => none

/-- A replica, and every operation that was written. -/
structure TextSession (Op : Type) where
  replica : TextReplica Op
  written : Finset Op

namespace TextSession

variable (root : Op → Bool)

def act (session : TextSession Op) (event : TextEvent Op) :
    Option (TextSession Op) := do
  let left ← session.replica.act root event
  pure
    { replica := left
      written := session.written ∪ session.replica.writes root event }

/-- A run from a document. -/
def run (doc : Finset Op) (events : List (TextEvent Op)) :
    Option (TextSession Op) :=
  events.foldlM (act root) { replica := .new doc, written := doc }

end TextSession

end Clerkenwell.Client
