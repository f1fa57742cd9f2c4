import Clerkenwell.Foundation.Text

/-!
# Collaboration plans

A generated plan lists the declared fields of one entity and where each lives
in a document.  A keyed sequence is a field of its own; the fields of its items
have paths under `sequence.*.`.
-/

namespace Clerkenwell.Doc

open Clerkenwell.Foundation

/-! ## Writers -/

/-- The kind of principal that made a change. -/
inductive ActorKind where
  | human
  | agent
  | service
  | system
deriving DecidableEq, Repr

/-- Who makes a change: an identity the host authenticated, and its kind. -/
structure Principal where
  id : String
  kind : ActorKind
deriving DecidableEq, Repr

/-! ## Declared fields -/

/-- How a collaborative field is held in the document. -/
inductive CollaborationStorageKind where
  | scalar
  | text
  | orderedList
  | structuredList
  | structuredMap
  | structuredDocument
  | derivedIdentity
  | derivedRevision
  | keyedSequence
deriving DecidableEq, Repr

/-- How a collaborative field's value is encoded. -/
inductive CollaborationValueCodec where
  | integer
  | number
  | optionalNumber
  | boolean
  | string
  | optionalString
  | propertyText
  | stringList
  | structuredJson
  | identity
  | keyedSequence
deriving DecidableEq, Repr

/-- How a concurrent change to a collaborative field is judged. -/
inductive CollaborationConflict where
  | immutable
  | explicit
  | merge
  | lastWriterWins
deriving DecidableEq, Repr

/-- How a change one kind of writer makes to a field is judged. -/
structure WriterConflict where
  kind : ActorKind
  conflict : CollaborationConflict
deriving DecidableEq, Repr

/-- One declared field of a collaborative document and where it lives. -/
structure CollaborationFieldSpec where
  path : String
  storageKind : CollaborationStorageKind
  container : Option String
  containerTemplate : Option String
  key : Option String
  identityPath : Option String
  identityVariable : Option String
  orderContainer : Option String
  metadataContainer : Option String
  metadataContainerTemplate : Option String
  metadataKey : Option String
  codec : CollaborationValueCodec
  required : Bool
  requiredInParent : Bool
  conflict : CollaborationConflict
  writers : List WriterConflict
deriving DecidableEq, Repr

namespace CollaborationFieldSpec

/-- The policy that replaces the field's own for `kind`, when one does. -/
def writerConflict (field : CollaborationFieldSpec) (kind : ActorKind) :
    Option CollaborationConflict :=
  (field.writers.find? fun writer => writer.kind == kind).map
    WriterConflict.conflict

/-- The policy a change `kind` makes to the field is judged by. -/
def conflictFor (field : CollaborationFieldSpec) (kind : ActorKind) :
    CollaborationConflict :=
  (field.writerConflict kind).getD field.conflict

/-- Whether the field's path lies within the items of a keyed sequence. -/
def isNested (field : CollaborationFieldSpec) : Bool :=
  Text.contains field.path ".*."

/-- Whether the field is derived from where the document is, not stored. -/
def isDerived (field : CollaborationFieldSpec) : Bool :=
  field.storageKind == .derivedIdentity
    || field.storageKind == .derivedRevision

end CollaborationFieldSpec

/--
A collaborative entity's document layout.  A schema version is positive in
every plan the generator writes.
-/
structure CollaborationEntitySpec where
  name : String
  idField : String
  schemaVersion : Nat
  fields : List CollaborationFieldSpec
  schemaVersion_pos : 0 < schemaVersion
deriving DecidableEq

/-! ## The shape of a plan -/

/-- The prefix of the paths of a sequence's item fields. -/
def itemPrefix (sequence : CollaborationFieldSpec) : String :=
  sequence.path ++ ".*."

/-- `field`'s path within an item of `sequence`, when it is directly under it. -/
def directItemPath (sequence field : CollaborationFieldSpec) :
    Option String :=
  (Text.stripPrefix field.path (itemPrefix sequence)).filter fun rest =>
    !Text.contains rest ".*."

/--
The keyed sequences directly under the items of `parent`, or directly under
the document when it is `none`.
-/
def directChildSequences
    (plan : CollaborationEntitySpec)
    (parent : Option CollaborationFieldSpec) :
    List CollaborationFieldSpec :=
  plan.fields.filter fun field =>
    field.storageKind == .keyedSequence &&
      match parent with
      | none => !field.isNested
      | some sequence => (directItemPath sequence field).isSome

/-- The fields directly under the items of `sequence`, but for its sequences. -/
def directSequenceItemFields
    (plan : CollaborationEntitySpec)
    (sequence : CollaborationFieldSpec) :
    List CollaborationFieldSpec :=
  plan.fields.filter fun field =>
    field.storageKind != .keyedSequence
      && (directItemPath sequence field).isSome

/-- The path of the nearest keyed sequence `sequencePath` lies within. -/
def parentSequencePath
    (plan : CollaborationEntitySpec) (sequencePath : String) :
    Option String :=
  (plan.fields.filter fun field =>
      field.storageKind == .keyedSequence
        && Text.startsWith sequencePath (itemPrefix field)).foldl
    (fun longest field =>
      match longest with
      | some path =>
          if path.utf8ByteSize ≤ field.path.utf8ByteSize then some field.path
          else some path
      | none => some field.path)
    none

/-- `sequence`'s path within the item or document that holds it. -/
def sequenceRelativePath
    (plan : CollaborationEntitySpec)
    (sequence : CollaborationFieldSpec) :
    String :=
  match parentSequencePath plan sequence.path with
  | none => sequence.path
  | some parent =>
      (Text.stripPrefix sequence.path (parent ++ ".*.")).getD sequence.path

/-- The variable the identity of an item of `sequence` is bound to. -/
def identityVariable (sequence : CollaborationFieldSpec) : String :=
  (sequence.identityVariable.or sequence.identityPath).getD ""

end Clerkenwell.Doc
