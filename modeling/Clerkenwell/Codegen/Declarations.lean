import Clerkenwell.Codegen.Materialization
import Clerkenwell.Doc.Plan

/-!
# Declared sections

A definition's document with what each of its sections declares, as the
meta-schema shaped it.
-/

namespace Clerkenwell.Codegen

open Clerkenwell.Doc

/-- How an entity's revisions are known, and the field a revision names. -/
inductive Revision where
  | contentHash (field : String)
  | replica (field : Option String)
deriving DecidableEq, Repr

inductive AuthoringKind where
  | optimisticDocument
  | collaborative
  | commandOwned
  | readOnly
deriving DecidableEq, Repr

/-- An `entities` entry. -/
structure EntityDeclaration where
  name : String
  id : String
  /-- The reference naming the entity schema. -/
  schema : Members
  revision : Revision
  authoringKind : AuthoringKind
  planningMutations : List String

/-- A `projections` entry. -/
structure ProjectionDeclaration extends Projection where
  params : Members
  dependsOn : List String

/-- A `mutations` or a `commands` entry. -/
structure OperationDeclaration where
  name : String
  params : Members
  result : Members
  touches : List String

/-- A `collaboration.entities.*.fields` entry. -/
structure FieldDeclaration extends CollaborationFieldSpec where
  itemContainerTemplate : Option String
  /-- The reference naming the value schema, if there is one. -/
  valueSchema : Option Members

/-- A `collaboration.entities` entry. -/
structure CollaborationDeclaration where
  name : String
  authoringProjection : String
  importMutation : String
  fields : List FieldDeclaration

/-- A definition: its document, and what the sections of it declare. -/
structure Declarations where
  document : Sections
  entities : List EntityDeclaration
  projections : List ProjectionDeclaration
  mutations : List OperationDeclaration
  commands : List OperationDeclaration
  collaboration : List CollaborationDeclaration

namespace Revision

def isReplica : Revision → Bool
  | .replica _ => true
  | .contentHash _ => false

end Revision

namespace FieldDeclaration

/-- A storage setting by its key, present or not. -/
def storageSetting (field : FieldDeclaration) : String → Option String
  | "container" => field.container
  | "containerTemplate" => field.containerTemplate
  | "key" => field.key
  | "identityPath" => field.identityPath
  | "identityVariable" => field.identityVariable
  | "orderContainer" => field.orderContainer
  | "itemContainerTemplate" => field.itemContainerTemplate
  | "metadataContainer" => field.metadataContainer
  | "metadataContainerTemplate" => field.metadataContainerTemplate
  | "metadataKey" => field.metadataKey
  | _ => none

/-- Whether a storage setting is present and not empty. -/
def hasSetting (field : FieldDeclaration) (key : String) : Bool :=
  (field.storageSetting key).any fun value => !value.isEmpty

end FieldDeclaration

namespace Declarations

def entity? (definition : Declarations) (name : String) :
    Option EntityDeclaration :=
  definition.entities.find? (·.name == name)

def projection? (definition : Declarations) (name : String) :
    Option ProjectionDeclaration :=
  definition.projections.find? (·.name == name)

def mutation? (definition : Declarations) (name : String) :
    Option OperationDeclaration :=
  definition.mutations.find? (·.name == name)

def collaboration? (definition : Declarations) (name : String) :
    Option CollaborationDeclaration :=
  definition.collaboration.find? (·.name == name)

def entityNames (definition : Declarations) : List String :=
  definition.entities.map (·.name)

end Declarations

/-- The spelling of a storage kind. -/
def storageKindName : CollaborationStorageKind → String
  | .scalar => "scalar"
  | .text => "text"
  | .orderedList => "orderedList"
  | .structuredList => "structuredList"
  | .structuredMap => "structuredMap"
  | .structuredDocument => "structuredDocument"
  | .derivedIdentity => "derivedIdentity"
  | .derivedRevision => "derivedRevision"
  | .keyedSequence => "keyedSequence"

end Clerkenwell.Codegen
