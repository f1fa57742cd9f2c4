import Clerkenwell.Codegen.SchemaPaths

/-!
# The checks of a collaborative entity

A collaborative entity's fields cover its schema, each as the schema declares
what is at its path.
-/

namespace Clerkenwell.Codegen

open Clerkenwell.Foundation Clerkenwell.Doc

/-! ## Storage -/

/-- Refuses a storage that lacks a setting its kind requires. -/
def requireSetting (context : String) (field : FieldDeclaration)
    (key : String) : Checked PUnit :=
  if field.hasSetting key then .ok ⟨⟩
  else
    refuse (s!"{context}.{key} is required for "
      ++ s!"{storageKindName field.storageKind}.")

def requireContainer (context : String) (field : FieldDeclaration) :
    Checked PUnit :=
  if !field.hasSetting "container" && !field.hasSetting "containerTemplate" then
    refuse (s!"{context} requires container or containerTemplate for "
      ++ s!"{storageKindName field.storageKind}.")
  else
    .ok ⟨⟩

def checkCollaborationStorage (context : String) (field : FieldDeclaration) :
    Checked PUnit :=
  match field.storageKind with
  | .scalar => do
      requireContainer context field
      requireSetting context field "key"
  | .text | .orderedList | .structuredList | .structuredMap
  | .structuredDocument => requireContainer context field
  | .keyedSequence => do
      requireSetting context field "identityPath"
      requireSetting context field "orderContainer"
      requireSetting context field "itemContainerTemplate"
  | .derivedIdentity | .derivedRevision => .ok ⟨⟩

/-- The variable a keyed sequence's item identity is named by in templates. -/
def sequenceIdentity (sequence : FieldDeclaration) : Checked String :=
  expect (sequence.identityVariable.or sequence.identityPath)

/-- The settings that name a container, a sequence's item containers aside. -/
def containerSettings : List String :=
  ["container", "containerTemplate", "metadataContainer",
    "metadataContainerTemplate", "orderContainer"]

/-- The identities a field's container must name under one of its settings. -/
def namedIdentities (field : FieldDeclaration) (key : String)
    (enclosing : List String) : Checked (List String) :=
  if key = "itemContainerTemplate" then do
    let own ← sequenceIdentity field
    pure (enclosing ++ [own])
  else
    pure enclosing

/-- The container a setting names carries every identity it must. -/
def checkContainerSetting (context : String) (field : FieldDeclaration)
    (enclosing : List String) (key : String) : Checked PUnit :=
  match field.storageSetting key with
  | none => .ok ⟨⟩
  | some template => do
      let identities ← namedIdentities field key enclosing
      forM identities fun identity =>
        let named := "\x7b" ++ identity ++ "\x7d"
        if Text.contains template named then pure ⟨⟩
        else
          refuse (s!"{context}.fields.{field.path}.storage.{key} must name "
            ++ named ++ ": each item of its keyed sequence needs a container "
            ++ "of its own.")

/-- The identities of the sequences whose items enclose a field. -/
def enclosingIdentities (sequences : List FieldDeclaration)
    (field : FieldDeclaration) : Checked (List String) :=
  (sequences.filter fun sequence =>
    Text.startsWith field.path s!"{sequence.path}.*.").mapM sequenceIdentity

/-- Each container of a field names the items that enclose it. -/
def checkFieldContainers (context : String) (sequences : List FieldDeclaration)
    (field : FieldDeclaration) : Checked PUnit := do
  let enclosing ← enclosingIdentities sequences field
  forM (containerSettings ++ ["itemContainerTemplate"])
    (checkContainerSetting context field enclosing)

/-- The keyed sequences among fields. -/
def keyedSequences (fields : List FieldDeclaration) : List FieldDeclaration :=
  fields.filter fun field => field.storageKind == .keyedSequence

/--
A container inside a keyed sequence holds one item's data, so its name carries
the identity of the item of every sequence that encloses it, and a sequence's
item containers carry the identity of its own items too.
-/
def checkKeyedSequenceContainers (context : String)
    (fields : List FieldDeclaration) : Checked PUnit :=
  forM fields (checkFieldContainers context (keyedSequences fields))

/-! ## Fields -/

/-- A codec that stores its value whole. -/
def storesWhole (codec : CollaborationValueCodec) : Bool :=
  codec == .propertyText || codec == .structuredJson

/-- What a field declares of its value's metadata and schema. -/
def checkCodec (context : String) (field : FieldDeclaration) : Checked PUnit :=
  let path := field.path
  if field.codec = .propertyText ∧ !field.hasSetting "metadataContainer"
      ∧ !field.hasSetting "metadataContainerTemplate" then
    refuse (s!"{context}.fields.{path}.storage requires metadataContainer or "
      ++ "metadataContainerTemplate for propertyText.")
  else if field.codec = .propertyText ∧ !field.hasSetting "metadataKey" then
    refuse (s!"{context}.fields.{path}.storage.metadataKey is required for "
      ++ "propertyText.")
  else if field.codec = .structuredJson ∧ field.valueSchema.isNone then
    refuse (s!"{context}.fields.{path}.value.schema is required for "
      ++ "structuredJson.")
  else
    .ok ⟨⟩

/-- A field's presence as it declares it, beside the schema's. -/
def checkPresence (context : String) (field : FieldDeclaration)
    (presence : Presence) : Checked PUnit :=
  if presence.required ≠ field.required then
    refuse (s!"{context}.fields.{field.path}.required must match the entity "
      ++ s!"schema ({presence.required}).")
  else if presence.requiredInParent ≠ field.requiredInParent then
    refuse (s!"{context}.fields.{field.path}.requiredInParent must match the "
      ++ s!"entity schema ({presence.requiredInParent}).")
  else
    .ok ⟨⟩

/--
A field holding an object stores it whole: as structured JSON of its schema,
or, for a closed object, as property text.
-/
def checkHeldObject (context : String) (field : FieldDeclaration)
    (fieldSchema : Members) : Checked PUnit :=
  let whole := (otherMembersSchema fieldSchema).isSome
    || (recordValuesSchema fieldSchema).isSome
  if hasType fieldSchema "object" ∧ field.codec ≠ .structuredJson
      ∧ (whole ∨ field.codec ≠ .propertyText) then
    refuse (s!"{context}.fields.{field.path} holds an object, so its codec is "
      ++ "structuredJson over that object's schema.")
  else
    .ok ⟨⟩

section Entity

variable (definition : Declarations)

/--
A field's value schema resolves to the `$defs` entry the entity schema declares
at the field's path, or, for a structured list, to the entry of one item of the
array there.
-/
def checkValueSchema (fuel : Nat) (field : FieldDeclaration)
    (valueSchema : Members) (declared : Followed)
    (context schemaName : String) : Running Failure PUnit := do
  discard (Running.settled
    (schemaRefName definition.document valueSchema context))
  let path := field.path
  let (declaredName, what) ←
    if field.storageKind = .structuredList then
      match arrayItems declared.schema with
      | none =>
          throw (.refused (s!"{context} is the schema of one item of a "
            ++ s!"structured list, but {schemaName} declares no array at "
            ++ s!"{path}."))
      | some items => do
          let (name, _) ←
            dereferenceFrom definition.document none fuel items
          pure (name, s!"an item of {path}")
    else
      pure (declared.name, path)
  let (valueName, _) ←
    dereferenceFrom definition.document none fuel valueSchema
  -- Two schemas are one when they are the same entry.
  if valueName.isSome ∧ valueName = declaredName then pure ⟨⟩
  else
    let shown :=
      (declaredName.map fun name => s!"#/$defs/{name}").getD
        "an inline schema"
    throw (.refused (s!"{context} is "
      ++ (strField valueSchema "$ref").getD ""
      ++ s!", but {schemaName} declares {what} as {shown}."))

/-- Whether a schema admits no other members than it declares. -/
def isClosed (schema : Members) : Bool :=
  match schema.get? "additionalProperties" with
  | some (.bool false) => true
  | _ => false

/-- The items of a keyed sequence are closed objects. -/
def checkSequenceItems (fuel : Nat) (context : String)
    (entitySchema : Members) (field : FieldDeclaration) :
    Running Failure PUnit := do
  let found ←
    collaborationSchemaAt definition.document fuel entitySchema field.path
  match found.bind fun followed => arrayItems followed.schema with
  | none => pure ⟨⟩
  | some items => do
      let items ← dereference definition.document fuel items
      if !hasType items "object" || !isClosed items then
        throw (.refused (s!"{context}.fields.{field.path} is a keyed sequence, "
          ++ "whose items must be closed objects."))
      else
        pure ⟨⟩

/-- A field is as the entity schema declares what is at its path. -/
def checkField (fuel : Nat) (context schemaName : String)
    (entitySchema : Members) (field : FieldDeclaration) :
    Running Failure PUnit := do
  let path := field.path
  let found ←
    collaborationSchemaAt definition.document fuel entitySchema path
  match found with
  | none =>
      throw (.refused
        s!"{context}.fields.{path} does not resolve in {schemaName}.")
  | some followed => do
      Running.settled (checkPresence context field followed.presence)
      Running.settled
        (checkCollaborationStorage s!"{context}.fields.{path}.storage" field)
      Running.settled (checkCodec context field)
      match field.valueSchema with
      | none => pure ⟨⟩
      | some schema =>
          checkValueSchema definition fuel field schema followed
            s!"{context}.fields.{path}.value.schema" schemaName
      Running.settled (checkHeldObject context field followed.schema)

/-- Refuses the entity schema's paths that no field covers. -/
def checkCoverage (context : String) (fields : List FieldDeclaration)
    (requiredPaths : List String) : Checked PUnit :=
  let missing := requiredPaths.filter fun required =>
    !(fields.any fun field => field.path == required)
      && !(fields.any fun field =>
        Text.startsWith required (field.path ++ ".") && storesWhole field.codec)
  if missing.isEmpty then .ok ⟨⟩
  else
    refuse (s!"{context}.fields does not cover entity schema paths: "
      ++ ", ".intercalate (shallowestUncovered requiredPaths missing) ++ ".")

/-- The projection and the mutation of an entity's authoring state. -/
def checkAuthoringState (collaboration : CollaborationDeclaration) :
    Checked PUnit :=
  let entityName := collaboration.name
  let context := s!"collaboration.entities.{entityName}"
  if !((definition.projection? collaboration.authoringProjection).any
      fun projection => projection.dependsOn.contains entityName) then
    refuse (s!"{context}.authoringState.projection must name a projection "
      ++ s!"depending on {entityName}.")
  else if !((definition.mutation? collaboration.importMutation).any
      fun mutation => mutation.touches.contains entityName) then
    refuse (s!"{context}.authoringState.importMutation must name a mutation "
      ++ s!"touching {entityName}.")
  else
    .ok ⟨⟩

/-- The name and the schema of a collaborative entity, a closed object. -/
def entitySchemaOf (entity : EntityDeclaration) : Checked (String × Members) := do
  let schemaName ← schemaRefName definition.document entity.schema
    s!"entities.{entity.name}.schema"
  let entitySchema ← expect (definition.document.def? schemaName)
  if (otherMembersSchema entitySchema).isSome then
    refuse (s!"entities.{entity.name}.schema must be a closed object: a "
      ++ "collaborative entity's members are its fields.")
  else
    pure (schemaName, entitySchema)

/-- What is checked of an entity's fields once its paths are collected. -/
def checkFields (fuel : Nat) (context schemaName : String)
    (entitySchema : Members) (fields : List FieldDeclaration)
    (requiredPaths : List String) : Running Failure PUnit := do
  forM (keyedSequences fields)
    (checkSequenceItems definition fuel context entitySchema)
  forM fields (checkField definition fuel context schemaName entitySchema)
  Running.settled (checkKeyedSequenceContainers context fields)
  Running.settled (checkCoverage context fields requiredPaths)

def checkCollaborationEntity (fuel : Nat) (entity : EntityDeclaration)
    (collaboration : CollaborationDeclaration) : Running Failure PUnit := do
  let context := s!"collaboration.entities.{collaboration.name}"
  Running.settled (checkAuthoringState definition collaboration)
  let (schemaName, entitySchema) ←
    Running.settled (entitySchemaOf definition entity)
  let requiredPaths ←
    collectCollaborationSchemaPaths definition.document fuel entitySchema ""
  checkFields definition fuel context schemaName entitySchema
    collaboration.fields requiredPaths

end Entity

end Clerkenwell.Codegen
