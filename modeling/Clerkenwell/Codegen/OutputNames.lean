import Clerkenwell.Codegen.Declarations

/-!
# Generated output names

Generated identifiers of independent concepts may still collide once
normalised, the helper enums of string-enum properties above all.
-/

namespace Clerkenwell.Codegen

/-- A constant prefix: `authoring.runtime` becomes `AUTHORING_RUNTIME`. -/
def constantName (value : String) : String :=
  if (words value).isEmpty then "VALUE"
  else "_".intercalate ((words value).map asciiUppercase)

def nameConstantIdentifier (value suffix : String) : String :=
  s!"{constantName value}_{suffix}"

def schemaConstantIdentifier (value kind role : String) : String :=
  nameConstantIdentifier value s!"{kind}_{role}_SCHEMA"

/-- The helper enum of a string-enum property, scoped by its definition. -/
def rustPropertyEnumName (definitionName propertyName : String) : String :=
  pascalIdentifier definitionName ++ pascalIdentifier propertyName

/-- The type naming a record entry's values' constraints. -/
def rustRecordConstraintsName (definitionName : String) : String :=
  s!"{pascalIdentifier definitionName}Constraints"

/-- What a tagged union variant's property enums are named after. -/
def variantEnumOwner (definitionName tag : String) : String :=
  pascalIdentifier definitionName ++ pascalIdentifier tag

/-- A generated name, and what generates it. -/
structure OutputName where
  name : String
  source : String
deriving DecidableEq, Repr

/-! ## Property enums -/

/--
Whether a property has a string enum, declared directly or within its array
items and record values at any depth.
-/
def hasPropertyEnum (schema : Members) : Bool :=
  ((schema.get? "enum").bind Json.asArray).isSome
    || (hasType schema "array"
      && match _held : objectField schema "items" with
        | some items => hasPropertyEnum items
        | none => false)
    || match _held : recordValuesSchema schema with
      | some values => hasPropertyEnum values
      | none => false
termination_by sizeOf schema
decreasing_by
  · exact sizeOf_objectField_lt _held
  · exact sizeOf_objectField_lt (objectField_of_recordValuesSchema _held)

/-- The property enums of an owner's properties. -/
def propertyEnums (owner path : String) (properties : Members) :
    List OutputName :=
  properties.filterMap fun (propertyName, propertySchema) =>
    if propertySchema.asObject.any hasPropertyEnum then
      some
        { name := rustPropertyEnumName owner propertyName
          source := s!"{path}.{propertyName}" }
    else
      none

/-- The values of a record are named `value`, an open object's after their field. -/
def otherValuesEnum (definitionName : String) (schema : Members) :
    Option OutputName := do
  let (name, values) ←
    ((recordValuesSchema schema).map fun values => ("value", values)).or
      ((otherMembersSchema schema).map fun values =>
        ("other_members", values))
  if hasPropertyEnum values then
    some
      { name := rustPropertyEnumName definitionName name
        source := s!"$defs.{definitionName}.additionalProperties" }
  else
    none

/-- The string enums an entry's properties and its variants' declare. -/
def rustPropertyEnums (definitionName : String) (schema : Members) :
    List OutputName :=
  if !hasType schema "object" then []
  else
    ((objectField schema "properties").map
      (propertyEnums definitionName
        s!"$defs.{definitionName}.properties")).getD []
    ++ ((objectField schema "oneOf").getD []).flatMap (fun (tag, variant) =>
      ((variant.asObject.bind fun variant =>
        objectField variant "properties").map
          (propertyEnums (variantEnumOwner definitionName tag)
            s!"$defs.{definitionName}.oneOf.{tag}.properties")).getD [])
    ++ (otherValuesEnum definitionName schema).toList

/-! ## Names the bindings import -/

/-- The names the TypeScript module binds from its client. -/
def clientBindings : List String :=
  ["AuthoringPeerBlock", "AuthoringPlan", "AuthoringState",
    "AuthoringStatePatch", "ClerkenwellCollaborationEntityPlan",
    "CollaborationExchangeMode", "CollaborationPlanTextFieldPath",
    "CollaborationReplicaDocument", "ClerkenwellProjectionCompositionPlan",
    "AuthoringPolicyKind", "CollaborationFieldPlan",
    "CollaborationStorageKind", "CollaborationValueCodec",
    "resolveCollaborationContainer"]

/-- The names the Rust model's imports bind. -/
def importBindings : List String :=
  ["ActorKind", "AuthoringPeerBlock", "AuthoringState", "AuthoringStatePatch",
    "AuthoringStatePatchKind", "CollaborationExchangeMode",
    "DeclaredMemberError", "DeclaredMembers", "GeneratedAuthoringPolicyKind",
    "GeneratedCollaborationConflict", "GeneratedCollaborationEntitySpec",
    "GeneratedCollaborationFieldSpec", "GeneratedCollaborationStorageKind",
    "GeneratedCollaborationValueCodec", "GeneratedCommandSpec",
    "GeneratedEntityAuthoringSpec", "GeneratedMaterializationPlan",
    "GeneratedMutationSpec", "GeneratedProjectionSpec", "GeneratedRemoveMode",
    "GeneratedSnapshotMode", "GeneratedTransportValue",
    "GeneratedWriterConflict", "OtherMembers", "RecordConstraints",
    "RecordMembers", "SchemaConstraint", "SchemaConstraintValue",
    "Deserialize", "Serialize", "JsonValue", "BTreeMap"]

/-- The entries whose types are the generator's own. -/
def sharedDeclarations : List String :=
  ["AuthoringState", "AuthoringStatePatch", "AuthoringPeerBlock",
    "CollaborationExchangeMode"]

/-! ## Every name -/

section Names

variable (definition : Declarations)

/-- The `$defs` entries, each an object. -/
def definitionEntries : List (String × Members) :=
  definition.document.defs.filterMap fun (name, schema) =>
    schema.asObject.map fun schema => (name, schema)

/-- The entries the bindings declare a type for. -/
def declaredEntries : List (String × Members) :=
  (definitionEntries definition).filter fun entry =>
    !sharedDeclarations.contains entry.1

def entryNames : List OutputName :=
  (declaredEntries definition).flatMap fun (name, schema) =>
    { name := pascalIdentifier name, source := s!"$defs.{name}" }
      :: if (recordValuesSchema schema).isSome then
        [{ name := rustRecordConstraintsName name
           source := s!"$defs.{name}.additionalProperties" }]
      else
        []

def importedNames : List OutputName :=
  (clientBindings ++ importBindings.filter fun name =>
    !clientBindings.contains name).map fun name =>
      { name := name, source := s!"the generated bindings' import of {name}" }

/-- The names of the generated declarations there is one of. -/
def sharedNames : List OutputName :=
  [⟨"CollaborationDocument", "the generated collaborative document types"⟩,
    ⟨"ProjectionName", "generated projection dispatch enum"⟩,
    ⟨"MutationName", "generated mutation dispatch enum"⟩,
    ⟨"CommandName", "generated command dispatch enum"⟩,
    ⟨"ENTITY_NAMES", "generated entity name list"⟩,
    ⟨"PROJECTION_NAMES", "generated projection name list"⟩,
    ⟨"MUTATION_NAMES", "generated mutation name list"⟩,
    ⟨"COMMAND_NAMES", "generated command name list"⟩]

/-- The names one projection, mutation or command generates. -/
def publicNames (section_ name kind : String) (roles : List String) :
    List OutputName :=
  let source := s!"{section_}.{name}"
  [⟨nameConstantIdentifier name kind, source⟩]
    ++ roles.map (fun role => ⟨schemaConstantIdentifier name kind role, source⟩)
    ++ [⟨pascalIdentifier name, source⟩]

/-- Every generated name, in the order they are registered. -/
def outputNames : List OutputName :=
  entryNames definition
    ++ (declaredEntries definition).flatMap
      (fun (name, schema) => rustPropertyEnums name schema)
    ++ importedNames ++ sharedNames
    ++ definition.entities.map (fun entity =>
      ⟨nameConstantIdentifier entity.name "ENTITY",
        s!"entities.{entity.name}"⟩)
    ++ definition.projections.flatMap (fun projection =>
      publicNames "projections" projection.name "PROJECTION"
        ["PARAMS", "SNAPSHOT"])
    ++ definition.mutations.flatMap (fun mutation =>
      publicNames "mutations" mutation.name "MUTATION" ["PARAMS", "RESULT"])
    ++ definition.commands.flatMap (fun command =>
      publicNames "commands" command.name "COMMAND" ["PARAMS", "RESULT"])

/-- Refuses a name an earlier one is. -/
def registerNames (earlier : List OutputName) :
    List OutputName → Checked PUnit
  | [] => .ok ⟨⟩
  | output :: rest =>
      match earlier.find? (·.name == output.name) with
      | some previous =>
          refuse (s!"{output.source} and {previous.source} both generate "
            ++ s!"output name {output.name}.")
      | none => registerNames (output :: earlier) rest

def checkGeneratedOutputNames : Checked PUnit :=
  registerNames [] (outputNames definition)

end Names

end Clerkenwell.Codegen
