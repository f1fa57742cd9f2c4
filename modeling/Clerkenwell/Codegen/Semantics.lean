import Clerkenwell.Codegen.CollaborationChecks
import Clerkenwell.Codegen.OutputNames

/-!
# The semantic checks of a definition

What the meta-schema cannot state of a definition, each refusal naming the
place at fault.
-/

namespace Clerkenwell.Codegen

open Clerkenwell.Foundation

/-! ## Entities -/

/-- An entity's id and revision field are properties of its schema. -/
def checkEntitySchemaProperty (schema : Members) (property context : String) :
    Checked PUnit :=
  if hasType schema "object"
      && (objectField schema "properties").any fun properties =>
        properties.containsKey property then
    .ok ⟨⟩
  else
    refuse (s!"{context} references property {stringLiteral property} that is "
      ++ "not declared on the entity schema.")

section Checks

variable (definition : Declarations)

def checkRevision (entity : EntityDeclaration) (entitySchema : Members) :
    Checked PUnit :=
  match entity.revision with
  | .contentHash field =>
      checkEntitySchemaProperty entitySchema field
        s!"entities.{entity.name}.revision.field"
  | .replica (some _) =>
      refuse (s!"entities.{entity.name}.revision.field is not supported for "
        ++ "replica revisions.")
  | .replica none => .ok ⟨⟩

/-- The mutations that touch an entity. -/
def touchingMutations (entityName : String) : List String :=
  (definition.mutations.filter fun mutation =>
    mutation.touches.contains entityName).map (·.name)

def checkEntity (entity : EntityDeclaration) : Checked PUnit := do
  let name := entity.name
  let schemaName ← schemaRefName definition.document entity.schema
    s!"entities.{name}.schema"
  let entitySchema ← expect (definition.document.def? schemaName)
  checkEntitySchemaProperty entitySchema entity.id s!"entities.{name}.id"
  checkRevision entity entitySchema
  if entity.authoringKind = .collaborative ∧ !entity.revision.isReplica then
    refuse (s!"entities.{name}.authoring.kind \x22collaborative\x22 requires a "
      ++ "replica revision.")
  else
  forM entity.planningMutations fun mutation =>
    if (touchingMutations definition name).contains mutation then pure ⟨⟩
    else
      refuse (s!"entities.{name}.authoring.planningMutations references "
        ++ s!"mutation {stringLiteral mutation} that does not touch {name}.")

/-- The entity a collaboration entry is of, collaborative with a replica revision. -/
def collaborativeEntity (collaboration : CollaborationDeclaration) :
    Checked EntityDeclaration :=
  let name := collaboration.name
  match definition.entity? name with
  | none =>
      refuse (s!"collaboration.entities.{name} references unknown entity "
        ++ s!"{stringLiteral name}.")
  | some entity =>
      if !entity.revision.isReplica ∨ entity.authoringKind ≠ .collaborative then
        refuse (s!"collaboration.entities.{name} requires a collaborative "
          ++ "entity with a replica revision.")
      else
        .ok entity

/-- A collaboration entry is checked against its entity. -/
def checkCollaboration (fuel : Nat)
    (collaboration : CollaborationDeclaration) : Running Failure PUnit := do
  let entity ← Running.settled (collaborativeEntity definition collaboration)
  checkCollaborationEntity definition fuel entity collaboration

def checkCollaborationDeclared (entity : EntityDeclaration) : Checked PUnit :=
  if entity.authoringKind = .collaborative
      ∧ (definition.collaboration? entity.name).isNone then
    refuse (s!"entities.{entity.name} is collaborative but "
      ++ s!"collaboration.entities.{entity.name} is missing.")
  else
    .ok ⟨⟩

/-! ## Projections, mutations and commands -/

def checkProjection (scientific : Scientific)
    (projection : ProjectionDeclaration) : Checked PUnit := do
  let name := projection.name
  discard (schemaRefName definition.document projection.params
    s!"projections.{name}.params")
  discard (schemaRefName definition.document projection.snapshot
    s!"projections.{name}.snapshot")
  discard (schemaRefName definition.document projection.patch
    s!"projections.{name}.patch")
  forM projection.dependsOn fun dependency =>
    if definition.entityNames.contains dependency then pure ⟨⟩
    else
      refuse (s!"projections.{name}.dependsOn references unknown entity "
        ++ s!"{stringLiteral dependency}.")
  checkMaterialization scientific definition.document projection.toProjection

/-- A mutation's or a command's contracts and what it touches. -/
def checkOperation (section_ : String) (operation : OperationDeclaration) :
    Checked PUnit := do
  let name := operation.name
  discard (schemaRefName definition.document operation.params
    s!"{section_}.{name}.params")
  discard (schemaRefName definition.document operation.result
    s!"{section_}.{name}.result")
  forM operation.touches fun touched =>
    if !definition.entityNames.contains touched then
      refuse (s!"{section_}.{name}.touches references unknown entity "
        ++ s!"{stringLiteral touched}.")
    else if (definition.entity? touched).any fun entity =>
        entity.authoringKind = .readOnly then
      refuse (s!"{section_}.{name}.touches includes read-only entity "
        ++ s!"{stringLiteral touched}.")
    else
      pure ⟨⟩

/-! ## Public names -/

/-- Every projection, mutation and command: its section, name and parameters. -/
def publicOperations : List (String × String × Members) :=
  definition.projections.map (fun projection =>
    ("projections", projection.name, projection.params))
  ++ definition.mutations.map (fun mutation =>
    ("mutations", mutation.name, mutation.params))
  ++ definition.commands.map fun command =>
    ("commands", command.name, command.params)

/-- Projections, mutations and commands share a public namespace. -/
def checkPublicNames (earlier : List String) : List String → Checked PUnit
  | [] => .ok ⟨⟩
  | name :: rest =>
      if earlier.contains name then
        refuse ("Projection, mutation and command names must be unique; "
          ++ s!"{stringLiteral name} is duplicated.")
      else
        checkPublicNames (name :: earlier) rest

def operationNameLimit : Nat :=
  128

/-- The names tools may have: ASCII letters, digits, `_`, `-` and `.`. -/
def inOperationAlphabet (character : Char) : Bool :=
  character.isAlphanum || character == '_' || character == '-'
    || character == '.'

def checkOperationName (namespaceName name context : String) :
    Checked PUnit :=
  let operation := s!"{namespaceName}.{name}"
  if !operation.toList.all inOperationAlphabet
      || operation.utf8ByteSize > operationNameLimit then
    refuse (s!"{context} names the operation {stringLiteral operation}, which "
      ++ s!"must be at most {operationNameLimit} ASCII letters, digits, "
      ++ "\x22_\x22, \x22-\x22 and \x22.\x22.")
  else
    .ok ⟨⟩

/-- An operation's name, and its parameters, an object. -/
def checkPublicOperation (section_ name : String) (params : Members) :
    Checked PUnit := do
  checkOperationName definition.document.namespaceName name
    s!"{section_}.{name}"
  let context := s!"{section_}.{name}.params"
  let target ← resolveRef definition.document params context
  if hasType target "object" then .ok ⟨⟩
  else
    refuse s!"{context} must reference a schema of type \x22object\x22."

/-! ## The whole -/

/-- What is checked before any collaboration entry. -/
def checkBeforeCollaboration (scientific : Scientific) (fuel : Nat) :
    Running Failure PUnit := do
  if definition.projections.isEmpty then
    throw (.refused ("projections must declare a projection, or collaboration "
      ++ "an entity whose authoring state is one."))
  else do
  checkReferenceChains definition.document fuel
  checkDefinitions scientific definition.document fuel
  Running.settled (forM definition.entities (checkEntity definition))

/-- What is checked after every collaboration entry. -/
def checkAfterCollaboration (scientific : Scientific) : Checked PUnit := do
  forM definition.entities (checkCollaborationDeclared definition)
  forM definition.projections (checkProjection definition scientific)
  forM definition.mutations (checkOperation definition "mutations")
  forM definition.commands (checkOperation definition "commands")
  checkGeneratedOutputNames definition
  checkPublicNames [] ((publicOperations definition).map fun operation =>
    operation.2.1)
  forM (publicOperations definition) fun (section_, name, params) =>
    checkPublicOperation definition section_ name params

/-- The semantic checks of a definition. -/
def checkSemantics (scientific : Scientific) (fuel : Nat) :
    Running Failure PUnit := do
  checkBeforeCollaboration definition scientific fuel
  forM definition.collaboration (checkCollaboration definition fuel)
  Running.settled (checkAfterCollaboration definition scientific)

end Checks

end Clerkenwell.Codegen
