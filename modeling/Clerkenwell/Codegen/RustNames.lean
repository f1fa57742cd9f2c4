import Clerkenwell.Codegen.SchemaChecks
import Clerkenwell.Codegen.Spelling

/-!
# The names of the Rust bindings

What the Rust model module declares, scope by scope, and which identifiers Rust
admits.
-/

namespace Clerkenwell.Codegen

open Clerkenwell.Foundation

/-! ## Identifiers -/

/-- The keywords of Rust's 2021 edition. -/
def strictKeywords : List String :=
  ["as", "async", "await", "break", "const", "continue", "crate", "dyn", "else",
    "enum", "extern", "false", "fn", "for", "if", "impl", "in", "let", "loop",
    "match", "mod", "move", "mut", "pub", "ref", "return", "self", "Self",
    "static", "struct", "super", "trait", "true", "type", "unsafe", "use",
    "where", "while"]

/-- The words the edition keeps for keywords to come. -/
def reservedKeywords : List String :=
  ["abstract", "become", "box", "do", "final", "macro", "override", "priv",
    "try", "typeof", "unsized", "virtual", "yield"]

/-- The keywords that may not be raw identifiers. -/
def neverRaw : List String :=
  ["crate", "self", "super", "Self"]

/-- Whether a text is an identifier but for the keywords; `_` alone is none. -/
def isIdentifierText (text : String) : Bool :=
  match text.toList with
  | [] => false
  | first :: rest =>
      (first.isAlpha || first == '_' && !rest.isEmpty)
        && rest.all fun character => character.isAlphanum || character == '_'

/-- Whether Rust admits a text, of ASCII letters as every generated one is. -/
def isRustIdentifier (text : String) : Bool :=
  match Text.stripPrefix text "r#" with
  | some raw => isIdentifierText raw && !neverRaw.contains raw
  | none =>
      isIdentifierText text && !(strictKeywords ++ reservedKeywords).contains text

/-! ## Names -/

/-- What a name of the bindings is spelled from. -/
inductive Spelling where
  /-- A name of the generator's own. -/
  | own (identifier : String)
  | pascal (name : String)
  | constraints (name : String)
  | helper (owner property : String)
  | field (name : String)
  | constant (name suffix : String)
deriving DecidableEq, Repr

def Spelling.identifier : Spelling → String
  | .own identifier => identifier
  | .pascal name => pascalIdentifier name
  | .constraints name => rustRecordConstraintsName name
  | .helper owner property => rustPropertyEnumName owner property
  | .field name => rustFieldIdentifier name
  | .constant name suffix => nameConstantIdentifier name suffix

/-- A name of the bindings, and the place of the definition it is the name of. -/
structure Named where
  place : List String
  spelling : Spelling
deriving DecidableEq, Repr

def Named.identifier (named : Named) : String :=
  named.spelling.identifier

/-- The names that one module, type or variant declares. -/
abbrev Scope := List Named

def ownScope (identifiers : List String) : Scope :=
  identifiers.map fun identifier => ⟨[], .own identifier⟩

/-- The variants of an enum, one a name. -/
def variantScope (place names : List String) : Scope :=
  names.map fun name => ⟨place ++ [name], .pascal name⟩

/-- The fields of a struct or a variant, one a property. -/
def fieldScope (place : List String) (properties : Members) : Scope :=
  properties.keys.map fun name => ⟨place ++ [name], .field name⟩

/-! ## Helper enums -/

/-- The texts of a schema's string enum. -/
def stringEnumValues (schema : Members) : Option (List String) :=
  ((schema.get? "enum").bind Json.asArray).map (·.filterMap Json.asStr)

/--
A property's string enum schema, declared directly or within its array items
and record values at any depth.
-/
def propertyEnumSchema (schema : Members) : Option Members :=
  if (stringEnumValues schema).isSome then some schema
  else
    (if hasType schema "array" then
      match _held : objectField schema "items" with
      | some items => propertyEnumSchema items
      | none => none
    else none).or
    (match _held : recordValuesSchema schema with
      | some values => propertyEnumSchema values
      | none => none)
termination_by sizeOf schema
decreasing_by
  · exact sizeOf_objectField_lt _held
  · exact sizeOf_objectField_lt (objectField_of_recordValuesSchema _held)

/-- A helper enum generated for a string-enum property. -/
structure RustPropertyEnum where
  place : List String
  owner : String
  property : String
  values : List String
deriving DecidableEq, Repr

/-- The helper enum of one property, where it has one. -/
def propertyEnum (owner property : String) (place : List String)
    (schema : Members) : Option RustPropertyEnum := do
  let schema ← propertyEnumSchema schema
  let values ← stringEnumValues schema
  some { place, owner, property, values }

def propertyEnumsOf (owner : String) (place : List String)
    (properties : Members) : List RustPropertyEnum :=
  properties.filterMap fun (name, property) =>
    property.asObject.bind (propertyEnum owner name (place ++ [name]))

/-- The helper enum of a record's values, or of an open object's other members. -/
def otherValuesEnumOf (definitionName : String) (schema : Members) :
    Option RustPropertyEnum := do
  let (name, values) ←
    ((recordValuesSchema schema).map fun values => ("value", values)).or
      ((otherMembersSchema schema).map fun values => (otherMembersField, values))
  propertyEnum definitionName name
    ["$defs", definitionName, "additionalProperties"] values

/-- The helper enums of an entry's properties and of its variants'. -/
def collectRustPropertyEnums (definitionName : String) (schema : Members) :
    List RustPropertyEnum :=
  if !hasType schema "object" then []
  else
    ((objectField schema "properties").map
      (propertyEnumsOf definitionName
        ["$defs", definitionName, "properties"])).getD []
    ++ ((objectField schema "oneOf").getD []).flatMap (fun (tag, variant) =>
      ((variant.asObject.bind fun variant =>
        objectField variant "properties").map
          (propertyEnumsOf (variantEnumOwner definitionName tag)
            ["$defs", definitionName, "oneOf", tag, "properties"])).getD [])
    ++ (otherValuesEnumOf definitionName schema).toList

namespace RustPropertyEnum

def named (helper : RustPropertyEnum) : Named :=
  ⟨helper.place, .helper helper.owner helper.property⟩

def scope (helper : RustPropertyEnum) : Scope :=
  variantScope helper.place helper.values

end RustPropertyEnum

/-! ## Entries -/

/-- The fields of a generated struct, an open object's other members last. -/
def structScope (place : List String) (schema properties : Members) : Scope :=
  fieldScope (place ++ ["properties"]) properties
    ++ if (otherMembersSchema schema).isSome then
      [⟨place ++ ["additionalProperties"], .own otherMembersField⟩]
    else
      []

/-- A tagged union's variants, and the fields of each. -/
def unionScopes (place : List String) (variants : Members) : List Scope :=
  variantScope (place ++ ["oneOf"]) variants.keys
    :: variants.map fun (tag, variant) =>
      fieldScope (place ++ ["oneOf", tag, "properties"])
        ((variant.asObject.bind (objectField · "properties")).getD [])

/-- The scopes within the type declared for an entry; an alias has none. -/
def entryScopes (name : String) (schema : Members) : List Scope :=
  let place := ["$defs", name]
  if hasType schema "json" || (strField schema "$ref").isSome then []
  else
    match primitiveUnionTypes schema with
    -- What is not rendered is refused.
    | .error _ => []
    | .ok (some members) => [variantScope (place ++ ["type"]) members]
    | .ok none =>
        match stringEnumValues schema with
        | some values => [variantScope (place ++ ["enum"]) values]
        | none =>
            if !hasType schema "object" then []
            else
              match objectField schema "oneOf" with
              | some variants => unionScopes place variants
              | none =>
                  if (recordValuesSchema schema).isSome then []
                  else
                    match objectField schema "properties" with
                    | none => []
                    | some properties => [structScope place schema properties]

/-! ## The module -/

/-- The enums that carry what a transport delivers. -/
def transportEnums : List String :=
  ["ProjectionTransportSnapshot", "ProjectionTransportPatch",
    "ProjectionTransportMutationResult", "ProjectionTransportCommandResult"]

def nameEnums : List String :=
  ["ProjectionName", "MutationName", "CommandName"]

section Module

variable (definition : Declarations)

def helperEnums : List RustPropertyEnum :=
  (declaredEntries definition).flatMap fun (name, schema) =>
    collectRustPropertyEnums name schema

/-- The type of an entry, and what names a record's constraints. -/
def entryTypes (name : String) (schema : Members) : Scope :=
  ⟨["$defs", name], .pascal name⟩
    :: if (recordValuesSchema schema).isSome then
      [⟨["$defs", name, "additionalProperties"], .constraints name⟩]
    else
      []

/-- The types the module declares for a definition. -/
def declaredTypeScope : Scope :=
  (helperEnums definition).map RustPropertyEnum.named
    ++ (declaredEntries definition).flatMap fun (name, schema) =>
      entryTypes name schema

/-- Every type of the module, those it imports first. -/
def typeScope : Scope :=
  ownScope importBindings ++ declaredTypeScope definition ++ ownScope nameEnums
    ++ ownScope transportEnums

/-- The constants that hold the names of one section. -/
def nameConstants (section_ kind : String) (names : List String) : Scope :=
  names.map fun name => ⟨[section_, name, kind], .constant name kind⟩

/-- The constants that hold the schema documents of one section. -/
def schemaConstants (section_ kind : String) (roles names : List String) :
    Scope :=
  names.flatMap fun name => roles.map fun role =>
    ⟨[section_, name, role], .constant name s!"{kind}_{role}_SCHEMA"⟩

/-- The constants of a collaborative entity's plan. -/
def collaborationConstants (name : String) : Scope :=
  ["COLLABORATION_FIELDS", "COLLABORATION_SPEC"].map fun suffix =>
    ⟨["collaboration", name, suffix], .constant name suffix⟩

def projectionNames : List String :=
  definition.projections.map (·.name)

def mutationNames : List String :=
  definition.mutations.map (·.name)

def commandNames : List String :=
  definition.commands.map (·.name)

/-- Every constant of the module, and its function. -/
def valueScope : Scope :=
  ownScope ["NAMESPACE"]
    ++ nameConstants "entities" "ENTITY" definition.entityNames
    ++ nameConstants "projections" "PROJECTION" (projectionNames definition)
    ++ nameConstants "mutations" "MUTATION" (mutationNames definition)
    ++ nameConstants "commands" "COMMAND" (commandNames definition)
    ++ ownScope
      ["ENTITY_NAMES", "PROJECTION_NAMES", "MUTATION_NAMES", "COMMAND_NAMES"]
    ++ schemaConstants "projections" "PROJECTION" ["PARAMS", "SNAPSHOT"]
      (projectionNames definition)
    ++ schemaConstants "mutations" "MUTATION" ["PARAMS", "RESULT"]
      (mutationNames definition)
    ++ schemaConstants "commands" "COMMAND" ["PARAMS", "RESULT"]
      (commandNames definition)
    ++ ownScope
      ["GENERATED_PROJECTION_SPECS", "GENERATED_MUTATION_SPECS",
        "GENERATED_COMMAND_SPECS", "GENERATED_ENTITY_AUTHORING_SPECS",
        "COLLABORATION_DEFINITION_VERSION"]
    ++ (definition.collaboration.map (·.name)).flatMap collaborationConstants
    ++ ownScope ["GENERATED_COLLABORATION_SPECS", "generated_collaboration_spec"]

/-- The variants of the dispatch enum and of the transport enums of a section. -/
def dispatchScopes : List Scope :=
  -- `ProjectionName`, then what a snapshot and a patch are carried in.
  List.replicate 3 (variantScope ["projections"] (projectionNames definition))
    ++ List.replicate 2 (variantScope ["mutations"] (mutationNames definition))
    ++ List.replicate 2 (variantScope ["commands"] (commandNames definition))

/-- The scopes of the Rust model module. -/
def rustScopes : List Scope :=
  typeScope definition :: valueScope definition
    :: (helperEnums definition).map RustPropertyEnum.scope
    ++ (declaredEntries definition).flatMap (fun (name, schema) =>
      entryScopes name schema)
    ++ dispatchScopes definition

end Module

end Clerkenwell.Codegen
