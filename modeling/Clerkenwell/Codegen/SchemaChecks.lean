import Clerkenwell.Codegen.Schema
import Clerkenwell.Foundation.Running

/-!
# The checks of schema nodes

A schema node is checked with as many nested calls as `fuel` allows: comparing
an open object's members with its other members' schema follows references.
-/

namespace Clerkenwell.Codegen

open Clerkenwell.Foundation

/-! ## Equality -/

mutual

/-- Whether two values are equal, the order of their members aside. -/
def Json.same : Json → Json → Bool
  | .null, .null => true
  | .bool left, .bool right => left == right
  | .number left, .number right => left == right
  | .string left, .string right => left == right
  | .array left, .array right => sameItems left right
  | .object left, .object right =>
      left.length == right.length && sameMembers left right
  | _, _ => false

def sameItems : List Json → List Json → Bool
  | [], [] => true
  | left :: lefts, right :: rights => left.same right && sameItems lefts rights
  | _, _ => false

/-- Whether every member listed is one of `other`. -/
def sameMembers : List (String × Json) → Members → Bool
  | [], _ => true
  | (key, value) :: rest, other =>
      (match other.get? key with
        | some held => value.same held
        | none => false) && sameMembers rest other

end

/-! ## Keywords -/

def typeSchemaKeys : List String :=
  ["$ref", "additionalProperties", "description", "enum", "items",
    "properties", "required", "title", "type", "discriminator", "oneOf"]

def validationSchemaKeys : List String :=
  ["const", "minLength", "minimum", "maximum"]

def annotationSchemaKeys : List String :=
  ["default"]

/-- Every keyword a schema node may use. -/
def schemaKeywords : List String :=
  typeSchemaKeys ++ validationSchemaKeys ++ annotationSchemaKeys

/-- The keywords a reference may carry. -/
def referenceKeywords : List String :=
  ["$ref", "default", "description", "title"]

/-- The field of a generated Rust struct that holds an open object's others. -/
def otherMembersField : String :=
  "other_members"

/-- Whether a value is a number that is an integer. -/
def isInteger (value : Json) : Bool :=
  value.asNumber.any fun number =>
    Dyadic.ofInt number.toRat.floor == number

/--
The first of `names` to generate the identifier an earlier one generates: the
earlier name, the name and the identifier.
-/
def colliding (generate : String → String) (earlier : List String) :
    List String → Option (String × String × String)
  | [] => none
  | name :: rest =>
      match earlier.find? fun previous => generate previous == generate name with
      | some previous => some (previous, name, generate name)
      | none => colliding generate (name :: earlier) rest

/-- Refuses a structural keyword on a schema none of whose `types` it shapes. -/
def checkApplicableKeywords (schema : Members) (types : List String)
    (context : String) : Checked PUnit :=
  forM [("properties", "object"), ("additionalProperties", "object"),
      ("required", "object"), ("items", "array")] fun (keyword, shaped) =>
    if (schema.get? keyword).isSome ∧ shaped ∉ types then
      refuse s!"{context}.{keyword} applies only to {shaped} schemas."
    else
      .ok ⟨⟩

def checkEnum (schema : Members) (context : String) : Checked PUnit :=
  match schema.get? "enum" with
  | none => .ok ⟨⟩
  | some values =>
      let strings := (values.asArray.bind fun items =>
        items.mapM Json.asStr).filter fun strings => !strings.isEmpty
      match strings with
      | none => refuse s!"{context}.enum must be a non-empty string enum."
      | some strings =>
          if !hasType schema "string" then
            refuse s!"{context}.enum is supported only on string schemas."
          else
          match colliding pascalIdentifier [] strings with
          | some (previous, value, variant) =>
              refuse (s!"{context}.enum values {stringLiteral previous} and "
                ++ s!"{stringLiteral value} both generate the Rust variant "
                ++ s!"{variant}.")
          | none => .ok ⟨⟩

/-- Whether a constant is a value of a scalar type. -/
def constantFits (constant : Json) : String → Bool
  | "integer" => isInteger constant
  | "number" => constant.asNumber.isSome
  | "string" => constant.asStr.isSome
  | "boolean" => constant.asBool.isSome
  | _ => false

/-- What `const` of a single type must be, where it may be declared. -/
def constantType : String → Option String
  | "integer" | "number" => some "number"
  | "string" => some "string"
  | "boolean" => some "boolean"
  | _ => none

def checkConstantType (constant : Json) (types : List String)
    (context : String) : Checked PUnit :=
  match types with
  | [single] =>
      match constantType single with
      | none => refuse s!"{context}.const is supported only on scalar schemas."
      | some expected =>
          if !constantFits constant expected then
            refuse (s!"{context}.const must be a {expected} to match its "
              ++ "declared type.")
          else if !constantFits constant single then
            refuse (s!"{context}.const must be an integer to match its "
              ++ "declared type.")
          else
            .ok ⟨⟩
  | _ =>
      if types.any (constantFits constant) then .ok ⟨⟩
      else refuse s!"{context}.const must be a value of one of its types."

/-- Whether a constant is no number, or one an `i64` holds once an integer. -/
def representable (constant : Json) : Bool :=
  constant.asNumber.all fun value =>
    Dyadic.ofInt (-2 ^ 63) ≤ value && value < Dyadic.ofInt (2 ^ 63)

def checkConstant (schema : Members) (types : List String)
    (context : String) : Checked PUnit :=
  match schema.get? "const" with
  | none => .ok ⟨⟩
  | some constant =>
      if (schema.get? "enum").isSome then
        refuse s!"{context} may not declare both const and enum."
      else do
      checkConstantType constant types context
      if types.contains "integer" && !types.contains "number"
          && !representable constant then
        refuse s!"{context}.const must be an integer an i64 holds."
      else
        .ok ⟨⟩

/-- The keywords that bound a value. -/
def boundKeywords : List String :=
  ["minLength", "minimum", "maximum"]

/-- A schema with just one of its bounds. -/
def onlyBound (schema : Members) (keyword : String) : Members :=
  match schema.get? keyword with
  | some limit => [(keyword, limit)]
  | none => []

def checkNumericBounds (schema : Members) (types : List String)
    (context : String) : Checked PUnit := do
  let numeric := types.contains "integer" || types.contains "number"
  forM ["minimum", "maximum"] fun name =>
    match schema.get? name with
    | some limit =>
        if !numeric || limit.asNumber.isNone then
          refuse (s!"{context}.{name} requires a finite numeric bound on a "
            ++ "numeric schema.")
        else
          .ok ⟨⟩
    | none => .ok ⟨⟩
  match bound schema "minimum", bound schema "maximum" with
  | some minimum, some maximum =>
      if maximum < minimum then
        refuse s!"{context}.minimum exceeds maximum."
      else
        .ok ⟨⟩
  | _, _ => .ok ⟨⟩

def checkConstantBounds (schema : Members) (context : String) :
    Checked PUnit :=
  match schema.get? "const" with
  | none => .ok ⟨⟩
  | some constant =>
      forM boundKeywords fun keyword =>
        if valueMeetsBounds (onlyBound schema keyword) constant then .ok ⟨⟩
        else refuse s!"{context}.const does not meet its {keyword}."

def checkMinLength (schema : Members) (types : List String)
    (context : String) : Checked PUnit :=
  match schema.get? "minLength" with
  | none => .ok ⟨⟩
  | some minLength =>
      if !types.contains "string" then
        refuse s!"{context}.minLength is supported only on string schemas."
      else if !isInteger minLength || minLength.asNumber.any (· < 0) then
        refuse s!"{context}.minLength must be a non-negative integer."
      else
        .ok ⟨⟩

def checkEnumBounds (schema : Members) (context : String) : Checked PUnit :=
  match (schema.get? "enum").bind Json.asArray with
  | none => .ok ⟨⟩
  | some values =>
      if values.any (valueMeetsBounds schema) then .ok ⟨⟩
      else refuse s!"{context}.enum has no value that meets its bounds."

/-- Checks the validation-only keywords against the types they constrain. -/
def checkValidationKeywords (schema : Members) (types : List String)
    (context : String) : Checked PUnit := do
  checkNumericBounds schema types context
  checkConstant schema types context
  checkConstantBounds schema context
  checkMinLength schema types context
  checkEnumBounds schema context

/-- Whether a value is one of a type a `default` may be checked against. -/
def defaultFits (value : Json) : Option String → Bool
  | some "array" => value.asArray.isSome
  | some "object" => value.asObject.isSome
  | some scalar => constantFits value scalar
  | none => false

section Nodes

variable (scientific : Scientific) (definition : Sections)

/-- A value as `stringify` writes it. -/
def stringify (value : Json) : String :=
  String.ofList (writeValue scientific none [] value)

def stringifyOrUndefined (value : Option Json) : String :=
  (value.map (stringify scientific)).getD "undefined"

def checkDefaultValue (schema : Members) (context : String) :
    Checked PUnit :=
  match schema.get? "default" with
  | none => .ok ⟨⟩
  | some value => do
      match ← primitiveUnionTypes schema with
      | some members =>
          if members.any (constantFits value) then .ok ⟨⟩
          else
            refuse (s!"{context}.default must match one of "
              ++ s!"{stringify scientific (.array (members.map .string))}.")
      | none =>
          if !defaultFits value (strField schema "type") then
            let declared :=
              stringifyOrUndefined scientific (schema.get? "type")
            refuse (s!"{context}.default must be a {declared} to match its "
              ++ "declared type.")
          else
          match (schema.get? "enum").bind Json.asArray with
          | some values =>
              if values.any (Json.same · value) then .ok ⟨⟩
              else
                refuse (s!"{context}.default must be one of the values its "
                  ++ "enum admits.")
          | none => .ok ⟨⟩

/-! ## References -/

/--
The schema at the end of a chain of references, with the name of the entry it
is where there is a chain.
-/
def dereferenceFrom (reached : Option String) :
    Nat → Members → Running Failure (Option String × Members)
  | 0, _ => Running.pending
  | fuel + 1, schema =>
      match schema.get? "$ref" with
      | some (.string _) => do
          let name ← Running.settled
            (schemaRefName definition schema "collaboration schema")
          let target ← Running.settled (expect (definition.def? name))
          dereferenceFrom (some name) fuel target
      | _ => pure (reached, schema)

/-- `schema`, or the schema at the end of its chain of references. -/
def dereference (fuel : Nat) (schema : Members) : Running Failure Members := do
  let (_, target) ← dereferenceFrom definition none fuel schema
  pure target

/--
Refuses the chain of references from `schema` where it returns to an entry
already on it.  `chain` is named last entry first.
-/
def checkReferenceChain (definitionName : String) (chain : List String) :
    Nat → Members → Running Failure PUnit
  | 0, _ => Running.pending
  | fuel + 1, schema =>
      if (schema.get? "$ref").isNone then pure ⟨⟩
      else do
        let context := "$defs." ++ chain.headD ""
        let name ← Running.settled (schemaRefName definition schema context)
        if chain.contains name then
          throw (.refused (s!"$defs.{definitionName} is a cycle of references: "
            ++ " -> ".intercalate (name :: chain).reverse ++ "."))
        else
          match definition.def? name with
          | none => pure ⟨⟩
          | some target =>
              checkReferenceChain definitionName (name :: chain) fuel target

/--
Refuses a `$defs` entry whose chain of references returns to an entry already
on it, so following references always ends at a schema.
-/
def checkReferenceChains (fuel : Nat) : Running Failure PUnit :=
  forM definition.defs fun (name, schema) =>
    match schema.asObject with
    | none => pure ⟨⟩
    | some schema => checkReferenceChain definition name [name] fuel schema

/-! ## Open objects -/

/-- The types a schema declares, where it declares any. -/
def declaredTypes (schema : Members) : Checked (Option (List String)) := do
  match ← primitiveUnionTypes schema with
  | some types => pure (some types)
  | none => pure ((strField schema "type").map fun single => [single])

/-- The values a schema lists, those its own bounds exclude aside. -/
def listedValues (schema : Members) : Option (List Json) :=
  match schema.get? "enum", schema.get? "const" with
  | some (.array values), _ => some (values.filter (valueMeetsBounds schema))
  | _, some constant => some [constant]
  | _, _ => none

/-- Whether each type of a member is one the other members' schema has. -/
def typesAdmitted (memberTypes valuesTypes : List String)
    (memberValues : Option (List Json)) : Bool :=
  let integralValues := memberValues.any fun listed => listed.all isInteger
  memberTypes.all fun memberType =>
    valuesTypes.any fun valuesType =>
      valuesType == memberType
        || (valuesType == "number" && memberType == "integer")
        || (valuesType == "integer" && memberType == "number"
          && integralValues)

def enumAdmitted (values member : Members) : Bool :=
  match (values.get? "enum").bind Json.asArray with
  | none => true
  | some admitted =>
      match (member.get? "enum").bind Json.asArray with
      | none => false
      | some listed => listed.all fun value => admitted.any (·.same value)

def constantAdmitted (values : Members) (memberValues : Option (List Json)) :
    Bool :=
  match values.get? "const" with
  | none => true
  | some constant =>
      memberValues.any fun listed => listed.all (·.same constant)

/-- A bound of a schema of `types`: of integers, the integer it leaves. -/
def effectiveBound (keyword : String) (types : List String)
    (value : Dyadic) : Dyadic :=
  let integers := !types.contains "number" && types.contains "integer"
  if keyword == "minLength" || !integers then value
  else if keyword == "minimum" then Dyadic.ofInt value.toRat.ceil
  else Dyadic.ofInt value.toRat.floor

def boundAdmitted (values member : Members)
    (valuesTypes memberTypes : List String) (keyword : String) : Bool :=
  let applies :=
    if keyword == "minLength" then memberTypes.contains "string"
    else memberTypes.contains "integer" || memberTypes.contains "number"
  match (bound values keyword).filter fun _ => applies with
  | none => true
  | some limit =>
      let limit := effectiveBound keyword valuesTypes limit
      (bound member keyword).any fun held =>
        let held := effectiveBound keyword memberTypes held
        if keyword == "maximum" then held ≤ limit else limit ≤ held

def boundsAdmitted (values member : Members)
    (valuesTypes memberTypes : List String)
    (memberValues : Option (List Json)) : Bool :=
  match memberValues with
  | some listed => listed.all (valueMeetsBounds values)
  | none =>
      ["minimum", "maximum", "minLength"].all
        (boundAdmitted values member valuesTypes memberTypes)

/--
The schemas left to compare once types, listed values and bounds are: `none`
where the comparison is decided.
-/
def partsToCompare (values member : Members)
    (valuesTypes memberTypes : List String) : Bool ⊕ (Members × Members) :=
  if 1 < valuesTypes.length ∨ 1 < memberTypes.length then .inl true
  else
    match valuesTypes.head? with
    | some "array" =>
        match objectField values "items", objectField member "items" with
        | some valuesItems, some memberItems => .inr (valuesItems, memberItems)
        | _, _ => .inl false
    | some "object" =>
        match recordValuesSchema values, recordValuesSchema member with
        | some values, some member => .inr (values, member)
        | _, _ => .inl false
    | _ => .inl true

/-- How two schemas that are no references compare, or what is left to. -/
def admitsNode (values member : Members) :
    Checked (Bool ⊕ (Members × Members)) := do
  match ← declaredTypes member with
  | none => pure (.inl false)
  | some memberTypes =>
  match ← declaredTypes values with
  | none => pure (.inl false)
  | some valuesTypes =>
  let memberValues := listedValues member
  if typesAdmitted memberTypes valuesTypes memberValues
      && enumAdmitted values member
      && constantAdmitted values memberValues
      && boundsAdmitted values member valuesTypes memberTypes memberValues then
    pure (partsToCompare values member valuesTypes memberTypes)
  else
    pure (.inl false)

/--
Whether every value of `member` is a value of `values`.  `assumed` holds the
reference pairs being compared, so recursive definitions compare
coinductively.
-/
def admits : Nat → List (String × String) → Members → Members →
    Running Failure Bool
  | 0, _, _, _ => Running.pending
  | fuel + 1, assumed, values, member =>
      let valuesRef := strField values "$ref"
      let memberRef := strField member "$ref"
      if hasType values "json" then pure true
      else if valuesRef.isSome ∧ valuesRef = memberRef then pure true
      else if valuesRef.isSome ∨ memberRef.isSome then
        let pair :=
          (stringify scientific (.object values),
            stringify scientific (.object member))
        if pair ∈ assumed then pure true
        else do
          let (valuesName, values) ← dereferenceFrom definition none fuel values
          let (memberName, member) ← dereferenceFrom definition none fuel member
          -- References ending at one definition name one type.
          if valuesName.isSome ∧ valuesName = memberName then pure true
          else admits fuel (pair :: assumed) values member
      else do
        match ← Running.settled (admitsNode values member) with
        | .inl decided => pure decided
        | .inr (values, member) => admits fuel assumed values member

/--
An open object declares at least one member, each a value of its other
members' schema, and none named as the Rust field holding the others.
-/
def checkOpenObject (fuel : Nat) (schema otherMembers : Members)
    (context : String) : Running Failure PUnit :=
  match (objectField schema "properties").filter (!·.isEmpty) with
  | none =>
      throw (.refused (s!"{context} declares no properties beside "
        ++ "additionalProperties; a record omits properties."))
  | some properties =>
      forM properties fun (propertyName, propertySchema) =>
        let context := s!"{context}.properties.{propertyName}"
        if rustFieldIdentifier propertyName = otherMembersField then
          throw (.refused (s!"{context} is named as the Rust field holding the "
            ++ "other members."))
        else
          match propertySchema.asObject with
          | none => throw (.refused s!"{context} must be an object schema.")
          | some propertySchema => do
              if ← admits scientific definition fuel [] otherMembers
                  propertySchema then
                pure ⟨⟩
              else
                throw (.refused (s!"{context} is not a value of the object's "
                  ++ "additionalProperties schema."))

/-! ## Nodes -/

/-- A reference carries annotations only, and a default its target admits. -/
def checkReference (fuel : Nat) (schema : Members) (context : String) :
    Running Failure PUnit :=
  if schema.keys.any fun key => !referenceKeywords.contains key then
    throw (.refused
      s!"{context} may not combine $ref with validation keywords.")
  else do
  discard (Running.settled (schemaRefName definition schema context))
  match schema.get? "default" with
  | none => pure ⟨⟩
  | some value => do
      let referenced ← dereference definition fuel schema
      Running.settled (checkDefaultValue scientific
        (referenced.insert "default" value) context)

/-- What a tagged union declares beside its variants. -/
def checkUnionHead (schema : Members) (context : String) :
    Checked (String × Members) :=
  let topLevel :=
    ((Text.stripPrefix context "$defs.").map fun name =>
      !name.toList.contains '.').getD false
  if !topLevel then
    refuse (s!"{context} may only declare a tagged union at the top level of "
      ++ "a $defs entry.")
  else if !hasType schema "object" then
    refuse s!"{context} must declare type \x22object\x22 alongside its oneOf."
  else
  match (strField schema "discriminator").filter fun discriminator =>
      !(jsTrim discriminator).isEmpty with
  | none =>
      refuse (s!"{context}.discriminator must name the property carrying the "
        ++ "tag.")
  | some discriminator =>
      if (schema.get? "properties").isSome
          || (schema.get? "additionalProperties").isSome then
        refuse (s!"{context} may not declare properties beside its oneOf; each "
          ++ "variant declares its own.")
      else
      match objectField schema "oneOf" with
      | none =>
          refuse (s!"{context}.oneOf must map each tag value to that variant's "
            ++ "schema.")
      | some variants =>
          if variants.isEmpty then
            refuse s!"{context}.oneOf must declare at least one variant."
          else
          match colliding pascalIdentifier [] variants.keys with
          | some (previous, tag, variant) =>
              refuse (s!"{context}.oneOf tags {stringLiteral previous} and "
                ++ s!"{stringLiteral tag} both generate the Rust variant "
                ++ s!"{variant}.")
          | none => .ok (discriminator, variants)

/-- What a variant's own schema may not be, its node check aside. -/
def checkVariantHead (discriminator tag : String) (variant : Json)
    (context : String) : Checked PUnit :=
  if (jsTrim tag).isEmpty then
    refuse s!"{context}.oneOf declares an empty tag value."
  else
    match variant.asObject with
    | none => refuse s!"{context}.oneOf.{tag} must be an object schema."
    | some schema =>
        if !hasType schema "object" then
          refuse s!"{context}.oneOf.{tag} must declare type \x22object\x22."
        else if (objectField schema "properties").any fun properties =>
            properties.containsKey discriminator then
          refuse (s!"{context}.oneOf.{tag} declares "
            ++ s!"{stringLiteral discriminator}, which the tag already "
            ++ "carries.")
        else if (objectField schema "additionalProperties").isSome then
          refuse (s!"{context}.oneOf.{tag} must be a closed object: "
            ++ "additionalProperties false.")
        else
          .ok ⟨⟩

/-- A tagged union is a named type, declared in `$defs` and reached by `$ref`. -/
def checkTaggedUnion
    (checkNode : Option Json → String → Running Failure PUnit)
    (schema : Members) (context : String) : Running Failure PUnit := do
  let (discriminator, variants) ←
    Running.settled (checkUnionHead schema context)
  forM variants fun (tag, variant) => do
    Running.settled (checkVariantHead discriminator tag variant context)
    checkNode (some variant) s!"{context}.oneOf.{tag}"

/-- A closed object's declared properties, once its other members are checked. -/
def checkProperties
    (checkNode : Option Json → String → Running Failure PUnit)
    (schema : Members) (context : String) : Running Failure PUnit :=
  match objectField schema "properties" with
  | none =>
      throw (.refused s!"{context} object schemas must declare properties.")
  | some properties => do
      let required ← Running.settled
        (readStringArray (schema.get? "required") s!"{context}.required")
      forM required fun name =>
        if properties.containsKey name then pure ⟨⟩
        else
          throw (.refused (s!"{context}.required references unknown property "
            ++ s!"{stringLiteral name}."))
      match colliding rustFieldIdentifier [] properties.keys with
      | some (previous, propertyName, field) =>
          throw (.refused (s!"{context} declares {stringLiteral previous} and "
            ++ s!"{stringLiteral propertyName}, which both generate the Rust "
            ++ s!"field {field}."))
      | none =>
          forM properties fun (propertyName, propertySchema) =>
            checkNode (some propertySchema)
              s!"{context}.properties.{propertyName}"

def checkObject
    (checkNode : Option Json → String → Running Failure PUnit)
    (fuel : Nat) (schema : Members) (context : String) :
    Running Failure PUnit :=
  match schema.get? "additionalProperties" with
  | some (.bool false) => checkProperties checkNode schema context
  | some (.object otherMembers) => do
      checkNode (some (.object otherMembers))
        s!"{context}.additionalProperties"
      if (schema.get? "properties").isNone then
        if (schema.get? "required").isSome then
          throw (.refused (s!"{context}.required may name only members its "
            ++ "properties declare."))
        else
          pure ⟨⟩
      else
        checkOpenObject scientific definition fuel schema otherMembers context
        checkProperties checkNode schema context
  | _ =>
      throw (.refused (s!"{context} object schemas must declare "
        ++ "additionalProperties: false or a typed schema."))

/-- The keywords of a schema of these types. -/
def checkTypedKeywords (schema : Members) (types : List String)
    (context : String) : Checked PUnit := do
  checkApplicableKeywords schema types context
  checkValidationKeywords schema types context
  checkDefaultValue scientific schema context

/-- The checks of a node that is an object, `checkNode` being those of another. -/
def checkObjectNode
    (checkNode : Option Json → String → Running Failure PUnit)
    (fuel : Nat) (schema : Members) (context : String) :
    Running Failure PUnit := do
  forM schema.keys fun key =>
    if schemaKeywords.contains key then pure ⟨⟩
    else
      throw (.refused (s!"{context} uses unsupported schema keyword "
        ++ s!"{stringLiteral key}."))
  if (schema.get? "$ref").isSome then
    checkReference scientific definition fuel schema context
  else do
  Running.settled (checkEnum schema context)
  if (schema.get? "oneOf").isSome || (schema.get? "discriminator").isSome then
    checkTaggedUnion checkNode schema context
  else do
  match ← Running.settled (primitiveUnionTypes schema) with
  | some members =>
      Running.settled (checkTypedKeywords scientific schema members context)
  | none =>
  match strField schema "type" with
  | none => throw (.refused s!"{context} must declare a string type.")
  | some schemaType =>
  Running.settled (checkTypedKeywords scientific schema [schemaType] context)
  match schemaType with
  | "object" =>
      checkObject scientific definition checkNode fuel schema context
  | "array" =>
      match objectField schema "items" with
      | none =>
          throw (.refused (s!"{context} array schemas must declare "
            ++ "object-valued items."))
      | some items =>
          checkNode (some (.object items)) s!"{context}.items"
  | "string" | "boolean" | "integer" | "number" | "json" => pure ⟨⟩
  | other =>
      throw (.refused (s!"{context} uses unsupported schema type "
        ++ s!"{stringLiteral other}."))

/-- Refuses a schema node outside the subset every renderer can represent. -/
def checkSchemaNode :
    Nat → Option Json → String → Running Failure PUnit
  | 0, _, _ => Running.pending
  | fuel + 1, some (.object schema), context =>
      checkObjectNode scientific definition (checkSchemaNode fuel) fuel schema
        context
  | _ + 1, _, context =>
      throw (.refused s!"{context} must be an object schema.")

/-- Every `$defs` entry is renderable, under a type name of its own. -/
def checkDefinitions (fuel : Nat) : Running Failure PUnit :=
  (definition.defs.foldlM (fun earlier (name, schema) => do
    match earlier.find? fun previous =>
        pascalIdentifier previous == pascalIdentifier name with
    | some previous =>
        throw (.refused (s!"$defs.{name} and $defs.{previous} both generate "
          ++ s!"{pascalIdentifier name}."))
    | none =>
        checkSchemaNode scientific definition fuel (some schema)
          s!"$defs.{name}"
        pure (name :: earlier)) ([] : List String)) >>= fun _ => pure ⟨⟩

end Nodes

end Clerkenwell.Codegen
