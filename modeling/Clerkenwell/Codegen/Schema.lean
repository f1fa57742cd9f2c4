import Clerkenwell.Codegen.Names
import Clerkenwell.Codegen.Normalize

/-!
# Reading the schema subset

A definition's sections as the meta-schema shaped them, its local references,
primitive unions, and the string arrays schema nodes carry.
-/

namespace Clerkenwell.Codegen

open Clerkenwell.Foundation

/-! ## How a call fails -/

/-- A call refuses the definition, or an `expect` of it panics. -/
inductive Failure where
  | refused (message : String)
  /-- A fixture's schema is of no type that is sampled. -/
  | refusedType (schemaType : Option Json)
  | panicked

abbrev Checked := Except Failure

/-- Refuses the definition with `message`. -/
def refuse {Value : Type} (message : String) : Checked Value :=
  .error (.refused message)

/-- `value.expect(..)`. -/
def expect {Value : Type} : Option Value → Checked Value
  | some value => .ok value
  | none => .error .panicked

theorem expect_eq_ok {Value : Type} {found : Option Value} {value : Value}
    (expected : expect found = .ok value) : found = some value := by
  cases found with
  | none => cases expected
  | some held => rw [Except.ok.inj expected]

/-! ## Definitions -/

/-- The sections of a definition. -/
structure Sections where
  namespaceName : String
  entities : Members
  projections : Members
  mutations : Members
  commands : Members
  collaboration : Members
  defs : Members

/-- The `$defs` entry of a name. -/
def Sections.def? (definition : Sections) (name : String) :
    Option Members :=
  objectField definition.defs name

/-- The quoted, escaped literal of a text. -/
def stringLiteral (value : String) : String :=
  String.ofList (writeString value)

/-! ## Schemas -/

/-- Whether `schema.type` is the string `expected`. -/
def hasType (schema : Members) (expected : String) : Bool :=
  strField schema "type" == some expected

/--
The values schema of a record: `additionalProperties` of an object schema that
declares no `properties`.
-/
def recordValuesSchema (schema : Members) : Option Members :=
  if !hasType schema "object" || (schema.get? "properties").isSome then none
  else objectField schema "additionalProperties"

/--
The schema of an open object's other members: `additionalProperties` of an
object schema that declares `properties` beside it.
-/
def otherMembersSchema (schema : Members) : Option Members :=
  if !hasType schema "object" then none
  else do
    let _ ← objectField schema "properties"
    objectField schema "additionalProperties"

/-- The numeric bound a keyword sets, where it sets one. -/
def bound (schema : Members) (keyword : String) : Option Dyadic :=
  numberField schema keyword

/--
Whether `value` meets the `minLength`, `minimum` and `maximum` of `schema` that
apply to its type.
-/
def valueMeetsBounds (schema : Members) (value : Json) : Bool :=
  match value with
  | .string text =>
      (bound schema "minLength").all fun limit =>
        limit ≤ Dyadic.ofInt text.length
  | .number number =>
      (bound schema "minimum").all (fun limit => limit ≤ number)
        && (bound schema "maximum").all (fun limit => number ≤ limit)
  | _ => true

def primitiveUnionTypeNames : List String :=
  ["string", "boolean", "integer", "number"]

/--
The member types of a primitive union (`"type": ["string", "integer"]`), or
`none` when `type` is not an array.
-/
def primitiveUnionTypes (schema : Members) :
    Checked (Option (List String)) :=
  match schema.get? "type" with
  | some (.array types) =>
      let members := types.mapM fun entry =>
        entry.asStr.filter primitiveUnionTypeNames.contains
      match members.filter fun members => 2 ≤ members.length with
      | none =>
          refuse ("Primitive unions may only combine "
            ++ ", ".intercalate primitiveUnionTypeNames ++ ".")
      | some members =>
          if members.Nodup then .ok (some members)
          else refuse "Primitive unions may not repeat a type."
  | _ => .ok none

/-! ## References -/

/-- The definition name in a `#/$defs/Name` reference. -/
def localReferenceName (reference : Option Json) : Option String := do
  let text ← (← reference).asStr
  let name ← Text.stripPrefix text "#/$defs/"
  match name.toList with
  | [] => none
  | first :: rest =>
      if first.isAlpha && rest.all Char.isAlphanum then some name else none

/-- Resolves a local `$defs` reference to the definition name it names. -/
def schemaRefName (definition : Sections) (reference : Members)
    (context : String) : Checked String :=
  match localReferenceName (reference.get? "$ref") with
  | none => refuse s!"{context} must be a local #/$defs reference."
  | some name =>
      if (definition.def? name).isNone then
        refuse (s!"{context} references unknown definition "
          ++ s!"{stringLiteral name}.")
      else
        .ok name

/-- The definition `reference` names, resolved. -/
def resolveRef (definition : Sections) (reference : Members)
    (context : String) : Checked Members := do
  let name ← schemaRefName definition reference context
  expect (definition.def? name)

/-- A string array, or an empty one when `value` is absent. -/
def readStringArray (value : Option Json) (context : String) :
    Checked (List String) :=
  match value with
  | none => .ok []
  | some value =>
      match value.asArray.bind fun items => items.mapM Json.asStr with
      | some strings => .ok strings
      | none => refuse s!"{context} must be a string array."

/-- What is read of a string array does not depend on what asked for it. -/
theorem readStringArray_ok {value : Option Json} {context : String}
    {strings : List String}
    (read : readStringArray value context = .ok strings) (other : String) :
    readStringArray value other = .ok strings := by
  unfold readStringArray at *
  cases value with
  | none => exact read
  | some value =>
      dsimp only at *
      split at read
      · exact read
      · cases read

/-! ## Contracts -/

/-- The declared property `property` of an object contract schema. -/
def contractProperty (schema : Members) (property context : String) :
    Checked Members :=
  let found :=
    if hasType schema "object" then
      (objectField schema "properties").bind fun properties =>
        objectField properties property
    else none
  match found with
  | some found => .ok found
  | none =>
      refuse (s!"{context} references property {stringLiteral property} that "
        ++ "is not declared on the contract schema.")

theorem resolveRef_eq_ok {definition : Sections}
    {reference target : Members} {context : String}
    (resolved : resolveRef definition reference context = .ok target) :
    ∃ name, localReferenceName (reference.get? "$ref") = some name
      ∧ definition.def? name = some target := by
  unfold resolveRef schemaRefName at resolved
  cases named : localReferenceName (reference.get? "$ref") with
  | none => simp [named, refuse, bind, Except.bind] at resolved
  | some name =>
      refine ⟨name, rfl, ?_⟩
      cases found : definition.def? name with
      | none => simp [named, found, refuse, bind, Except.bind] at resolved
      | some schema =>
          simp only [named, found, bind, Except.bind, Option.isNone_some,
            Bool.false_eq_true, if_false, expect] at resolved
          rw [Except.ok.inj resolved]

/-! ## Sizes -/

theorem sizeOf_lt_of_mem_members {members : Members} {member : String × Json}
    (within : member ∈ members) : sizeOf member.2 < sizeOf members := by
  have smaller := List.sizeOf_lt_of_mem within
  obtain ⟨key, value⟩ := member
  simp only [Prod.mk.sizeOf_spec] at smaller ⊢
  omega

/-- A schema within another is the smaller. -/
theorem sizeOf_objectField_lt {schema inner : Members} {key : String}
    (held : objectField schema key = some inner) :
    sizeOf inner < sizeOf schema := by
  obtain ⟨value, found, isObject⟩ := Option.bind_eq_some_iff.mp held
  have smaller := sizeOf_lt_of_mem_members (Members.mem_of_get? found)
  cases value with
  | object members =>
      obtain rfl := Option.some.inj isObject
      simp only [Json.object.sizeOf_spec] at smaller
      omega
  | _ => cases isObject

/-- The values schema of a record is its `additionalProperties`. -/
theorem objectField_of_recordValuesSchema {schema values : Members}
    (held : recordValuesSchema schema = some values) :
    objectField schema "additionalProperties" = some values := by
  unfold recordValuesSchema at held
  split at held
  · cases held
  · exact held

end Clerkenwell.Codegen
