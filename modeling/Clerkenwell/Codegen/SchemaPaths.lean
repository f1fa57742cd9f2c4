import Clerkenwell.Codegen.Declarations
import Clerkenwell.Codegen.SchemaChecks

/-!
# Collaboration paths of a schema

What a collaboration path addresses in an entity schema, and every path a
collaboration field must cover, with array items as `*`.
-/

namespace Clerkenwell.Codegen

open Clerkenwell.Foundation

/-- How the entity schema requires the value at a collaboration path. -/
structure Presence where
  /-- Every segment of the path is required. -/
  required : Bool
  /-- The object holding the value requires it. -/
  requiredInParent : Bool
deriving DecidableEq, Repr

/--
The members of an object schema that collaboration field paths address.  An
open object's members are one value, which a field stores whole.
-/
def addressableMembers (schema : Members) : Option Members :=
  if !hasType schema "object" || (otherMembersSchema schema).isSome then none
  else objectField schema "properties"

/-- The items of an array schema. -/
def arrayItems (schema : Members) : Option Members :=
  if hasType schema "array" then objectField schema "items" else none

/-- The path of a property under a prefix. -/
def memberPath (path property : String) : String :=
  if path.isEmpty then property else s!"{path}.{property}"

/-- The distinct items of a list, in the order they are first listed. -/
def distinct : List String → List String :=
  fun items => items.foldl
    (fun found item => if found.contains item then found else found ++ [item])
    []

section Paths

variable (definition : Sections)

/-- How far a path has been followed. -/
structure Followed where
  presence : Presence
  /-- The entry the schema is, where it was reached by reference. -/
  name : Option String
  schema : Members

/-- Follows one segment of a path. -/
def followSegment (fuel : Nat) (segment : String) (followed : Followed) :
    Running Failure (Option Followed) := do
  let schema ← dereference definition fuel followed.schema
  if segment = "*" then
    match arrayItems schema with
    | none => pure none
    | some items => do
        let (name, target) ← dereferenceFrom definition none fuel items
        pure (some { followed with name := name, schema := target })
  else
    match (addressableMembers schema).bind fun properties =>
        objectField properties segment with
    | none => pure none
    | some property => do
        let required ← Running.settled (readStringArray (schema.get? "required")
          "collaboration schema required")
        let requiredInParent := required.contains segment
        let (name, target) ← dereferenceFrom definition none fuel property
        pure (some
          { presence :=
              { required := followed.presence.required && requiredInParent
                requiredInParent := requiredInParent }
            name := name
            schema := target })

def followSegments (fuel : Nat) :
    List String → Followed → Running Failure (Option Followed)
  | [], followed => pure (some followed)
  | segment :: rest, followed => do
      match ← followSegment definition fuel segment followed with
      | none => pure none
      | some next => followSegments fuel rest next

/--
How the schema `root` requires the value at a collaboration path, and that
value's schema, or `none` when the path does not resolve in it.
-/
def collaborationSchemaAt (fuel : Nat) (root : Members) (fieldPath : String) :
    Running Failure (Option Followed) := do
  let (name, schema) ← dereferenceFrom definition none fuel root
  followSegments definition fuel (Text.split '.' fieldPath)
    { presence := { required := true, requiredInParent := true }
      name := name
      schema := schema }

/-- The paths of one property of a closed object. -/
def memberPaths
    (collect : Members → String → Running Failure (List String))
    (path : String) : String × Json → Running Failure (List String)
  | (property, .object propertySchema) =>
      collect propertySchema (memberPath path property)
  | _ => pure []

/--
Every path under the entity schema a collaboration field must cover, with array
items as `*`.
-/
def collectCollaborationSchemaPaths :
    Nat → Members → String → Running Failure (List String)
  | 0, _, _ => Running.pending
  | fuel + 1, rawSchema, path => do
      let schema ← dereference definition fuel rawSchema
      match arrayItems schema with
      | some items => do
          let item ← dereference definition fuel items
          if hasType item "object" then do
            let inner ← collectCollaborationSchemaPaths fuel item s!"{path}.*"
            pure (distinct (path :: inner))
          else
            pure [path]
      | none =>
          match addressableMembers schema with
          | none => pure [path]
          | some properties => do
              let paths ← properties.mapM
                (memberPaths (collectCollaborationSchemaPaths fuel) path)
              pure (distinct paths.flatten)

end Paths

/-! ## Uncovered paths -/

/-- Each part of a path before one of its dots, shortest first. -/
def dottedPrefixes (path : String) : List String :=
  let segments := Text.split '.' path
  (List.range (segments.length - 1)).map fun count =>
    Text.join "." (segments.take (count + 1))

/--
Each uncovered path as the shallowest path under which nothing is covered, so
an object no field covers is named once rather than by its leaves.
-/
def shallowestUncovered (required missing : List String) : List String :=
  distinct (missing.map fun path =>
    (((dottedPrefixes path).filter fun before =>
        before.toList.getLast? != some '*').find? fun before =>
      (required.filter fun other =>
        other == before || Text.startsWith other (before ++ ".")).all
          missing.contains).getD path)

end Clerkenwell.Codegen
