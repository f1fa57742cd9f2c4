import Clerkenwell.Doc.Structured

/-!
# Writing and reading one declared field

`write_field_if_changed` writes a field's value into the container its storage
kind names, and `read_field` reads it back.
-/

namespace Clerkenwell.Doc

open Clerkenwell.Foundation

section Fields

variable {crates : Crates}

/-- `option.ok_or_else(|| invalid_field(path, expected))?` in a writer. -/
def Writing.expectField {α : Type} (path expected : String)
    (value : Option α) : Writing crates α :=
  Writing.ofResult (Doc.expectField path expected value)

/-! ## Writing -/

/-- Writes a scalar under its key, as its codec encodes it. -/
def writeScalar (field : CollaborationFieldSpec) (container : String)
    (next : Option Json) : Writing crates Unit := do
  let key ← Writing.expectField field.path "a scalar key" field.key
  let map := crates.loro.root .map container
  if isAbsent next then
    mapDelete map key
  else
    match field.codec with
    | .integer => do
        let value ←
          Writing.expectField field.path "an integer" (next.bind Json.asI64)
        mapInsert map key (.i64 value)
    | .number => do
        let value ←
          Writing.expectField field.path "a number" (next.bind Json.asF64)
        mapInsert map key (.double value)
    | .optionalNumber =>
        match next.bind Json.asF64 with
        | some value => mapInsert map key (.double value)
        | none => mapDelete map key
    | .boolean => do
        let value ←
          Writing.expectField field.path "a boolean" (next.bind Json.asBool)
        mapInsert map key (.bool value)
    | .string => do
        let value ←
          Writing.expectField field.path "a string" (next.bind Json.asStr)
        mapInsert map key (.string value)
    | .optionalString =>
        match (next.bind Json.asStr).filter fun value => !value.isEmpty with
        | some value => mapInsert map key (.string value)
        | none => mapDelete map key
    | _ =>
        Writing.ofResult (invalidField field.path "a scalar-compatible codec")

/-- Writes a text and, for a text property, its MIME type. -/
def writeTextField (field : CollaborationFieldSpec) (container : String)
    (next : Option Json) (context : IdentityContext) :
    Writing crates Unit := do
  let text := crates.loro.root .text container
  if isAbsent next then
    writeText text field.path ""
    if field.codec = .propertyText then
      let (metadataContainer, metadataKey) ←
        Writing.ofResult (resolveMetadata crates field context)
      mapDelete (crates.loro.root .map metadataContainer) metadataKey
  else
    let value ←
      match field.codec with
      | .string =>
          Writing.expectField field.path "a string" (next.bind Json.asStr)
      | .optionalString => pure ((next.bind Json.asStr).getD "")
      | .propertyText => do
          let (_, value) ← Writing.ofResult (propertyText field next)
          pure value
      | _ =>
          Writing.ofResult (invalidField field.path "a text-compatible codec")
    writeText text field.path value
    if field.codec = .propertyText then
      let (mime, _) ← Writing.ofResult (propertyText field next)
      let (metadataContainer, metadataKey) ←
        Writing.ofResult (resolveMetadata crates field context)
      mapInsert (crates.loro.root .map metadataContainer) metadataKey
        (.string mime)

/--
Writes an object into its map with `write`, and marks the map present; an
optional object left out is cleared and marked absent.
-/
def writeObject
    (write : crates.loro.ContainerId → Members → Members →
      Writing crates Unit)
    (field : CollaborationFieldSpec) (container : String)
    (previous next : Option Json) : Writing crates Unit := do
  let map := crates.loro.root .map container
  match next with
  | some (.object values) => do
      write map (membersOf previous) values
      mapInsert (structuredMapPresence crates) container (.bool true)
  | none =>
      if field.required then
        Writing.ofResult (invalidField field.path "an object")
      else do
        let keys ← Writing.reading fun doc => crates.loro.mapKeys doc map
        keys.forM fun key => mapDelete map key
        mapDelete (structuredMapPresence crates) container
  | some _ => Writing.ofResult (invalidField field.path "an object")

/-- Writes `field`'s value unless it is the one it had. -/
def writeFieldIfChanged (field : CollaborationFieldSpec)
    (previous next : Option Json) (context : IdentityContext) :
    Writing crates Unit := do
  if previous ≠ next then
    if field.required then
      Writing.ofResult (validateFieldValue field next)
    let container ← Writing.ofResult (resolveContainer crates field context)
    match field.storageKind with
    | .scalar => writeScalar field container next
    | .text => writeTextField field container next context
    | .orderedList => do
        let values ←
          Writing.ofResult (stringArray next field.path field.required)
        writeStringList (crates.loro.root .list container) values
    | .structuredList => do
        let values ←
          Writing.expectField field.path "an array" (next.bind Json.asArray)
        writeList (crates.loro.root .list container) (values.map jsonToLoro)
    | .structuredMap =>
        writeObject
          (fun map previous values =>
            writeStructuredMapChanges map previous (.object values))
          field container previous next
    | .structuredDocument =>
        writeObject writeStructuredDocumentChanges field container previous
          next
    | .derivedIdentity | .derivedRevision | .keyedSequence => pure ()

/-! ## Reading -/

/-- An object read from its map, when it is required, marked or not empty. -/
def presentObject (doc : crates.loro.LoroDoc)
    (field : CollaborationFieldSpec) (container : String) (value : Json) :
    Option Json :=
  if field.required
      || (crates.loro.mapGet doc (structuredMapPresence crates)
            container).isSome
      || (value.asObject.any fun members => !members.isEmpty) then
    some value
  else
    none

def readField (doc : crates.loro.LoroDoc) (field : CollaborationFieldSpec)
    (context : IdentityContext) : ReplicaResult (Option Json) := do
  let container ← resolveContainer crates field context
  match field.storageKind with
  | .scalar => do
      let key ← expectField field.path "a scalar key" field.key
      .ok (deepMember doc (crates.loro.root .map container) key)
  | .text =>
      let text :=
        crates.loro.textString doc (crates.loro.root .text container)
      match field.codec with
      | .optionalString =>
          .ok (if text.isEmpty then none else some (.string text))
      | .propertyText => do
          let (metadataContainer, metadataKey) ←
            resolveMetadata crates field context
          let mime ←
            expectField field.path "a stored MIME value"
              ((deepMember doc (crates.loro.root .map metadataContainer)
                metadataKey).bind Json.asStr)
          .ok (some
            (.object [("$mime", .string mime), ("value", .string text)]))
      | _ => .ok (some (.string text))
  | .orderedList | .structuredList =>
      .ok (some (deepJson doc (crates.loro.root .list container)))
  | .structuredMap =>
      .ok (presentObject doc field container
        (deepJson doc (crates.loro.root .map container)))
  | .structuredDocument => do
      let value ←
        readStructuredDocument doc (crates.loro.depth doc)
          (crates.loro.root .map container)
      .ok (presentObject doc field container value)
  | .derivedIdentity | .derivedRevision | .keyedSequence => .ok none

end Fields

end Clerkenwell.Doc
