import Clerkenwell.Codegen.Schema

/-!
# How a projection's patches are composed

A projection's `materialization` plan, and the checks that its settings name
members its snapshot and patch contracts declare.
-/

namespace Clerkenwell.Codegen

/-- How a patch carries a whole snapshot: as its members, or as one of them. -/
inductive SnapshotMode where
  | patch
  | field (snapshotField : String)
deriving DecidableEq, Repr

inductive RemoveMode where
  | nullSnapshot
  | nullField (removeField : String)
deriving DecidableEq, Repr

/-- A materialization plan, of the settings the meta-schema has for each strategy. -/
inductive MaterializationPlan where
  | keyedCollection (collectionField itemField itemIdentityField
      patchIdentityField : String)
  | sequencedText (collectionField itemIdentityField patchIdentityField
      snapshotOutputField sequenceField textField patchOutputField
      deltaTextField : String)
  | replaceOrRemove (snapshotMode : SnapshotMode)
      (snapshotOmitFields : List String) (removeMode : RemoveMode)
      (updateField updatesField : Option String)
  | replace (snapshotMode : SnapshotMode) (snapshotOmitFields : List String)
  | reset
deriving DecidableEq, Repr

namespace MaterializationPlan

def strategy : MaterializationPlan → String
  | .keyedCollection .. => "keyedCollection"
  | .sequencedText .. => "sequencedText"
  | .replaceOrRemove .. => "replaceOrRemove"
  | .replace .. => "replace"
  | .reset => "reset"

/-- The patch kinds a strategy has. -/
def patchKinds : MaterializationPlan → List String
  | .keyedCollection .. => ["remove", "reset", "upsert"]
  | .sequencedText .. => ["output", "reset"]
  | .replaceOrRemove _ _ _ updateField _ =>
      ["remove", "replace"] ++ (if updateField.isSome then ["update"] else [])
  | .replace .. => ["replace"]
  | .reset => ["reset"]

/-- A setting that is a list of strings, where it is set. -/
def stringsSetting (raw : Members) (key : String) : Option (List String) :=
  match raw.get? key with
  | none => some []
  | some value => value.asArray.bind fun items => items.mapM Json.asStr

def snapshotModeOf (raw : Members) : Option SnapshotMode := do
  match ← strField raw "snapshotMode" with
  | "field" => return .field (← strField raw "snapshotField")
  | _ => return .patch

def removeModeOf (raw : Members) : Option RemoveMode := do
  match ← strField raw "removeMode" with
  | "nullSnapshot" => return .nullSnapshot
  | _ => return .nullField (← strField raw "removeField")

/-- The plan a `materialization` section is, where the meta-schema admits it. -/
def ofRaw (raw : Members) : Option MaterializationPlan := do
  match ← strField raw "strategy" with
  | "keyedCollection" =>
      return .keyedCollection (← strField raw "collectionField")
        (← strField raw "itemField") (← strField raw "itemIdentityField")
        (← strField raw "patchIdentityField")
  | "sequencedText" =>
      return .sequencedText (← strField raw "collectionField")
        (← strField raw "itemIdentityField")
        (← strField raw "patchIdentityField")
        (← strField raw "snapshotOutputField")
        (← strField raw "sequenceField") (← strField raw "textField")
        (← strField raw "patchOutputField")
        (← strField raw "deltaTextField")
  | "replaceOrRemove" =>
      return .replaceOrRemove (← snapshotModeOf raw)
        (← stringsSetting raw "snapshotOmitFields") (← removeModeOf raw)
        (strField raw "updateField") (strField raw "updatesField")
  | "replace" =>
      return .replace (← snapshotModeOf raw)
        (← stringsSetting raw "snapshotOmitFields")
  | "reset" => return .reset
  | _ => none

end MaterializationPlan

/-! ## Checks -/

/-- Names in the order of their UTF-16 code units. -/
def sortedNames (names : List String) : List String :=
  names.insertionSort fun left right => codeUnitsBefore left right

section Checks

variable (scientific : Scientific) (definition : Sections)

def checkSchemaProperty (schema : Members) (property context : String) :
    Checked Unit := do
  let resolved ←
    if (schema.get? "$ref").isNone then pure schema
    else resolveRef definition schema context
  -- A `json` payload is validated at its owning boundary.
  if hasType resolved "json" then pure ()
  else discard (contractProperty resolved property context)

def checkArrayItemProperty (schema : Members) (property context : String) :
    Checked Unit :=
  let items :=
    if hasType schema "array" then objectField schema "items" else none
  match items with
  | some items => checkSchemaProperty definition items property context
  | none => refuse s!"{context} requires an array contract."

/-- The schema a reference's last path segment names. -/
def followReference (schema : Members) : Option Members :=
  match schema.get? "$ref" with
  | some (.string reference) =>
      ((Foundation.Text.split '/' reference).getLast?).bind definition.def?
  | _ => some schema

def checkUpdateFields (snapshotSchema patchSchema : Members)
    (updateField updatesField context : String) : Checked Unit := do
  let target ←
    contractProperty snapshotSchema updateField s!"{context}.updateField"
  let changes ←
    contractProperty patchSchema updatesField s!"{context}.updatesField"
  match followReference definition target,
      followReference definition changes with
  | some targetSchema, some changesSchema =>
      match objectField targetSchema "properties",
          objectField changesSchema "properties" with
      | some targetProperties, some changesProperties =>
          forM changesProperties fun (key, value) =>
            if (targetProperties.get? key).map
                  (writeValue scientific none [])
                ≠ some (writeValue scientific none [] value) then
              refuse (s!"{context} update property {key} must match the "
                ++ "snapshot contract.")
            else
              pure ()
      | _, _ => refuse s!"{context} update fields must be objects."
  | _, _ => refuse s!"{context} update fields must be objects."

/-- Checks an update's fields, where a plan has them. -/
def checkUpdate (snapshotSchema patchSchema : Members) (context : String) :
    Option String → Option String → Checked Unit
  | some updateField, some updatesField =>
      checkUpdateFields scientific definition snapshotSchema patchSchema
        updateField updatesField context
  | _, _ => .ok ()

def checkPatchMatchesSnapshot (snapshotSchema patchSchema : Members)
    (context : String) (omitFields : List String) : Checked Unit :=
  let keys := fun schema =>
    ((objectField schema "properties").map Members.keys).getD []
  let snapshotProperties := sortedNames (keys snapshotSchema)
  let patchProperties :=
    sortedNames ((keys patchSchema).filter fun property =>
      property ≠ "kind" ∧ property ∉ omitFields)
  if snapshotProperties ≠ patchProperties then
    refuse (s!"{context}.snapshotMode \x22patch\x22 requires patch fields "
      ++ "other than kind to match the snapshot contract.")
  else
    .ok ()

def checkSnapshotMode (snapshotSchema patchSchema : Members)
    (context : String) (omitFields : List String) :
    SnapshotMode → Checked Unit
  | .field snapshotField =>
      discard (contractProperty patchSchema snapshotField
        s!"{context}.snapshotField")
  | .patch => do
      forM omitFields fun omitField =>
        if omitField = "kind" then
          refuse (s!"{context}.snapshotOmitFields must not include "
            ++ "\x22kind\x22.")
        else
          discard (contractProperty patchSchema omitField
            s!"{context}.snapshotOmitFields")
      checkPatchMatchesSnapshot snapshotSchema patchSchema context omitFields

/-- Checks the settings of a plan against the contracts it composes. -/
def checkPlan (snapshotSchema patchSchema : Members) (context : String) :
    MaterializationPlan → Checked Unit
  | .keyedCollection collectionField itemField itemIdentityField
      patchIdentityField => do
      let collectionContext := s!"{context}.collectionField"
      let identityContext := s!"{context}.itemIdentityField"
      let snapshotCollection ←
        contractProperty snapshotSchema collectionField collectionContext
      let patchCollection ←
        contractProperty patchSchema collectionField collectionContext
      let patchItem ←
        contractProperty patchSchema itemField s!"{context}.itemField"
      discard (contractProperty patchSchema patchIdentityField
        s!"{context}.patchIdentityField")
      checkArrayItemProperty definition snapshotCollection itemIdentityField
        identityContext
      checkArrayItemProperty definition patchCollection itemIdentityField
        identityContext
      checkSchemaProperty definition patchItem itemIdentityField
        identityContext
  | .sequencedText collectionField itemIdentityField patchIdentityField _ _ _
      patchOutputField _ => do
      let snapshotCollection ←
        contractProperty snapshotSchema collectionField
          s!"{context}.collectionField"
      checkArrayItemProperty definition snapshotCollection itemIdentityField
        s!"{context}.itemIdentityField"
      discard (contractProperty patchSchema patchIdentityField
        s!"{context}.patchIdentityField")
      discard (contractProperty patchSchema patchOutputField
        s!"{context}.patchOutputField")
  | .replaceOrRemove snapshotMode omitFields removeMode updateField
      updatesField =>
      if updateField.isSome ≠ updatesField.isSome then
        refuse s!"{context} requires both updateField and updatesField."
      else do
      checkUpdate scientific definition snapshotSchema patchSchema context
        updateField updatesField
      checkSnapshotMode snapshotSchema patchSchema context omitFields
        snapshotMode
      match removeMode with
      | .nullField removeField =>
          discard (contractProperty snapshotSchema removeField
            s!"{context}.removeField")
      | .nullSnapshot => pure ()
  | .replace snapshotMode omitFields =>
      checkSnapshotMode snapshotSchema patchSchema context omitFields
        snapshotMode
  | .reset =>
      checkPatchMatchesSnapshot snapshotSchema patchSchema context []

/-- The kinds of patch a patch contract declares. -/
def declaredKinds (patchSchema : Members) (context : String) :
    Checked (List String) :=
  let kindSchema :=
    (objectField patchSchema "properties").bind fun properties =>
      objectField properties "kind"
  readStringArray (kindSchema.bind fun schema => schema.get? "enum") context

/-- A `projections` entry. -/
structure Projection where
  name : String
  snapshot : Members
  patch : Members
  materialization : MaterializationPlan

def checkMaterialization (projection : Projection) : Checked Unit := do
  let name := projection.name
  let context := s!"projections.{name}.materialization"
  let plan := projection.materialization
  let snapshotSchema ←
    resolveRef definition projection.snapshot s!"projections.{name}.snapshot"
  let patchName ←
    schemaRefName definition projection.patch s!"projections.{name}.patch"
  let patchSchema ← expect (definition.def? patchName)
  let kinds ← declaredKinds patchSchema
    s!"$defs.{patchName}.properties.kind.enum"
  let kinds := sortedNames kinds
  let expected := sortedNames plan.patchKinds
  if kinds ≠ expected then
    refuse (s!"projections.{name}.materialization.strategy "
      ++ s!"{stringLiteral plan.strategy} expects patch kinds "
      ++ ", ".intercalate expected ++ ", found "
      ++ ", ".intercalate kinds ++ ".")
  else
  checkPlan scientific definition snapshotSchema patchSchema context plan

end Checks

end Clerkenwell.Codegen
