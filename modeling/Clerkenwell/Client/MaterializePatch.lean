import Clerkenwell.Codegen.Materialization
import Clerkenwell.Session.Materialize

/-!
# Materialising a patch

The values here are those `JSON.parse` reads.  A property that a record lacks
is read from `Object.prototype`.  `spell` is `String(value)`.
-/

namespace Clerkenwell.Client

open Clerkenwell.Codegen

/-! ## Properties -/

/-- What reading a property of a record yields. -/
inductive Property where
  | undefined
  /-- A method of `Object.prototype`. -/
  | method (name : String)
  /-- `Object.prototype` itself, which is a record without members. -/
  | prototype
  | value (value : Json)

def objectPrototypeMethods : List String :=
  ["constructor", "__defineGetter__", "__defineSetter__", "hasOwnProperty",
    "__lookupGetter__", "__lookupSetter__", "isPrototypeOf",
    "propertyIsEnumerable", "toString", "valueOf", "toLocaleString"]

/-- `record[field]`. -/
def property (record : Members) (field : String) : Property :=
  match record.get? field with
  | some value => .value value
  | none =>
      if field = "__proto__" then .prototype
      else if field ∈ objectPrototypeMethods then .method field
      else .undefined

namespace Property

def isUndefined : Property → Bool
  | .undefined => true
  | _ => false

/-- `left === right`, of properties of records parsed apart. -/
def strictlyEquals : Property → Property → Bool
  | .undefined, .undefined | .prototype, .prototype => true
  | .method left, .method right => left == right
  | .value .null, .value .null => true
  | .value (.bool left), .value (.bool right) => left == right
  | .value (.number left), .value (.number right) => left == right
  | .value (.string left), .value (.string right) => left == right
  | _, _ => false

end Property

/-! ## Requirements -/

def requireRecord (context : String) : Property → Except String Members
  | .value (.object members) => .ok members
  | .prototype => .ok []
  | _ => .error s!"{context} must be an object."

def requireArray (context : String) : Property → Except String (List Json)
  | .value (.array items) => .ok items
  | _ => .error s!"{context} must be an array."

def requireString (context : String) : Property → Except String String
  | .value (.string value) => .ok value
  | _ => .error s!"{context} must be a string."

/-- `Number.isSafeInteger(value)`. -/
def isSafeInteger (value : Dyadic) : Bool :=
  Dyadic.ofInt value.toRat.floor == value
    && Dyadic.ofInt (-(2 ^ 53 - 1)) ≤ value
    && value ≤ Dyadic.ofInt (2 ^ 53 - 1)

def requireInteger (context : String) : Property → Except String Dyadic
  | .value (.number value) =>
      if isSafeInteger value then .ok value
      else .error s!"{context} must be an integer."
  | _ => .error s!"{context} must be an integer."

def requirePlanField (name : String) : Option String → Except String String
  | some field => .ok field
  | none => .error s!"Generated composition plan is missing {name}."

def unexpectedPatchKind (projection kind strategy : String) : String :=
  s!"Received {kind} patch for {projection} using {strategy} materialisation."

/-! ## Strategies -/

section Strategies

variable (spell : Property → String)

/-- `{ ...record, [field]: value }`. -/
def withField (record : Members) (field : String) (value : Json) : Members :=
  (Members.ofMembers record).insert field value

/-- A record without some of its fields. -/
def omitFields (record : Members) (fields : List String) : Members :=
  Members.ofMembers (record.filter fun member => member.1 ∉ fields)

/-- Whether a collection's entry is another than the one identified. -/
def isOther (identityField : String) (identity : Property)
    (candidate : Json) : Bool :=
  match candidate with
  | .object members =>
      !(property members identityField).strictlyEquals identity
  | _ => true

def materializeKeyedCollection (currentSnapshot : Json) (patch : Members)
    (kind collectionField itemField itemIdentityField
      patchIdentityField : String) : Except String Json := do
  let current ←
    match currentSnapshot with
    | .null => pure []
    | snapshot => requireRecord "keyed collection snapshot" (.value snapshot)
  let existing := property current collectionField
  let collection ←
    if existing.isUndefined then pure []
    else requireArray s!"{collectionField} snapshot field" existing
  match kind with
  | "reset" =>
      let items ← requireArray s!"{collectionField} reset field"
        (property patch collectionField)
      pure (.object (withField current collectionField (.array items)))
  | "upsert" =>
      let item ← requireRecord s!"{itemField} upsert field"
        (property patch itemField)
      let identity := property item itemIdentityField
      if identity.isUndefined then
        throw s!"Upsert item is missing identity field {itemIdentityField}."
      else
      let next := collection.filter (isOther itemIdentityField identity)
      pure (.object (withField current collectionField
        (.array (next ++ [.object item]))))
  | "remove" =>
      let identity := property patch patchIdentityField
      if identity.isUndefined then
        throw s!"Remove patch is missing identity field {patchIdentityField}."
      else
      pure (.object (withField current collectionField
        (.array (collection.filter (isOther itemIdentityField identity)))))
  | _ =>
      throw (unexpectedPatchKind "keyed collection" kind "keyedCollection")

/-- An entry with a delta appended to its output. -/
def appendOutput (snapshotOutputField sequenceField textField : String)
    (sequence : Dyadic) (textDelta : String) (identity : Property)
    (candidate : Members) : Except String Json := do
  let field := property candidate snapshotOutputField
  let currentOutput ←
    if field.isUndefined then pure none
    else
      let output ←
        requireRecord s!"{snapshotOutputField} snapshot field" field
      pure (some output)
  let currentSequence ←
    match currentOutput with
    | none => pure 0
    | some output =>
        requireInteger s!"{sequenceField} snapshot sequence"
          (property output sequenceField)
  if sequence ≠ currentSequence + 1 then
    throw (s!"Received output sequence {spell (.value (.number sequence))} "
      ++ s!"after {spell (.value (.number currentSequence))} for "
      ++ s!"{spell identity}.")
  else do
  let currentText ←
    match currentOutput with
    | none => pure ""
    | some output =>
        requireString s!"{textField} snapshot text" (property output textField)
  pure (.object (withField candidate snapshotOutputField
    (.object ((Members.insert [] sequenceField (.number sequence)).insert
      textField (.string (currentText ++ textDelta))))))

def materializeSequencedText (currentSnapshot : Json) (patch : Members)
    (kind collectionField itemIdentityField patchIdentityField
      snapshotOutputField sequenceField textField patchOutputField
      deltaTextField : String) : Except String Json :=
  if kind = "reset" then .ok (.object (omitFields patch ["kind"]))
  else if kind ≠ "output" then
    .error (unexpectedPatchKind "sequenced text" kind "sequencedText")
  else do
    let current ←
      requireRecord "sequenced text snapshot" (.value currentSnapshot)
    let collection ← requireArray s!"{collectionField} snapshot field"
      (property current collectionField)
    let identity := property patch patchIdentityField
    if identity.isUndefined then
      throw s!"Output patch is missing identity field {patchIdentityField}."
    else do
    let delta ← requireRecord s!"{patchOutputField} output field"
      (property patch patchOutputField)
    let sequence ← requireInteger s!"{sequenceField} output sequence"
      (property delta sequenceField)
    let textDelta ← requireString s!"{deltaTextField} output text"
      (property delta deltaTextField)
    let next ← collection.mapM fun candidate =>
      match candidate with
      | .object members =>
          if isOther itemIdentityField identity candidate then pure candidate
          else
            appendOutput spell snapshotOutputField sequenceField textField
              sequence textDelta identity members
      | other => pure other
    if collection.all (isOther itemIdentityField identity) then
      throw s!"Output patch targets unknown identity {spell identity}."
    else
    pure (.object (withField current collectionField (.array next)))

def snapshotFromPatch (patch : Members) (omitted : List String) :
    SnapshotMode → Except String Json
  | .field field =>
      match property patch field with
      | .value value => .ok value
      | .undefined =>
          .error s!"Patch is missing generated snapshot field {field}."
      -- `in` sees what is inherited, which is no JSON value.
      | _ => .error s!"{field} is inherited."
  | .patch => .ok (.object (omitFields patch ("kind" :: omitted)))

def materializeReplaceOrRemove (currentSnapshot : Json) (patch : Members)
    (kind : String) (snapshotMode : SnapshotMode) (omitted : List String)
    (removeMode : RemoveMode) (updateField updatesField : Option String) :
    Except String Json :=
  match kind with
  | "update" => do
      let field ← requirePlanField "updateField" updateField
      let updates ← requirePlanField "updatesField" updatesField
      let changes ← requireRecord "field updates" (property patch updates)
      let snapshot ←
        requireRecord "field update snapshot" (.value currentSnapshot)
      let target ←
        requireRecord "field update target" (property snapshot field)
      pure (.object (withField snapshot field
        (.object ((Members.ofMembers target).spread changes))))
  | "replace" => snapshotFromPatch patch omitted snapshotMode
  | "remove" =>
      match removeMode with
      | .nullSnapshot => .ok .null
      | .nullField removeField => do
          let current ←
            match currentSnapshot with
            | .null => pure []
            | snapshot =>
                requireRecord "replace-or-remove snapshot" (.value snapshot)
          pure (.object
            (((Members.ofMembers current).spread
              (omitFields patch ("kind" :: omitted))).insert
                removeField .null))
  | _ =>
      .error (unexpectedPatchKind "replace-or-remove" kind "replaceOrRemove")

/-- The snapshot a patch of a kind leaves, by a plan's strategy. -/
def materializeKind (currentSnapshot : Json) (projection : String)
    (patch : Members) (kind : String) :
    MaterializationPlan → Except String Json
  | .keyedCollection collectionField itemField itemIdentityField
      patchIdentityField =>
      materializeKeyedCollection currentSnapshot patch kind collectionField
        itemField itemIdentityField patchIdentityField
  | .sequencedText collectionField itemIdentityField patchIdentityField
      snapshotOutputField sequenceField textField patchOutputField
      deltaTextField =>
      materializeSequencedText spell currentSnapshot patch kind collectionField
        itemIdentityField patchIdentityField snapshotOutputField sequenceField
        textField patchOutputField deltaTextField
  | .replaceOrRemove snapshotMode omitted removeMode updateField
      updatesField =>
      materializeReplaceOrRemove currentSnapshot patch kind snapshotMode
        omitted removeMode updateField updatesField
  | .replace snapshotMode omitted =>
      if kind ≠ "replace" then
        .error (unexpectedPatchKind projection kind "replace")
      else
        snapshotFromPatch patch omitted snapshotMode
  | .reset =>
      if kind ≠ "reset" then
        .error (unexpectedPatchKind projection kind "reset")
      else
        .ok (.object (omitFields patch ["kind"]))

/-- The snapshot a transported patch leaves. -/
def materializePatch (currentSnapshot : Json)
    (patch : Session.Projected Json) (plan : MaterializationPlan) :
    Except String Json := do
  let patchValue ←
    requireRecord s!"{patch.projection} patch" (.value patch.value)
  let kind ← requireString s!"{patch.projection} patch kind"
    (property patchValue "kind")
  materializeKind spell currentSnapshot patch.projection patchValue kind plan

/-- How a client with these plans composes its projections' patches. -/
def composition (plans : String → Option MaterializationPlan) :
    Session.Composition Json Json MaterializationPlan where
  plans := plans
  materializePatch := materializePatch spell

end Strategies

end Clerkenwell.Client
