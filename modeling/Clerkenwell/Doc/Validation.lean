import Clerkenwell.Doc.Path

/-!
# Valid documents of a plan

What `validate_document` accepts: every declared field holds a value its codec
accepts, and the items of each keyed sequence have unique identities.  A null
optional is left out of a document before it is validated.
-/

namespace Clerkenwell.Doc

open Clerkenwell.Foundation

/-- Whether a field of the kind holds an object. -/
def isObjectStorageKind (kind : CollaborationStorageKind) : Bool :=
  kind == .structuredMap || kind == .structuredDocument

/-- The MIME type and the text of a text property. -/
def propertyText (field : CollaborationFieldSpec) (value : Option Json) :
    ReplicaResult (String × String) := do
  let value ← expectField field.path "a text property value" value
  let mime ←
    expectField field.path "a text property MIME"
      (((value.get? "$mime").bind Json.asStr).filter fun mime =>
        Text.startsWith mime "text/")
  let text ←
    expectField field.path "a text property string value"
      ((value.get? "value").bind Json.asStr)
  .ok (mime, text)

/-- The strings of an array, none when an optional one is left out. -/
def stringArray (value : Option Json) (path : String) (required : Bool) :
    ReplicaResult (List String) :=
  if value.isNone && !required then
    .ok []
  else do
    let items ←
      expectField path "an array of strings" (value.bind Json.asArray)
    items.mapM fun entry =>
      expectField path "an array of strings" entry.asStr

/-- Refuses a value the field's codec does not accept. -/
def validateFieldValue (field : CollaborationFieldSpec)
    (value : Option Json) : ReplicaResult Unit :=
  match field.codec with
  | .integer =>
      if (value.bind Json.asI64).isNone then
        invalidField field.path "an integer"
      else .ok ()
  | .number | .optionalNumber =>
      if (value.bind Json.asF64).isNone then
        invalidField field.path "a number"
      else .ok ()
  | .boolean =>
      if (value.bind Json.asBool).isNone then
        invalidField field.path "a boolean"
      else .ok ()
  | .string | .optionalString | .identity =>
      if (value.bind Json.asStr).isNone then
        invalidField field.path "a string"
      else .ok ()
  | .propertyText => (propertyText field value).map fun _ => ()
  | .stringList =>
      match stringArray value field.path field.required with
      | .error _ => invalidField field.path "an array of strings"
      | .ok _ => .ok ()
  | .structuredJson =>
      if isObjectStorageKind field.storageKind then
        if (value.bind Json.asObject).isNone then
          invalidField field.path "an object"
        else .ok ()
      else
        if (value.bind Json.asArray).isNone then
          invalidField field.path "an array"
        else .ok ()
  | .keyedSequence =>
      if !isObjectStorageKind field.storageKind
          && (value.bind Json.asArray).isNone then
        invalidField field.path "an array"
      else .ok ()

/-- Whether an optional field holds no value: left out, or null. -/
def isAbsent (value : Option Json) : Bool :=
  match value with
  | none => true
  | some value => value.isNull

/--
A required field must hold a value its codec accepts.  An optional field may
be absent or null, but a value it does hold must be accepted too.
-/
def validateDeclaredValue (field : CollaborationFieldSpec)
    (value : Option Json) : ReplicaResult Unit :=
  if isAbsent value && !field.required then
    .ok ()
  else
    validateFieldValue field value

/-- The member of an item that holds `field`. -/
def itemValue (sequence field : CollaborationFieldSpec) (item : Json) :
    Option Json :=
  valueAtPath item ((directItemPath sequence field).getD field.path)

/-- The items of `sequence` under `parent`, none when it may be left out. -/
def sequenceItems
    (plan : CollaborationEntitySpec) (parent : Json)
    (sequence : CollaborationFieldSpec) :
    ReplicaResult (List Json) :=
  match valueAtPath parent (sequenceRelativePath plan sequence) with
  | some value => expectField sequence.path "an array" value.asArray
  | none =>
      if sequence.required then invalidField sequence.path "an array"
      else .ok []

/-- An item's identity, which no earlier item of its sequence has. -/
def freshIdentity
    (sequence : CollaborationFieldSpec) (identityPath : String)
    (earlier : List String) (item : Json) :
    ReplicaResult String := do
  let identity ←
    expectField identityPath "a string"
      ((valueAtPath item identityPath).bind Json.asStr)
  if identity.isEmpty || earlier.contains identity then
    invalidField sequence.path "items with unique non-empty identities"
  else
    .ok identity

/-- Refuses a field of an item whose value its codec does not accept. -/
def validateItemFields
    (sequence : CollaborationFieldSpec)
    (fields : List CollaborationFieldSpec) (item : Json) :
    ReplicaResult Unit :=
  fields.forM fun field =>
    if field.isDerived then .ok ()
    else validateDeclaredValue field (itemValue sequence field item)

mutual

def validateSequence (plan : CollaborationEntitySpec) (parent : Json) :
    SequencePlan → ReplicaResult Unit
  | .node sequence fields children => do
      let items ← sequenceItems plan parent sequence
      let identityPath ←
        expectField sequence.path "an identity path" sequence.identityPath
      let _ ← items.foldlM
        (fun earlier item => do
          let identity ← freshIdentity sequence identityPath earlier item
          validateItemFields sequence fields item
          validateSequences plan item children
          .ok (identity :: earlier))
        []
      .ok ()

/-- Every sequence under one item, or under the document. -/
def validateSequences (plan : CollaborationEntitySpec) (parent : Json) :
    List SequencePlan → ReplicaResult Unit
  | [] => .ok ()
  | child :: rest => do
      validateSequence plan parent child
      validateSequences plan parent rest

end

def validateDocument (plan : CollaborationEntitySpec) (document : Json) :
    ReplicaResult Unit := do
  let _ ← expectField "$" "an object" document.asObject
  plan.fields.forM fun field =>
    if field.isNested || field.isDerived
        || field.storageKind == .keyedSequence then
      .ok ()
    else
      validateDeclaredValue field (valueAtPath document field.path)
  validateSequences plan document (documentSequences plan)

/-! ## Null optionals -/

/-- `scope` without `field`'s member at `relative`, when it is a null optional. -/
def removeNullOptional (scope : Json)
    (field : CollaborationFieldSpec) (relative : String) : Json :=
  if !field.required && ((valueAtPath scope relative).any Json.isNull) then
    removeValueAtPath scope relative
  else
    scope

/-- The array `path` leads to with each of its items changed. -/
def mapItemsAtPath (change : Json → Json) (scope : Json) (path : String) :
    Json :=
  modifyAt
    (fun value =>
      match value with
      | .array items => .array (items.map change)
      | value => value)
    scope (Text.split '.' path)

mutual

/-- The items of one sequence of `scope`, each without its null optionals. -/
def removeNullOptionalsOf (plan : CollaborationEntitySpec)
    (scope : Json) : SequencePlan → Json
  | .node sequence fields children =>
      mapItemsAtPath
        (fun item =>
          let members := fields ++ children.map SequencePlan.sequence
          let cleared := members.foldl
            (fun item field =>
              removeNullOptional item field
                ((directItemPath sequence field).getD field.path))
            item
          removeNullOptionalsIn plan cleared children)
        scope (sequenceRelativePath plan sequence)

/-- Every sequence of `scope`, its items without their null optionals. -/
def removeNullOptionalsIn (plan : CollaborationEntitySpec)
    (scope : Json) : List SequencePlan → Json
  | [] => scope
  | child :: rest =>
      removeNullOptionalsIn plan (removeNullOptionalsOf plan scope child) rest

end

/--
`document` with every optional field that holds null left out: null and
absence are one state.
-/
def withoutNullOptionals (plan : CollaborationEntitySpec)
    (document : Json) : Json :=
  let fields := plan.fields.filter fun field => !field.isNested
  let cleared :=
    fields.foldl
      (fun scope field => removeNullOptional scope field field.path)
      document
  removeNullOptionalsIn plan cleared (documentSequences plan)

end Clerkenwell.Doc
