import Clerkenwell.Doc.Fields

/-!
# Documents in their containers

`write_document_changes` writes a document as the changes from the one before,
and `materialize_document` reads a document back from its containers.
-/

namespace Clerkenwell.Doc

open Clerkenwell.Foundation

section Substrate

variable {crates : Crates}

/-! ## Writing a document -/

/-- The items a path leads to, each with its identity. -/
def keyedItems (document : Json) (path identityPath : String) :
    ReplicaResult (List (String × Json)) :=
  (((valueAtPath document path).bind Json.asArray).getD []).mapM fun item => do
    let identity ←
      expectField identityPath "a string"
        ((valueAtPath item identityPath).bind Json.asStr)
    .ok (identity, item)

/-- The last item of an identity, as a map collected from the items holds it. -/
def itemByIdentity (items : List (String × Json)) (identity : String) :
    Option Json :=
  items.reverse.lookup identity

/-- Writes the fields of one item of a sequence that changed. -/
def writeItemFields (sequence : CollaborationFieldSpec)
    (fields : List CollaborationFieldSpec)
    (previous : Option Json) (next : Json) (context : IdentityContext) :
    Writing crates Unit :=
  fields.forM fun field =>
    if field.isDerived then
      pure ()
    else
      writeFieldIfChanged field (previous.bind (itemValue sequence field))
        (itemValue sequence field next) context

/-- Marks a sequence present, or absent when it is optional and left out. -/
def writePresence (sequence : CollaborationFieldSpec) (order : String)
    (isPresent : Bool) : Writing crates Unit := do
  if isPresent || sequence.required then
    mapInsert (keyedSequencePresence crates) order (.bool true)
  else
    let marked ← Writing.reading fun doc =>
      (crates.loro.mapGet doc (keyedSequencePresence crates) order).isSome
    if marked then
      mapDelete (keyedSequencePresence crates) order

mutual

def writeSequenceChanges (plan : CollaborationEntitySpec)
    (previousParent nextParent : Json) (context : IdentityContext) :
    SequencePlan → Writing crates Unit
  | .node sequence fields children => do
      let identityPath ←
        Writing.expectField sequence.path "an identity path"
          sequence.identityPath
      let relative := sequenceRelativePath plan sequence
      let previousItems ←
        Writing.ofResult (keyedItems previousParent relative identityPath)
      let nextItems ←
        Writing.ofResult (keyedItems nextParent relative identityPath)
      let order ← Writing.ofResult (resolveOrder crates sequence context)
      writePresence sequence order (valueAtPath nextParent relative).isSome
      if previousItems.map Prod.fst ≠ nextItems.map Prod.fst then
        writeStringList (crates.loro.root .list order)
          (nextItems.map Prod.fst)
      nextItems.forM fun (identity, nextItem) => do
        let previousItem := itemByIdentity previousItems identity
        let itemContext :=
          context.insert (identityVariable sequence) identity
        writeItemFields sequence fields previousItem nextItem itemContext
        writeSequencesChanges plan (previousItem.getD .null) nextItem
          itemContext children

/-- Every sequence under one item, or under the document. -/
def writeSequencesChanges (plan : CollaborationEntitySpec)
    (previousParent nextParent : Json) (context : IdentityContext) :
    List SequencePlan → Writing crates Unit
  | [] => pure ()
  | child :: rest => do
      writeSequenceChanges plan previousParent nextParent context child
      writeSequencesChanges plan previousParent nextParent context rest

end

def writeDocumentChanges (plan : CollaborationEntitySpec)
    (previous next : Json) : Writing crates Unit := do
  Writing.ofResult (validateDocument plan next)
  plan.fields.forM fun field =>
    if field.isNested || field.isDerived
        || field.storageKind == .keyedSequence then
      pure ()
    else
      writeFieldIfChanged field (valueAtPath previous field.path)
        (valueAtPath next field.path) []
  writeSequencesChanges plan previous next [] (documentSequences plan)

/-! ## Reading a document -/

/-- The identities a list names: each once, in order, none of them empty. -/
def uniqueLoroStringList (doc : crates.loro.LoroDoc)
    (list : crates.loro.ContainerId) : List String :=
  firstOccurrences [] <|
    ((listValues doc list).filterMap fun value =>
      match value with
      | .string value => some value
      | .i64 value => some (toString value)
      | _ => none).filter fun value => !value.isEmpty

/-- Whether an optional value reads as absent. -/
def isEmptyOptionalValue : Json → Bool
  | .array items => items.isEmpty
  | .object members => members.isEmpty
  | .string text => text.isEmpty
  | .null => true
  | _ => false

/-- `node` with `field` set to what it was read as, unless that is absence. -/
def setReadValue (node : Json) (field : CollaborationFieldSpec)
    (path : String) (value : Option Json) : ReplicaResult Json :=
  match value with
  | none => .ok node
  | some value =>
      if isEmptyOptionalValue value && !field.required
          && !isObjectStorageKind field.storageKind then
        .ok node
      else
        setValueAtPath node path value

/-- The empty form a codec allows. -/
def emptyForm (field : CollaborationFieldSpec) : Option Json :=
  match field.codec with
  | .string | .optionalString => some (.string "")
  | .stringList | .keyedSequence => some (.array [])
  | .structuredJson =>
      if isObjectStorageKind field.storageKind then none
      else some (.array [])
  | _ => none

/-- The path of what holds a member, when it is not the node itself. -/
def parentPath (path : String) : Option String :=
  (Text.rsplitOnce '.' path).map Prod.fst

/--
Gives each member of `node` that its present parent requires, but that was
read as absent, the empty form its codec allows.
-/
def completeRequiredMembers
    (members : List (CollaborationFieldSpec × String)) (node : Json) :
    ReplicaResult Json :=
  (members.filter fun (field, _) =>
      field.requiredInParent && !field.required).foldlM
    (fun node (field, path) =>
      if (valueAtPath node path).isSome then
        .ok node
      else if (parentPath path).any fun parent =>
          (valueAtPath node parent).isNone then
        .ok node
      else
        match emptyForm field with
        | some empty => setValueAtPath node path empty
        | none => .ok node)
    node

/-- A sequence's marker, read under the identities that enclose it. -/
def sequenceIsExplicitlyPresent (doc : crates.loro.LoroDoc)
    (sequence : CollaborationFieldSpec) (context : IdentityContext) :
    ReplicaResult Bool := do
  let order ← resolveOrder crates sequence context
  .ok (crates.loro.mapGet doc (keyedSequencePresence crates) order).isSome

/-- One item's fields, read under its identity. -/
def readItemFields (doc : crates.loro.LoroDoc)
    (sequence : CollaborationFieldSpec)
    (fields : List CollaborationFieldSpec) (context : IdentityContext)
    (item : Json) : ReplicaResult Json :=
  fields.foldlM
    (fun item field => do
      let path := (directItemPath sequence field).getD field.path
      match field.storageKind with
      | .derivedIdentity => do
          let variableName :=
            (field.identityVariable.or field.identityPath).getD
              (identityVariable sequence)
          let identity ←
            expectField field.path "a resolved identity"
              (context.lookup variableName)
          setValueAtPath item path (.string identity)
      | .derivedRevision => .ok item
      | _ => do
          let value ← readField doc field context
          setReadValue item field path value)
    item

mutual

def materializeSequence (doc : crates.loro.LoroDoc)
    (context : IdentityContext) :
    SequencePlan → ReplicaResult (List Json)
  | .node sequence fields children => do
      let order ← resolveOrder crates sequence context
      let identities :=
        uniqueLoroStringList doc (crates.loro.root .list order)
      identities.mapM fun identity => do
        let itemContext :=
          context.insert (identityVariable sequence) identity
        let item ←
          readItemFields doc sequence fields itemContext (.object [])
        let item ←
          materializeSequences doc itemContext
            (fun child => (directItemPath sequence child).getD child.path)
            item children
        completeRequiredMembers
          ((fields ++ children.map SequencePlan.sequence).map fun field =>
            (field, (directItemPath sequence field).getD field.path))
          item

/-- Sets every sequence of a node that is required, held or marked. -/
def materializeSequences (doc : crates.loro.LoroDoc)
    (context : IdentityContext)
    (relativePath : CollaborationFieldSpec → String)
    (node : Json) : List SequencePlan → ReplicaResult Json
  | [] => .ok node
  | child :: rest => do
      let items ← materializeSequence doc context child
      let sequence := child.sequence
      let isPresent ←
        if sequence.required || !items.isEmpty then .ok true
        else sequenceIsExplicitlyPresent doc sequence context
      let node ←
        if isPresent then
          setValueAtPath node (relativePath sequence) (.array items)
        else .ok node
      materializeSequences doc context relativePath node rest

end

def materializeDocument (plan : CollaborationEntitySpec)
    (doc : crates.loro.LoroDoc) (revision : String) :
    ReplicaResult Json := do
  let document ← plan.fields.foldlM
    (fun (document : Json) field =>
      if field.isNested || field.storageKind == .keyedSequence then
        .ok document
      else
        match field.storageKind with
        | .derivedIdentity => .ok document
        | .derivedRevision =>
            setValueAtPath document field.path (.string revision)
        | _ => do
            let value ← readField doc field []
            setReadValue document field field.path value)
    (.object [])
  let document ←
    materializeSequences doc [] CollaborationFieldSpec.path document
      (documentSequences plan)
  let document ←
    completeRequiredMembers
      ((plan.fields.filter fun field => !field.isNested).map fun field =>
        (field, field.path))
      document
  validateDocument plan document
  .ok document

/-! ## Declared text -/

/-- The text container of a declared text field whose enclosing items exist. -/
def declaredText (plan : CollaborationEntitySpec)
    (doc : crates.loro.LoroDoc) (fieldPath : String)
    (context : IdentityContext) : ReplicaResult crates.loro.ContainerId := do
  let field ←
    expectField fieldPath "a declared collaborative text field"
      ((plan.fields.find? fun field => field.path == fieldPath).filter
        fun field => field.storageKind == .text)
  (plan.fields.filter fun candidate =>
      candidate.storageKind == .keyedSequence
        && Text.startsWith fieldPath (itemPrefix candidate)).forM
    fun sequence => do
      let identity ←
        expectField fieldPath "resolved record identities"
          (context.lookup (identityVariable sequence))
      let order ← resolveOrder crates sequence context
      if (uniqueLoroStringList doc (crates.loro.root .list order)).contains
          identity then
        .ok ()
      else
        invalidField fieldPath "an existing record"
  let container ← resolveContainer crates field context
  .ok (crates.loro.root .text container)

/-- Replaces every character of a text with `value`. -/
def replaceAllText (text : crates.loro.ContainerId) (value : String) :
    Writing crates Unit := do
  let length ← Writing.reading fun doc =>
    (crates.loro.textString doc text).utf8ByteSize
  if 0 < length then
    Writing.operate fun doc => crates.loro.textDelete doc text 0 length
  if !value.isEmpty then
    Writing.operate fun doc => crates.loro.textInsert doc text 0 value

end Substrate

end Clerkenwell.Doc
