import Clerkenwell.Doc.Loro

/-!
# Members, identities and containers of a plan

What the validator, the writer and the reader of a document share: the
failures of a replica, the members of a document by their dotted paths, and
the containers a field's templates name once the identities of the items that
enclose it are known.
-/

namespace Clerkenwell.Doc

open Clerkenwell.Foundation

/-! ## Failures -/

inductive CollaborationReplicaError where
  | invalidBase64 (message : String)
  | update (message : String)
  | encode (message : String)
  | invalidField (path expected : String)
  | unsupportedSchemaVersion (entity : String) (actual expected : Nat)
  | unknownFrontier
  | invalidVersion (peer counter : Nat)
  | missingDependency
  | unrelatedHistory
  | textCaptureMismatch
deriving DecidableEq, Repr

/-- The error's message, as it displays. -/
def CollaborationReplicaError.message : CollaborationReplicaError → String
  | .invalidBase64 message => s!"invalid update_base64: {message}"
  | .update message =>
      s!"could not process the collaboration update: {message}"
  | .encode message =>
      s!"could not encode the collaboration update: {message}"
  | .invalidField path expected =>
      "collaborative document field " ++ backquote ++ path ++ backquote
        ++ " must be " ++ expected
  | .unsupportedSchemaVersion entity actual expected =>
      s!"unsupported {entity} collaboration schema version {actual}; "
        ++ s!"this adapter requires version {expected}"
  | .unknownFrontier =>
      "the supplied collaboration frontier is not present in the document "
        ++ "history"
  | .invalidVersion peer counter =>
      s!"the collaboration version names counter {counter} for peer {peer}, "
        ++ "which no operation reaches"
  | .missingDependency =>
      "the collaboration update has causal dependencies that are not present"
  | .unrelatedHistory =>
      "the collaboration update holds a history built apart from this "
        ++ "document's"
  | .textCaptureMismatch =>
      "the supplied text does not match the captured collaboration frontier"
where
  backquote : String := String.singleton (Char.ofNat 96)

abbrev ReplicaResult := Except CollaborationReplicaError

/-- A failure of `field` to be what is expected of it. -/
def invalidField {α : Type} (path expected : String) : ReplicaResult α :=
  .error (.invalidField path expected)

/-- `option.ok_or_else(|| invalid_field(path, expected))`. -/
def expectField {α : Type} (path expected : String) :
    Option α → ReplicaResult α
  | some value => .ok value
  | none => invalidField path expected

/-! ## Members by path -/

/-- The value a list of member names leads to. -/
def valueAt : Json → List String → Option Json
  | value, [] => some value
  | value, segment :: rest =>
      (value.get? segment).bind fun member => valueAt member rest

/-- The value a dotted path leads to. -/
def valueAtPath (value : Json) (path : String) : Option Json :=
  valueAt value (Text.split '.' path)

/-- `value` with what a list of member names leads to replaced by `change`. -/
def modifyAt (change : Json → Json) : Json → List String → Json
  | value, [] => change value
  | .object members, segment :: rest =>
      match Members.get? members segment with
      | some member =>
          .object (Members.insert members segment (modifyAt change member rest))
      | none => .object members
  | value, _ :: _ => value

/-- `value` without its member `key`, when it is an object. -/
def removeMember (key : String) : Json → Json
  | .object members => .object (Members.remove members key)
  | value => value

/-- The document without the member a dotted path leads to. -/
def removeValueAtPath (root : Json) (path : String) : Json :=
  let segments := Text.split '.' path
  modifyAt (removeMember (segments.getLastD "")) root segments.dropLast

/--
`value` with the member a list of names leads to set, making the objects on
the way that are missing.
-/
def setValueAt (path : String) (member : Json) :
    Json → List String → ReplicaResult Json
  | _, [] => invalidField path "a non-empty path"
  | .object members, [key] => .ok (.object (Members.insert members key member))
  | .object members, segment :: rest => do
      let held := (Members.get? members segment).getD (.object [])
      let changed ← setValueAt path member held rest
      .ok (.object (Members.insert members segment changed))
  | _, _ :: _ => invalidField path "an object path"

/-- The document with the member a dotted path leads to set. -/
def setValueAtPath (root : Json) (path : String) (value : Json) :
    ReplicaResult Json :=
  setValueAt path value root (Text.split '.' path)

/-! ## Identities and containers -/

/-- The identity of each enclosing item, by its variable. -/
abbrev IdentityContext := List (String × String)

/-- `context.insert(name, identity)`. -/
def IdentityContext.insert
    (context : IdentityContext) (name identity : String) :
    IdentityContext :=
  (name, identity) :: context.filter fun entry => entry.1 != name

section Containers

variable (crates : Crates)

/-- A template with each variable's braces replaced by its identity. -/
def substitute (context : IdentityContext) (template : String) : String :=
  (crates.hashOrder context).foldl
    (fun resolved (name, value) =>
      Text.replace resolved (String.ofList ('{' :: name.toList ++ ['}'])) value)
    template

def resolveTemplate
    (path template : String) (context : IdentityContext) :
    ReplicaResult String :=
  let resolved := substitute crates context template
  if resolved.toList.contains '{' then
    invalidField path "resolved container identities"
  else
    .ok resolved

def resolveContainer
    (field : CollaborationFieldSpec) (context : IdentityContext) :
    ReplicaResult String := do
  let template ←
    expectField field.path "a container"
      (field.container.or field.containerTemplate)
  resolveTemplate crates field.path template context

/-- The map and the key a text property's MIME type is kept under. -/
def resolveMetadata
    (field : CollaborationFieldSpec) (context : IdentityContext) :
    ReplicaResult (String × String) := do
  let template ←
    expectField field.path "a MIME metadata container"
      (field.metadataContainer.or field.metadataContainerTemplate)
  let key ← expectField field.path "a MIME metadata key" field.metadataKey
  let resolved ← resolveTemplate crates field.path template context
  .ok (resolved, key)

/-- The list the identities of a sequence's items are kept in, in order. -/
def resolveOrder
    (sequence : CollaborationFieldSpec) (context : IdentityContext) :
    ReplicaResult String := do
  let template ←
    expectField sequence.path "an order container" sequence.orderContainer
  resolveTemplate crates sequence.path template context

end Containers

/-! ## Sequences under sequences -/

/-- A keyed sequence with its item fields and the sequences under its items. -/
inductive SequencePlan where
  | node (sequence : CollaborationFieldSpec)
      (fields : List CollaborationFieldSpec)
      (children : List SequencePlan)

def SequencePlan.sequence : SequencePlan → CollaborationFieldSpec
  | .node sequence _ _ => sequence

/-- The sequences under `parent`, nested no deeper than `depth`. -/
def sequencesUnder (plan : CollaborationEntitySpec) :
    Nat → Option CollaborationFieldSpec → List SequencePlan
  | 0, _ => []
  | depth + 1, parent =>
      (directChildSequences plan parent).map fun sequence =>
        .node sequence (directSequenceItemFields plan sequence)
          (sequencesUnder plan depth (some sequence))

/--
The sequences of a document.  A sequence under another has a longer path, so
they nest no deeper than the plan has fields.
-/
def documentSequences (plan : CollaborationEntitySpec) : List SequencePlan :=
  sequencesUnder plan plan.fields.length none

end Clerkenwell.Doc
