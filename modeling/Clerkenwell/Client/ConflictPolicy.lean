import Clerkenwell.Client.Collections
import Clerkenwell.Doc.Plan

/-!
# Conflict policies on the client

`conflict-policy.ts` judges an edit as the server's evaluator does, over the
same generated plan, which it holds as a record of fields by their paths.
-/

namespace Clerkenwell.Client

open Clerkenwell.Foundation
open Clerkenwell.Doc (CollaborationEntitySpec CollaborationFieldSpec
  CollaborationConflict ActorKind)

/-- `record`'s own member `name`, or `undefined` when it has none. -/
def ownMember (members : List (String × JsValue)) (name : String) : JsValue :=
  JsValue.member members name

/-- The value a list of member names leads to. -/
def valueAlong : JsValue → List String → JsValue
  | value, [] => value
  | .object members, segment :: rest =>
      valueAlong (ownMember members segment) rest
  | _, _ :: _ => .undefined

/-- The value at a dotted path in a document. -/
def valueAtPath (value : JsValue) (path : String) : JsValue :=
  valueAlong value
    ((Text.split '.' path).filter fun segment => !segment.isEmpty)

/-- `plan.fields[path]`, one of the record's own members. -/
def planField (plan : CollaborationEntitySpec) (path : String) :
    Option CollaborationFieldSpec :=
  plan.fields.find? fun field => field.path == path

/--
Collects the values `relative` addresses in `scope`, whose declared path
prefix is `declaredPrefix`, descending through every keyed sequence on the
way.  `depth` bounds the sequences the path names.
-/
def collectFieldValues (plan : CollaborationEntitySpec) :
    Nat → String → String → JsValue → String → JsMap JsValue → JsMap JsValue
  | 0, _, _, _, _, values => values
  | depth + 1, declaredPrefix, relative, scope, keyPrefix, values =>
      match Text.splitOnce relative ".*." with
      | none =>
          values.set (keyPrefix ++ relative)
            ((valueAtPath scope relative).orElse .null)
      | some (sequenceRelative, rest) =>
          let sequencePath := declaredPrefix ++ sequenceRelative
          let identityPath :=
            ((planField plan sequencePath).filter fun sequence =>
              sequence.storageKind == .keyedSequence).bind
                CollaborationFieldSpec.identityPath
          match identityPath, valueAtPath scope sequenceRelative with
          | some identityPath, .array items =>
              items.foldl
                (fun values item =>
                  match valueAtPath item identityPath with
                  | .string identity =>
                      collectFieldValues plan depth (sequencePath ++ ".*.")
                        rest item
                        (keyPrefix ++ sequenceRelative ++ "[" ++ identity
                          ++ "].")
                        values
                  | _ => values)
                values
          | _, _ => values

def fieldValues (plan : CollaborationEntitySpec)
    (field : CollaborationFieldSpec) (document : JsValue) : JsMap JsValue :=
  collectFieldValues plan (field.path.length + 1) "" field.path document "" []

/-- `values.get(key) ?? null`. -/
def valueOf (values : JsMap JsValue) (key : String) : JsValue :=
  ((values.get? key).getD .undefined).orElse .null

/-- Whether a policy refuses a change of one value. -/
def refusesChange (conflict : CollaborationConflict)
    (base client current : JsValue) : Bool :=
  let changed := !areJsonValuesEqual client base
  if conflict = .immutable then
    changed
  else
    changed && !areJsonValuesEqual current base
      && !areJsonValuesEqual client current

/-- The keys of a field at which an edit is refused. -/
def refusedKeys (plan : CollaborationEntitySpec)
    (field : CollaborationFieldSpec) (conflict : CollaborationConflict)
    (base client current : JsValue) : List String :=
  let baseValues := fieldValues plan field base
  let clientValues := fieldValues plan field client
  let currentValues := fieldValues plan field current
  let keys :=
    setOf (baseValues.keys ++ clientValues.keys ++ currentValues.keys)
  keys.filter fun key =>
    refusesChange conflict (valueOf baseValues key) (valueOf clientValues key)
      (valueOf currentValues key)

def judgedFieldPaths (plan : CollaborationEntitySpec)
    (base client current : JsValue)
    (policy : CollaborationFieldSpec → Option CollaborationConflict) :
    List String :=
  let conflicts := plan.fields.flatMap fun field =>
    match policy field with
    | none => []
    | some conflict =>
        if (conflict ≠ .explicit ∧ conflict ≠ .immutable)
            ∨ field.storageKind = .derivedIdentity
            ∨ field.storageKind = .derivedRevision then
          []
        else
          refusedKeys plan field conflict base client current
  sortStrings (setOf conflicts)

/-- The policy a change `kind` makes to a field is judged by. -/
def collaborationConflictFor (field : CollaborationFieldSpec)
    (kind : ActorKind) : CollaborationConflict :=
  (field.writerConflict kind).getD field.conflict

/--
The declared field paths an edit `kind` made from `base` to `client` changes
against their conflict policy for `kind`, given that the accepted document has
meanwhile become `current`.
-/
def conflictingFieldPaths (plan : CollaborationEntitySpec)
    (base client current : JsValue) (kind : ActorKind) : List String :=
  judgedFieldPaths plan base client current fun field =>
    some (collaborationConflictFor field kind)

def creationConflictingFieldPaths (plan : CollaborationEntitySpec)
    (created : JsValue) (kind : ActorKind) : List String :=
  judgedFieldPaths plan .null created .null fun field =>
    field.writerConflict kind

end Clerkenwell.Client
