import Clerkenwell.Doc.Substrate

/-!
# Field conflict policies

A concurrent edit is judged field by field: `immutable` fields may not change
at all, `explicit` fields refuse two different changes to one value, and
`merge` and `lastWriterWins` fields always accept.  Fields inside a keyed
sequence are judged per item, addressed by the item's identity.
-/

namespace Clerkenwell.Doc

open Clerkenwell.Foundation

/-- Values by their address, in the order of the addresses. -/
abbrev FieldValues := Std.ExtTreeMap String Json

/-- The value a dotted path leads to, empty segments passed over. -/
def judgedValueAtPath (value : Json) (path : String) : Option Json :=
  valueAt value ((Text.split '.' path).filter fun segment => !segment.isEmpty)

/-- The identity path of the keyed sequence declared at a path. -/
def declaredIdentityPath (plan : CollaborationEntitySpec)
    (sequencePath : String) : Option String :=
  (plan.fields.find? fun candidate =>
      candidate.path == sequencePath
        && candidate.storageKind == .keyedSequence).bind
    CollaborationFieldSpec.identityPath

/--
Collects the values a path addresses in `scope`, descending through every
keyed sequence on the way.  `depth` bounds the sequences the path names.
-/
def collectFieldValues (plan : CollaborationEntitySpec) :
    Nat → String → String → Json → String → FieldValues → FieldValues
  | 0, _, _, _, _, values => values
  | depth + 1, declaredPrefix, relative, scope, keyPrefix, values =>
      match Text.splitOnce relative ".*." with
      | none =>
          values.insert (keyPrefix ++ relative)
            ((judgedValueAtPath scope relative).getD .null)
      | some (sequenceRelative, rest) =>
          let sequencePath := declaredPrefix ++ sequenceRelative
          match declaredIdentityPath plan sequencePath,
              (judgedValueAtPath scope sequenceRelative).bind
                Json.asArray with
          | some identityPath, some items =>
              items.foldl
                (fun values item =>
                  match (judgedValueAtPath item identityPath).bind
                      Json.asStr with
                  | none => values
                  | some identity =>
                      collectFieldValues plan depth (sequencePath ++ ".*.")
                        rest item
                        (keyPrefix ++ sequenceRelative ++ "[" ++ identity
                          ++ "].")
                        values)
                values
          | _, _ => values

/-- Every value a field addresses in a document, by its address. -/
def fieldValues (plan : CollaborationEntitySpec)
    (field : CollaborationFieldSpec) (document : Json) : FieldValues :=
  collectFieldValues plan (field.path.length + 1) "" field.path document "" ∅

/-- Whether a policy refuses a change of one value. -/
def refusesChange (conflict : CollaborationConflict)
    (base client current : Json) : Bool :=
  match conflict with
  | .immutable => client ≠ base
  | .explicit => client ≠ base && current ≠ base && client ≠ current
  | .merge | .lastWriterWins => false

/-- The addresses of a field at which an edit is refused. -/
def refusedAddresses (plan : CollaborationEntitySpec)
    (field : CollaborationFieldSpec) (conflict : CollaborationConflict)
    (base client current : Json) : List String :=
  let baseValues := fieldValues plan field base
  let clientValues := fieldValues plan field client
  let currentValues := fieldValues plan field current
  let keys := baseValues.keys ++ clientValues.keys ++ currentValues.keys
  keys.filter fun key =>
    refusesChange conflict (baseValues[key]?.getD .null)
      (clientValues[key]?.getD .null) (currentValues[key]?.getD .null)

/--
The declared field paths an edit from `base` to `client` changes against the
policy `policy` names for each field, in order.
-/
def judgedFieldPaths (plan : CollaborationEntitySpec)
    (base client current : Json)
    (policy : CollaborationFieldSpec → Option CollaborationConflict) :
    List String :=
  let refused := plan.fields.flatMap fun field =>
    match policy field with
    | none => []
    | some conflict =>
        if (conflict == .explicit || conflict == .immutable)
            && !field.isDerived then
          refusedAddresses plan field conflict base client current
        else []
  (Std.ExtTreeSet.ofList refused).toList

def conflictingFieldPaths (plan : CollaborationEntitySpec)
    (base client current : Json) (kind : ActorKind) : List String :=
  judgedFieldPaths plan base client current fun field =>
    some (field.conflictFor kind)

def creationConflictingFieldPaths (plan : CollaborationEntitySpec)
    (created : Json) (kind : ActorKind) : List String :=
  judgedFieldPaths plan .null created .null fun field =>
    field.writerConflict kind

end Clerkenwell.Doc
