import Clerkenwell.Client.ConflictPolicy
import Clerkenwell.Client.SharedValue
import Clerkenwell.Doc.Addresses

/-!
# Two evaluators of one policy

The server and the client collect the same values under the same keys and
judge them by the same policies.  They part only where they compare: the
server tells `1` from `1.0`, which the client reads as one number, and the
client tells `-0.0` from `0.0`, which the server compares equal.
-/

namespace Clerkenwell.Client

open Clerkenwell.Foundation
open Clerkenwell.Doc (CollaborationEntitySpec CollaborationFieldSpec
  CollaborationConflict ActorKind Json JudgedFor)

/-- A plan as the client holds it: a record of fields by their paths. -/
abbrev PlanRecord :=
  { plan : CollaborationEntitySpec //
    (plan.fields.map CollaborationFieldSpec.path).Nodup }

/-! ## Values under keys -/

namespace SharedValue

/-- The value a list of member names leads to. -/
def valueAlong : SharedValue → List String → Option SharedValue
  | value, [] => some value
  | value, segment :: rest =>
      (value.get? segment).bind fun member => valueAlong member rest

/-- The value a dotted path leads to, empty segments passed over. -/
def valueAtPath (value : SharedValue) (path : String) : Option SharedValue :=
  value.valueAlong
    ((Text.split '.' path).filter fun segment => !segment.isEmpty)

theorem valueAlong_onServer (value : SharedValue) (segments : List String) :
    Doc.valueAt value.onServer segments
      = (value.valueAlong segments).map onServer := by
  induction segments generalizing value with
  | nil => rfl
  | cons segment rest inductionHypothesis =>
      rw [Doc.valueAt, valueAlong, get?_onServer]
      cases value.get? segment with
      | none => rfl
      | some member => exact inductionHypothesis member

theorem valueAtPath_onServer (value : SharedValue) (path : String) :
    Doc.judgedValueAtPath value.onServer path
      = (value.valueAtPath path).map onServer :=
  valueAlong_onServer value _

theorem valueAlong_undefined (segments : List String) :
    Client.valueAlong .undefined segments = .undefined := by
  cases segments <;> rfl

theorem valueAlong_onClient (value : SharedValue) (segments : List String) :
    Client.valueAlong value.onClient segments
      = ((value.valueAlong segments).map onClient).getD .undefined := by
  induction segments generalizing value with
  | nil =>
      cases value <;> rfl
  | cons segment rest inductionHypothesis =>
      cases value with
      | object members =>
          rw [onClient, Client.valueAlong, ownMember, member_onClient,
            valueAlong, get?]
          cases members.lookup segment with
          | none => exact valueAlong_undefined rest
          | some member => exact inductionHypothesis member
      | _ => rfl

theorem valueAtPath_onClient (value : SharedValue) (path : String) :
    Client.valueAtPath value.onClient path
      = ((value.valueAtPath path).map onClient).getD .undefined :=
  valueAlong_onClient value _

/-- What is missing or null is judged as null. -/
theorem orElse_null_onClient (found : Option SharedValue) :
    ((found.map onClient).getD .undefined).orElse .null
      = (found.getD .null).onClient := by
  cases found with
  | none => rfl
  | some value => cases value <;> rfl

end SharedValue

section Keys

variable (plan : CollaborationEntitySpec)

/-- What one item of a sequence adds, when it has an identity. -/
def keyedItem (identityPath : String)
    (values : String → SharedValue → List (String × SharedValue))
    (item : SharedValue) : List (String × SharedValue) :=
  match (item.valueAtPath identityPath).bind SharedValue.asStr with
  | none => []
  | some identity => values identity item

/--
The values `relative` addresses in `scope` under their keys, in the order both
evaluators meet them.
-/
def keyedValues :
    Nat → String → String → SharedValue → String → List (String × SharedValue)
  | 0, _, _, _, _ => []
  | depth + 1, declaredPrefix, relative, scope, keyPrefix =>
      match Text.splitOnce relative ".*." with
      | none =>
          [(keyPrefix ++ relative, (scope.valueAtPath relative).getD .null)]
      | some (sequenceRelative, rest) =>
          let sequencePath := declaredPrefix ++ sequenceRelative
          match Doc.declaredIdentityPath plan sequencePath,
              (scope.valueAtPath sequenceRelative).bind
                SharedValue.asArray with
          | some identityPath, some items =>
              items.flatMap
                (keyedItem identityPath fun identity item =>
                  keyedValues depth (sequencePath ++ ".*.") rest item
                    (keyPrefix ++ sequenceRelative ++ "[" ++ identity
                      ++ "]."))
          | _, _ => []

/-- The values of a field in a document, under their keys. -/
def fieldKeyedValues (field : CollaborationFieldSpec)
    (document : SharedValue) : List (String × SharedValue) :=
  keyedValues plan (field.path.length + 1) "" field.path document ""

/-- The value a field is judged by under a key: the last one met, or null. -/
def judgedValue (field : CollaborationFieldSpec) (document : SharedValue)
    (key : String) : SharedValue :=
  ((fieldKeyedValues plan field document).reverse.lookup key).getD .null

variable {plan}

/-! ### On the server -/

/-- Values inserted under their keys, as the server holds them. -/
def insertKeyed (entries : List (String × SharedValue))
    (values : Doc.FieldValues) : Doc.FieldValues :=
  entries.foldl
    (fun values entry => values.insert entry.1 entry.2.onServer) values

theorem collectFieldValues_onServer (depth : Nat)
    (declaredPrefix relative : String) (scope : SharedValue)
    (keyPrefix : String) (values : Doc.FieldValues) :
    Doc.collectFieldValues plan depth declaredPrefix relative scope.onServer
        keyPrefix values
      = insertKeyed
          (keyedValues plan depth declaredPrefix relative scope keyPrefix)
          values := by
  induction depth generalizing declaredPrefix relative scope keyPrefix values
    with
  | zero => rfl
  | succ depth inductionHypothesis =>
      rw [Doc.collectFieldValues, keyedValues]
      cases Text.splitOnce relative ".*." with
      | none =>
          show values.insert (keyPrefix ++ relative) _
            = values.insert (keyPrefix ++ relative) _
          rw [SharedValue.valueAtPath_onServer]
          cases scope.valueAtPath relative <;> rfl
      | some parts =>
          rcases parts with ⟨sequenceRelative, rest⟩
          dsimp only
          cases Doc.declaredIdentityPath plan
              (declaredPrefix ++ sequenceRelative) with
          | none => rfl
          | some identityPath =>
              rw [SharedValue.valueAtPath_onServer]
              cases scope.valueAtPath sequenceRelative with
              | none => rfl
              | some sequence =>
                  rw [Option.map_some, Option.bind_some, Option.bind_some,
                    SharedValue.asArray_onServer]
                  cases sequence.asArray with
                  | none => rfl
                  | some items =>
                      dsimp only [Option.map_some]
                      rw [insertKeyed, List.foldl_flatMap, List.foldl_map]
                      congr 1
                      funext values item
                      rw [SharedValue.valueAtPath_onServer, keyedItem]
                      cases item.valueAtPath identityPath with
                      | none => rfl
                      | some identity =>
                          rw [Option.map_some, Option.bind_some,
                            Option.bind_some, SharedValue.asStr_onServer]
                          cases identity.asStr with
                          | none => rfl
                          | some identity => exact inductionHypothesis ..

theorem getElem?_insertKeyed (entries : List (String × SharedValue))
    (values : Doc.FieldValues) (key : String) :
    (insertKeyed entries values)[key]?
      = ((entries.reverse.lookup key).map SharedValue.onServer).or
          values[key]? := by
  induction entries generalizing values with
  | nil => rfl
  | cons entry rest inductionHypothesis =>
      have later := inductionHypothesis (values.insert entry.1 entry.2.onServer)
      rw [insertKeyed, List.foldl_cons]
      refine later.trans ?_
      rw [Std.ExtTreeMap.getElem?_insert, List.reverse_cons,
        List.lookup_append]
      cases rest.reverse.lookup key with
      | some value => rfl
      | none =>
          obtain ⟨name, value⟩ := entry
          rw [JsMap.lookup_cons_ite]
          by_cases same : name = key
          · simp [same]
          · simp [same, Ne.symm same]

theorem judged_onServer (field : CollaborationFieldSpec)
    (document : SharedValue) (key : String) :
    ((Doc.fieldValues plan field document.onServer)[key]?).getD .null
      = (judgedValue plan field document key).onServer := by
  rw [Doc.fieldValues, collectFieldValues_onServer, getElem?_insertKeyed,
    judgedValue, fieldKeyedValues]
  cases List.lookup key _ with
  | none => simp [SharedValue.onServer]
  | some value => rfl

/-! ### On the client -/

/-- Values set under their keys, as the client holds them. -/
def setKeyed (entries : List (String × SharedValue)) (values : JsMap JsValue) :
    JsMap JsValue :=
  entries.foldl
    (fun values entry => values.set entry.1 entry.2.onClient) values

/-- A path names one field of the record, so a sequence is found by its path. -/
theorem identityPath_planField
    (unique : (plan.fields.map CollaborationFieldSpec.path).Nodup)
    (path : String) :
    ((planField plan path).filter fun sequence =>
        sequence.storageKind == .keyedSequence).bind
          CollaborationFieldSpec.identityPath
      = Doc.declaredIdentityPath plan path := by
  rw [planField, Doc.declaredIdentityPath]
  congr 1
  generalize plan.fields = fields at unique
  induction fields with
  | nil => rfl
  | cons field rest inductionHypothesis =>
      rw [List.map_cons, List.nodup_cons] at unique
      rw [List.find?_cons, List.find?_cons]
      cases named : field.path == path with
      | false => exact inductionHypothesis unique.2
      | true =>
          cases sequence : field.storageKind == .keyedSequence with
          | true => simp [sequence]
          | false =>
              have absent : rest.find? (fun candidate =>
                  candidate.path == path
                    && candidate.storageKind == .keyedSequence) = none := by
                rw [List.find?_eq_none]
                intro other held both
                rw [Bool.and_eq_true, beq_iff_eq] at both
                apply unique.1
                rw [beq_iff_eq.mp named, ← both.1]
                exact List.mem_map_of_mem held
              simpa [absent] using sequence

theorem collectFieldValues_onClient
    (unique : (plan.fields.map CollaborationFieldSpec.path).Nodup)
    (depth : Nat) (declaredPrefix relative : String) (scope : SharedValue)
    (keyPrefix : String) (values : JsMap JsValue) :
    collectFieldValues plan depth declaredPrefix relative scope.onClient
        keyPrefix values
      = setKeyed
          (keyedValues plan depth declaredPrefix relative scope keyPrefix)
          values := by
  induction depth generalizing declaredPrefix relative scope keyPrefix values
    with
  | zero => rfl
  | succ depth inductionHypothesis =>
      rw [collectFieldValues, keyedValues]
      cases Text.splitOnce relative ".*." with
      | none =>
          show values.set (keyPrefix ++ relative) _
            = values.set (keyPrefix ++ relative) _
          rw [SharedValue.valueAtPath_onClient,
            SharedValue.orElse_null_onClient]
      | some parts =>
          rcases parts with ⟨sequenceRelative, rest⟩
          dsimp only
          rw [identityPath_planField unique]
          cases Doc.declaredIdentityPath plan
              (declaredPrefix ++ sequenceRelative) with
          | none => rfl
          | some identityPath =>
              rw [SharedValue.valueAtPath_onClient]
              cases scope.valueAtPath sequenceRelative with
              | none => rfl
              | some sequence =>
                  cases sequence with
                  | array items =>
                      dsimp only [Option.map_some, Option.getD_some,
                        Option.bind_some, SharedValue.asArray,
                        SharedValue.onClient]
                      rw [SharedValue.itemsOnClient_eq, setKeyed,
                        List.foldl_flatMap, List.foldl_map]
                      congr 1
                      funext values item
                      rw [SharedValue.valueAtPath_onClient, keyedItem]
                      cases item.valueAtPath identityPath with
                      | none => rfl
                      | some identity =>
                          cases identity with
                          | string identity => exact inductionHypothesis ..
                          | _ => rfl
                  | _ => rfl

theorem get?_setKeyed (entries : List (String × SharedValue))
    (values : JsMap JsValue) (key : String) :
    (setKeyed entries values).get? key
      = ((entries.reverse.lookup key).map SharedValue.onClient).or
          (values.get? key) := by
  induction entries generalizing values with
  | nil => rfl
  | cons entry rest inductionHypothesis =>
      have later := inductionHypothesis (values.set entry.1 entry.2.onClient)
      rw [setKeyed, List.foldl_cons]
      refine later.trans ?_
      rw [JsMap.get?_set, List.reverse_cons, List.lookup_append]
      cases rest.reverse.lookup key with
      | some value => rfl
      | none =>
          obtain ⟨name, value⟩ := entry
          rw [JsMap.lookup_cons_ite]
          by_cases same : key = name
          · simp [same]
          · simp [same]

theorem judged_onClient
    (unique : (plan.fields.map CollaborationFieldSpec.path).Nodup)
    (field : CollaborationFieldSpec) (document : SharedValue)
    (key : String) :
    valueOf (fieldValues plan field document.onClient) key
      = (judgedValue plan field document key).onClient := by
  rw [valueOf, fieldValues, collectFieldValues_onClient unique,
    get?_setKeyed, judgedValue, fieldKeyedValues,
    ← SharedValue.orElse_null_onClient]
  cases List.lookup key _ <;> rfl

end Keys

/-! ## Refusals -/

section Refusals

/-- The server tells two values apart. -/
def ApartOnServer (left right : SharedValue) : Prop :=
  left.onServer ≠ right.onServer

/-- The client tells two values apart. -/
def ApartOnClient (left right : SharedValue) : Prop :=
  areJsonValuesEqual left.onClient right.onClient = false

/-- A change is refused under a policy by one side's reading of its values. -/
def Refuses (apart : SharedValue → SharedValue → Prop)
    (conflict : CollaborationConflict) (base client current : SharedValue) :
    Prop :=
  match conflict with
  | .immutable => apart client base
  | .explicit =>
      apart client base ∧ apart current base ∧ apart client current
  | .merge | .lastWriterWins => False

/-- What one field holds under a key is changed against its policy. -/
def RefusedAt (plan : CollaborationEntitySpec)
    (apart : SharedValue → SharedValue → Prop)
    (base client current : SharedValue) (kind : ActorKind) (key : String)
    (field : CollaborationFieldSpec) : Prop :=
  Refuses apart (field.conflictFor kind) (judgedValue plan field base key)
    (judgedValue plan field client key) (judgedValue plan field current key)

variable {plan : CollaborationEntitySpec}
  {base client current : SharedValue} {kind : ActorKind}

theorem mem_refusedAddresses_onServer {field : CollaborationFieldSpec}
    {key : String} :
    key ∈ Doc.refusedAddresses plan field (field.conflictFor kind)
        base.onServer client.onServer current.onServer
      ↔ RefusedAt plan ApartOnServer base client current kind key field := by
  have judged : Doc.refusesChange (field.conflictFor kind)
      (judgedValue plan field base key).onServer
      (judgedValue plan field client key).onServer
      (judgedValue plan field current key).onServer = true
        ↔ RefusedAt plan ApartOnServer base client current kind key field := by
    rw [Doc.refusesChange_iff, RefusedAt]
    cases field.conflictFor kind <;> rfl
  rw [Doc.refusedAddresses, List.mem_filter, judged_onServer,
    judged_onServer, judged_onServer, judged]
  apply and_iff_right_of_imp
  intro refused
  -- a key no document holds is judged by three nulls
  by_contra absent
  rw [List.mem_append, List.mem_append, not_or, not_or] at absent
  have null : ∀ document : SharedValue,
      key ∉ (Doc.fieldValues plan field document.onServer).keys →
        (judgedValue plan field document key).onServer = .null := by
    intro document missing
    rw [← judged_onServer, Std.ExtTreeMap.getElem?_eq_none
      (by rwa [Std.ExtTreeMap.mem_keys] at missing), Option.getD_none]
  rw [← judged, null base absent.1.1, null client absent.1.2,
    null current absent.2] at refused
  revert refused
  cases field.conflictFor kind <;> decide

theorem mem_refusedKeys_onClient
    (unique : (plan.fields.map CollaborationFieldSpec.path).Nodup)
    {field : CollaborationFieldSpec} {key : String}
    (judgedBy : field.conflictFor kind = .explicit
      ∨ field.conflictFor kind = .immutable) :
    key ∈ refusedKeys plan field (field.conflictFor kind)
        base.onClient client.onClient current.onClient
      ↔ RefusedAt plan ApartOnClient base client current kind key field := by
  have judged : refusesChange (field.conflictFor kind)
      (judgedValue plan field base key).onClient
      (judgedValue plan field client key).onClient
      (judgedValue plan field current key).onClient = true
        ↔ RefusedAt plan ApartOnClient base client current kind key field := by
    rcases judgedBy with explicit | immutable
    · simp [refusesChange, RefusedAt, Refuses, ApartOnClient, explicit,
        and_assoc]
    · simp [refusesChange, RefusedAt, Refuses, ApartOnClient, immutable]
  rw [refusedKeys, List.mem_filter, judged_onClient unique,
    judged_onClient unique, judged_onClient unique, judged, mem_setOf]
  apply and_iff_right_of_imp
  intro refused
  by_contra absent
  rw [List.mem_append, List.mem_append, not_or, not_or] at absent
  have null : ∀ document : SharedValue,
      key ∉ (fieldValues plan field document.onClient).keys →
        (judgedValue plan field document key).onClient = .null := by
    intro document missing
    rw [JsMap.mem_keys_iff, Bool.not_eq_true, Option.isSome_eq_false_iff,
      Option.isNone_iff_eq_none] at missing
    rw [← judged_onClient unique, valueOf, missing]
    rfl
  rw [← judged, null base absent.1.1, null client absent.1.2,
    null current absent.2] at refused
  revert refused
  cases field.conflictFor kind <;> decide

theorem mem_conflictingFieldPaths_onServer {key : String} :
    key ∈ Doc.conflictingFieldPaths plan base.onServer client.onServer
        current.onServer kind
      ↔ ∃ field ∈ plan.fields, JudgedFor field kind
          ∧ RefusedAt plan ApartOnServer base client current kind key
              field := by
  rw [Doc.conflictingFieldPaths, Doc.judgedFieldPaths,
    Std.ExtTreeSet.mem_toList, Std.ExtTreeSet.mem_ofList,
    List.contains_iff_mem, List.mem_flatMap]
  apply exists_congr
  intro field
  apply and_congr_right
  intro declared
  have condition : ((field.conflictFor kind == .explicit
      || field.conflictFor kind == .immutable) && !field.isDerived) = true
        ↔ JudgedFor field kind := by
    simp [JudgedFor, and_comm]
  dsimp only
  split
  · rename_i judged
    rw [mem_refusedAddresses_onServer, and_iff_right (condition.mp judged)]
  · rename_i passed
    have unjudged : ¬ JudgedFor field kind := fun judged =>
      passed (condition.mpr judged)
    simp [unjudged]

theorem mem_conflictingFieldPaths_onClient
    (unique : (plan.fields.map CollaborationFieldSpec.path).Nodup)
    {key : String} :
    key ∈ conflictingFieldPaths plan base.onClient client.onClient
        current.onClient kind
      ↔ ∃ field ∈ plan.fields, JudgedFor field kind
          ∧ RefusedAt plan ApartOnClient base client current kind key
              field := by
  rw [conflictingFieldPaths, judgedFieldPaths, mem_sortStrings, mem_setOf,
    List.mem_flatMap]
  apply exists_congr
  intro field
  apply and_congr_right
  intro declared
  have same : collaborationConflictFor field kind = field.conflictFor kind :=
    rfl
  rw [same]
  have condition : ¬ ((field.conflictFor kind ≠ .explicit
        ∧ field.conflictFor kind ≠ .immutable)
      ∨ field.storageKind = .derivedIdentity
      ∨ field.storageKind = .derivedRevision) ↔ JudgedFor field kind := by
    simp only [JudgedFor, CollaborationFieldSpec.isDerived, not_or,
      Bool.or_eq_false_iff, beq_eq_false_iff_ne]
    tauto
  dsimp only
  split
  · rename_i passed
    have unjudged : ¬ JudgedFor field kind := fun judged =>
      condition.mpr judged passed
    simp [unjudged]
  · rename_i judged
    have judgedFor := condition.mp judged
    rw [mem_refusedKeys_onClient unique judgedFor.2,
      and_iff_right judgedFor]

end Refusals

/-! ## Agreement -/

/--
Under every key, what the policy refuses of a field by the server's reading of
its values it refuses by the client's, unless other fields make up for it.
-/
def ReadAlike (plan : CollaborationEntitySpec)
    (base client current : SharedValue) (kind : ActorKind) : Prop :=
  ∀ key, ∀ field ∈ plan.fields, JudgedFor field kind →
    (RefusedAt plan ApartOnServer base client current kind key field
        ↔ RefusedAt plan ApartOnClient base client current kind key field)
      ∨ (∃ other ∈ plan.fields, JudgedFor other kind
          ∧ RefusedAt plan ApartOnServer base client current kind key other)
        ∧ ∃ other ∈ plan.fields, JudgedFor other kind
          ∧ RefusedAt plan ApartOnClient base client current kind key other

section Respelling

/-- A plan whose one field, a number, may not change. -/
def fixedCount : PlanRecord :=
  ⟨{ name := "counters"
     idField := "id"
     schemaVersion := 1
     fields :=
      [{ path := "count"
         storageKind := .scalar
         container := some "counters"
         containerTemplate := none
         key := some "count"
         identityPath := none
         identityVariable := none
         orderContainer := none
         metadataContainer := none
         metadataContainerTemplate := none
         metadataKey := none
         codec := .number
         required := true
         requiredInParent := true
         conflict := .immutable
         writers := [] }]
     schemaVersion_pos := Nat.one_pos },
    by decide⟩

/-- A document that counts. -/
def counting (count : SharedNumber) : SharedValue :=
  .object [("count", .number count)]

end Respelling

/-! ### Documents spelt the one way -/

section Plainly

/-- A property of a value that its members and items have with it. -/
structure Inherited (holds : SharedValue → Prop) : Prop where
  null : holds .null
  member : ∀ {members}, holds (.object members) →
    ∀ entry ∈ members, holds entry.2
  item : ∀ {items}, holds (.array items) → ∀ value ∈ items, holds value

namespace Inherited

variable {holds : SharedValue → Prop} (inherited : Inherited holds)

include inherited

theorem valueAlong {value found : SharedValue} {segments : List String}
    (whole : holds value) (leads : value.valueAlong segments = some found) :
    holds found := by
  induction segments generalizing value with
  | nil => exact Option.some.inj leads ▸ whole
  | cons segment rest inductionHypothesis =>
      rw [SharedValue.valueAlong] at leads
      cases value with
      | object members =>
          obtain ⟨member, named, later⟩ := Option.bind_eq_some_iff.mp leads
          have listed : (segment, member) ∈ members :=
            SharedValue.mem_of_lookup named
          exact inductionHypothesis (inherited.member whole _ listed) later
      | _ => cases leads

theorem keyedValues {plan : CollaborationEntitySpec} {depth : Nat}
    {declaredPrefix relative keyPrefix : String} {scope : SharedValue}
    (whole : holds scope) {entry : String × SharedValue}
    (collected : entry ∈ Client.keyedValues plan depth declaredPrefix relative
      scope keyPrefix) :
    holds entry.2 := by
  induction depth generalizing declaredPrefix relative scope keyPrefix with
  | zero => cases collected
  | succ depth inductionHypothesis =>
      rw [Client.keyedValues] at collected
      split at collected
      · rcases List.mem_singleton.mp collected with rfl
        cases found : scope.valueAtPath relative with
        | none => exact inherited.null
        | some value => exact inherited.valueAlong whole found
      · dsimp only at collected
        split at collected
        · rename_i items declared listed
          obtain ⟨item, held, within⟩ := List.mem_flatMap.mp collected
          obtain ⟨sequence, found, isArray⟩ :=
            Option.bind_eq_some_iff.mp listed
          cases sequence with
          | array members =>
              cases isArray
              have itself : holds item :=
                inherited.item (inherited.valueAlong whole found) item held
              unfold keyedItem at within
              split at within
              · cases within
              · exact inductionHypothesis itself within
          | _ => cases isArray
        · cases collected

theorem judgedValue {plan : CollaborationEntitySpec}
    {field : CollaborationFieldSpec} {document : SharedValue}
    (whole : holds document) (key : String) :
    holds (Client.judgedValue plan field document key) := by
  rw [Client.judgedValue]
  cases found : List.lookup key _ with
  | none => exact inherited.null
  | some value =>
      have listed := List.mem_reverse.mp (SharedValue.mem_of_lookup found)
      exact inherited.keyedValues whole listed

end Inherited

/-- Numbers are spelt the one way and members listed in order. -/
def WellSpelt (value : SharedValue) : Prop :=
  value.Plain ∧ value.Ordered

theorem wellSpelt_inherited : Inherited WellSpelt where
  null := ⟨trivial, trivial⟩
  member spelt entry held :=
    ⟨(SharedValue.plainMembers_iff _).mp spelt.1 entry held,
      (SharedValue.orderedMembers_iff _).mp spelt.2.2 entry held⟩
  item spelt value held :=
    ⟨(SharedValue.plainItems_iff _).mp spelt.1 value held,
      (SharedValue.orderedItems_iff _).mp spelt.2 value held⟩

theorem apart_iff {left right : SharedValue} (leftSpelt : WellSpelt left)
    (rightSpelt : WellSpelt right) :
    ApartOnServer left right ↔ ApartOnClient left right := by
  rw [ApartOnServer, ApartOnClient, ne_eq, ← Bool.not_eq_true]
  exact not_congr (SharedValue.same_iff left right leftSpelt.1 rightSpelt.1
    leftSpelt.2 rightSpelt.2)

/-- A field of documents spelt the one way is refused by both or by neither. -/
theorem refusedAt_iff_of_wellSpelt (plan : CollaborationEntitySpec)
    {base client current : SharedValue} (baseSpelt : WellSpelt base)
    (clientSpelt : WellSpelt client) (currentSpelt : WellSpelt current)
    (kind : ActorKind) (key : String) (field : CollaborationFieldSpec) :
    RefusedAt plan ApartOnServer base client current kind key field
      ↔ RefusedAt plan ApartOnClient base client current kind key field := by
  have spelt : ∀ {document}, WellSpelt document →
      WellSpelt (judgedValue plan field document key) :=
    fun whole => wellSpelt_inherited.judgedValue whole key
  unfold RefusedAt
  cases field.conflictFor kind with
  | immutable => exact apart_iff (spelt clientSpelt) (spelt baseSpelt)
  | explicit =>
      exact and_congr (apart_iff (spelt clientSpelt) (spelt baseSpelt))
        (and_congr (apart_iff (spelt currentSpelt) (spelt baseSpelt))
          (apart_iff (spelt clientSpelt) (spelt currentSpelt)))
  | merge => exact Iff.rfl
  | lastWriterWins => exact Iff.rfl

/-- Documents spelt the one way are read alike under every plan. -/
theorem readAlike_of_wellSpelt (plan : CollaborationEntitySpec)
    {base client current : SharedValue} (baseSpelt : WellSpelt base)
    (clientSpelt : WellSpelt client) (currentSpelt : WellSpelt current)
    (kind : ActorKind) : ReadAlike plan base client current kind := by
  intro key field declared judged
  apply Or.inl
  exact refusedAt_iff_of_wellSpelt plan baseSpelt clientSpelt currentSpelt kind
    key field

/--
The client reports the field paths the server does, in every plan and for
every writer, of documents spelt the one way.
-/
theorem evaluators_agree_of_wellSpelt (plan : PlanRecord)
    {base client current : SharedValue} (baseSpelt : WellSpelt base)
    (clientSpelt : WellSpelt client) (currentSpelt : WellSpelt current)
    (kind : ActorKind) (path : String) :
    path ∈ conflictingFieldPaths plan.1 base.onClient client.onClient
          current.onClient kind
      ↔ path ∈ Doc.conflictingFieldPaths plan.1 base.onServer client.onServer
          current.onServer kind := by
  rw [mem_conflictingFieldPaths_onClient plan.2,
    mem_conflictingFieldPaths_onServer]
  apply exists_congr
  intro field
  apply and_congr_right'
  apply and_congr_right'
  exact (refusedAt_iff_of_wellSpelt plan.1 baseSpelt clientSpelt currentSpelt
    kind path field).symm

theorem wellSpelt_counting (count : Nat) (counted : count < 2 ^ 53) :
    WellSpelt (counting (.integer count)) := by
  constructor
  · exact ⟨counted, trivial⟩
  · exact ⟨List.pairwise_singleton _ _, trivial, trivial⟩

/-- Both refuse to change a count that may not change. -/
theorem evaluators_agree_of_wellSpelt_counting :
    "count" ∈ conflictingFieldPaths fixedCount.1
        (counting (.integer 1)).onClient (counting (.integer 2)).onClient
        (counting (.integer 1)).onClient .human
      ↔ "count" ∈ Doc.conflictingFieldPaths fixedCount.1
        (counting (.integer 1)).onServer (counting (.integer 2)).onServer
        (counting (.integer 1)).onServer .human :=
  evaluators_agree_of_wellSpelt fixedCount
    (wellSpelt_counting 1 (by decide)) (wellSpelt_counting 2 (by decide))
    (wellSpelt_counting 1 (by decide)) .human "count"

end Plainly

end Clerkenwell.Client
