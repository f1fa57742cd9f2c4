import Clerkenwell.Client.TextStreams
import Clerkenwell.Foundation.Machine

/-!
# What a materialiser's subscriptions hold

A materialiser keeps the snapshot of every subscription it is sent updates of.
A snapshot replaces what a subscription held, a patch is folded into it as its
projection's plan says, and an update that is refused changes nothing.
-/

namespace Clerkenwell.Client

open Clerkenwell.Codegen
open Clerkenwell.Foundation
open Clerkenwell.Session (Projected MaterializedProjection ClientEvent)

/-! ## The materialiser -/

structure ProjectionMaterializerState where
  plans : String → Option MaterializationPlan
  subscriptions : Std.ExtTreeMap Nat (MaterializedProjection Json)

def createProjectionMaterializerState
    (plans : String → Option MaterializationPlan) :
    ProjectionMaterializerState where
  plans := plans
  subscriptions := ∅

/-- A step that writes the state, and keeps what it wrote when it throws. -/
abbrev Materializing (α : Type) :=
  ExceptT String (StateM ProjectionMaterializerState) α

namespace ProjectionMaterializerState

/-- `state.subscriptions.set`. -/
def setSubscription (state : ProjectionMaterializerState)
    (subscriptionId : Nat) (materialized : MaterializedProjection Json) :
    ProjectionMaterializerState :=
  { state with
    subscriptions := state.subscriptions.insert subscriptionId materialized }

@[simp]
theorem setSubscription_plans (state : ProjectionMaterializerState)
    (subscriptionId : Nat) (materialized : MaterializedProjection Json) :
    (state.setSubscription subscriptionId materialized).plans = state.plans :=
  rfl

theorem getElem?_setSubscription (state : ProjectionMaterializerState)
    (subscriptionId : Nat) (materialized : MaterializedProjection Json)
    (other : Nat) :
    (state.setSubscription subscriptionId materialized).subscriptions[other]?
      = if other = subscriptionId then some materialized
        else state.subscriptions[other]? := by
  rw [setSubscription, Std.ExtTreeMap.getElem?_insert]
  by_cases same : subscriptionId = other
  · simp [same]
  · simp [same, Ne.symm same]

/-- A subscription set twice holds what it was set to last. -/
@[simp]
theorem setSubscription_setSubscription (state : ProjectionMaterializerState)
    (subscriptionId : Nat) (first second : MaterializedProjection Json) :
    (state.setSubscription subscriptionId first).setSubscription subscriptionId
        second
      = state.setSubscription subscriptionId second := by
  have same : ((state.subscriptions.insert subscriptionId first).insert
      subscriptionId second)
        = state.subscriptions.insert subscriptionId second := by
    apply Std.ExtTreeMap.ext_getElem?
    intro other
    simp only [Std.ExtTreeMap.getElem?_insert]
    split <;> rfl
  simp only [setSubscription, same]

end ProjectionMaterializerState

section Materialiser

variable (spell : Property → String)

def applyProjectionSnapshot (subscriptionId revision : Nat)
    (snapshot : Projected Json) :
    Materializing (MaterializedProjection Json) := do
  let materialized : MaterializedProjection Json :=
    { projection := snapshot.projection
      subscriptionId := subscriptionId
      revision := revision
      snapshot := snapshot.value }
  modify fun state => state.setSubscription subscriptionId materialized
  return materialized

/-- What a patch makes of what its subscription holds. -/
def patchSubscription (plans : String → Option MaterializationPlan)
    (subscriptionId fromRevision toRevision : Nat) (patch : Projected Json) :
    Option (MaterializedProjection Json) →
      Materializing (MaterializedProjection Json)
  | none => throw s!"Received patch for unknown subscription {subscriptionId}."
  | some materialized =>
      if materialized.projection ≠ patch.projection then
        throw
          (s!"Received {patch.projection} patch for {materialized.projection} "
            ++ s!"subscription {subscriptionId}.")
      else if materialized.revision ≠ fromRevision then
        throw (s!"Received patch from revision {fromRevision} for "
          ++ s!"subscription {subscriptionId} at revision "
          ++ s!"{materialized.revision}.")
      else if toRevision ≤ fromRevision then
        throw (s!"Received non-advancing patch revision {fromRevision} -> "
          ++ s!"{toRevision} for subscription {subscriptionId}.")
      else
        match plans patch.projection with
        | none =>
            throw ("No composition plan exists for projection "
              ++ s!"{patch.projection}.")
        | some plan => do
            let snapshot ← ExceptT.mk
              (pure (materializePatch spell materialized.snapshot patch plan))
            let materialized := { materialized with snapshot := snapshot }
            modify fun state =>
              state.setSubscription subscriptionId materialized
            let materialized := { materialized with revision := toRevision }
            modify fun state =>
              state.setSubscription subscriptionId materialized
            return materialized

def applyProjectionPatch (subscriptionId fromRevision toRevision : Nat)
    (patch : Projected Json) :
    Materializing (MaterializedProjection Json) := do
  let state ← get
  patchSubscription spell state.plans subscriptionId fromRevision toRevision
    patch state.subscriptions[subscriptionId]?

def ProjectionMaterializer.applyProjectionEvent :
    ClientEvent Json Json → Materializing (MaterializedProjection Json)
  | .snapshot subscriptionId revision snapshot _ =>
      applyProjectionSnapshot subscriptionId revision snapshot
  | .patch subscriptionId fromRevision toRevision patch _ =>
      applyProjectionPatch spell subscriptionId fromRevision toRevision patch

/-- What an update leaves of a materialiser: the subscription's update alone. -/
theorem ProjectionMaterializer.applyProjectionEvent_run
    (state : ProjectionMaterializerState) (event : ClientEvent Json Json) :
    (ProjectionMaterializer.applyProjectionEvent spell event).run.run state
      = match Session.applyProjectionEvent (composition spell state.plans)
          state.subscriptions[event.subscriptionId]? event with
        | .ok update =>
            (.ok update, state.setSubscription event.subscriptionId update)
        | .error error => (.error error, state) := by
  cases event with
  | snapshot subscriptionId revision snapshot held => rfl
  | patch subscriptionId fromRevision toRevision patch held =>
      change (patchSubscription spell state.plans subscriptionId fromRevision
        toRevision patch state.subscriptions[subscriptionId]?).run.run state
          = match Session.applyProjectionEvent (composition spell state.plans)
              state.subscriptions[subscriptionId]?
              (.patch subscriptionId fromRevision toRevision patch held) with
            | .ok update =>
                (.ok update, state.setSubscription subscriptionId update)
            | .error error => (.error error, state)
      cases state.subscriptions[subscriptionId]? with
      | none => rfl
      | some materialized =>
          simp only [patchSubscription, Session.applyProjectionEvent]
          split
          · rfl
          split
          · rfl
          split
          · rfl
          simp only [composition]
          cases state.plans patch.projection with
          | none => rfl
          | some plan =>
              cases result : materializePatch spell materialized.snapshot
                  patch plan with
              | error error =>
                  simp only [result]
                  rfl
              | ok snapshot =>
                  simp only [result, Except.map]
                  exact Prod.ext rfl
                    (state.setSubscription_setSubscription ..)

end Materialiser

/-! ## Field updates -/

section Updates

variable {spell : Property → String}

/--
An update leaves every field but the named one, and of that one every member
but the named ones, which it sets.
-/
def ChangesOnly (field : String) (changes : Members)
    (snapshot result : Json) : Prop :=
  ∃ members target next, ∃ left : Members,
    snapshot = .object members
      ∧ requireRecord "" (property members field) = .ok target
      ∧ result = .object next
      ∧ property next field = .value (.object left)
      ∧ (∀ other ≠ field, property next other = property members other)
      ∧ ∀ name, left.get? name = (changes.get? name).or (target.get? name)

theorem update_ok {snapshot result : Json} {patch : Members}
    {snapshotMode : SnapshotMode} {omitted : List String}
    {removeMode : RemoveMode} {updateField updatesField : Option String}
    (snapshotParsed : Parsed snapshot) (patchParsed : Parsed (.object patch))
    (materialized : materializeReplaceOrRemove snapshot patch "update"
      snapshotMode omitted removeMode updateField updatesField = .ok result) :
    Parsed result
      ∧ ∃ field updates changes,
        updateField = some field ∧ updatesField = some updates
          ∧ requireRecord "" (property patch updates) = .ok changes
          ∧ ChangesOnly field changes snapshot result := by
  obtain ⟨field, named, materialized⟩ := except_bind_ok materialized
  obtain ⟨updates, namedUpdates, materialized⟩ := except_bind_ok materialized
  obtain ⟨changes, isChanges, materialized⟩ := except_bind_ok materialized
  obtain ⟨members, isRecord, materialized⟩ := except_bind_ok materialized
  obtain ⟨target, isTarget, materialized⟩ := except_bind_ok materialized
  obtain rfl := Except.ok.inj materialized
  obtain rfl : updateField = some field := by
    cases updateField with
    | none => cases named
    | some own => rw [Except.ok.inj named]
  obtain rfl : updatesField = some updates := by
    cases updatesField with
    | none => cases namedUpdates
    | some own => rw [Except.ok.inj namedUpdates]
  obtain rfl : snapshot = .object members := by
    cases snapshot with
    | object own => rw [Except.ok.inj isRecord]
    | _ => cases isRecord
  have changesParsed := parsed_of_requireRecord patchParsed isChanges
  have targetParsed := parsed_of_requireRecord snapshotParsed isTarget
  have leftParsed := parsed_spread (parsed_ofMembers targetParsed) changesParsed
  refine ⟨parsed_insert (parsed_ofMembers snapshotParsed) field leftParsed,
    field, updates, changes, rfl, rfl, requireRecord_context isChanges "",
    members, target, _, _, rfl, requireRecord_context isTarget "", rfl,
    property_withField members field _,
    fun other apart => property_withField_of_ne snapshotParsed.1 apart _, ?_⟩
  intro name
  rw [Members.get?_spread (Members.ordered_ofMembers target).nodup
    changesParsed.1, Members.get?_ofMembers targetParsed.1]

theorem snapshotFromPatch_ok {patch : Members} {omitted : List String}
    {mode : SnapshotMode} {result : Json} (parsed : Parsed (.object patch))
    (read : snapshotFromPatch patch omitted mode = .ok result) :
    Parsed result := by
  cases mode with
  | field field =>
      simp only [snapshotFromPatch] at read
      split at read
      · rename_i value held
        exact Except.ok.inj read ▸ parsed_of_property parsed held
      · cases read
      · cases read
  | patch =>
      obtain rfl := Except.ok.inj read
      exact parsed_omitFields parsed _

/-- A snapshot replaced, removed or updated is parsed as it was. -/
theorem parsed_materializeReplaceOrRemove {snapshot result : Json}
    {patch : Members} {kind : String} {snapshotMode : SnapshotMode}
    {omitted : List String} {removeMode : RemoveMode}
    {updateField updatesField : Option String}
    (snapshotParsed : Parsed snapshot) (patchParsed : Parsed (.object patch))
    (materialized : materializeReplaceOrRemove snapshot patch kind
      snapshotMode omitted removeMode updateField updatesField = .ok result) :
    Parsed result := by
  unfold materializeReplaceOrRemove at materialized
  split at materialized
  · exact (@update_ok _ _ _ snapshotMode omitted removeMode _ _ snapshotParsed
      patchParsed materialized).1
  · exact snapshotFromPatch_ok patchParsed materialized
  · split at materialized
    · obtain rfl := Except.ok.inj materialized
      trivial
    · rename_i removeField
      have left : ∀ current, Parsed (.object current) →
          Parsed (.object (((Members.ofMembers current).spread
            (omitFields patch ("kind" :: omitted))).insert removeField
              .null)) :=
        fun current held =>
          parsed_insert (parsed_spread (parsed_ofMembers held)
            (parsed_omitFields patchParsed _)) _ trivial
      cases snapshot with
      | null =>
          obtain rfl := Except.ok.inj materialized
          exact left [] parsed_empty
      | object members =>
          obtain rfl := Except.ok.inj materialized
          exact left members snapshotParsed
      | _ => cases materialized
  · cases materialized

end Updates

/-! ## Histories -/

/-- The last snapshot a subscription was sent, and the patches taken since. -/
structure History where
  base : Json
  patches : List Json

section Histories

variable (collectionField itemField itemIdentityField patchIdentityField
  snapshotOutputField sequenceField textField patchOutputField deltaTextField
    : String)

/-- The changes the patches of a keyed collection made. -/
def keyedChanges (history : History) : List KeyedChange :=
  history.patches.filterMap
    (keyedChange collectionField itemField patchIdentityField)

/--
A keyed collection is, as a map, the fold of its changes; and what they upserted
since the last reset it holds once.
-/
structure KeyedFold (history : History) (snapshot : Json) : Prop where
  changes : ∀ patch ∈ history.patches,
    (keyedChange collectionField itemField patchIdentityField patch).isSome
      = true
  folded : itemOf itemIdentityField (collectionIn collectionField snapshot)
    = (keyedChanges collectionField itemField patchIdentityField
        history).foldl (KeyedChange.apply itemIdentityField)
      (itemOf itemIdentityField (collectionIn collectionField history.base))
  once : OncePerUpsert itemIdentityField
    (collectionIn collectionField snapshot)
    ((keyedChanges collectionField itemField patchIdentityField
        history).foldl (KeyedChange.upserted itemIdentityField) [])

/-- Whether a patch is of a kind. -/
def isOfKind (kind : String) (patch : Json) : Bool :=
  match patch with
  | .object members =>
      (property members "kind").strictlyEquals (.value (.string kind))
  | _ => false

/-- What a reset leaves: the patch without its kind. -/
def resetSnapshot (patch : Json) : Json :=
  match patch with
  | .object members => .object (omitFields members ["kind"])
  | other => other

/-- What a sequenced text was reset to last, and the deltas taken since. -/
def sinceReset (history : History) : Json × List OutputDelta :=
  history.patches.foldl
    (fun (base, deltas) patch =>
      if isOfKind "reset" patch then (resetSnapshot patch, [])
      else
        (base, deltas ++ (outputDelta sequenceField patchIdentityField
          patchOutputField deltaTextField patch).toList))
    (history.base, [])

/-- A sequenced text streams the deltas taken since it was reset last. -/
structure TextFold (history : History) (snapshot : Json) : Prop where
  kinds : ∀ patch ∈ history.patches,
    isOfKind "reset" patch = true
      ∨ (outputDelta sequenceField patchIdentityField patchOutputField
          deltaTextField patch).isSome = true
  parsed : Parsed (sinceReset patchIdentityField sequenceField
    patchOutputField deltaTextField history).1
  streamed : Streamed snapshotOutputField sequenceField textField
    itemIdentityField collectionField
    (sinceReset patchIdentityField sequenceField patchOutputField
      deltaTextField history).1
    (sinceReset patchIdentityField sequenceField patchOutputField
      deltaTextField history).2 snapshot

/-- What a subscription holds of its history, by its projection's plan. -/
def FoldsBy (history : History) (snapshot : Json) :
    MaterializationPlan → Prop
  | .keyedCollection collectionField itemField itemIdentityField
      patchIdentityField =>
      KeyedFold collectionField itemField itemIdentityField patchIdentityField
        history snapshot
  | .sequencedText collectionField itemIdentityField patchIdentityField
      snapshotOutputField sequenceField textField patchOutputField
      deltaTextField =>
      TextFold collectionField itemIdentityField patchIdentityField
        snapshotOutputField sequenceField textField patchOutputField
        deltaTextField history snapshot
  | .replaceOrRemove .. => Parsed snapshot
  | .replace .. | .reset => True

section Steps

variable {collectionField itemField itemIdentityField patchIdentityField
  snapshotOutputField sequenceField textField patchOutputField deltaTextField
    : String}

theorem foldsBy_base {base : Json} (parsed : Parsed base)
    (plan : MaterializationPlan) :
    FoldsBy { base := base, patches := [] } base plan := by
  cases plan with
  | keyedCollection =>
      exact
        { changes := fun _ within => by cases within
          folded := rfl
          once := fun _ within => by cases within }
  | sequencedText =>
      exact
        { kinds := fun _ within => by cases within
          parsed := parsed
          streamed := streamed_base base }
  | replaceOrRemove => exact parsed
  | replace => trivial
  | reset => trivial

theorem keyedFold_append {history : History} {snapshot result : Json}
    (fold : KeyedFold collectionField itemField itemIdentityField
      patchIdentityField history snapshot)
    {patch : Json} {change : KeyedChange}
    (read : keyedChange collectionField itemField patchIdentityField patch
      = some change)
    (items : collectionIn collectionField result
      = change.items itemIdentityField
          (collectionIn collectionField snapshot)) :
    KeyedFold collectionField itemField itemIdentityField patchIdentityField
      { history with patches := history.patches ++ [patch] } result := by
  have changes : keyedChanges collectionField itemField patchIdentityField
      { history with patches := history.patches ++ [patch] }
        = keyedChanges collectionField itemField patchIdentityField history
          ++ [change] := by
    rw [keyedChanges, List.filterMap_append, keyedChanges]
    simp [read]
  refine { changes := ?_, folded := ?_, once := ?_ }
  · intro other within
    rcases List.mem_append.mp within with earlier | last
    · exact fold.changes other earlier
    · rw [List.mem_singleton.mp last, read]
      rfl
  · rw [changes, List.foldl_append, items, itemOf_items, fold.folded]
    rfl
  · rw [changes, List.foldl_append, items]
    exact oncePerUpsert_items itemIdentityField fold.once change

theorem isOfKind_iff {members : Members} {kind other : String}
    (read : property members "kind" = .value (.string kind)) :
    isOfKind other (.object members) = true ↔ kind = other := by
  simp only [isOfKind, read, Property.strictlyEquals, beq_iff_eq]

theorem textFold_append {spell : Property → String} {history : History}
    {snapshot result : Json} {patch : Members} {kind : String}
    (fold : TextFold collectionField itemIdentityField patchIdentityField
      snapshotOutputField sequenceField textField patchOutputField
      deltaTextField history snapshot)
    (patchParsed : Parsed (.object patch))
    (read : property patch "kind" = .value (.string kind))
    (materialized : materializeSequencedText spell snapshot patch kind
      collectionField itemIdentityField patchIdentityField snapshotOutputField
      sequenceField textField patchOutputField deltaTextField = .ok result) :
    TextFold collectionField itemIdentityField patchIdentityField
      snapshotOutputField sequenceField textField patchOutputField
      deltaTextField
      { history with patches := history.patches ++ [.object patch] }
      result := by
  have since : sinceReset patchIdentityField sequenceField patchOutputField
      deltaTextField
      { history with patches := history.patches ++ [.object patch] }
        = if isOfKind "reset" (.object patch) then
            (resetSnapshot (.object patch), [])
          else
            ((sinceReset patchIdentityField sequenceField patchOutputField
                deltaTextField history).1,
              (sinceReset patchIdentityField sequenceField patchOutputField
                deltaTextField history).2
                ++ (outputDelta sequenceField patchIdentityField
                  patchOutputField deltaTextField (.object patch)).toList) := by
    rw [sinceReset, List.foldl_append]
    rfl
  have kinds : (isOfKind "reset" (.object patch) = true
      ∨ (outputDelta sequenceField patchIdentityField patchOutputField
          deltaTextField (.object patch)).isSome = true) →
      ∀ other ∈ history.patches ++ [.object patch],
        isOfKind "reset" other = true
          ∨ (outputDelta sequenceField patchIdentityField patchOutputField
              deltaTextField other).isSome = true := by
    intro own other within
    rcases List.mem_append.mp within with earlier | last
    · exact fold.kinds other earlier
    · rw [List.mem_singleton.mp last]
      exact own
  rcases materializeSequencedText_ok materialized with
    ⟨reset, rfl⟩ | ⟨output, delta, carried, known, appended⟩
  · have own : isOfKind "reset" (.object patch) = true :=
      (isOfKind_iff read).mpr reset
    rw [if_pos own] at since
    exact
      { kinds := kinds (.inl own)
        parsed := by
          rw [since]
          exact parsed_omitFields patchParsed _
        streamed := by
          rw [since]
          exact streamed_base _ }
  · have own : ¬ isOfKind "reset" (.object patch) = true := by
      rw [isOfKind_iff read, output]
      decide
    rw [if_neg own, carried] at since
    exact
      { kinds := kinds (.inr (by rw [carried]; rfl))
        parsed := by
          rw [since]
          exact fold.parsed
        streamed := by
          rw [since]
          exact fold.streamed.append fold.parsed known appended }

/-- A patch a plan materialises is folded into what its subscription holds. -/
theorem foldsBy_append {spell : Property → String} {history : History}
    {snapshot result : Json} {plan : MaterializationPlan}
    (folds : FoldsBy history snapshot plan) {patch : Projected Json}
    (parsed : Parsed patch.value)
    (materialized : materializePatch spell snapshot patch plan
      = .ok result) :
    FoldsBy { history with patches := history.patches ++ [patch.value] }
      result plan := by
  obtain ⟨projection, value⟩ := patch
  obtain ⟨members, isRecord, materialized⟩ := except_bind_ok materialized
  obtain rfl : value = .object members := by
    cases value with
    | object own => rw [Except.ok.inj isRecord]
    | _ => cases isRecord
  obtain ⟨kind, isString, materialized⟩ := except_bind_ok materialized
  have read := requireString_ok isString
  cases plan with
  | keyedCollection =>
      obtain ⟨change, changed, items⟩ :=
        materializeKeyedCollection_ok read materialized
      exact keyedFold_append folds changed items
  | sequencedText => exact textFold_append folds parsed read materialized
  | replaceOrRemove =>
      exact parsed_materializeReplaceOrRemove folds parsed materialized
  | replace => trivial
  | reset => trivial

end Steps

end Histories

/-! ## Runs -/

/-- A materialiser, and what each of its subscriptions took. -/
structure RecordedState where
  state : ProjectionMaterializerState
  history : Nat → Option History

namespace RecordedState

def start (plans : String → Option MaterializationPlan) : RecordedState where
  state := createProjectionMaterializerState plans
  history := fun _ => none

/-- A history once an update is taken. -/
def record (history : Option History) :
    ClientEvent Json Json → Option History
  | .snapshot _ _ snapshot _ => some { base := snapshot.value, patches := [] }
  | .patch _ _ _ patch _ =>
      history.map fun history =>
        { history with patches := history.patches ++ [patch.value] }

variable (spell : Property → String)

def next (recorded : RecordedState) (event : ClientEvent Json Json) :
    RecordedState :=
  let (result, state) :=
    (ProjectionMaterializer.applyProjectionEvent spell event).run.run recorded.state
  { state := state
    history :=
      match result with
      | .ok _ =>
          fun subscriptionId =>
            if subscriptionId = event.subscriptionId then
              record (recorded.history subscriptionId) event
            else recorded.history subscriptionId
      | .error _ => recorded.history }

/-- An update whose values are as parsing makes them. -/
def ParsedEvent : ClientEvent Json Json → Prop
  | .snapshot _ _ snapshot _ => Parsed snapshot.value
  | .patch _ _ _ patch _ => Parsed patch.value

/-- Every subscription holds the fold of its history. -/
def HoldsFolds (recorded : RecordedState) : Prop :=
  ∀ subscriptionId materialized,
    recorded.state.subscriptions[subscriptionId]? = some materialized →
      ∃ history, recorded.history subscriptionId = some history
        ∧ ∀ plan, recorded.state.plans materialized.projection = some plan →
          FoldsBy history materialized.snapshot plan

theorem holdsFolds_start (plans : String → Option MaterializationPlan) :
    HoldsFolds (start plans) := by
  intro subscriptionId materialized held
  simp [start, createProjectionMaterializerState] at held

/-- A patch that is taken is materialised by its projection's plan. -/
theorem patch_taken {plans : String → Option MaterializationPlan}
    {materialized : Option (MaterializedProjection Json)}
    {subscriptionId fromRevision toRevision : Nat} {patch : Projected Json}
    {held : Option Doc.Json} {update : MaterializedProjection Json}
    (taken : Session.applyProjectionEvent (composition spell plans)
      materialized (.patch subscriptionId fromRevision toRevision patch held)
        = .ok update) :
    ∃ before plan, materialized = some before
      ∧ before.projection = patch.projection
      ∧ update.projection = patch.projection
      ∧ plans patch.projection = some plan
      ∧ materializePatch spell before.snapshot patch plan
        = .ok update.snapshot := by
  cases materialized with
  | none => cases taken
  | some before =>
      simp only [Session.applyProjectionEvent] at taken
      split at taken
      · cases taken
      rename_i same
      split at taken
      · cases taken
      split at taken
      · cases taken
      simp only [composition] at taken
      cases planned : plans patch.projection with
      | none =>
          rw [planned] at taken
          cases taken
      | some plan =>
          rw [planned] at taken
          dsimp only at taken
          cases result : materializePatch spell before.snapshot patch plan with
          | error error =>
              rw [result] at taken
              cases taken
          | ok snapshot =>
              rw [result] at taken
              obtain rfl := Except.ok.inj taken
              exact ⟨before, plan, rfl, not_not.mp same, not_not.mp same, rfl,
                result⟩

/-- An update a subscription takes, and what it then holds of its history. -/
theorem folds_of_taken {recorded : RecordedState}
    (holds : HoldsFolds recorded) {event : ClientEvent Json Json}
    (parsed : ParsedEvent event) {update : MaterializedProjection Json}
    (taken : Session.applyProjectionEvent
      (composition spell recorded.state.plans)
      recorded.state.subscriptions[event.subscriptionId]? event
        = .ok update) :
    ∃ history,
      record (recorded.history event.subscriptionId) event = some history
        ∧ ∀ plan, recorded.state.plans update.projection = some plan →
          FoldsBy history update.snapshot plan := by
  cases event with
  | snapshot subscriptionId revision snapshot held =>
      obtain rfl := Except.ok.inj taken
      exact ⟨_, rfl, fun plan _ => foldsBy_base parsed plan⟩
  | patch subscriptionId fromRevision toRevision patch held =>
      obtain ⟨before, plan, there, same, left, planned, result⟩ :=
        patch_taken spell taken
      obtain ⟨history, recordedHistory, folds⟩ :=
        holds subscriptionId before there
      refine ⟨{ history with patches := history.patches ++ [patch.value] },
        ?_, ?_⟩
      · simp only [Session.ProjectionTransportEvent.subscriptionId, record,
          recordedHistory, Option.map_some]
      · intro other named
        rw [left, planned] at named
        obtain rfl := Option.some.inj named
        exact foldsBy_append (folds plan (by rw [same, planned])) parsed result

theorem holdsFolds_next {recorded : RecordedState}
    (holds : HoldsFolds recorded) {event : ClientEvent Json Json}
    (parsed : ParsedEvent event) :
    HoldsFolds (recorded.next spell event) := by
  unfold next
  rw [ProjectionMaterializer.applyProjectionEvent_run]
  cases taken : Session.applyProjectionEvent
      (composition spell recorded.state.plans)
      recorded.state.subscriptions[event.subscriptionId]? event with
  | error error => exact holds
  | ok update =>
      obtain ⟨history, recordedHistory, folds⟩ :=
        folds_of_taken spell holds parsed taken
      intro subscriptionId materialized held
      simp only [ProjectionMaterializerState.getElem?_setSubscription] at held
      simp only [ProjectionMaterializerState.setSubscription_plans]
      split_ifs at held with own
      · obtain rfl := Option.some.inj held
        subst own
        exact ⟨history, by rw [if_pos rfl, recordedHistory], folds⟩
      · simp only [if_neg own]
        exact holds subscriptionId materialized held

theorem holdsFolds_run (plans : String → Option MaterializationPlan)
    {events : List (ClientEvent Json Json)}
    (parsed : ∀ event ∈ events, ParsedEvent event) :
    HoldsFolds (Machine.run (next spell) (start plans) events) := by
  induction events using List.reverseRecOn with
  | nil => exact holdsFolds_start plans
  | append_singleton earlier event inductionHypothesis =>
      rw [List.forall_mem_append] at parsed
      rw [Machine.run_append_singleton]
      exact holdsFolds_next spell (inductionHypothesis parsed.1)
        (parsed.2 event (List.mem_singleton_self event))

/-- A property that is a value is a member's. -/
theorem held_of_property {record : Members} {field : String} {value : Json}
    (read : property record field = .value value) :
    record.get? field = some value := by
  unfold property at read
  split at read
  · rename_i found
    rw [found, Property.value.inj read]
  · split_ifs at read

/-- What a materialiser keeps of its projections' patches, and of refusals. -/
structure FoldsPatches (recorded : RecordedState) : Prop where
  /-- Every subscription holds the fold of what it took since its snapshot. -/
  folds : HoldsFolds recorded
  /-- A field update changes the named members of the named field. -/
  updates : ∀ subscriptionId fromRevision toRevision projection members held
    snapshotMode omitted removeMode updateField updatesField update after,
    Parsed (.object members) →
    property members "kind" = .value (.string "update") →
    recorded.state.plans projection
      = some (.replaceOrRemove snapshotMode omitted removeMode updateField
          updatesField) →
    (ProjectionMaterializer.applyProjectionEvent spell
      (.patch subscriptionId fromRevision toRevision
        ⟨projection, .object members⟩ held)).run.run recorded.state
      = (.ok update, after) →
    ∃ before field updates changes,
      recorded.state.subscriptions[subscriptionId]? = some before
        ∧ updateField = some field ∧ updatesField = some updates
        ∧ requireRecord "" (property members updates) = .ok changes
        ∧ ChangesOnly field changes before.snapshot update.snapshot
  /-- An update of a subscription leaves every other as it was. -/
  others : ∀ event result after,
    (ProjectionMaterializer.applyProjectionEvent spell event).run.run recorded.state
      = (result, after) →
    ∀ other ≠ event.subscriptionId,
      after.subscriptions[other]? = recorded.state.subscriptions[other]?
  /-- An update that is refused changes nothing. -/
  refused : ∀ event error after,
    (ProjectionMaterializer.applyProjectionEvent spell event).run.run recorded.state
      = (.error error, after) →
    after = recorded.state

theorem updates_only {recorded : RecordedState} (holds : HoldsFolds recorded)
    {subscriptionId fromRevision toRevision : Nat} {projection : String}
    {members : Members} {held : Option Doc.Json} {snapshotMode : SnapshotMode}
    {omitted : List String} {removeMode : RemoveMode}
    {updateField updatesField : Option String}
    {update : MaterializedProjection Json}
    {after : ProjectionMaterializerState}
    (parsed : Parsed (.object members))
    (kind : property members "kind" = .value (.string "update"))
    (planned : recorded.state.plans projection
      = some (.replaceOrRemove snapshotMode omitted removeMode updateField
          updatesField))
    (applied : (ProjectionMaterializer.applyProjectionEvent spell
      (.patch subscriptionId fromRevision toRevision
        ⟨projection, .object members⟩ held)).run.run recorded.state
      = (.ok update, after)) :
    ∃ before field updates changes,
      recorded.state.subscriptions[subscriptionId]? = some before
        ∧ updateField = some field ∧ updatesField = some updates
        ∧ requireRecord "" (property members updates) = .ok changes
        ∧ ChangesOnly field changes before.snapshot update.snapshot := by
  rw [ProjectionMaterializer.applyProjectionEvent_run] at applied
  split at applied
  · rename_i taken result
    obtain rfl := Except.ok.inj (Prod.mk.inj applied).1
    obtain ⟨before, plan, there, same, -, own, materialized⟩ :=
      patch_taken spell result
    obtain rfl := Option.some.inj (own.symm.trans planned)
    obtain ⟨history, -, folds⟩ := holds subscriptionId before there
    have beforeParsed : Parsed before.snapshot :=
      folds (.replaceOrRemove snapshotMode omitted removeMode updateField
        updatesField) (by rw [same, planned])
    rw [materializePatch_kind (held_of_property kind)] at materialized
    obtain ⟨-, field, updates, changes, named, namedUpdates, read, only⟩ :=
      @update_ok _ _ _ snapshotMode omitted removeMode _ _ beforeParsed parsed
        materialized
    exact ⟨before, field, updates, changes, there, named, namedUpdates, read,
      only⟩
  · cases (Prod.mk.inj applied).1

/--
After any updates, keyed collections are as maps the folds of their upserts,
removes and resets, texts stream the deltas of their identities, field updates
change what they name, and refused updates change nothing.
-/
theorem foldsPatches_run (plans : String → Option MaterializationPlan)
    {events : List (ClientEvent Json Json)}
    (parsed : ∀ event ∈ events, ParsedEvent event) :
    FoldsPatches spell
      (Machine.run (next spell) (start plans) events) where
  folds := holdsFolds_run spell plans parsed
  updates := fun _ _ _ _ _ _ _ _ _ _ _ _ _ isParsed kind planned applied =>
    updates_only spell (holdsFolds_run spell plans parsed) isParsed kind planned
      applied
  others := by
    intro event result after applied other apart
    rw [ProjectionMaterializer.applyProjectionEvent_run] at applied
    split at applied
    · obtain ⟨-, rfl⟩ := Prod.mk.inj applied
      rw [ProjectionMaterializerState.getElem?_setSubscription, if_neg apart]
    · obtain ⟨-, rfl⟩ := Prod.mk.inj applied
      rfl
  refused := by
    intro event error after applied
    rw [ProjectionMaterializer.applyProjectionEvent_run] at applied
    split at applied
    · cases (Prod.mk.inj applied).1
    · exact (Prod.mk.inj applied).2.symm

section Examples

def noteSnapshot : ClientEvent Json Json :=
  .snapshot 1 1 ⟨"notes.list", .object [("notes", .array [])]⟩ none

/-- An upsert of a note whose identity is a list. -/
def noteUpsert (fromRevision : Nat) : ClientEvent Json Json :=
  .patch 1 fromRevision (fromRevision + 1)
    ⟨"notes.list", .object [("kind", .string "upsert"),
      ("note", .object [("note_id", .array [])])]⟩ none

def notePlans (_ : String) : Option MaterializationPlan :=
  some (.keyedCollection "notes" "note" "note_id" "note_id")

/-- A list upserted twice as an identity is that of two items. -/
theorem list_identity_occurs_twice :
    let reached := Machine.run (next fun _ => "") (start notePlans)
      [noteSnapshot, noteUpsert 1, noteUpsert 2]
    ∃ held, reached.state.subscriptions[1]? = some held
      ∧ collectionIn "notes" held.snapshot
        = [.object [("note_id", .array [])], .object [("note_id", .array [])]]
      := by
  exact ⟨_, rfl, rfl⟩

theorem foldsPatches_notes :
    FoldsPatches (fun _ => "")
      (Machine.run (next fun _ => "") (start notePlans)
        [noteSnapshot, noteUpsert 1]) := by
  refine foldsPatches_run (fun _ => "") notePlans ?_
  simp [noteSnapshot, noteUpsert, ParsedEvent, Parsed, ParsedMembers,
    ParsedItems, Members.keys]

end Examples

end RecordedState

end Clerkenwell.Client
