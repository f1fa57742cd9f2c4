import Clerkenwell.Codegen.Materialization
import Clerkenwell.Codegen.Sampling

/-!
# Projection fixtures

A projection's fixture is a snapshot, one patch of each kind, and the snapshot
that applying the patch yields.
-/

namespace Clerkenwell.Codegen

open Clerkenwell.Foundation

/-- The first item of a collection, where it is an object. -/
def firstObjectItem (collection : Option Json) : Option Members := do
  let items ← (← collection).asArray
  (← items.head?).asObject

def emptyOutput (sequenceField textField : String) : Members :=
  (Members.insert [] sequenceField (.number 0)).insert textField (.string "")

/-- A keyed or sequenced snapshot gets exactly one item with a known identity. -/
def prepareFixtureSnapshot (sampled : Json) : MaterializationPlan → Json
  | .keyedCollection collectionField _ itemIdentityField _ =>
      let snapshot := sampled.asObject.getD []
      let item :=
        ((firstObjectItem (snapshot.get? collectionField)).getD []).insert
          itemIdentityField (.string "fixture-id")
      .object (snapshot.insert collectionField (.array [.object item]))
  | .sequencedText collectionField itemIdentityField _ snapshotOutputField
      sequenceField textField _ _ =>
      let snapshot := sampled.asObject.getD []
      let item :=
        (((firstObjectItem (snapshot.get? collectionField)).getD []).insert
          itemIdentityField (.string "fixture-id")).insert
            snapshotOutputField (.object (emptyOutput sequenceField textField))
      .object (snapshot.insert collectionField (.array [.object item]))
  | _ => sampled

/-- A replacement of a snapshot, as a plan's patches carry one. -/
def patchForSnapshot (snapshotMode : SnapshotMode) (omitted : List String)
    (snapshot : Members) : Members :=
  let patch := Members.insert [] "kind" (.string "replace")
  match snapshotMode with
  | .field snapshotField => patch.insert snapshotField (.object snapshot)
  | .patch =>
      patch.spread (snapshot.filter fun member => member.1 ∉ omitted)

/-- An update's changes, each array of them empty. -/
def emptiedArrays (changes : Members) : Members :=
  Members.ofMembers (changes.map fun (key, value) =>
    (key, if value.asArray.isSome then .array [] else value))

/-- `entry.insert_some(key, value)`. -/
def Members.insertSome (members : Members) (key : String) :
    Option Json → Members
  | some value => members.insert key value
  | none => members

/-- One patch of `kind` and the snapshot applying it to `snapshot` yields. -/
def projectionFixtureCase (kind : String) (sampledSnapshot sampledChanges : Json) :
    MaterializationPlan → Checked (Members × Json)
  | .keyedCollection collectionField itemField itemIdentityField
      patchIdentityField =>
      let snapshot := sampledSnapshot.asObject.getD []
      let patch := Members.insert [] "kind" (.string kind)
      let item :=
        (firstObjectItem (snapshot.get? collectionField)).getD
          (Members.insert [] itemIdentityField (.string "fixture-id"))
      let keyedSnapshot :=
        snapshot.insert collectionField (.array [.object item])
      match kind with
      | "reset" =>
          .ok (patch.insert collectionField (.array [.object item]),
            .object keyedSnapshot)
      | "upsert" =>
          .ok (patch.insert itemField (.object item), .object keyedSnapshot)
      | "remove" =>
          .ok (patch.insert patchIdentityField (.string "fixture-id"),
            .object (keyedSnapshot.insert collectionField (.array [])))
      | _ => refuse s!"Unsupported keyed fixture patch kind {kind}."
  | .sequencedText collectionField itemIdentityField patchIdentityField
      snapshotOutputField sequenceField textField patchOutputField
      deltaTextField =>
      let snapshot := sampledSnapshot.asObject.getD []
      let patch := Members.insert [] "kind" (.string kind)
      let item :=
        (firstObjectItem (snapshot.get? collectionField)).getD
          ((Members.insert [] itemIdentityField (.string "fixture-id")).insert
            snapshotOutputField
            (.object (emptyOutput sequenceField textField)))
      let streamSnapshot :=
        snapshot.insert collectionField (.array [.object item])
      match kind with
      | "reset" => .ok (patch.spread streamSnapshot, .object streamSnapshot)
      | "output" =>
          let currentOutput :=
            (item.get? snapshotOutputField).bind Json.asObject
          let sequence : Dyadic :=
            ((currentOutput.bind fun output => numberField output
              sequenceField).map fun sequence => sequence + 1).getD 1
          let text :=
            (currentOutput.bind fun output => strField output textField).getD
              ""
          let delta :=
            (Members.insert [] sequenceField (.number sequence)).insert
              deltaTextField (.string "fixture")
          let patch :=
            (patch.insertSome patchIdentityField
              (item.get? itemIdentityField)).insert
                patchOutputField (.object delta)
          let output :=
            (Members.insert [] sequenceField (.number sequence)).insert
              textField (.string (text ++ "fixture"))
          let nextItem := item.insert snapshotOutputField (.object output)
          .ok (patch,
            .object (streamSnapshot.insert collectionField
              (.array [.object nextItem])))
      | _ => refuse s!"Unsupported sequenced-text fixture patch kind {kind}."
  | .replaceOrRemove snapshotMode omitFields removeMode updateField
      updatesField =>
      let snapshot := sampledSnapshot.asObject.getD []
      let patch := Members.insert [] "kind" (.string kind)
      if kind = "update" then do
        let updateField ← expect updateField
        let changes := emptiedArrays (sampledChanges.asObject.getD [])
        let updatesField ← expect updatesField
        let target :=
          ((snapshot.get? updateField).bind Json.asObject).getD []
        pure (patch.insert updatesField (.object changes),
          .object (snapshot.insert updateField
            (.object (target.spread changes))))
      else if kind = "replace" then
        .ok (patchForSnapshot snapshotMode omitFields snapshot,
          .object snapshot)
      else
        match removeMode with
        | .nullSnapshot => .ok (patch, .null)
        | .nullField removeField =>
            .ok (patch, .object (snapshot.insert removeField .null))
  | .replace snapshotMode omitFields =>
      let snapshot := sampledSnapshot.asObject.getD []
      .ok (patchForSnapshot snapshotMode omitFields snapshot,
        .object snapshot)
  | .reset =>
      let snapshot := sampledSnapshot.asObject.getD []
      let patch := Members.insert [] "kind" (.string kind)
      .ok (patch.spread snapshot, .object snapshot)

/-! ## The corpus -/

structure FixtureCase where
  kind : String
  patch : Members
  expectedSnapshot : Json

structure ProjectionFixture where
  snapshot : Json
  cases : List FixtureCase

/-- The schema a plan's update changes are sampled of, where it has any. -/
def updateChangesSchema (patchSchema : Members) :
    MaterializationPlan → Checked (Option Members)
  | .replaceOrRemove _ _ _ _ (some updatesField) =>
      (contractProperty patchSchema updatesField "update changes").map some
  | _ => .ok none

/-- An update's sampled changes, none where a plan has no updates. -/
def sampleChanges (definition : Sections) (fuel : Nat) :
    Option Members → Running Failure Json
  | some schema => sampleValue definition none fuel schema none
  | none => pure (.object [])

/-- A fixture's case of a kind of patch. -/
def fixtureCase (definition : Sections) (fuel : Nat) (patchSchema : Members)
    (plan : MaterializationPlan) (snapshot : Json) (kind : String) :
    Running Failure FixtureCase := do
  let changesSchema ← Running.settled (updateChangesSchema patchSchema plan)
  let sampledChanges ← sampleChanges definition fuel changesSchema
  let (patch, expected) ← Running.settled
    (projectionFixtureCase kind snapshot sampledChanges plan)
  pure { kind := kind, patch := patch, expectedSnapshot := expected }

/-- The fixture of a projection. -/
def projectionFixture (definition : Sections) (fuel : Nat)
    (projection : Projection) : Running Failure ProjectionFixture := do
  let name := projection.name
  let plan := projection.materialization
  let snapshotSchema ← Running.settled (resolveRef definition
    projection.snapshot s!"projections.{name}.snapshot")
  let patchSchema ← Running.settled (resolveRef definition projection.patch
    s!"projections.{name}.patch")
  let sampled ← sampleValue definition none fuel snapshotSchema none
  let snapshot := prepareFixtureSnapshot sampled plan
  let kindSchema ← Running.settled (contractProperty patchSchema "kind"
    s!"projections.{name}.patch.kind")
  let kinds ← Running.settled (readStringArray (kindSchema.get? "enum")
    s!"projections.{name}.patch.kind.enum")
  let cases ←
    kinds.mapM (fixtureCase definition fuel patchSchema plan snapshot)
  pure { snapshot := snapshot, cases := cases }

theorem fixtureCase_succeeds {definition : Sections} {fuel : Nat}
    {patchSchema : Members} {plan : MaterializationPlan} {snapshot : Json}
    {kind : String} {generated : FixtureCase}
    (succeeds : Running.Succeeds
      (fixtureCase definition fuel patchSchema plan snapshot kind) generated) :
    generated.kind = kind ∧ ∃ changes,
      projectionFixtureCase kind snapshot changes plan
        = .ok (generated.patch, generated.expectedSnapshot) := by
  unfold fixtureCase at succeeds
  obtain ⟨changesSchema, -, succeeds⟩ := (Running.succeeds_bind _ _ _).mp succeeds
  obtain ⟨changes, -, succeeds⟩ := (Running.succeeds_bind _ _ _).mp succeeds
  obtain ⟨⟨patch, expected⟩, composed, succeeds⟩ :=
    (Running.succeeds_bind _ _ _).mp succeeds
  obtain rfl := (Running.succeeds_pure _ _).mp succeeds
  exact ⟨rfl, changes, (Running.succeeds_settled _ _).mp composed⟩

end Clerkenwell.Codegen
