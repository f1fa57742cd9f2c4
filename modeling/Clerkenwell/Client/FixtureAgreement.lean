import Clerkenwell.Client.FixtureCases
import Clerkenwell.Codegen.CheckedPlans
import Clerkenwell.Codegen.MemberOrder

/-!
# Fixtures and the client

When every patch of a projection's fixture, applied to the fixture's snapshot,
leaves the snapshot the fixture expects.
-/

namespace Clerkenwell.Client

open Clerkenwell.Codegen
open Clerkenwell.Foundation

/-! ## Names apart -/

/-- Whether a patch that carries a snapshot of these members leaves it. -/
def CarriesSnapshot (omitted : List String) (snapshot : Json) :
    SnapshotMode → Prop
  | .field snapshotField => snapshotField ≠ "kind"
  | .patch => ∀ name ∈ "kind" :: omitted, snapshot.get? name = none

/-- Whether reading a member of a snapshot yields a record. -/
def HoldsRecord (snapshot : Json) (field : String) : Prop :=
  (∃ target, snapshot.get? field = some (.object target))
    ∨ (snapshot.get? field = none ∧ field = "__proto__")

/--
Whether a plan's patch of a kind keeps, apart from each other, the kind it says
it is of and everything it carries.
-/
def PatchApart (snapshot : Json) : MaterializationPlan → String → Prop
  | .keyedCollection collectionField _ _ _, "reset" => collectionField ≠ "kind"
  | .keyedCollection _ itemField _ _, "upsert" => itemField ≠ "kind"
  | .keyedCollection _ _ _ patchIdentityField, "remove" =>
      patchIdentityField ≠ "kind"
  | .sequencedText .., "reset" => snapshot.get? "kind" = none
  | .sequencedText _ itemIdentityField patchIdentityField snapshotOutputField
      sequenceField textField patchOutputField deltaTextField, "output" =>
      patchIdentityField ≠ "kind" ∧ patchOutputField ≠ "kind"
        ∧ patchIdentityField ≠ patchOutputField
        ∧ itemIdentityField ≠ snapshotOutputField
        ∧ sequenceField ≠ textField ∧ sequenceField ≠ deltaTextField
  | .replaceOrRemove snapshotMode omitted _ _ _, "replace" =>
      CarriesSnapshot omitted snapshot snapshotMode
  | .replaceOrRemove _ _ _ updateField updatesField, "update" =>
      ∀ field updates, updateField = some field → updatesField = some updates →
        updates ≠ "kind" ∧ HoldsRecord snapshot field
  | .replace snapshotMode omitted, _ =>
      CarriesSnapshot omitted snapshot snapshotMode
  | .reset, _ => snapshot.get? "kind" = none
  | _, _ => True

section Carrying

variable {spell : Property → String} {projection : String}
  {snapshotMode : SnapshotMode} {omitted : List String}
  {plan : MaterializationPlan} {members : Members} {changes result : Json}

theorem filter_of_absent
    (absent : ∀ name ∈ omitted, members.get? name = none) :
    members.filter (fun member => member.1 ∉ omitted) = members := by
  refine List.filter_eq_self.mpr fun member within => ?_
  have named : member.1 ∈ members.keys := List.mem_map_of_mem within
  simpa using fun present =>
    (Members.get?_eq_none_iff _ _).mp (absent member.1 present) named

/-- A snapshot carried apart is the one read back. -/
theorem snapshotFromPatch_patchForSnapshot (ordered : members.Ordered)
    (carries : CarriesSnapshot omitted (.object members) snapshotMode) :
    (patchForSnapshot snapshotMode omitted members).get? "kind"
        = some (.string "replace")
      ∧ snapshotFromPatch (patchForSnapshot snapshotMode omitted members)
          omitted snapshotMode = .ok (.object members) := by
  cases snapshotMode with
  | field snapshotField =>
      refine ⟨get?_patch_kind carries _, ?_⟩
      rw [snapshotFromPatch, patchForSnapshot,
        property_of_get? (get?_patch_field _ _ _)]
  | patch =>
      have absent : ∀ name ∈ "kind" :: omitted, members.get? name = none :=
        carries
      have kept := filter_of_absent fun name within =>
        absent name (List.mem_cons_of_mem _ within)
      have kind := get?_spread_patch ordered "replace" "kind"
      rw [absent "kind" List.mem_cons_self, Option.none_or, if_pos rfl] at kind
      simp only [patchForSnapshot, kept, snapshotFromPatch]
      refine ⟨kind, ?_⟩
      rw [omitFields_spread_patch ordered "replace" fun name within =>
        (Members.get?_eq_none_iff _ _).mp (absent name within)]

/-- A snapshot read back from a patch that says it replaces is carried apart. -/
theorem carriesSnapshot_of_kind
    (kind : (patchForSnapshot snapshotMode omitted members).get? "kind"
      = some (.string "replace"))
    (left : snapshotFromPatch (patchForSnapshot snapshotMode omitted members)
      omitted snapshotMode = .ok (.object members)) :
    CarriesSnapshot omitted (.object members) snapshotMode := by
  cases snapshotMode with
  | field snapshotField =>
      rintro rfl
      rw [patchForSnapshot, get?_patch_field] at kind
      cases kind
  | patch =>
      intro name within
      by_contra present
      obtain ⟨value, held⟩ := Option.ne_none_iff_exists'.mp present
      exact omitFields_ne (nodup_spread_patch "replace" _) within held
        (Json.object.inj (Except.ok.inj left))

theorem get?_asObject (snapshot : Json) (name : String) :
    (snapshot.asObject.getD []).get? name = snapshot.get? name := by
  cases snapshot <;> rfl

theorem carriesSnapshot_asObject (snapshot : Json) :
    CarriesSnapshot omitted (.object (snapshot.asObject.getD [])) snapshotMode
      ↔ CarriesSnapshot omitted snapshot snapshotMode := by
  cases snapshotMode with
  | field snapshotField => exact Iff.rfl
  | patch =>
      unfold CarriesSnapshot
      simp only [← get?_asObject snapshot]
      exact Iff.rfl

theorem replace_agrees_iff {snapshot : Json}
    (wellFormed : snapshot.WellFormed) :
    KindAgrees spell (.replace snapshotMode omitted) projection snapshot changes
        "replace"
      ↔ CarriesSnapshot omitted snapshot snapshotMode := by
  have ordered := asObject_ordered wellFormed
  rw [← carriesSnapshot_asObject]
  constructor
  · intro agrees
    obtain ⟨kind, held, left⟩ := materializePatch_ok (agrees _ _ rfl)
    rw [materializeKind] at left
    split at left
    · cases left
    · next same =>
      rw [not_not] at same
      subst same
      exact carriesSnapshot_of_kind held left
  · intro carries patch expected case
    obtain ⟨rfl, rfl⟩ := Prod.mk.inj (Except.ok.inj case)
    obtain ⟨kind, left⟩ := snapshotFromPatch_patchForSnapshot ordered carries
    rw [materializePatch_kind kind]
    exact left

theorem reset_agrees_iff {snapshot : Json} (wellFormed : snapshot.WellFormed) :
    KindAgrees spell .reset projection snapshot changes "reset"
      ↔ snapshot.get? "kind" = none := by
  have ordered := asObject_ordered wellFormed
  rw [← get?_asObject]
  constructor
  · intro agrees
    by_contra present
    obtain ⟨value, held⟩ := Option.ne_none_iff_exists'.mp present
    obtain ⟨kind, -, left⟩ := materializePatch_ok (agrees _ _ rfl)
    rw [materializeKind] at left
    split at left
    · cases left
    · exact omitFields_ne (nodup_spread_patch "reset" _)
        (List.mem_singleton_self "kind") held
        (Json.object.inj (Except.ok.inj left))
  · intro absent patch expected case
    obtain ⟨rfl, rfl⟩ := Prod.mk.inj (Except.ok.inj case)
    have kind := get?_spread_patch ordered "reset" "kind"
    rw [absent, Option.none_or, if_pos rfl] at kind
    rw [materializePatch_kind kind, materializeKind, if_neg (by simp),
      omitFields_spread_patch ordered]
    intro field within
    rw [List.mem_singleton.mp within]
    exact (Members.get?_eq_none_iff _ _).mp absent

/-- What a replacement patch's kind may be. -/
theorem kind_of_patchForSnapshot (ordered : members.Ordered) {kind : String}
    (held : (patchForSnapshot snapshotMode omitted members).get? "kind"
      = some (.string kind)) :
    kind = "replace" ∨ (snapshotMode = .patch
      ∧ members.get? "kind" = some (.string kind)) := by
  cases snapshotMode with
  | field snapshotField =>
      rw [patchForSnapshot, get?_patch] at held
      split at held
      · cases held
      · rw [if_pos rfl] at held
        exact Or.inl (Json.string.inj (Option.some.inj held)).symm
  | patch =>
      have kept : Members.Ordered (members.filter fun member =>
          member.1 ∉ omitted) :=
        ⟨ordered.nodup.sublist (List.filter_sublist.map _),
          ordered.indexed.sublist (List.filter_sublist.map _)⟩
      have read := get?_spread_patch kept "replace" "kind"
      rw [if_pos rfl] at read
      replace held := read.symm.trans held
      cases own : Members.get? (members.filter fun member =>
          member.1 ∉ omitted) "kind" with
      | none =>
          rw [own, Option.none_or] at held
          exact Or.inl (Json.string.inj (Option.some.inj held)).symm
      | some value =>
          rw [own, Option.some_or] at held
          obtain rfl := Option.some.inj held
          have within := (Members.get?_eq_some_iff kept.nodup _ _).mp own
          exact Or.inr ⟨rfl, (Members.get?_eq_some_iff ordered.nodup _ _).mpr
            (List.mem_filter.mp within).1⟩

theorem requireRecord_property_iff (context : String) (members : Members)
    (field : String) :
    (∃ target, requireRecord context (property members field) = .ok target)
      ↔ HoldsRecord (.object members) field := by
  unfold HoldsRecord property
  change _ ↔ (∃ target, members.get? field = _) ∨ (members.get? field = _ ∧ _)
  cases held : members.get? field with
  | some value =>
      cases value with
      | object target => simp [requireRecord]
      | _ => simp [requireRecord]
  | none =>
      by_cases prototype : field = "__proto__"
      · simp [requireRecord, prototype]
      · by_cases method : field ∈ objectPrototypeMethods
        · simp [requireRecord, prototype, method]
        · simp [requireRecord, prototype, method]

section ReplaceOrRemove

variable {removeMode : RemoveMode} {updateField updatesField : Option String}
  {snapshot : Json} (wellFormed : snapshot.WellFormed)

include wellFormed

/-- Where a snapshot's own kind could pass for the patch's, it has none. -/
theorem replaceOrRemove_replace_agrees_iff
    (undeclared : updateField.isSome
        ∨ (∃ field, removeMode = .nullField field) →
      snapshotMode = .patch → snapshot.get? "kind" = none) :
    KindAgrees spell (.replaceOrRemove snapshotMode omitted removeMode
        updateField updatesField) projection snapshot changes "replace"
      ↔ CarriesSnapshot omitted snapshot snapshotMode := by
  have ordered := asObject_ordered wellFormed
  rw [← carriesSnapshot_asObject]
  rw [← get?_asObject] at undeclared
  constructor
  · intro agrees
    obtain ⟨kind, held, left⟩ := materializePatch_ok (agrees _ _ rfl)
    rcases kind_of_patchForSnapshot ordered held with rfl | ⟨mode, own⟩
    · exact carriesSnapshot_of_kind held left
    · exfalso
      have none_other : updateField = none ∧ removeMode = .nullSnapshot := by
        constructor
        · by_contra updates
          have absent := undeclared
            (Or.inl (Option.isSome_iff_ne_none.mpr updates)) mode
          rw [absent] at own
          cases own
        · cases removeMode with
          | nullSnapshot => rfl
          | nullField field =>
              rw [undeclared (Or.inr ⟨field, rfl⟩) mode] at own
              cases own
      obtain ⟨rfl, rfl⟩ := none_other
      subst mode
      unfold materializeKind materializeReplaceOrRemove at left
      dsimp only at left
      split at left
      · cases left
      · exact omitFields_ne (nodup_spread_patch "replace" _)
          List.mem_cons_self own (Json.object.inj (Except.ok.inj left))
      · cases left
      · cases left
  · intro carries patch expected case
    obtain ⟨rfl, rfl⟩ := Prod.mk.inj (Except.ok.inj case)
    obtain ⟨kind, left⟩ := snapshotFromPatch_patchForSnapshot ordered carries
    rw [materializePatch_kind kind]
    exact left

theorem replaceOrRemove_remove_agrees
    (object : ∀ field, removeMode = .nullField field →
      ∃ members, snapshot = .object members) :
    KindAgrees spell (.replaceOrRemove snapshotMode omitted removeMode
      updateField updatesField) projection snapshot changes "remove" := by
  intro patch expected case
  unfold projectionFixtureCase at case
  simp only [if_neg (show ¬"remove" = "update" by decide),
    if_neg (show ¬"remove" = "replace" by decide)] at case
  have alone : Members.insert [] "kind" (.string "remove")
      = [("kind", .string "remove")] := rfl
  have kind : (Members.insert [] "kind" (.string "remove")).get? "kind"
      = some (.string "remove") := rfl
  cases removeMode with
  | nullSnapshot =>
      obtain ⟨rfl, rfl⟩ := Prod.mk.inj (Except.ok.inj case)
      rw [materializePatch_kind kind]
      rfl
  | nullField removeField =>
      obtain ⟨members, rfl⟩ := object removeField rfl
      obtain ⟨rfl, rfl⟩ := Prod.mk.inj (Except.ok.inj case)
      rw [materializePatch_kind kind]
      have left : omitFields (Members.insert [] "kind" (.string "remove"))
          ("kind" :: omitted) = [] := by
        rw [omitFields, alone, List.filter_cons_of_neg (by simp)]
        rfl
      simp only [materializeKind, materializeReplaceOrRemove, requireRecord,
        left, Members.ofMembers_of_ordered wellFormed.ordered, pure,
        Except.pure, bind, Except.bind]
      rfl

theorem replaceOrRemove_update_agrees_iff {field updates : String}
    {members : Members} (object : snapshot = .object members) :
    KindAgrees spell (.replaceOrRemove snapshotMode omitted removeMode
        (some field) (some updates)) projection snapshot changes "update"
      ↔ updates ≠ "kind" ∧ HoldsRecord snapshot field := by
  subst object
  constructor
  · intro agrees
    obtain ⟨kind, held, left⟩ := materializePatch_ok (agrees _ _ rfl)
    have apart : updates ≠ "kind" := by
      rintro rfl
      rw [get?_patch_field] at held
      cases held
    rw [get?_patch_kind apart] at held
    obtain rfl := Json.string.inj (Option.some.inj held)
    refine ⟨apart, ?_⟩
    rw [materializeKind, materializeReplaceOrRemove] at left
    obtain ⟨_, planned, left⟩ := except_bind_ok left
    obtain rfl := Except.ok.inj planned
    obtain ⟨_, planned, left⟩ := except_bind_ok left
    obtain rfl := Except.ok.inj planned
    obtain ⟨changed, -, left⟩ := except_bind_ok left
    obtain ⟨record, same, left⟩ := except_bind_ok left
    obtain rfl := Except.ok.inj same
    obtain ⟨target, read, -⟩ := except_bind_ok left
    exact (requireRecord_property_iff _ _ _).mp ⟨target, read⟩
  · rintro ⟨apart, holds⟩ patch expected case
    obtain ⟨rfl, rfl⟩ := Prod.mk.inj (Except.ok.inj case)
    rw [materializePatch_kind (get?_patch_kind apart _)]
    obtain ⟨target, read⟩ := (requireRecord_property_iff
      "field update target" members field).mpr holds
    have changed : requireRecord "field updates" (property
        ((Members.insert [] "kind" (.string "update")).insert updates
          (.object (emptiedArrays (changes.asObject.getD [])))) updates)
        = .ok (emptiedArrays (changes.asObject.getD [])) := by
      rw [property_of_get? (get?_patch_field _ _ _)]
      rfl
    have ordered : target.Ordered ∧ ((members.get? field).bind
        Json.asObject).getD [] = target := by
      rcases holds with ⟨record, held⟩ | ⟨absent, rfl⟩
      · rw [property_of_get? held] at read
        obtain rfl := Except.ok.inj read
        refine ⟨(wellFormed.member held).ordered, ?_⟩
        rw [show members.get? field = some (.object record) from held]
        rfl
      · have inherited : property members "__proto__" = .prototype := by
          rw [property, show members.get? "__proto__" = none from absent]
          rfl
        rw [inherited] at read
        obtain rfl := Except.ok.inj read
        refine ⟨Members.ordered_nil, ?_⟩
        rw [show members.get? "__proto__" = none from absent]
        rfl
    simp only [materializeKind, materializeReplaceOrRemove, requirePlanField,
      changed, bind, Except.bind, pure, Except.pure]
    simp only [requireRecord] at read ⊢
    simp only [read, Members.ofMembers_of_ordered ordered.1,
      withField_of_ordered wellFormed.ordered, ordered.2, Json.asObject,
      Option.getD_some]

end ReplaceOrRemove

/-- What a plan's settings promise of the snapshot sampled for it. -/
structure SnapshotOf (plan : MaterializationPlan) (sampled : Json) : Prop where
  wellFormed : sampled.WellFormed
  settings : ∀ snapshotMode omitted removeMode updateField updatesField,
    plan = .replaceOrRemove snapshotMode omitted removeMode updateField
      updatesField →
    updateField.isSome = updatesField.isSome
      ∧ (updateField.isSome ∨ (∃ field, removeMode = .nullField field) →
        (∃ members, sampled = .object members)
          ∧ (snapshotMode = .patch → sampled.get? "kind" = none))

/-- When the client and a fixture agree on a patch. -/
theorem kindAgrees_iff {sampled : Json} (snapshotOf : SnapshotOf plan sampled)
    {kind : String} (ofPlan : kind ∈ plan.patchKinds) :
    KindAgrees spell plan projection (prepareFixtureSnapshot sampled plan)
        changes kind
      ↔ PatchApart (prepareFixtureSnapshot sampled plan) plan kind := by
  have wellFormed := snapshotOf.wellFormed
  cases plan with
  | keyedCollection collectionField itemField itemIdentityField
      patchIdentityField =>
      obtain ⟨members, item, prepared, keyed⟩ := @keyedSnapshot_prepared
        collectionField itemField itemIdentityField patchIdentityField sampled
        wellFormed
      rw [prepared]
      simp only [MaterializationPlan.patchKinds, List.mem_cons,
        List.not_mem_nil, or_false] at ofPlan
      rcases ofPlan with rfl | rfl | rfl
      · exact keyed_remove_agrees_iff keyed
      · exact keyed_reset_agrees_iff keyed
      · exact keyed_upsert_agrees_iff keyed
  | sequencedText collectionField itemIdentityField patchIdentityField
      snapshotOutputField sequenceField textField patchOutputField
      deltaTextField =>
      obtain ⟨members, item, prepared, stream⟩ := @streamSnapshot_prepared
        collectionField itemIdentityField patchIdentityField
        snapshotOutputField sequenceField textField patchOutputField
        deltaTextField sampled wellFormed
      rw [prepared]
      simp only [MaterializationPlan.patchKinds, List.mem_cons,
        List.not_mem_nil, or_false] at ofPlan
      rcases ofPlan with rfl | rfl
      · exact stream_output_agrees_iff stream
      · exact stream_reset_agrees_iff stream
  | replaceOrRemove snapshotMode omitted removeMode updateField updatesField =>
      obtain ⟨both, object⟩ := snapshotOf.settings _ _ _ _ _ rfl
      change KindAgrees spell _ projection sampled changes kind
        ↔ PatchApart sampled _ kind
      have update_or : kind = "remove" ∨ kind = "replace"
          ∨ (kind = "update" ∧ updateField.isSome) := by
        cases updateField <;>
          simpa [MaterializationPlan.patchKinds] using ofPlan
      rcases update_or with rfl | rfl | ⟨rfl, updated⟩
      · refine iff_of_true (replaceOrRemove_remove_agrees wellFormed ?_) trivial
        intro field mode
        exact (object (Or.inr ⟨field, mode⟩)).1
      · exact replaceOrRemove_replace_agrees_iff wellFormed fun either =>
          (object either).2
      · obtain ⟨field, rfl⟩ := Option.isSome_iff_exists.mp updated
        obtain ⟨updates, rfl⟩ :=
          Option.isSome_iff_exists.mp (both.symm.trans updated)
        obtain ⟨members, rfl⟩ := (object (Or.inl rfl)).1
        rw [replaceOrRemove_update_agrees_iff wellFormed rfl]
        constructor
        · rintro apart _ _ ⟨⟩ ⟨⟩
          exact apart
        · intro apart
          exact apart field updates rfl rfl
  | replace snapshotMode omitted =>
      obtain rfl := List.mem_singleton.mp ofPlan
      exact replace_agrees_iff wellFormed
  | reset =>
      obtain rfl := List.mem_singleton.mp ofPlan
      exact reset_agrees_iff wellFormed

end Carrying

/-! ## Projections -/

section Projections

variable {spell : Property → String} {scientific : Scientific}
  {definition : Sections} {projection : Projection} {fuel : Nat}
  {fixture : ProjectionFixture}

/-- What the validator leaves of a definition a projection is of. -/
structure Accepted (scientific : Scientific) (definition : Sections)
    (projection : Projection) : Prop where
  wellFormed : (Json.object definition.defs).WellFormed
  definitions : ∃ fuel,
    Running.Succeeds (checkDefinitions scientific definition fuel) ⟨⟩
  materialization :
    checkMaterialization scientific definition projection = .ok ⟨⟩

/-- What a snapshot's settings promise, the validator checked. -/
theorem Accepted.snapshotOf (accepted : Accepted scientific definition projection)
    {snapshotSchema : Members} {sampled : Json}
    (resolved : resolveRef definition projection.snapshot
      s!"projections.{projection.name}.snapshot" = .ok snapshotSchema)
    (sample : Running.Succeeds
      (sampleValue definition none fuel snapshotSchema none) sampled) :
    SnapshotOf projection.materialization sampled := by
  obtain ⟨name, -, found⟩ := resolveRef_eq_ok resolved
  refine ⟨sampleWithin_wellFormed accepted.wellFormed fuel
    (accepted.wellFormed.field found) sample, ?_⟩
  intro snapshotMode omitted removeMode updateField updatesField plan
  obtain ⟨schema, patchName, patchSchema, kinds, place, checked, -, -, -, -,
    settings⟩ := checkMaterialization_ok accepted.materialization
  obtain rfl := Except.ok.inj (resolved.symm.trans checked)
  rw [plan] at settings
  obtain ⟨both, mode, declared⟩ := checkPlan_replaceOrRemove settings
  refine ⟨both, fun either => ?_⟩
  obtain ⟨property, _, _, contract⟩ := declared either
  obtain ⟨typed, properties, listed, -⟩ := contractProperty_ok contract
  obtain ⟨checkFuel, checked⟩ := accepted.definitions
  have only := checkDefinitions_declared checked
    found typed (by rw [objectField_eq_some.mp listed]; rfl)
  obtain ⟨members, rfl, within⟩ := sampleWithin_declared typed listed only sample
  refine ⟨⟨members, rfl⟩, ?_⟩
  rintro rfl
  have apart := checkPatchMatchesSnapshot_ok (checkSnapshotMode_ok mode) listed
  rw [Json.get?, Members.get?_eq_none_iff]
  intro present
  rcases within "kind" present with held | other
  · exact apart "kind" List.mem_cons_self held
  · exact otherName_ne_kind properties other.symm

/--
A checked projection's fixture has one patch of each of its plan's kinds, and
the client, applying one to the fixture's snapshot, is left with the snapshot
the fixture expects just when the patch keeps its kind and what it carries
apart.
-/
theorem fixture_agrees_iff (accepted : Accepted scientific definition projection)
    (generated : Running.Succeeds (projectionFixture definition fuel projection)
      fixture) :
    (fixture.cases.map FixtureCase.kind).Perm
        projection.materialization.patchKinds
      ∧ ∀ case ∈ fixture.cases,
        (materializePatch spell fixture.snapshot
            ⟨projection.name, .object case.patch⟩ projection.materialization
          = .ok case.expectedSnapshot
        ↔ PatchApart fixture.snapshot projection.materialization
            case.kind) := by
  unfold projectionFixture at generated
  obtain ⟨snapshotSchema, snapshot, generated⟩ :=
    (Running.succeeds_bind _ _ _).mp generated
  obtain ⟨patchSchema, patch, generated⟩ :=
    (Running.succeeds_bind _ _ _).mp generated
  obtain ⟨sampled, sample, generated⟩ :=
    (Running.succeeds_bind _ _ _).mp generated
  obtain ⟨kindSchema, kind, generated⟩ :=
    (Running.succeeds_bind _ _ _).mp generated
  obtain ⟨kinds, listed, generated⟩ :=
    (Running.succeeds_bind _ _ _).mp generated
  obtain ⟨cases, gathered, generated⟩ :=
    (Running.succeeds_bind _ _ _).mp generated
  obtain rfl := (Running.succeeds_pure _ _).mp generated
  rw [Running.succeeds_settled] at snapshot patch kind listed
  have each := (Running.succeeds_mapM _ _ _).mp gathered
  have snapshotOf := accepted.snapshotOf snapshot sample
  obtain ⟨_, patchName, schema, declared, place, -, named, found, checked, all,
    -⟩ := checkMaterialization_ok accepted.materialization
  have same_schema : resolveRef definition projection.patch
      s!"projections.{projection.name}.patch" = .ok schema := by
    rw [resolveRef, named]
    simp only [bind, Except.bind, found, expect]
  obtain rfl := Except.ok.inj (patch.symm.trans same_schema)
  have same_kinds : declared = kinds := by
    obtain ⟨-, properties, members, entry⟩ := contractProperty_ok kind
    rw [declaredKinds, members, Option.bind_some, entry, Option.bind_some]
      at checked
    exact Except.ok.inj (checked.symm.trans (readStringArray_ok listed place))
  subst same_kinds
  have kinds_of_cases : declared = cases.map FixtureCase.kind := by
    rw [← List.forall₂_eq_eq_eq, List.forall₂_map_right_iff]
    exact each.imp fun _ _ one => (fixtureCase_succeeds one).1.symm
  rw [← kinds_of_cases]
  refine ⟨all, fun case within => ?_⟩
  obtain ⟨kind, listed_kind, one⟩ := Running.succeeds_mapM_mem gathered within
  obtain ⟨same, changes, composed⟩ := fixtureCase_succeeds one
  rw [← kindAgrees_iff snapshotOf
    (same.symm ▸ all.mem_iff.mp listed_kind : case.kind ∈ _), same]
  constructor
  · intro agrees patch expected also
    obtain ⟨rfl, rfl⟩ := Prod.mk.inj (Except.ok.inj (composed.symm.trans also))
    exact agrees
  · intro agrees
    exact agrees _ _ composed

end Projections

/-! ## A collection identified by its patches' kind -/

section Notes

def textSchema : Json :=
  .object [("type", .string "string")]

def reference (name : String) : Members :=
  [("$ref", .string s!"#/$defs/{name}")]

def arraySchema (items : Members) : Json :=
  .object [("type", .string "array"), ("items", .object items)]

/-- A closed object schema. -/
def objectSchema (properties : Members) (required : List String) : Json :=
  .object
    [("type", .string "object"), ("additionalProperties", .bool false),
      ("properties", .object properties),
      ("required", .array (required.map .string))]

def notesDefinition : Sections where
  namespaceName := "notes"
  entities := []
  projections := []
  mutations := []
  commands := []
  collaboration := []
  defs :=
    [("Note", objectSchema [("id", textSchema)] ["id"]),
      ("NotesPatch", objectSchema
        [("kind", .object [("type", .string "string"), ("enum", .array
            [.string "remove", .string "reset", .string "upsert"])]),
          ("note", .object (reference "Note")),
          ("notes", arraySchema (reference "Note"))] ["kind"]),
      ("NotesSnapshot", objectSchema
        [("notes", arraySchema (reference "Note"))] ["notes"])]

def notesProjection : Projection where
  name := "notes"
  snapshot := reference "NotesSnapshot"
  patch := reference "NotesPatch"
  materialization := .keyedCollection "notes" "note" "id" "kind"

def fixtureNote : Json :=
  .object [("id", .string "fixture-id")]

def notesSnapshot (notes : List Json) : Json :=
  .object [("notes", .array notes)]

/-- The fixture of notes; its removal names the note where its kind stood. -/
def notesFixture : ProjectionFixture where
  snapshot := notesSnapshot [fixtureNote]
  cases :=
    [{ kind := "remove"
       patch := [("kind", .string "fixture-id")]
       expectedSnapshot := notesSnapshot [] },
      { kind := "reset"
        patch := [("kind", .string "reset"), ("notes", .array [fixtureNote])]
        expectedSnapshot := notesSnapshot [fixtureNote] },
      { kind := "upsert"
        patch := [("kind", .string "upsert"), ("note", fixtureNote)]
        expectedSnapshot := notesSnapshot [fixtureNote] }]

theorem accepted_notes (scientific : Scientific) :
    Accepted scientific notesDefinition notesProjection where
  wellFormed := by decide
  definitions := ⟨5, rfl⟩
  materialization := rfl

theorem generated_notes :
    Running.Succeeds (projectionFixture notesDefinition 5 notesProjection)
      notesFixture :=
  rfl

theorem fixture_agrees_iff_notes :
    (notesFixture.cases.map FixtureCase.kind).Perm ["remove", "reset", "upsert"]
      ∧ ∀ case ∈ notesFixture.cases,
        (materializePatch (fun _ => "") notesFixture.snapshot
            ⟨"notes", .object case.patch⟩ notesProjection.materialization
          = .ok case.expectedSnapshot
        ↔ PatchApart notesFixture.snapshot notesProjection.materialization
            case.kind) :=
  fixture_agrees_iff (accepted_notes naturals) generated_notes

/-- The client refuses the removal: it is of no kind it knows. -/
theorem notes_removal_refused :
    ∃ definition projection fuel fixture,
      (∀ scientific, Accepted scientific definition projection)
        ∧ Running.Succeeds (projectionFixture definition fuel projection) fixture
        ∧ ∃ case ∈ fixture.cases, ∀ spell,
            materializePatch spell fixture.snapshot
                ⟨projection.name, .object case.patch⟩ projection.materialization
              ≠ .ok case.expectedSnapshot := by
  refine ⟨notesDefinition, notesProjection, 5, notesFixture, accepted_notes,
    generated_notes, _, List.mem_cons_self, ?_⟩
  intro spell applied
  cases applied

end Notes

end Clerkenwell.Client
