import Clerkenwell.Codegen.CheckedNodes
import Clerkenwell.Codegen.Materialization

/-!
# What a checked plan is

What the checks of a projection's materialization say of its contracts.
-/

namespace Clerkenwell.Codegen

open Clerkenwell.Foundation

variable {scientific : Scientific} {definition : Sections}
  {snapshotSchema patchSchema : Members} {context : String}
  {plan : MaterializationPlan}

theorem contractProperty_ok {schema found : Members} {property : String}
    (declared : contractProperty schema property context = .ok found) :
    hasType schema "object" = true ∧ ∃ properties,
      objectField schema "properties" = some properties
        ∧ objectField properties property = some found := by
  unfold contractProperty at declared
  by_cases typed : hasType schema "object" = true
  · rw [if_pos typed] at declared
    dsimp only at declared
    split at declared
    · next held same =>
      obtain rfl := Except.ok.inj declared
      exact ⟨typed, Option.bind_eq_some_iff.mp same⟩
    · cases declared
  · rw [if_neg typed] at declared
    cases declared

theorem discard_ok {Value : Type} {checked : Checked Value}
    (succeeds : discard checked = .ok ⟨⟩) : ∃ value, checked = .ok value := by
  cases checked with
  | error failure => cases succeeds
  | ok value => exact ⟨value, rfl⟩

theorem perm_of_sortedNames {left right : List String}
    (same : sortedNames left = sortedNames right) : left.Perm right := by
  have sorted := List.perm_insertionSort
    (fun left right : String => (codeUnitsBefore left right : Prop))
  exact (sorted left).symm.trans ((List.Perm.of_eq same).trans (sorted right))

/-- A patch that carries a snapshot's members beside its kind shares none. -/
theorem checkPatchMatchesSnapshot_ok {omitted : List String}
    (checked : checkPatchMatchesSnapshot snapshotSchema patchSchema context
      omitted = .ok ⟨⟩) {properties : Members}
    (declared : objectField snapshotSchema "properties" = some properties) :
    ∀ name ∈ "kind" :: omitted, name ∉ properties.keys := by
  unfold checkPatchMatchesSnapshot at checked
  have same := (of_unless_refuse checked).1
  rw [not_not] at same
  have names := perm_of_sortedNames same
  simp only [declared, Option.map_some, Option.getD_some] at names
  intro name left_out present
  have kept := (List.mem_filter.mp (names.mem_iff.mp present)).2
  rw [decide_eq_true_iff] at kept
  rcases List.mem_cons.mp left_out with rfl | omits
  · exact kept.1 rfl
  · exact kept.2 omits

theorem checkSnapshotMode_ok {omitted : List String}
    (checked : checkSnapshotMode snapshotSchema patchSchema context omitted
      .patch = .ok ⟨⟩) :
    checkPatchMatchesSnapshot snapshotSchema patchSchema context omitted
      = .ok ⟨⟩ := by
  unfold checkSnapshotMode at checked
  obtain ⟨⟨⟩, -, matches_⟩ := except_bind_ok checked
  exact matches_

/--
The settings of a replaceable snapshot: both update fields or neither, each
that is set and the field a removal sets declared on the snapshot.
-/
theorem checkPlan_replaceOrRemove {snapshotMode : SnapshotMode}
    {omitted : List String} {removeMode : RemoveMode}
    {updateField updatesField : Option String}
    (checked : checkPlan scientific definition snapshotSchema patchSchema context
      (.replaceOrRemove snapshotMode omitted removeMode updateField
        updatesField) = .ok ⟨⟩) :
    updateField.isSome = updatesField.isSome
      ∧ checkSnapshotMode snapshotSchema patchSchema context omitted
          snapshotMode = .ok ⟨⟩
      ∧ (updateField.isSome ∨ (∃ field, removeMode = .nullField field) →
        ∃ property place found,
          contractProperty snapshotSchema property place = .ok found) := by
  unfold checkPlan at checked
  obtain ⟨both, checked⟩ := of_unless_refuse checked
  obtain ⟨⟨⟩, updates, checked⟩ := except_bind_ok checked
  obtain ⟨⟨⟩, mode, removes⟩ := except_bind_ok checked
  refine ⟨not_not.mp both, mode, ?_⟩
  rintro (updated | ⟨field, rfl⟩)
  · obtain ⟨field, rfl⟩ := Option.isSome_iff_exists.mp updated
    obtain ⟨others, rfl⟩ :=
      Option.isSome_iff_exists.mp ((not_not.mp both).symm.trans updated)
    obtain ⟨target, declared, -⟩ := except_bind_ok updates
    exact ⟨field, _, target, declared⟩
  · obtain ⟨found, declared⟩ := discard_ok removes
    exact ⟨field, _, found, declared⟩

/-- A checked projection's contracts are entries, with its plan's patch kinds. -/
theorem checkMaterialization_ok {projection : Projection}
    (checked : checkMaterialization scientific definition projection = .ok ⟨⟩) :
    ∃ snapshotSchema patchName patchSchema kinds place,
      resolveRef definition projection.snapshot
          s!"projections.{projection.name}.snapshot" = .ok snapshotSchema
        ∧ schemaRefName definition projection.patch
            s!"projections.{projection.name}.patch" = .ok patchName
        ∧ definition.def? patchName = some patchSchema
        ∧ declaredKinds patchSchema place = .ok kinds
        ∧ kinds.Perm projection.materialization.patchKinds
        ∧ checkPlan scientific definition snapshotSchema patchSchema
            s!"projections.{projection.name}.materialization"
            projection.materialization = .ok ⟨⟩ := by
  unfold checkMaterialization at checked
  obtain ⟨snapshotSchema, snapshot, checked⟩ := except_bind_ok checked
  obtain ⟨patchName, named, checked⟩ := except_bind_ok checked
  obtain ⟨patchSchema, found, checked⟩ := except_bind_ok checked
  obtain ⟨kinds, declared, checked⟩ := except_bind_ok checked
  obtain ⟨same, plan⟩ := of_unless_refuse checked
  exact ⟨snapshotSchema, patchName, patchSchema, kinds, _, snapshot, named,
    expect_eq_ok found, declared, perm_of_sortedNames (not_not.mp same), plan⟩

end Clerkenwell.Codegen
