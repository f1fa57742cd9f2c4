import Clerkenwell.Codegen.Comparisons

/-!
# Checks of schema nodes settle

A check of a node goes into the smaller nodes it declares, and follows and
compares references, which settles.
-/

namespace Clerkenwell.Codegen

open Clerkenwell.Foundation Running

/-! ## Keywords -/

section Keywords

variable {scientific : Scientific} {schema : Members} {types : List String}
  {context : String}

theorem refuses_checkApplicableKeywords :
    Refuses (checkApplicableKeywords schema types context) :=
  refuses_forM _ fun _ _ => refuses_ite (fun _ => refuses_refuse _)
    fun _ => refuses_ok _

theorem refuses_checkEnum : Refuses (checkEnum schema context) := by
  unfold checkEnum
  split
  · exact refuses_ok _
  · dsimp only
    split
    · exact refuses_refuse _
    · refine refuses_ite (fun _ => refuses_refuse _) fun _ => ?_
      split
      · exact refuses_refuse _
      · exact refuses_ok _

theorem refuses_checkConstantType {constant : Json} :
    Refuses (checkConstantType constant types context) := by
  unfold checkConstantType
  split
  · split
    · exact refuses_refuse _
    · refine refuses_ite (fun _ => refuses_refuse _) fun _ => ?_
      exact refuses_ite (fun _ => refuses_refuse _) fun _ => refuses_ok _
  · exact refuses_ite (fun _ => refuses_ok _) fun _ => refuses_refuse _

theorem refuses_checkConstant : Refuses (checkConstant schema types context) := by
  unfold checkConstant
  split
  · exact refuses_ok _
  · refine refuses_ite (fun _ => refuses_refuse _) fun _ => ?_
    refine refuses_checkConstantType.bind fun _ _ => ?_
    exact refuses_ite (fun _ => refuses_refuse _) fun _ => refuses_ok _

theorem refuses_checkNumericBounds :
    Refuses (checkNumericBounds schema types context) := by
  refine Refuses.bind (refuses_forM _ fun name _ => ?_) fun _ _ => ?_
  · split
    · exact refuses_ite (fun _ => refuses_refuse _) fun _ => refuses_ok _
    · exact refuses_ok _
  · split
    · exact refuses_ite (fun _ => refuses_refuse _) fun _ => refuses_ok _
    · exact refuses_ok _

theorem refuses_checkConstantBounds :
    Refuses (checkConstantBounds schema context) := by
  unfold checkConstantBounds
  split
  · exact refuses_ok _
  · exact refuses_forM _ fun _ _ => refuses_ite (fun _ => refuses_ok _)
      fun _ => refuses_refuse _

theorem refuses_checkMinLength :
    Refuses (checkMinLength schema types context) := by
  unfold checkMinLength
  split
  · exact refuses_ok _
  · refine refuses_ite (fun _ => refuses_refuse _) fun _ => ?_
    exact refuses_ite (fun _ => refuses_refuse _) fun _ => refuses_ok _

theorem refuses_checkEnumBounds : Refuses (checkEnumBounds schema context) := by
  unfold checkEnumBounds
  split
  · exact refuses_ok _
  · exact refuses_ite (fun _ => refuses_ok _) fun _ => refuses_refuse _

theorem refuses_checkValidationKeywords :
    Refuses (checkValidationKeywords schema types context) := by
  refine refuses_checkNumericBounds.bind fun _ _ => ?_
  refine refuses_checkConstant.bind fun _ _ => ?_
  refine refuses_checkConstantBounds.bind fun _ _ => ?_
  refine refuses_checkMinLength.bind fun _ _ => ?_
  exact refuses_checkEnumBounds

theorem refuses_checkDefaultValue :
    Refuses (checkDefaultValue scientific schema context) := by
  unfold checkDefaultValue
  split
  · exact refuses_ok _
  · refine (refuses_primitiveUnionTypes schema).bind fun types _ => ?_
    split
    · exact refuses_ite (fun _ => refuses_ok _) fun _ => refuses_refuse _
    · refine refuses_ite (fun _ => refuses_refuse _) fun _ => ?_
      split
      · exact refuses_ite (fun _ => refuses_ok _) fun _ => refuses_refuse _
      · exact refuses_ok _

theorem refuses_checkTypedKeywords :
    Refuses (checkTypedKeywords scientific schema types context) := by
  refine refuses_checkApplicableKeywords.bind fun _ _ => ?_
  refine refuses_checkValidationKeywords.bind fun _ _ => ?_
  exact refuses_checkDefaultValue

theorem refuses_checkUnionHead : Refuses (checkUnionHead schema context) := by
  unfold checkUnionHead
  dsimp only
  refine refuses_ite (fun _ => refuses_refuse _) fun _ => ?_
  refine refuses_ite (fun _ => refuses_refuse _) fun _ => ?_
  split
  · exact refuses_refuse _
  · refine refuses_ite (fun _ => refuses_refuse _) fun _ => ?_
    split
    · exact refuses_refuse _
    · refine refuses_ite (fun _ => refuses_refuse _) fun _ => ?_
      split
      · exact refuses_refuse _
      · exact refuses_ok _

theorem refuses_checkVariantHead {discriminator tag : String} {variant : Json} :
    Refuses (checkVariantHead discriminator tag variant context) := by
  unfold checkVariantHead
  refine refuses_ite (fun _ => refuses_refuse _) fun _ => ?_
  split
  · exact refuses_refuse _
  · refine refuses_ite (fun _ => refuses_refuse _) fun _ => ?_
    refine refuses_ite (fun _ => refuses_refuse _) fun _ => ?_
    exact refuses_ite (fun _ => refuses_refuse _) fun _ => refuses_ok _

theorem refuses_readStringArray {value : Option Json} :
    Refuses (readStringArray value context) := by
  unfold readStringArray
  split
  · exact refuses_ok _
  · split
    · exact refuses_ok _
    · exact refuses_refuse _

end Keywords

/-! ## Nodes -/

section Nodes

variable {scientific : Scientific} {definition : Sections} {schema : Members}
  {context : String}

theorem checkReference_settles (followable : Followable definition) :
    Settles IsRefusal fun fuel =>
      checkReference scientific definition fuel schema context := by
  unfold checkReference
  split
  · exact settles_refused _
  · refine (settles_checked refuses_schemaRefName).discard.bind fun _ _ => ?_
    split
    · exact settles_pure _
    · refine (dereference_settles followable schema).bind fun referenced _ => ?_
      exact settles_checked refuses_checkDefaultValue

theorem checkOpenObject_settles (followable : Followable definition)
    {otherMembers : Members} :
    Settles IsRefusal fun fuel =>
      checkOpenObject scientific definition fuel schema otherMembers
        context := by
  unfold checkOpenObject
  split
  · exact settles_refused _
  · next properties held =>
    refine settles_forM properties ?_
    rintro ⟨propertyName, propertySchema⟩ within
    dsimp only
    split
    · exact settles_refused _
    · cases propertySchema.asObject with
      | none => exact settles_refused _
      | some members =>
          refine (admits_settles followable [] otherMembers members).bind
            fun admitted _ => ?_
          cases admitted with
          | true => exact settles_pure _
          | false => exact settles_refused _

/-- Whether the checks of every node within a schema settle. -/
def NodesSettle (checkNode : Nat → Option Json → String → Running Failure PUnit)
    (schema : Members) : Prop :=
  ∀ value : Json, sizeOf value < sizeOf schema → ∀ context,
    Settles IsRefusal fun fuel => checkNode fuel (some value) context

variable {checkNode : Nat → Option Json → String → Running Failure PUnit}

theorem checkTaggedUnion_settles (nodes : NodesSettle checkNode schema) :
    Settles IsRefusal fun fuel =>
      checkTaggedUnion (checkNode fuel) schema context := by
  refine (settles_checked refuses_checkUnionHead).bind fun head comes => ?_
  obtain ⟨_, alone⟩ := comes
  rw [succeeds_settled] at alone
  have declared := (checkUnionHead_ok alone).2.2.2.1
  refine settles_forM head.2 ?_
  rintro ⟨tag, variant⟩ within
  refine (settles_checked refuses_checkVariantHead).bind fun _ _ => ?_
  apply nodes
  exact (sizeOf_lt_of_mem_members within).trans (sizeOf_objectField_lt declared)

theorem checkProperties_settles (nodes : NodesSettle checkNode schema) :
    Settles IsRefusal fun fuel =>
      checkProperties (checkNode fuel) schema context := by
  unfold checkProperties
  split
  · exact settles_refused _
  · next properties declared =>
    refine (settles_checked refuses_readStringArray).bind fun required _ => ?_
    refine (settles_forM required fun name _ => ?_).bind fun _ _ => ?_
    · split
      · exact settles_pure _
      · exact settles_refused _
    · split
      · exact settles_refused _
      · refine settles_forM properties ?_
        rintro ⟨propertyName, propertySchema⟩ within
        apply nodes
        exact (sizeOf_lt_of_mem_members within).trans
          (sizeOf_objectField_lt declared)

theorem checkObject_settles (followable : Followable definition)
    (nodes : NodesSettle checkNode schema) :
    Settles IsRefusal fun fuel =>
      checkObject scientific definition (checkNode fuel) fuel schema
        context := by
  unfold checkObject
  split
  · exact checkProperties_settles nodes
  · next otherMembers held =>
    have smaller := sizeOf_lt_of_mem_members (Members.mem_of_get? held)
    refine (nodes _ smaller _).bind fun _ _ => ?_
    split
    · split
      · exact settles_refused _
      · exact settles_pure _
    · refine (checkOpenObject_settles followable).bind fun _ _ => ?_
      exact checkProperties_settles nodes
  · exact settles_refused _

theorem checkObjectNode_settles (followable : Followable definition)
    (nodes : NodesSettle checkNode schema) :
    Settles IsRefusal fun fuel =>
      checkObjectNode scientific definition (checkNode fuel) fuel schema
        context := by
  unfold checkObjectNode
  refine (settles_forM schema.keys fun key _ => ?_).bind fun _ _ => ?_
  · split
    · exact settles_pure _
    · exact settles_refused _
  · split
    · exact checkReference_settles followable
    · refine (settles_checked refuses_checkEnum).bind fun _ _ => ?_
      split
      · exact checkTaggedUnion_settles nodes
      · refine (settles_checked (refuses_primitiveUnionTypes schema)).bind
          fun types _ => ?_
        split
        · exact settles_checked refuses_checkTypedKeywords
        · split
          · exact settles_refused _
          · refine (settles_checked refuses_checkTypedKeywords).bind
              fun _ _ => ?_
            split
            · exact checkObject_settles followable nodes
            · split
              · exact settles_refused _
              · next items declared =>
                apply nodes
                exact sizeOf_lt_of_mem_members (Members.mem_of_get?
                  (objectField_eq_some.mp declared))
            all_goals first | exact settles_pure _ | exact settles_refused _

/-- A check of a node settles. -/
theorem checkSchemaNode_settles (followable : Followable definition)
    (node : Option Json) (context : String) :
    Settles IsRefusal fun fuel =>
      checkSchemaNode scientific definition fuel node context := by
  obtain ⟨size, measured⟩ : ∃ size, sizeOf node = size := ⟨_, rfl⟩
  induction size using Nat.strong_induction_on generalizing node context with
  | _ size inductionHypothesis =>
    refine settles_of_succ (by rfl) ?_
    match node with
    | some (.object schema) =>
        refine checkObjectNode_settles followable fun value smaller context => ?_
        refine inductionHypothesis _ ?_ (some value) context rfl
        simp only [Option.some.sizeOf_spec, Json.object.sizeOf_spec] at measured ⊢
        omega
    | none | some .null | some (.bool _) | some (.number _) | some (.string _)
    | some (.array _) => exact settles_refused _

/-- The check of every entry settles. -/
theorem checkDefinitions_settles (followable : Followable definition) :
    Settles IsRefusal fun fuel =>
      checkDefinitions scientific definition fuel := by
  unfold checkDefinitions
  refine (settles_foldlM definition.defs [] ?_).bind fun _ _ => settles_pure _
  rintro earlier ⟨name, schema⟩ -
  dsimp only
  split
  · exact settles_refused _
  · refine (checkSchemaNode_settles followable (some schema) _).bind fun _ _ => ?_
    exact settles_pure _

end Nodes

end Clerkenwell.Codegen
