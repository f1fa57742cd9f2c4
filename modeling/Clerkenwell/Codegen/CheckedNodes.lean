import Clerkenwell.Codegen.SchemaChecks
import Clerkenwell.Foundation.Results

/-!
# What a checked node is

What the checks of a schema node leave of the forms it may take.
-/

namespace Clerkenwell.Codegen

open Clerkenwell.Foundation

/-! ## Steps that succeed -/

theorem not_refuse_ok {Value : Type} {message : String} {value : Value} :
    ¬refuse message = Except.ok value := by
  intro succeeds
  cases succeeds

/-- A condition whose failure is refused holds where a check succeeds. -/
theorem of_unless_refuse {condition : Prop} [Decidable condition]
    {message : String} {Value : Type} {rest : Checked Value} {value : Value}
    (succeeds : (if condition then refuse message else rest) = .ok value) :
    ¬condition ∧ rest = .ok value := by
  by_cases held : condition
  · rw [if_pos held] at succeeds
    exact absurd succeeds not_refuse_ok
  · rw [if_neg held] at succeeds
    exact ⟨held, succeeds⟩

theorem strField_eq_some {members : Members} {key text : String} :
    strField members key = some text
      ↔ members.get? key = some (.string text) := by
  unfold strField
  cases held : members.get? key with
  | none => simp
  | some value => cases value <;> simp [Json.asStr]

theorem objectField_eq_some {members fields : Members} {key : String} :
    objectField members key = some fields
      ↔ members.get? key = some (.object fields) := by
  unfold objectField
  cases held : members.get? key with
  | none => simp
  | some value => cases value <;> simp [Json.asObject]

theorem hasType_iff {schema : Members} {expected : String} :
    hasType schema expected = true
      ↔ schema.get? "type" = some (.string expected) := by
  rw [hasType, beq_iff_eq, strField_eq_some]

theorem otherMembersSchema_eq_some {schema additional : Members}
    (open_object : otherMembersSchema schema = some additional) :
    objectField schema "additionalProperties" = some additional := by
  unfold otherMembersSchema at open_object
  split at open_object
  · cases open_object
  · obtain ⟨-, -, held⟩ := Option.bind_eq_some_iff.mp open_object
    exact held

theorem primitiveUnionTypes_of_hasType {schema : Members} {expected : String}
    (typed : hasType schema expected = true) :
    primitiveUnionTypes schema = .ok none := by
  unfold primitiveUnionTypes
  rw [hasType_iff.mp typed]

section Checked

variable {scientific : Scientific} {definition : Sections} {fuel : Nat}
  {schema : Members} {context : String}

theorem checkEnum_ok (checked : checkEnum schema context = .ok ⟨⟩)
    (listed : (schema.get? "enum").isSome = true) :
    hasType schema "string" = true := by
  unfold checkEnum at checked
  obtain ⟨values, held⟩ := Option.isSome_iff_exists.mp listed
  rw [held] at checked
  simp only at checked
  split at checked
  · cases checked
  · simpa using (of_unless_refuse checked).1

theorem checkReference_succeeds
    (checked : Running.Succeeds
      (checkReference scientific definition fuel schema context) ⟨⟩) :
    ∀ key ∈ schema.keys, key ∈ referenceKeywords := by
  unfold checkReference at checked
  by_contra other
  push Not at other
  obtain ⟨key, within, beyond⟩ := other
  have any : schema.keys.any (fun key => !referenceKeywords.contains key)
      = true := by
    rw [List.any_eq_true]
    exact ⟨key, within, by simpa using beyond⟩
  rw [if_pos any] at checked
  cases checked

theorem checkUnionHead_ok {head : String × Members}
    (checked : checkUnionHead schema context = .ok head) :
    hasType schema "object" = true
      ∧ schema.get? "properties" = none
      ∧ schema.get? "additionalProperties" = none
      ∧ objectField schema "oneOf" = some head.2
      ∧ strField schema "discriminator" = some head.1
      ∧ head.2 ≠ [] := by
  unfold checkUnionHead at checked
  obtain ⟨-, checked⟩ := of_unless_refuse checked
  obtain ⟨typed, checked⟩ := of_unless_refuse checked
  split at checked
  · exact absurd checked not_refuse_ok
  · next discriminator named =>
    obtain ⟨alone, checked⟩ := of_unless_refuse checked
    split at checked
    · exact absurd checked not_refuse_ok
    · next variants declared =>
      obtain ⟨inhabited, checked⟩ := of_unless_refuse checked
      split at checked
      · exact absurd checked not_refuse_ok
      · obtain rfl := Except.ok.inj checked
        rw [Bool.or_eq_true, not_or] at alone
        refine ⟨by simpa using typed, by simpa using alone.1,
          by simpa using alone.2, declared, (Option.filter_eq_some_iff.mp named).1,
          by simpa using inhabited⟩

theorem checkConstant_ok {single : String}
    (checked : checkConstant schema [single] context = .ok ⟨⟩)
    (declared : (schema.get? "const").isSome = true) :
    (constantType single).isSome = true := by
  unfold checkConstant at checked
  obtain ⟨constant, held⟩ := Option.isSome_iff_exists.mp declared
  rw [held] at checked
  obtain ⟨-, checked⟩ := of_unless_refuse checked
  obtain ⟨⟨⟩, typed, -⟩ := except_bind_ok checked
  unfold checkConstantType at typed
  split at typed
  · next only =>
    obtain rfl := (List.singleton_inj.mp only).symm
    split at typed
    · exact absurd typed not_refuse_ok
    · next expected found => rw [found]; rfl
  · next plural => exact absurd rfl (plural single)

/-- A checked object schema with declared members has no other form. -/
theorem checkObjectNode_declared
    {checkNode : Option Json → String → Running Failure PUnit}
    (checked : Running.Succeeds
      (checkObjectNode scientific definition checkNode fuel schema context) ⟨⟩)
    (typed : hasType schema "object" = true)
    (declares : (schema.get? "properties").isSome = true) :
    schema.get? "$ref" = none ∧ schema.get? "const" = none
      ∧ schema.get? "enum" = none ∧ schema.get? "oneOf" = none := by
  unfold checkObjectNode at checked
  obtain ⟨⟨⟩, -, checked⟩ := (Running.succeeds_bind _ _ _).mp checked
  have unreferenced : (schema.get? "$ref").isSome = false := by
    by_contra referenced
    rw [if_pos (Bool.of_not_eq_false referenced)] at checked
    have named := checkReference_succeeds checked "properties"
      ((Members.containsKey_iff schema "properties").mp declares)
    simp [referenceKeywords] at named
  rw [unreferenced, if_neg (by simp)] at checked
  obtain ⟨⟨⟩, listed, checked⟩ := (Running.succeeds_bind _ _ _).mp checked
  rw [Running.succeeds_settled] at listed
  have unlisted : schema.get? "enum" = none := by
    by_contra enumerated
    have textual := checkEnum_ok listed (by simpa [Option.isSome_iff_ne_none])
    rw [hasType_iff] at textual typed
    rw [typed] at textual
    simp at textual
  have untagged : ¬((schema.get? "oneOf").isSome
      || (schema.get? "discriminator").isSome) = true := by
    intro tagged
    rw [if_pos tagged] at checked
    unfold checkTaggedUnion at checked
    obtain ⟨head, alone, -⟩ := (Running.succeeds_bind _ _ _).mp checked
    rw [Running.succeeds_settled] at alone
    rw [(checkUnionHead_ok alone).2.1] at declares
    cases declares
  rw [if_neg untagged, primitiveUnionTypes_of_hasType typed] at checked
  obtain ⟨types, none_combined, checked⟩ :=
    (Running.succeeds_bind _ _ _).mp checked
  rw [Running.succeeds_settled] at none_combined
  obtain rfl := Except.ok.inj none_combined
  rw [strField_eq_some.mpr (hasType_iff.mp typed)] at checked
  obtain ⟨⟨⟩, keywords, -⟩ := (Running.succeeds_bind _ _ _).mp checked
  rw [Running.succeeds_settled] at keywords
  unfold checkTypedKeywords at keywords
  obtain ⟨⟨⟩, -, keywords⟩ := except_bind_ok keywords
  obtain ⟨⟨⟩, validation, -⟩ := except_bind_ok keywords
  unfold checkValidationKeywords at validation
  obtain ⟨⟨⟩, -, validation⟩ := except_bind_ok validation
  obtain ⟨⟨⟩, constant, -⟩ := except_bind_ok validation
  refine ⟨by simpa using unreferenced, ?_, unlisted, ?_⟩
  · by_contra declared
    have scalar := checkConstant_ok constant
      (by simpa [Option.isSome_iff_ne_none])
    simp [constantType] at scalar
  · by_contra tagged
    exact untagged (by simp [Option.isSome_iff_ne_none, tagged])

/-- Every entry listed of a checked definition is a checked node. -/
theorem checkDefinitions_mem {name : String}
    (checked : Running.Succeeds (checkDefinitions scientific definition fuel) ⟨⟩)
    (present : (name, Json.object schema) ∈ definition.defs) :
    ∃ within, Running.Succeeds (checkSchemaNode scientific definition within
      (some (.object schema)) s!"$defs.{name}") ⟨⟩ := by
  unfold checkDefinitions at checked
  obtain ⟨names, every, -⟩ := (Running.succeeds_bind _ _ _).mp checked
  obtain ⟨earlier, after, one⟩ := Running.succeeds_foldlM_mem every present
  dsimp only at one
  split at one
  · cases one
  · obtain ⟨⟨⟩, node, -⟩ := (Running.succeeds_bind _ _ _).mp one
    exact ⟨fuel, node⟩

/-- Every entry of a checked definition is a checked node. -/
theorem checkDefinitions_def? {name : String}
    (checked : Running.Succeeds (checkDefinitions scientific definition fuel) ⟨⟩)
    (found : definition.def? name = some schema) :
    ∃ within, Running.Succeeds (checkSchemaNode scientific definition within
      (some (.object schema)) s!"$defs.{name}") ⟨⟩ :=
  checkDefinitions_mem checked (Members.mem_of_get? (objectField_eq_some.mp found))

/-- An entry with declared members has no other form. -/
theorem checkDefinitions_declared {name : String}
    (checked : Running.Succeeds (checkDefinitions scientific definition fuel) ⟨⟩)
    (found : definition.def? name = some schema)
    (typed : hasType schema "object" = true)
    (declares : (schema.get? "properties").isSome = true) :
    schema.get? "$ref" = none ∧ schema.get? "const" = none
      ∧ schema.get? "enum" = none ∧ schema.get? "oneOf" = none := by
  obtain ⟨within, node⟩ := checkDefinitions_def? checked found
  cases within with
  | zero => cases node
  | succ within => exact checkObjectNode_declared node typed declares

end Checked

end Clerkenwell.Codegen
