import Clerkenwell.Codegen.AdmitsSound
import Clerkenwell.Codegen.RustIdentifiers

/-!
# No two names of a scope alike

What the checks of an accepted definition leave of each scope's identifiers:
those of one enum or struct are told apart where its node is checked, those of
the module where output names are registered.
-/

namespace Clerkenwell.Codegen

open Clerkenwell.Foundation Running

/-! ## Scopes -/

/-- No two names of a scope are of one identifier. -/
def Distinct (scope : Scope) : Prop :=
  ∀ left ∈ scope, ∀ right ∈ scope, left.identifier = right.identifier →
    left = right

theorem distinct_of_nodup {scope : Scope}
    (nodup : (scope.map Named.identifier).Nodup) : Distinct scope :=
  fun _ left _ right same => List.inj_on_of_nodup_map nodup left right same

theorem distinct_variantScope {place names : List String}
    (nodup : (names.map pascalIdentifier).Nodup) :
    Distinct (variantScope place names) := by
  apply distinct_of_nodup
  have same : (variantScope place names).map Named.identifier
      = names.map pascalIdentifier := by
    rw [variantScope, List.map_map]
    apply List.map_congr_left
    intro name _
    simp only [Function.comp_apply, Named.identifier, Spelling.identifier]
  rwa [same]

theorem map_identifier_fieldScope (place : List String) (properties : Members) :
    (fieldScope place properties).map Named.identifier
      = properties.keys.map rustFieldIdentifier := by
  rw [fieldScope, List.map_map]
  apply List.map_congr_left
  intro property _
  simp only [Function.comp_apply, Named.identifier, Spelling.identifier]

/-! ## What tells names apart -/

theorem colliding_eq_none {generate : String → String}
    {earlier names : List String}
    (apart : colliding generate earlier names = none) :
    (names.map generate).Nodup
      ∧ ∀ name ∈ names, ∀ previous ∈ earlier,
        generate previous ≠ generate name := by
  induction names generalizing earlier with
  | nil => simp
  | cons name rest inductionHypothesis =>
      rw [colliding] at apart
      split at apart
      · cases apart
      · next unfound =>
        obtain ⟨nodup, others⟩ := inductionHypothesis apart
        have first : ∀ previous ∈ earlier,
            generate previous ≠ generate name := by
          simpa using unfound
        refine ⟨?_, ?_⟩
        · rw [List.map_cons, List.nodup_cons]
          refine ⟨?_, nodup⟩
          intro repeated
          obtain ⟨other, within, same⟩ := List.mem_map.mp repeated
          exact others other within name List.mem_cons_self same.symm
        · intro other within previous before
          rcases List.mem_cons.mp within with rfl | within
          · exact first previous before
          · exact others other within previous
              (List.mem_cons_of_mem name before)

theorem registerNames_ok {earlier outputs : List OutputName}
    (registered : registerNames earlier outputs = .ok ⟨⟩) :
    (outputs.map OutputName.name).Nodup
      ∧ ∀ output ∈ outputs, ∀ previous ∈ earlier,
        previous.name ≠ output.name := by
  induction outputs generalizing earlier with
  | nil => simp
  | cons output rest inductionHypothesis =>
      rw [registerNames] at registered
      split at registered
      · cases registered
      · next unfound =>
        obtain ⟨nodup, others⟩ := inductionHypothesis registered
        have first : ∀ previous ∈ earlier, previous.name ≠ output.name := by
          simpa using unfound
        refine ⟨?_, ?_⟩
        · rw [List.map_cons, List.nodup_cons]
          refine ⟨?_, nodup⟩
          intro repeated
          obtain ⟨other, within, same⟩ := List.mem_map.mp repeated
          exact others other within output List.mem_cons_self same.symm
        · intro other within previous before
          rcases List.mem_cons.mp within with rfl | within
          · exact first previous before
          · exact others other within previous
              (List.mem_cons_of_mem output before)

/-! ## Enums -/

section Nodes

variable {scientific : Scientific} {definition : Sections}
  {schema properties : Members} {context : String}

theorem stringEnumValues_isSome {values : List String}
    (listed : stringEnumValues schema = some values) :
    ∃ items, schema.get? "enum" = some (.array items)
      ∧ items.filterMap Json.asStr = values := by
  obtain ⟨items, held, same⟩ := Option.map_eq_some_iff.mp listed
  obtain ⟨value, found, array⟩ := Option.bind_eq_some_iff.mp held
  cases value with
  | array elements =>
      obtain rfl := Option.some.inj array
      exact ⟨_, found, same⟩
  | _ => cases array

/-- The values of a checked enum generate variants of their own. -/
theorem checkEnum_nodup {values : List String}
    (checked : checkEnum schema context = .ok ⟨⟩)
    (listed : stringEnumValues schema = some values) :
    (values.map pascalIdentifier).Nodup := by
  obtain ⟨items, held, same⟩ := stringEnumValues_isSome listed
  unfold checkEnum at checked
  rw [held] at checked
  dsimp only at checked
  split at checked
  · cases checked
  · next strings filtered =>
    obtain ⟨gathered, -⟩ := Option.filter_eq_some_iff.mp filtered
    have texts : items.mapM Json.asStr = some strings := gathered
    obtain rfl := (filterMap_of_mapM texts).symm.trans same
    obtain ⟨-, checked⟩ := of_unless_refuse checked
    split at checked
    · cases checked
    · next apart => exact (colliding_eq_none apart).1

theorem CheckedNode.enum_nodup {values : List String}
    (checked : CheckedNode scientific definition schema)
    (listed : stringEnumValues schema = some values) :
    (values.map pascalIdentifier).Nodup := by
  obtain ⟨items, held, -⟩ := stringEnumValues_isSome listed
  obtain ⟨context, enumerated, -⟩ :=
    checked.keywords (checked.plain_of_keyword held (by decide))
  exact checkEnum_nodup enumerated listed

theorem CheckedNode.propertyEnumSchema {found : Members}
    (checked : CheckedNode scientific definition schema)
    (held : propertyEnumSchema schema = some found) :
    CheckedNode scientific definition found := by
  fun_induction Codegen.propertyEnumSchema schema with
  | case1 schema listed =>
      obtain rfl := Option.some.inj held
      exact checked
  | case2 schema unlisted arrays others =>
      rcases Option.or_eq_some_iff.mp held with within | ⟨-, within⟩
      · split at within
        · next array =>
          split at within
          · next items listed =>
            have declared := objectField_eq_some.mp listed
            refine arrays items listed (checked.items
              (checked.plain_of_keyword declared (by decide)) ?_) within
            rw [arrayItems, array]
            simpa using listed
          · cases within
        · cases within
      · split at within
        · next values record =>
          exact others values record
            (checked.additional (objectField_of_recordValuesSchema record)) within
        · cases within

/-! ## Fields -/

/-- The properties of a checked object generate fields of their own. -/
theorem CheckedNode.fields_nodup
    (checked : CheckedNode scientific definition schema)
    (declared : objectField schema "properties" = some properties) :
    (properties.keys.map rustFieldIdentifier).Nodup := by
  have held := objectField_eq_some.mp declared
  obtain ⟨fuel, context, object⟩ := checked.declared
    (checked.plain_of_keyword held (by decide)) held (Or.inl rfl)
  have members := checkObject_properties object declared
  unfold checkProperties at members
  rw [declared] at members
  obtain ⟨required, -, members⟩ := (succeeds_bind _ _ _).mp members
  obtain ⟨⟨⟩, -, members⟩ := (succeeds_bind _ _ _).mp members
  split at members
  · cases members
  · next apart => exact (colliding_eq_none apart).1

/-- No property of a checked open object is named as its others are. -/
theorem CheckedNode.field_ne_others {additional : Members} {name : String}
    (checked : CheckedNode scientific definition schema)
    (declared : objectField schema "properties" = some properties)
    (opened : objectField schema "additionalProperties" = some additional)
    (within : name ∈ properties.keys) :
    rustFieldIdentifier name ≠ otherMembersField := by
  have held := objectField_eq_some.mp opened
  obtain ⟨fuel, context, object⟩ := checked.declared
    (checked.plain_of_keyword held (by decide)) held (Or.inr rfl)
  unfold checkObject at object
  rw [held] at object
  obtain ⟨⟨⟩, -, object⟩ := (succeeds_bind _ _ _).mp object
  rw [objectField_eq_some.mp declared] at object
  simp only [Option.isNone_some, Bool.false_eq_true, if_false] at object
  obtain ⟨⟨⟩, object, -⟩ := (succeeds_bind _ _ _).mp object
  unfold checkOpenObject at object
  split at object
  · cases object
  · next listed filtered =>
    rw [declared] at filtered
    obtain rfl := Option.some.inj (Option.filter_eq_some_iff.mp filtered).1
    obtain ⟨member, among, rfl⟩ := List.mem_map.mp within
    have one := (succeeds_forM _ _).mp object _ among
    dsimp only at one
    split at one
    · cases one
    · next other => exact other

theorem distinct_fieldScope {place : List String}
    (checked : CheckedNode scientific definition schema) :
    Distinct (fieldScope place
      ((objectField schema "properties").getD [])) := by
  refine distinct_of_nodup ?_
  rw [map_identifier_fieldScope]
  cases declared : objectField schema "properties" with
  | none => exact List.nodup_nil
  | some properties => exact checked.fields_nodup declared

theorem distinct_structScope {place : List String}
    (checked : CheckedNode scientific definition schema)
    (declared : objectField schema "properties" = some properties) :
    Distinct (structScope place schema properties) := by
  have fields := checked.fields_nodup declared
  refine distinct_of_nodup ?_
  unfold structScope
  rw [List.map_append, map_identifier_fieldScope]
  split
  · next others =>
    obtain ⟨additional, opened⟩ := Option.isSome_iff_exists.mp others
    refine fields.append (List.nodup_singleton _) ?_
    intro identifier generated own
    obtain ⟨name, within, rfl⟩ := List.mem_map.mp generated
    exact checked.field_ne_others declared (otherMembersSchema_eq_some opened)
      within (List.mem_singleton.mp own)
  · simpa using fields

/-! ## Unions -/

theorem checkUnionHead_nodup {head : String × Members}
    (checked : checkUnionHead schema context = .ok head) :
    (head.2.keys.map pascalIdentifier).Nodup := by
  unfold checkUnionHead at checked
  obtain ⟨-, checked⟩ := of_unless_refuse checked
  obtain ⟨-, checked⟩ := of_unless_refuse checked
  split at checked
  · exact absurd checked not_refuse_ok
  · obtain ⟨-, checked⟩ := of_unless_refuse checked
    split at checked
    · exact absurd checked not_refuse_ok
    · obtain ⟨-, checked⟩ := of_unless_refuse checked
      split at checked
      · exact absurd checked not_refuse_ok
      · next apart =>
        obtain rfl := Except.ok.inj checked
        exact (colliding_eq_none apart).1

theorem CheckedNode.union_nodup {variants : Members}
    (checked : CheckedNode scientific definition schema)
    (declared : objectField schema "oneOf" = some variants) :
    (variants.keys.map pascalIdentifier).Nodup := by
  have held := objectField_eq_some.mp declared
  obtain ⟨context, -, form⟩ :=
    checked.keywords (checked.plain_of_keyword held (by decide))
  rcases form with ⟨head, alone⟩ | ⟨untagged, -⟩
  · have also := (checkUnionHead_ok alone).2.2.2.1
    obtain rfl := Option.some.inj (declared.symm.trans also)
    exact checkUnionHead_nodup alone
  · rw [held] at untagged
    cases untagged

theorem distinct_unionScopes {place : List String} {variants : Members}
    (checked : CheckedNode scientific definition schema)
    (declared : objectField schema "oneOf" = some variants) :
    ∀ scope ∈ unionScopes place variants, Distinct scope := by
  intro scope within
  rcases List.mem_cons.mp within with rfl | within
  · exact distinct_variantScope (checked.union_nodup declared)
  · obtain ⟨⟨tag, variant⟩, among, rfl⟩ := List.mem_map.mp within
    have held := objectField_eq_some.mp declared
    cases variant with
    | object fields =>
        exact distinct_fieldScope (checked.variant
          (checked.plain_of_keyword held (by decide)) declared among)
    | _ => exact distinct_of_nodup List.nodup_nil

/-! ## Entries -/

/-- The types of a primitive union are told apart as they are. -/
theorem primitiveUnionTypes_nodup {types : List String}
    (combined : primitiveUnionTypes schema = .ok (some types)) :
    (types.map pascalIdentifier).Nodup := by
  have declared : declaredTypes schema = .ok (some types) := by
    unfold declaredTypes
    rw [combined]
    rfl
  unfold primitiveUnionTypes at combined
  split at combined
  · dsimp only at combined
    split at combined
    · cases combined
    · next filtered =>
      split at combined
      · next nodup =>
        obtain rfl := Option.some.inj (Except.ok.inj combined)
        refine List.Nodup.map_on ?_ nodup
        intro left within right also same
        rcases declaredTypes_cases declared with ⟨type, rfl, -⟩ | ⟨-, among⟩
        · rw [List.mem_singleton.mp within, List.mem_singleton.mp also]
        · have apart : (primitiveUnionTypeNames.map pascalIdentifier).Nodup := by
            decide
          exact List.inj_on_of_nodup_map apart (among left within)
            (among right also) same
      · cases combined
  · cases combined

/-- The scopes within a checked entry's type are of distinct names. -/
theorem distinct_entryScopes {name : String}
    (checked : CheckedNode scientific definition schema) :
    ∀ scope ∈ entryScopes name schema, Distinct scope := by
  unfold entryScopes
  dsimp only
  split
  · simp
  · split
    · simp
    · next types combined =>
      intro scope within
      obtain rfl := List.mem_singleton.mp within
      exact distinct_variantScope (primitiveUnionTypes_nodup combined)
    · split
      · next values listed =>
        intro scope within
        obtain rfl := List.mem_singleton.mp within
        exact distinct_variantScope (checked.enum_nodup listed)
      · split
        · simp
        · split
          · next variants declared => exact distinct_unionScopes checked declared
          · split
            · simp
            · split
              · simp
              · next properties declared =>
                intro scope within
                obtain rfl := List.mem_singleton.mp within
                exact distinct_structScope checked declared

/-! ## Helper enums -/

theorem propertyEnum_scope {owner property : String} {place : List String}
    {helper : RustPropertyEnum}
    (checked : CheckedNode scientific definition schema)
    (held : propertyEnum owner property place schema = some helper) :
    Distinct helper.scope := by
  obtain ⟨found, within, held⟩ := Option.bind_eq_some_iff.mp held
  obtain ⟨values, listed, built⟩ := Option.bind_eq_some_iff.mp held
  cases built
  exact distinct_variantScope
    ((checked.propertyEnumSchema within).enum_nodup listed)

theorem propertyEnumsOf_scope {owner : String} {place : List String}
    (checked : CheckedNode scientific definition schema)
    (declared : objectField schema "properties" = some properties) :
    ∀ helper ∈ propertyEnumsOf owner place properties,
      Distinct helper.scope := by
  intro helper within
  obtain ⟨⟨name, value⟩, among, held⟩ := List.mem_filterMap.mp within
  obtain ⟨property, object, held⟩ := Option.bind_eq_some_iff.mp held
  cases value with
  | object members =>
      obtain rfl := Option.some.inj object
      exact propertyEnum_scope (checked.property declared among) held
  | _ => cases object

/-- The helper enums of a checked entry are each of distinct variants. -/
theorem collectRustPropertyEnums_scope {name : String}
    (checked : CheckedNode scientific definition schema) :
    ∀ helper ∈ collectRustPropertyEnums name schema,
      Distinct helper.scope := by
  intro helper within
  unfold collectRustPropertyEnums at within
  split at within
  · cases within
  · rcases List.mem_append.mp within with within | within
    · rcases List.mem_append.mp within with within | within
      · cases declared : objectField schema "properties" with
        | none => simp [declared] at within
        | some properties =>
            rw [declared] at within
            exact propertyEnumsOf_scope checked declared helper within
      · obtain ⟨⟨tag, value⟩, among, within⟩ := List.mem_flatMap.mp within
        cases declared : objectField schema "oneOf" with
        | none => simp [declared] at among
        | some variants =>
            rw [declared, Option.getD_some] at among
            have held := objectField_eq_some.mp declared
            cases value with
            | object variant =>
                have node := checked.variant
                  (checked.plain_of_keyword held (by decide)) declared among
                cases inner : objectField variant "properties" with
                | none => simp [Json.asObject, inner] at within
                | some properties =>
                    simp only [Json.asObject, Option.bind_some, inner,
                      Option.map_some, Option.getD_some] at within
                    exact propertyEnumsOf_scope node inner helper within
            | _ => simp [Json.asObject] at within
    · obtain ⟨⟨named, values⟩, which, held⟩ :=
        Option.bind_eq_some_iff.mp (Option.mem_toList.mp within)
      have additional : objectField schema "additionalProperties"
          = some values := by
        rcases Option.or_eq_some_iff.mp which with record | ⟨-, others⟩
        · obtain ⟨found, record, same⟩ := Option.map_eq_some_iff.mp record
          cases same
          exact objectField_of_recordValuesSchema record
        · obtain ⟨found, others, same⟩ := Option.map_eq_some_iff.mp others
          cases same
          exact otherMembersSchema_eq_some others
      exact propertyEnum_scope (checked.additional additional) held

end Nodes

end Clerkenwell.Codegen
