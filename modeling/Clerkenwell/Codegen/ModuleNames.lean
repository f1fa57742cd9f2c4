import Clerkenwell.Codegen.DistinctNames
import Mathlib.Data.List.Perm.Subperm

/-!
# The identifiers of the Rust bindings

An accepted definition's identifiers are all admitted, and no two of one scope
alike, just where none of the names of the definition is one its spelling
makes no identifier of, and none spells an enum that is not registered.
-/

namespace Clerkenwell.Codegen

open Clerkenwell.Foundation Running

/-! ## Helper enums are registered -/

section Helpers

variable {schema : Members}

theorem propertyEnumSchema_eq (schema : Members) :
    propertyEnumSchema schema
      = if (stringEnumValues schema).isSome then some schema
        else
          (if hasType schema "array" then
            (objectField schema "items").bind propertyEnumSchema
          else none).or
            ((recordValuesSchema schema).bind propertyEnumSchema) := by
  rw [propertyEnumSchema]
  congr 2
  · congr 1
    split
    · next items held => rw [held, Option.bind_some]
    · next none_ => rw [none_, Option.bind_none]
  · split
    · next values held => rw [held, Option.bind_some]
    · next none_ => rw [none_, Option.bind_none]

theorem hasPropertyEnum_eq (schema : Members) :
    hasPropertyEnum schema
      = (((schema.get? "enum").bind Json.asArray).isSome
        || (hasType schema "array"
          && (objectField schema "items").any hasPropertyEnum)
        || (recordValuesSchema schema).any hasPropertyEnum) := by
  rw [hasPropertyEnum]
  congr 1
  · congr 2
    split
    · next items held => rw [held, Option.any_some]
    · next none_ => rw [none_, Option.any_none]
  · split
    · next values held => rw [held, Option.any_some]
    · next none_ => rw [none_, Option.any_none]

theorem propertyEnumSchema_isSome (schema : Members) :
    (propertyEnumSchema schema).isSome = hasPropertyEnum schema := by
  have listed : ∀ schema : Members, (stringEnumValues schema).isSome
      = ((schema.get? "enum").bind Json.asArray).isSome := by
    intro schema
    rw [stringEnumValues, Option.isSome_map]
  induction schema using propertyEnumSchema.induct with
  | case1 schema values =>
      rw [propertyEnumSchema_eq, if_pos values, hasPropertyEnum_eq, ← listed,
        values]
      rfl
  | case2 schema unlisted arrays others =>
      have none_ : ((schema.get? "enum").bind Json.asArray).isSome = false := by
        rw [← listed]
        simpa using unlisted
      rw [propertyEnumSchema_eq, if_neg unlisted, hasPropertyEnum_eq, none_,
        Bool.false_or, Option.isSome_or]
      congr 1
      · by_cases array : hasType schema "array" = true
        · rw [array, if_pos rfl, Bool.true_and]
          cases held : objectField schema "items" with
          | none => rfl
          | some items => exact arrays items held
        · rw [Bool.not_eq_true] at array
          rw [array]
          rfl
      · cases held : recordValuesSchema schema with
        | none => rfl
        | some values => exact others values held

theorem stringEnumValues_of_propertyEnumSchema {found : Members}
    (held : propertyEnumSchema schema = some found) :
    (stringEnumValues found).isSome = true := by
  fun_induction propertyEnumSchema schema with
  | case1 schema values =>
      obtain rfl := Option.some.inj held
      exact values
  | case2 schema unlisted arrays others =>
      rcases Option.or_eq_some_iff.mp held with within | ⟨-, within⟩
      · split at within
        · split at within
          · next items listed => exact arrays items listed within
          · cases within
        · cases within
      · split at within
        · next values record => exact others values record within
        · cases within

/-- A property's helper enum is named as it is registered. -/
theorem propertyEnum_identifier (owner property : String)
    (place : List String) (schema : Members) :
    (propertyEnum owner property place schema).map (·.named.identifier)
      = if hasPropertyEnum schema then
          some (rustPropertyEnumName owner property)
        else none := by
  rw [← propertyEnumSchema_isSome]
  unfold propertyEnum
  cases held : propertyEnumSchema schema with
  | none => rfl
  | some found =>
      obtain ⟨values, listed⟩ := Option.isSome_iff_exists.mp
        (stringEnumValues_of_propertyEnumSchema held)
      simp only [Option.bind_eq_bind, Option.bind_some, listed, Option.map_some,
        Option.isSome_some, if_true]
      rfl

theorem propertyEnumsOf_identifiers (owner path : String)
    (place : List String) (properties : Members) :
    (propertyEnumsOf owner place properties).map (·.named.identifier)
      = (propertyEnums owner path properties).map OutputName.name := by
  unfold propertyEnumsOf propertyEnums
  rw [List.map_filterMap, List.map_filterMap]
  refine List.filterMap_congr fun ⟨name, value⟩ _ => ?_
  dsimp only
  cases object : value.asObject with
  | none => rfl
  | some property =>
      rw [Option.bind_some, propertyEnum_identifier, Option.any_some]
      split <;> rfl

theorem otherValuesEnumOf_identifiers (name : String) (schema : Members) :
    (otherValuesEnumOf name schema).map (·.named.identifier)
      = (otherValuesEnum name schema).map OutputName.name := by
  unfold otherValuesEnumOf otherValuesEnum otherMembersField
  cases ((recordValuesSchema schema).map fun values => ("value", values)).or
      ((otherMembersSchema schema).map fun values =>
        ("other_members", values)) with
  | none => rfl
  | some which =>
      obtain ⟨named, values⟩ := which
      simp only [Option.bind_eq_bind, Option.bind_some]
      rw [propertyEnum_identifier]
      split <;> rfl

theorem map_toList {α β : Type} (generate : α → β) (held : Option α) :
    held.toList.map generate = (held.map generate).toList := by
  cases held <;> rfl

theorem collectRustPropertyEnums_identifiers (name : String)
    (schema : Members) :
    (collectRustPropertyEnums name schema).map (·.named.identifier)
      = (rustPropertyEnums name schema).map OutputName.name := by
  unfold collectRustPropertyEnums rustPropertyEnums
  split
  · rfl
  · rw [List.map_append, List.map_append, List.map_append, List.map_append]
    congr 1
    · congr 1
      · cases objectField schema "properties" with
        | none => rfl
        | some properties => exact propertyEnumsOf_identifiers _ _ _ _
      · rw [List.map_flatMap, List.map_flatMap]
        refine List.flatMap_congr fun ⟨tag, value⟩ _ => ?_
        dsimp only
        cases value.asObject.bind fun variant =>
            objectField variant "properties" with
        | none => rfl
        | some properties => exact propertyEnumsOf_identifiers _ _ _ _
    · rw [map_toList, map_toList, otherValuesEnumOf_identifiers]

end Helpers

/-! ## Types -/

section Module

variable {definition : Declarations} {scientific : Scientific}

/-- Whether every generated name is registered once. -/
def Registered (definition : Declarations) : Prop :=
  ((outputNames definition).map OutputName.name).Nodup

theorem registered_of_accepted
    (accepted : Comes (checkSemantics definition scientific) ⟨⟩) :
    Registered definition := by
  obtain ⟨fuel, accepted⟩ := accepted
  obtain ⟨⟨⟩, -, accepted⟩ := (succeeds_bind _ _ _).mp accepted
  obtain ⟨⟨⟩, -, after⟩ := (succeeds_bind _ _ _).mp accepted
  rw [succeeds_settled] at after
  unfold checkAfterCollaboration at after
  obtain ⟨⟨⟩, -, after⟩ := except_bind_ok after
  obtain ⟨⟨⟩, -, after⟩ := except_bind_ok after
  obtain ⟨⟨⟩, -, after⟩ := except_bind_ok after
  obtain ⟨⟨⟩, -, after⟩ := except_bind_ok after
  obtain ⟨⟨⟩, registered, -⟩ := except_bind_ok after
  exact (registerNames_ok registered).1

/-- The generated names before those of entities and operations. -/
def typeOutputs (definition : Declarations) : List OutputName :=
  entryNames definition
    ++ (declaredEntries definition).flatMap
      (fun (name, schema) => rustPropertyEnums name schema)
    ++ importedNames ++ sharedNames

theorem identifiers_ownScope (identifiers : List String) :
    (ownScope identifiers).map Named.identifier = identifiers := by
  unfold ownScope
  rw [List.map_map]
  exact List.map_id identifiers

theorem declaredTypeScope_identifiers :
    (declaredTypeScope definition).map Named.identifier
      = ((declaredEntries definition).flatMap
          (fun (name, schema) => rustPropertyEnums name schema)).map
            OutputName.name
        ++ (entryNames definition).map OutputName.name := by
  unfold declaredTypeScope helperEnums entryNames
  rw [List.map_append, List.map_map, List.map_flatMap, List.map_flatMap,
    List.map_flatMap, List.map_flatMap]
  apply congrArg₂
  · refine List.flatMap_congr fun ⟨name, schema⟩ _ => ?_
    exact collectRustPropertyEnums_identifiers name schema
  · refine List.flatMap_congr fun ⟨name, schema⟩ _ => ?_
    unfold entryTypes
    dsimp only
    split <;> simp only [List.map_cons, List.map_nil, Named.identifier,
      Spelling.identifier]

/-- The module's types but the transport enums are registered. -/
theorem registered_types_nodup (registered : Registered definition) :
    (importBindings ++ (declaredTypeScope definition).map Named.identifier
      ++ nameEnums).Nodup := by
  have first : ((typeOutputs definition).map OutputName.name).Nodup := by
    unfold Registered outputNames at registered
    simp only [List.map_append, List.append_assoc] at registered
    unfold typeOutputs
    simp only [List.map_append, List.append_assoc]
    refine registered.sublist ?_
    refine (List.Sublist.refl _).append ((List.Sublist.refl _).append
      ((List.Sublist.refl _).append ?_))
    exact List.sublist_append_left _ _
  have imports : List.Subperm importBindings
      (importedNames.map OutputName.name) :=
    List.subperm_of_subset (by decide) (by decide)
  have enums : List.Subperm nameEnums (sharedNames.map OutputName.name) :=
    List.subperm_of_subset (by decide) (by decide)
  have within : List.Subperm
      (importBindings ++ (declaredTypeScope definition).map Named.identifier
        ++ nameEnums) ((typeOutputs definition).map OutputName.name) := by
    rw [declaredTypeScope_identifiers, typeOutputs, List.map_append,
      List.map_append, List.map_append]
    refine List.Subperm.append ?_ enums
    refine (List.perm_append_comm.subperm).trans (List.Subperm.append ?_ imports)
    exact List.perm_append_comm.subperm
  obtain ⟨arranged, same, listed⟩ := within
  exact same.nodup_iff.mp (first.sublist listed)

/-- A declared type is a helper enum, or its entry's, or its constraints'. -/
theorem declaredTypeScope_cases {named : Named}
    (within : named ∈ declaredTypeScope definition) :
    (∃ helper : RustPropertyEnum, named = helper.named)
      ∨ ∃ name place, named = ⟨place, .pascal name⟩
        ∨ named = ⟨place, .constraints name⟩ := by
  rcases List.mem_append.mp within with within | within
  · rcases List.mem_map.mp within with ⟨helper, -, rfl⟩
    exact Or.inl ⟨helper, rfl⟩
  · rcases List.mem_flatMap.mp within with ⟨⟨name, schema⟩, -, within⟩
    rcases List.mem_cons.mp within with rfl | within
    · exact Or.inr ⟨name, _, Or.inl rfl⟩
    · split at within
      · rw [List.mem_singleton.mp within]
        exact Or.inr ⟨name, _, Or.inr rfl⟩
      · cases within

/-- What a definition names is none of the generator's own. -/
theorem spelling_ne_own {named : Named}
    (within : named ∈ declaredTypeScope definition) (identifier : String) :
    named.spelling ≠ .own identifier := by
  rcases declaredTypeScope_cases within with ⟨helper, rfl⟩
    | ⟨name, place, rfl | rfl⟩
  all_goals simp [RustPropertyEnum.named]

/-- The module's types are told apart unless one spells a transport enum. -/
theorem distinct_typeScope_iff (registered : Registered definition) :
    Distinct (typeScope definition)
      ↔ ∀ named ∈ declaredTypeScope definition,
          named.identifier ∉ transportEnums := by
  have others := registered_types_nodup registered
  constructor
  · intro distinct named within transport
    have own : (⟨[], .own named.identifier⟩ : Named) ∈ typeScope definition :=
      List.mem_append_right _ (List.mem_map.mpr ⟨_, transport, rfl⟩)
    have declared : named ∈ typeScope definition :=
      List.mem_append_left _ (List.mem_append_left _
        (List.mem_append_right _ within))
    have same := distinct named declared _ own rfl
    exact spelling_ne_own within _ (congrArg Named.spelling same)
  · intro apart
    refine distinct_of_nodup ?_
    unfold typeScope
    rw [List.map_append, List.map_append, List.map_append, identifiers_ownScope,
      identifiers_ownScope, identifiers_ownScope]
    refine others.append (by decide) ?_
    intro identifier within transport
    rcases List.mem_append.mp within with within | within
    · rcases List.mem_append.mp within with within | within
      · have none_ : importBindings.all (fun name =>
            !transportEnums.contains name) = true := by decide
        have absent := List.all_eq_true.mp none_ _ within
        simp [transport] at absent
      · obtain ⟨named, declared, rfl⟩ := List.mem_map.mp within
        exact apart named declared transport
    · have none_ : nameEnums.all (fun name =>
          !transportEnums.contains name) = true := by decide
      have absent := List.all_eq_true.mp none_ _ within
      simp [transport] at absent

/-! ## Sections -/

theorem map_sublist_flatMap {α β : Type} {items : List α} {one : α → β}
    {many : α → List β} (among : ∀ item, [one item].Sublist (many item)) :
    (items.map one).Sublist (items.flatMap many) := by
  induction items with
  | nil => exact List.Sublist.slnil
  | cons item rest inductionHypothesis =>
      rw [List.map_cons, List.flatMap_cons, ← List.singleton_append]
      exact (among item).append inductionHypothesis

/-- The names registered for the projections, mutations and commands. -/
def publicOutputs (section_ kind : String) (roles names : List String) :
    List String :=
  names.flatMap fun name =>
    (publicNames section_ name kind roles).map OutputName.name

theorem registered_public (registered : Registered definition) :
    (publicOutputs "projections" "PROJECTION" ["PARAMS", "SNAPSHOT"]
        (projectionNames definition)).Nodup
      ∧ (publicOutputs "mutations" "MUTATION" ["PARAMS", "RESULT"]
        (mutationNames definition)).Nodup
      ∧ (publicOutputs "commands" "COMMAND" ["PARAMS", "RESULT"]
        (commandNames definition)).Nodup
      ∧ (definition.entityNames.map fun name =>
        nameConstantIdentifier name "ENTITY").Nodup := by
  unfold Registered outputNames at registered
  unfold publicOutputs projectionNames mutationNames commandNames
    Declarations.entityNames
  simp only [List.map_append, List.append_assoc, List.map_flatMap, List.map_map]
    at registered
  simp only [List.flatMap_map, List.map_map]
  have later := registered.of_append_right.of_append_right.of_append_right
  have entities := later.of_append_right
  have projections := entities.of_append_right
  have mutations := projections.of_append_right
  exact ⟨projections.of_append_left, mutations.of_append_left,
    mutations.of_append_right, entities.of_append_left⟩

theorem public_nodup {section_ kind : String} {roles names : List String}
    (registered : (publicOutputs section_ kind roles names).Nodup) :
    (names.map fun name => nameConstantIdentifier name kind).Nodup
      ∧ (names.map pascalIdentifier).Nodup := by
  constructor
  · refine registered.sublist (map_sublist_flatMap fun name => ?_)
    unfold publicNames
    simp
  · refine registered.sublist (map_sublist_flatMap fun name => ?_)
    unfold publicNames
    simp only [List.map_append, List.map_singleton]
    exact List.sublist_append_right _ _

/-! ## Constants -/

/-- What the constants of each section's names end in. -/
def constantRows : List (String × String × String) :=
  [("entities", "ENTITY", "ENTITY"),
    ("projections", "PROJECTION", "PROJECTION"),
    ("mutations", "MUTATION", "MUTATION"),
    ("commands", "COMMAND", "COMMAND"),
    ("projections", "PARAMS", "PROJECTION_PARAMS_SCHEMA"),
    ("projections", "SNAPSHOT", "PROJECTION_SNAPSHOT_SCHEMA"),
    ("mutations", "PARAMS", "MUTATION_PARAMS_SCHEMA"),
    ("mutations", "RESULT", "MUTATION_RESULT_SCHEMA"),
    ("commands", "PARAMS", "COMMAND_PARAMS_SCHEMA"),
    ("commands", "RESULT", "COMMAND_RESULT_SCHEMA"),
    ("collaboration", "COLLABORATION_FIELDS", "COLLABORATION_FIELDS"),
    ("collaboration", "COLLABORATION_SPEC", "COLLABORATION_SPEC")]

/-- The constants that are the generator's own, and its function. -/
def ownValues : List String :=
  ["NAMESPACE", "ENTITY_NAMES", "PROJECTION_NAMES", "MUTATION_NAMES",
    "COMMAND_NAMES", "GENERATED_PROJECTION_SPECS", "GENERATED_MUTATION_SPECS",
    "GENERATED_COMMAND_SPECS", "GENERATED_ENTITY_AUTHORING_SPECS",
    "COLLABORATION_DEFINITION_VERSION", "GENERATED_COLLABORATION_SPECS",
    "generated_collaboration_spec"]

/-- The names that the constants of a section are spelled from. -/
def sectionNames (definition : Declarations) : String → List String
  | "entities" => definition.entityNames
  | "projections" => projectionNames definition
  | "mutations" => mutationNames definition
  | "commands" => commandNames definition
  | _ => definition.collaboration.map (·.name)

/-- A value of the module is the generator's own, or one of a row. -/
theorem valueScope_cases {named : Named}
    (within : named ∈ valueScope definition) :
    (∃ identifier ∈ ownValues, named = ⟨[], .own identifier⟩)
      ∨ ∃ row ∈ constantRows, ∃ name ∈ sectionNames definition row.1,
        named = ⟨[row.1, name, row.2.1], .constant name row.2.2⟩ := by
  have own : ∀ identifiers, identifiers ⊆ ownValues →
      named ∈ ownScope identifiers →
      ∃ identifier ∈ ownValues, named = ⟨[], .own identifier⟩ := by
    intro identifiers known within
    obtain ⟨identifier, among, rfl⟩ := List.mem_map.mp within
    exact ⟨identifier, known among, rfl⟩
  have constant : ∀ section_ kind names,
      (section_, kind, kind) ∈ constantRows →
      names = sectionNames definition section_ →
      named ∈ nameConstants section_ kind names →
      ∃ row ∈ constantRows, ∃ name ∈ sectionNames definition row.1,
        named = ⟨[row.1, name, row.2.1], .constant name row.2.2⟩ := by
    rintro section_ kind _ row rfl within
    obtain ⟨name, among, rfl⟩ := List.mem_map.mp within
    exact ⟨_, row, name, among, rfl⟩
  have document : ∀ section_ kind roles names,
      (∀ role ∈ roles, (section_, role, s!"{kind}_{role}_SCHEMA") ∈ constantRows) →
      names = sectionNames definition section_ →
      named ∈ schemaConstants section_ kind roles names →
      ∃ row ∈ constantRows, ∃ name ∈ sectionNames definition row.1,
        named = ⟨[row.1, name, row.2.1], .constant name row.2.2⟩ := by
    rintro section_ kind roles _ rows rfl within
    obtain ⟨name, among, within⟩ := List.mem_flatMap.mp within
    obtain ⟨role, listed, rfl⟩ := List.mem_map.mp within
    exact ⟨_, rows role listed, name, among, rfl⟩
  unfold valueScope at within
  simp only [List.mem_append, or_assoc] at within
  rcases within with within | within | within | within | within | within
    | within | within | within | within | within | within
  · exact Or.inl (own _ (by decide) within)
  · exact Or.inr (constant _ _ _ (by decide) rfl within)
  · exact Or.inr (constant _ _ _ (by decide) rfl within)
  · exact Or.inr (constant _ _ _ (by decide) rfl within)
  · exact Or.inr (constant _ _ _ (by decide) rfl within)
  · exact Or.inl (own _ (by decide) within)
  · exact Or.inr (document _ _ _ _ (by decide) rfl within)
  · exact Or.inr (document _ _ _ _ (by decide) rfl within)
  · exact Or.inr (document _ _ _ _ (by decide) rfl within)
  · exact Or.inl (own _ (by decide) within)
  · obtain ⟨name, among, within⟩ := List.mem_flatMap.mp within
    obtain ⟨suffix, listed, rfl⟩ := List.mem_map.mp within
    have row : ("collaboration", suffix, suffix) ∈ constantRows := by
      rcases List.mem_cons.mp listed with rfl | listed
      · decide
      · rcases List.mem_cons.mp listed with rfl | listed
        · decide
        · cases listed
    exact Or.inr ⟨_, row, name, among, rfl⟩
  · exact Or.inl (own _ (by decide) within)

theorem collaboration_entity
    (accepted : Comes (checkSemantics definition scientific) ⟨⟩) :
    definition.collaboration.map (·.name) ⊆ definition.entityNames := by
  obtain ⟨fuel, accepted⟩ := accepted
  obtain ⟨⟨⟩, -, accepted⟩ := (succeeds_bind _ _ _).mp accepted
  obtain ⟨⟨⟩, every, -⟩ := (succeeds_bind _ _ _).mp accepted
  intro name within
  obtain ⟨collaboration, among, rfl⟩ := List.mem_map.mp within
  have one := (succeeds_forM _ _).mp every collaboration among
  obtain ⟨entity, declared, -⟩ := (succeeds_bind _ _ _).mp one
  rw [succeeds_settled] at declared
  unfold collaborativeEntity at declared
  dsimp only at declared
  split at declared
  · cases declared
  · next found held =>
    have named := List.find?_some held
    rw [beq_iff_eq] at named
    rw [← named]
    exact List.mem_map_of_mem (List.mem_of_find?_eq_some held)

/-- The names of a section have constants of their own. -/
theorem constantName_injective
    (accepted : Comes (checkSemantics definition scientific) ⟨⟩)
    {section_ left right : String}
    (first : left ∈ sectionNames definition section_)
    (second : right ∈ sectionNames definition section_)
    (same : constantName left = constantName right) : left = right := by
  obtain ⟨projections, mutations, commands, entities⟩ :=
    registered_public (registered_of_accepted accepted)
  have told : ∀ {names : List String} {kind : String},
      (names.map fun name => nameConstantIdentifier name kind).Nodup →
      left ∈ names → right ∈ names → left = right := by
    intro names kind nodup first second
    refine List.inj_on_of_nodup_map nodup first second ?_
    unfold nameConstantIdentifier
    rw [same]
  unfold sectionNames at first second
  split at first
  · exact told entities first second
  · exact told (public_nodup projections).1 first second
  · exact told (public_nodup mutations).1 first second
  · exact told (public_nodup commands).1 first second
  · next other =>
    simp only at second
    have known := collaboration_entity accepted
    exact told entities (known first) (known second)

/-- A constant's suffix is its row's. -/
theorem constantRows_apart {left right : String × String × String}
    (first : left ∈ constantRows) (second : right ∈ constantRows)
    (ends : ('_' :: left.2.2.toList) <:+ ('_' :: right.2.2.toList)) :
    left = right := by
  have apart : constantRows.all (fun left => constantRows.all fun right =>
      !decide (('_' :: left.2.2.toList) <:+ ('_' :: right.2.2.toList))
        || left == right) = true := by decide +kernel
  have rows := List.all_eq_true.mp (List.all_eq_true.mp apart _ first) _ second
  simpa [ends] using rows

theorem distinct_valueScope
    (accepted : Comes (checkSemantics definition scientific) ⟨⟩) :
    Distinct (valueScope definition) := by
  have ending : ∀ (name suffix : String),
      ('_' :: suffix.toList) <:+ (nameConstantIdentifier name suffix).toList := by
    intro name suffix
    rw [nameConstantIdentifier_toList]
    exact List.suffix_append _ _
  have none_ : ownValues.all (fun identifier => constantRows.all fun row =>
      !decide (('_' :: row.2.2.toList) <:+ identifier.toList)) = true := by
    decide +kernel
  have apart : ∀ identifier ∈ ownValues, ∀ row ∈ constantRows, ∀ name,
      identifier ≠ nameConstantIdentifier name row.2.2 := by
    rintro _ own row listed name rfl
    have absent := List.all_eq_true.mp (List.all_eq_true.mp none_ _ own) _ listed
    simp [ending] at absent
  intro left first right second same
  rcases valueScope_cases first with ⟨identifier, own, rfl⟩
    | ⟨row, listed, name, among, rfl⟩
  · rcases valueScope_cases second with ⟨other, also, rfl⟩
      | ⟨row, listed, name, among, rfl⟩
    · have alike : identifier = other := same
      rw [alike]
    · exact absurd same (apart identifier own row listed name)
  · rcases valueScope_cases second with ⟨other, also, rfl⟩
      | ⟨other, also, another, within, rfl⟩
    · exact absurd same.symm (apart other also row listed name)
    · have alike : nameConstantIdentifier name row.2.2
          = nameConstantIdentifier another other.2.2 := same
      have rows : row = other := by
        rcases List.suffix_or_suffix_of_suffix (ending name row.2.2)
            (alike ▸ ending another other.2.2) with ends | ends
        · exact constantRows_apart listed also ends
        · exact (constantRows_apart also listed ends).symm
      subst rows
      have characters := congrArg String.toList alike
      rw [nameConstantIdentifier_toList, nameConstantIdentifier_toList] at characters
      have constants := String.toList_injective
        (List.append_cancel_right characters)
      rw [constantName_injective accepted among within constants]

/-! ## Every scope -/

/-- Every scope but the module's types is of distinct names. -/
theorem distinct_of_accepted
    (accepted : Comes (checkSemantics definition scientific) ⟨⟩) :
    ∀ scope ∈ rustScopes definition, scope = typeScope definition
      ∨ Distinct scope := by
  have nodes : ∀ name schema, (name, schema) ∈ declaredEntries definition →
      CheckedNode scientific definition.document schema := by
    intro name schema within
    obtain ⟨⟨other, value⟩, among, object⟩ :=
      List.mem_filterMap.mp (List.mem_filter.mp within).1
    cases value with
    | object members =>
        obtain ⟨rfl, rfl⟩ := Prod.mk.inj (Option.some.inj object)
        obtain ⟨fuel, accepted⟩ := accepted
        obtain ⟨⟨⟩, before, -⟩ := (succeeds_bind _ _ _).mp accepted
        unfold checkBeforeCollaboration at before
        split at before
        · cases before
        · obtain ⟨⟨⟩, -, before⟩ := (succeeds_bind _ _ _).mp before
          obtain ⟨⟨⟩, checked, -⟩ := (succeeds_bind _ _ _).mp before
          obtain ⟨enough, node⟩ := checkDefinitions_mem checked among
          exact ⟨enough, _, node⟩
    | _ => cases object
  obtain ⟨projections, mutations, commands, -⟩ :=
    registered_public (registered_of_accepted accepted)
  intro scope within
  unfold rustScopes at within
  rcases List.mem_append.mp within with within | within
  · rcases List.mem_append.mp within with within | within
    · rcases List.mem_cons.mp within with rfl | within
      · exact Or.inl rfl
      · right
        rcases List.mem_cons.mp within with rfl | within
        · exact distinct_valueScope accepted
        · obtain ⟨helper, among, rfl⟩ := List.mem_map.mp within
          obtain ⟨⟨name, schema⟩, entry, among⟩ := List.mem_flatMap.mp among
          exact collectRustPropertyEnums_scope (nodes name schema entry) helper
            among
    · obtain ⟨⟨name, schema⟩, entry, among⟩ := List.mem_flatMap.mp within
      exact Or.inr (distinct_entryScopes (nodes name schema entry) scope among)
  · right
    unfold dispatchScopes at within
    rcases List.mem_append.mp within with within | within
    · rcases List.mem_append.mp within with within | within
      · rw [List.eq_of_mem_replicate within]
        exact distinct_variantScope (public_nodup projections).2
      · rw [List.eq_of_mem_replicate within]
        exact distinct_variantScope (public_nodup mutations).2
    · rw [List.eq_of_mem_replicate within]
      exact distinct_variantScope (public_nodup commands).2

end Module

end Clerkenwell.Codegen
