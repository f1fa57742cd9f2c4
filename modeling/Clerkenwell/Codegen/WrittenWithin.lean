import Clerkenwell.Codegen.WrittenNodes

/-!
# What is written of nested schemas

A schema is written just where each schema nested in it can be, and the schemas
within what is written are those nested in it, but for the tags.
-/

namespace Clerkenwell.Codegen

open Clerkenwell.Foundation

variable {schema converted : Members}

/-! ## Where a schema is written -/

section Writing

/--
Whether the maps a schema declares are maps of schemas, those of a tagged union
under a discriminator.
-/
structure Convertible (schema : Members) : Prop where
  properties : ∀ properties, objectField schema "properties" = some properties →
    ∀ member ∈ properties, ∃ inner, member.2 = .object inner
  variants : ∀ variants, objectField schema "oneOf" = some variants →
    (∃ discriminator, strField schema "discriminator" = some discriminator)
      ∧ ∀ member ∈ variants, ∃ inner, member.2 = .object inner

/-- Whether a schema is another, or nested in it. -/
def Nested (outer inner : Members) : Prop :=
  Relation.ReflTransGen (fun outer inner => inner ∈ subschemas outer) outer inner

theorem eachJsonSchema_writes {map : Members}
    (each : ∀ member ∈ map, ∃ schema inner : Members,
      member.2 = .object schema ∧ jsonSchema schema = .ok inner) :
    ∃ written, eachJsonSchema map = .ok written := by
  induction map with
  | nil => exact ⟨[], rfl⟩
  | cons member rest inductionHypothesis =>
      rcases member with ⟨name, value⟩
      rcases each _ List.mem_cons_self with ⟨inner, result, rfl, one⟩
      rcases inductionHypothesis fun other within =>
        each other (List.mem_cons_of_mem _ within) with ⟨others, later⟩
      rcases except_bind_ok one with ⟨keywords, succeeds, -⟩
      rw [eachJsonSchema, succeeds, later]
      exact ⟨_, rfl⟩

theorem taggedVariants_writes {map : Members} {discriminator : String}
    (each : ∀ member ∈ map, ∃ schema inner : Members,
      member.2 = .object schema ∧ jsonSchema schema = .ok inner) :
    ∃ written, taggedVariants discriminator map = .ok written := by
  induction map with
  | nil => exact ⟨[], rfl⟩
  | cons member rest inductionHypothesis =>
      rcases member with ⟨tag, value⟩
      rcases each _ List.mem_cons_self with ⟨inner, result, rfl, one⟩
      rcases inductionHypothesis fun other within =>
        each other (List.mem_cons_of_mem _ within) with ⟨others, later⟩
      rcases except_bind_ok one with ⟨keywords, succeeds, -⟩
      rw [taggedVariants, succeeds, later]
      exact ⟨_, rfl⟩

/-- A schema is written where those nested in it are. -/
theorem Convertible.writes (convertible : Convertible schema)
    (nodup : schema.keys.Nodup)
    (each : ∀ inner ∈ subschemas schema, ∃ result,
      jsonSchema inner = .ok result) :
    ∃ converted, jsonSchema schema = .ok converted := by
  have keyword_writes : ∀ key value, (key, value) ∈ schema → ∃ result,
      jsonSchemaKeyword (strField schema "discriminator") key value
        = .ok result := by
    intro key value within
    have held := (Members.get?_eq_some_iff nodup key value).mpr within
    cases value with
    | object members =>
        have declared : objectField schema key = some members :=
          objectField_eq_some.mpr held
        have written : ∀ member ∈ members, key ∈ ["properties", "oneOf"] →
            (∃ inner, member.2 = .object inner) → ∃ inner result : Members,
              member.2 = .object inner ∧ jsonSchema inner = .ok result := by
          rintro ⟨name, value⟩ among map ⟨inner, rfl⟩
          rcases each inner (mem_subschemas_iff.mpr
            (Or.inr ⟨key, map, members, name, declared, among⟩))
            with ⟨result, one⟩
          exact ⟨inner, result, rfl, one⟩
        rw [jsonSchemaKeyword]
        split
        · exact ⟨none, rfl⟩
        split
        · next same =>
          subst same
          rcases @eachJsonSchema_writes members fun member among =>
            written member among (by simp)
              (convertible.properties members declared member among)
            with ⟨result, one⟩
          rw [one]
          exact ⟨_, rfl⟩
        split
        · next inner =>
          have among : key ∈ ["additionalProperties", "items"] := by
            simpa using inner
          rcases each members (mem_subschemas_iff.mpr
            (Or.inl ⟨key, among, declared⟩)) with ⟨result, one⟩
          rcases except_bind_ok one with ⟨keywords, succeeds, -⟩
          rw [succeeds]
          exact ⟨_, rfl⟩
        split
        · next same =>
          subst same
          rcases convertible.variants members declared
            with ⟨⟨discriminator, named⟩, objects⟩
          rcases @taggedVariants_writes members discriminator
            fun member among =>
              written member among (by simp) (objects member among)
            with ⟨result, one⟩
          rw [named]
          change ∃ result, (do
            let each ← taggedVariants discriminator members
            pure (some (Json.array each))) = Except.ok result
          rw [one]
          exact ⟨_, rfl⟩
        · exact ⟨_, rfl⟩
    | string kind =>
        rw [jsonSchemaKeyword]
        split
        · exact ⟨_, rfl⟩
        · exact ⟨_, rfl⟩
    | _ =>
        rw [jsonSchemaKeyword]
        · split
          · exact ⟨_, rfl⟩
          · exact ⟨_, rfl⟩
        all_goals simp
  rcases jsonSchemaKeywords_writes keyword_writes with ⟨keywords, succeeds⟩
  rw [jsonSchema, succeeds]
  exact ⟨_, rfl⟩

/-- A schema all of whose schemas are convertible is written. -/
theorem jsonSchema_writes (schema : Members)
    (wellFormed : (Json.object schema).WellFormed)
    (convertible : ∀ inner, Nested schema inner → Convertible inner) :
    ∃ converted, jsonSchema schema = .ok converted := by
  induction size : sizeOf schema using Nat.strong_induction_on
    generalizing schema with
  | _ size inductionHypothesis =>
    apply (convertible schema .refl).writes (nodup_of_wellFormed wellFormed)
    intro inner within
    apply inductionHypothesis (sizeOf inner) _ inner
      (wellFormed_subschema wellFormed within) _ rfl
    · rw [← size]
      exact sizeOf_subschema_lt within
    · intro other nested
      exact convertible other (.head within nested)

section Written

variable (written : jsonSchema schema = .ok converted)
  (nodup : schema.keys.Nodup)

include written nodup

theorem convertible_of_written : Convertible schema := by
  constructor
  · intro properties declared member within
    rcases written_properties written nodup declared with ⟨each, succeeds, -⟩
    rcases exists_of_mem_right (eachJsonSchema_ok succeeds) within
      with ⟨-, -, inner, result, object, -⟩
    exact ⟨inner, object⟩
  · intro variants declared
    rcases written_variants written nodup declared
      with ⟨discriminator, each, named, succeeds, -⟩
    refine ⟨⟨discriminator, named⟩, fun member within => ?_⟩
    rcases exists_of_mem_right (taggedVariants_ok succeeds) within
      with ⟨-, -, inner, result, object, -⟩
    exact ⟨inner, object⟩

/-- What is nested in a schema that is written is written. -/
theorem written_subschema {inner : Members} (within : inner ∈ subschemas schema) :
    ∃ result, jsonSchema inner = .ok result := by
  rcases mem_subschemas_iff.mp within with ⟨key, among, declared⟩
    | ⟨key, among, map, name, declared, member⟩
  · rcases written_inner written nodup (by simpa using among) declared
      with ⟨result, one, -⟩
    exact ⟨result, one⟩
  · simp only [List.mem_cons, List.not_mem_nil, or_false] at among
    rcases among with rfl | rfl
    · rcases written_properties written nodup declared with ⟨each, succeeds, -⟩
      rcases exists_of_mem_right (eachJsonSchema_ok succeeds) member
        with ⟨-, -, other, result, object, one, -⟩
      obtain rfl := Json.object.inj object
      exact ⟨result, one⟩
    · rcases written_variants written nodup declared
        with ⟨discriminator, each, -, succeeds, -⟩
      rcases exists_of_mem_right (taggedVariants_ok succeeds) member
        with ⟨-, -, other, result, object, one, -⟩
      obtain rfl := Json.object.inj object
      exact ⟨result, one⟩

end Written

theorem convertible_of_nested {inner : Members} (nested : Nested schema inner)
    (wellFormed : (Json.object schema).WellFormed)
    (written : jsonSchema schema = .ok converted) : Convertible inner := by
  induction nested using Relation.ReflTransGen.head_induction_on
    generalizing converted with
  | refl => exact convertible_of_written written (nodup_of_wellFormed wellFormed)
  | head within _ inductionHypothesis =>
      rcases written_subschema written (nodup_of_wellFormed wellFormed) within
        with ⟨result, one⟩
      exact inductionHypothesis (wellFormed_subschema wellFormed within) one

end Writing

/-! ## Schemas within schemas -/

section Within

/-- Whether a schema is just within another, at a keyword that holds schemas. -/
inductive Within : Json → Json → Prop where
  | keyed {schema : Members} {inner : Json} {key : String}
      (among : key ∈ ["additionalProperties", "items"])
      (held : schema.get? key = some inner) : Within (.object schema) inner
  | mapped {schema map : Members} {inner : Json} {key name : String}
      (among : key ∈ ["properties", "oneOf", "$defs"])
      (held : schema.get? key = some (.object map))
      (within : (name, inner) ∈ map) : Within (.object schema) inner
  | listed {schema : Members} {items : List Json} {inner : Json}
      (held : schema.get? "oneOf" = some (.array items))
      (within : inner ∈ items) : Within (.object schema) inner

/-- What is under a keyword has a schema just within it. -/
inductive WithinAt : String → Json → Json → Prop where
  | keyed {key : String} {inner : Json}
      (among : key ∈ ["additionalProperties", "items"]) :
      WithinAt key inner inner
  | mapped {key name : String} {map : Members} {inner : Json}
      (among : key ∈ ["properties", "oneOf", "$defs"])
      (within : (name, inner) ∈ map) : WithinAt key (.object map) inner
  | listed {key : String} {items : List Json} {inner : Json}
      (same : key = "oneOf") (within : inner ∈ items) :
      WithinAt key (.array items) inner

theorem within_iff_at {inner : Json} :
    Within (.object schema) inner
      ↔ ∃ key value, schema.get? key = some value
        ∧ WithinAt key value inner := by
  constructor
  · intro within
    cases within with
    | keyed among held => exact ⟨_, _, held, .keyed among⟩
    | mapped among held member => exact ⟨_, _, held, .mapped among member⟩
    | listed held member => exact ⟨_, _, held, .listed rfl member⟩
  · rintro ⟨key, value, held, ⟨among⟩ | ⟨among, member⟩ | ⟨rfl, member⟩⟩
    · exact .keyed among held
    · exact .mapped among held member
    · exact .listed held member

theorem WithinAt.ne_of_not_mem {key other : String} {value inner : Json}
    (within : WithinAt key value inner)
    (apart : other ∉ ["additionalProperties", "items", "properties", "oneOf",
      "$defs"]) : key ≠ other := by
  rintro rfl
  cases within with
  | keyed among => simp_all
  | mapped among => simp_all
  | listed same => simp_all

/-- How a schema of a document comes of one of a definition. -/
inductive Mirrors : Json → Json → Prop where
  | same (json : Json) : Mirrors json json
  | written {schema converted : Members}
      (written : jsonSchema schema = .ok converted) :
      Mirrors (.object schema) (.object converted)
  | tagged {variant converted : Members} {discriminator tag : String}
      (written : jsonSchema variant = .ok converted) :
      Mirrors (.object variant)
        (.object (taggedVariant discriminator tag variant converted))

theorem wellFormed_within {outer inner : Json} (within : Within outer inner)
    (wellFormed : outer.WellFormed) : inner.WellFormed := by
  cases within with
  | keyed _ held => exact wellFormed_of_mem wellFormed (Members.mem_of_get? held)
  | mapped _ held member =>
      have map_wellFormed :=
        wellFormed_of_mem wellFormed (Members.mem_of_get? held)
      exact wellFormed_of_mem map_wellFormed member
  | listed held member =>
      have items_wellFormed :=
        wellFormed_of_mem wellFormed (Members.mem_of_get? held)
      exact (wellFormed_array_iff _).mp items_wellFormed _ member

/-- What is written of a map of schemas, each under its name. -/
theorem mem_written_map {map each : Members} {name : String} {value : Json}
    (succeeds : eachJsonSchema map = .ok each) (nodup : map.keys.Nodup) :
    (name, value) ∈ Members.ofMembers each
      ↔ ∃ schema result : Members, (name, Json.object schema) ∈ map
        ∧ jsonSchema schema = .ok result ∧ value = .object result := by
  have each_nodup : each.keys.Nodup :=
    (get?_eachJsonSchema succeeds nodup).1 ▸ nodup
  rw [(Members.ofMembers_perm each_nodup).mem_iff]
  constructor
  · intro within
    rcases exists_of_mem_left (eachJsonSchema_ok succeeds) within
      with ⟨⟨other, declared⟩, among, schema, result, object, one, same⟩
    rcases Prod.mk.inj same with ⟨rfl, rfl⟩
    dsimp only at object
    subst object
    exact ⟨schema, result, among, one, rfl⟩
  · rintro ⟨schema, result, among, one, rfl⟩
    rcases exists_of_mem_right (eachJsonSchema_ok succeeds) among
      with ⟨-, within, other, also, object, other_one, rfl⟩
    obtain rfl := Json.object.inj object
    obtain rfl := Except.ok.inj (one.symm.trans other_one)
    exact within

section Written

variable {inner : Json} (written : jsonSchema schema = .ok converted)
  (wellFormed : (Json.object schema).WellFormed)

include written wellFormed

/-- The lone schema under a keyword is written there, or kept. -/
theorem keyed_written {key : String}
    (among : key ∈ ["additionalProperties", "items"]) :
    (∃ members result, schema.get? key = some (.object members)
        ∧ jsonSchema members = .ok result
        ∧ converted.get? key = some (.object result))
      ∨ converted.get? key = schema.get? key := by
  have nodup := nodup_of_wellFormed wellFormed
  have apart : ∀ key ∈ ["additionalProperties", "items"],
      key ≠ "discriminator" ∧ key ≠ "type" := by decide
  cases declared : objectField schema key with
  | some members =>
      rcases written_inner written nodup (by simpa using among) declared
        with ⟨result, one, held⟩
      exact Or.inl ⟨members, result, objectField_eq_some.mp declared, one, held⟩
  | none =>
      exact Or.inr (written_unmapped written nodup declared (apart key among).1
        (Or.inl (apart key among).2))

/-- What is within a schema mirrors into what is within what is written of it. -/
theorem within_written (within : Within (.object schema) inner) :
    ∃ result, Within (.object converted) result ∧ Mirrors inner result := by
  have nodup := nodup_of_wellFormed wellFormed
  cases within with
  | keyed among held =>
      rcases keyed_written written wellFormed among
        with ⟨members, result, declared, one, result_held⟩ | same
      · obtain rfl := Option.some.inj (declared.symm.trans held)
        exact ⟨_, .keyed among result_held, .written one⟩
      · exact ⟨inner, .keyed among (same.trans held), .same inner⟩
  | @mapped _ map _ key name among held member =>
      have declared := objectField_eq_some.mpr held
      simp only [List.mem_cons, List.not_mem_nil, or_false] at among
      rcases among with rfl | rfl | rfl
      · rcases written_properties written nodup declared
          with ⟨each, succeeds, result_held⟩
        rcases exists_of_mem_right (eachJsonSchema_ok succeeds) member
          with ⟨-, -, other, result, object, one, -⟩
        dsimp only at object
        subst object
        have map_nodup :=
          nodup_of_wellFormed (wellFormed_objectField wellFormed declared)
        have within := (mem_written_map succeeds map_nodup).mpr
          ⟨other, result, member, one, rfl⟩
        exact ⟨_, .mapped (by simp) result_held within, .written one⟩
      · rcases written_variants written nodup declared
          with ⟨discriminator, each, -, succeeds, result_held⟩
        rcases exists_of_mem_right (taggedVariants_ok succeeds) member
          with ⟨json, listed, variant, result, object, one, rfl⟩
        dsimp only at object
        subst object
        exact ⟨_, .listed result_held listed, .tagged one⟩
      · have same := written_other written nodup
          (by decide : "$defs" ∉ rewrittenKeywords)
        exact ⟨inner, .mapped (by simp) (same.trans held) member, .same inner⟩
  | listed held member =>
      have declared : objectField schema "oneOf" = none := by
        rw [objectField, held]
        rfl
      have same := written_unmapped written nodup declared (by decide)
        (Or.inl (by decide))
      exact ⟨inner, .listed (same.trans held) member, .same inner⟩

/-- What is within what is written of a schema mirrors what is within it. -/
theorem within_of_written (within : Within (.object converted) inner) :
    ∃ source, Within (.object schema) source ∧ Mirrors source inner := by
  have nodup := nodup_of_wellFormed wellFormed
  cases within with
  | keyed among held =>
      rcases keyed_written written wellFormed among
        with ⟨members, result, declared, one, result_held⟩ | same
      · obtain rfl := Option.some.inj (result_held.symm.trans held)
        exact ⟨_, .keyed among declared, .written one⟩
      · exact ⟨inner, .keyed among (same.symm.trans held), .same inner⟩
  | @mapped _ map _ key name among held member =>
      simp only [List.mem_cons, List.not_mem_nil, or_false] at among
      rcases among with rfl | rfl | rfl
      · rcases declared_of_written written wellFormed
            (objectField_eq_some.mpr held) (by decide) (by decide)
          with ⟨properties, declared⟩
        rcases written_properties written nodup declared
          with ⟨each, succeeds, result_held⟩
        obtain rfl := Json.object.inj
          (Option.some.inj (held.symm.trans result_held))
        have map_nodup :=
          nodup_of_wellFormed (wellFormed_objectField wellFormed declared)
        rcases (mem_written_map succeeds map_nodup).mp member
          with ⟨source, result, among, one, rfl⟩
        exact ⟨_, .mapped (by simp) (objectField_eq_some.mp declared) among,
          .written one⟩
      · rcases declared_of_written written wellFormed
            (objectField_eq_some.mpr held) (by decide) (by decide)
          with ⟨variants, declared⟩
        rcases written_variants written nodup declared
          with ⟨discriminator, each, -, -, result_held⟩
        cases held.symm.trans result_held
      · have same := written_other written nodup
          (by decide : "$defs" ∉ rewrittenKeywords)
        exact ⟨inner, .mapped (by simp) (same.symm.trans held) member,
          .same inner⟩
  | listed held member =>
      cases declared : objectField schema "oneOf" with
      | some variants =>
          rcases written_variants written nodup declared
            with ⟨discriminator, each, -, succeeds, result_held⟩
          obtain rfl := Json.array.inj
            (Option.some.inj (held.symm.trans result_held))
          rcases exists_of_mem_left (taggedVariants_ok succeeds) member
            with ⟨⟨tag, json⟩, among, variant, result, object, one, rfl⟩
          dsimp only at object
          subst object
          exact ⟨_, .mapped (by simp) (objectField_eq_some.mp declared) among,
            .tagged one⟩
      | none =>
          have same := written_unmapped written nodup declared (by decide)
            (Or.inl (by decide))
          exact ⟨inner, .listed (same.symm.trans held) member, .same inner⟩

variable {discriminator tag : String}

/-- What is within a variant with its tag is within the variant, or the tag. -/
theorem within_tagged_cases
    (within : Within
      (.object (taggedVariant discriminator tag schema converted)) inner) :
    Within (.object converted) inner ∨ inner = .object (constantSchema tag) := by
  have nodup := (jsonSchema_ok written (nodup_of_wellFormed wellFormed)).1
  rcases within_iff_at.mp within with ⟨key, value, held, at_key⟩
  rw [get?_taggedVariant nodup, if_neg (at_key.ne_of_not_mem (by decide))]
    at held
  split at held
  · next same =>
    subst same
    obtain rfl := Option.some.inj held
    cases at_key with
    | keyed among => exact absurd among (by decide)
    | @mapped name _ _ _ member =>
        have found := (Members.get?_eq_some_iff
          ordered_taggedProperties.nodup name inner).mpr member
        rw [get?_taggedProperties written wellFormed, Option.or_eq_some_iff]
          at found
        rcases found with declared | ⟨-, told⟩
        · rcases Option.bind_eq_some_iff.mp declared
            with ⟨properties, declared, found⟩
          exact Or.inl (.mapped (by simp) (objectField_eq_some.mp declared)
            (Members.mem_of_get? found))
        · split at told
          · exact Or.inr (Option.some.inj told).symm
          · cases told
  · exact Or.inl (within_iff_at.mpr ⟨key, value, held, at_key⟩)

theorem within_tagged (within : Within (.object converted) inner) :
    Within (.object (taggedVariant discriminator tag schema converted))
      inner := by
  have nodup := (jsonSchema_ok written (nodup_of_wellFormed wellFormed)).1
  have looked := @get?_taggedVariant converted discriminator tag schema nodup
  rcases within_iff_at.mp within with ⟨key, value, held, at_key⟩
  by_cases same : key = "properties"
  · subst same
    cases at_key with
    | keyed among => exact absurd among (by decide)
    | listed same => exact absurd same (by decide)
    | @mapped name _ _ among member =>
        have declared := objectField_eq_some.mpr held
        have found := (Members.get?_eq_some_iff
          (written_properties_nodup written wellFormed declared) _ _).mpr member
        apply @Within.mapped _ _ _ _ name among
        · rw [looked, if_neg (by decide), if_pos rfl]
        · apply Members.mem_of_get?
          rw [get?_taggedProperties written wellFormed, declared,
            Option.bind_some, found]
          rfl
  · refine within_iff_at.mpr ⟨key, value, ?_, at_key⟩
    rwa [looked, if_neg (at_key.ne_of_not_mem (by decide)), if_neg same]

end Written

end Within

/-! ## What is referenced -/

section Referenced

/-- What a schema references. -/
def referenceOf (schema : Json) : Option Json :=
  schema.asObject.bind (·.get? "$ref")

/-- Whether a schema is another, or somewhere within it. -/
def Subschema : Json → Json → Prop :=
  Relation.ReflTransGen Within

/-- Whether a schema, or one somewhere within it, has a reference. -/
def Refers (schema reference : Json) : Prop :=
  ∃ inner, Subschema schema inner ∧ referenceOf inner = some reference

theorem refers_iff {outer reference : Json} :
    Refers outer reference
      ↔ referenceOf outer = some reference
        ∨ ∃ inner, Within outer inner ∧ Refers inner reference := by
  constructor
  · rintro ⟨inner, nested, referenced⟩
    rcases Relation.ReflTransGen.cases_head nested with rfl
      | ⟨next, within, later⟩
    · exact Or.inl referenced
    · exact Or.inr ⟨next, within, inner, later, referenced⟩
  · rintro (referenced | ⟨next, within, inner, later, referenced⟩)
    · exact ⟨outer, .refl, referenced⟩
    · exact ⟨inner, .head within later, referenced⟩

/-- Nothing is within a tag's schema, and it references nothing. -/
theorem not_within_constant {tag : String} {inner : Json} :
    ¬Within (.object (constantSchema tag)) inner := by
  intro within
  rcases within_iff_at.mp within with ⟨key, value, held, at_key⟩
  rw [get?_constantSchema (at_key.ne_of_not_mem (by decide))] at held
  cases held

variable {source document inner : Json} (mirrors : Mirrors source document)
  (wellFormed : source.WellFormed)

include mirrors wellFormed

theorem Mirrors.referenceOf_eq : referenceOf document = referenceOf source := by
  cases mirrors with
  | same => rfl
  | written written =>
      exact written_other written (nodup_of_wellFormed wellFormed) (by decide)
  | tagged written =>
      have nodup := nodup_of_wellFormed wellFormed
      change Members.get? _ _ = Members.get? _ _
      rw [get?_taggedVariant (jsonSchema_ok written nodup).1,
        if_neg (by decide), if_neg (by decide),
        written_other written nodup (by decide)]

theorem Mirrors.within (within : Within source inner) :
    ∃ result, Within document result ∧ Mirrors inner result := by
  cases mirrors with
  | same => exact ⟨inner, within, .same inner⟩
  | written written => exact within_written written wellFormed within
  | tagged written =>
      rcases within_written written wellFormed within
        with ⟨result, result_within, result_mirrors⟩
      exact ⟨result, within_tagged written wellFormed result_within,
        result_mirrors⟩

theorem Mirrors.of_within (within : Within document inner) :
    (∃ origin, Within source origin ∧ Mirrors origin inner)
      ∨ ∃ tag, inner = .object (constantSchema tag) := by
  cases mirrors with
  | same => exact Or.inl ⟨inner, within, .same inner⟩
  | written written =>
      exact Or.inl (within_of_written written wellFormed within)
  | @tagged _ _ _ tag written =>
      rcases within_tagged_cases written wellFormed within with within | told
      · exact Or.inl (within_of_written written wellFormed within)
      · exact Or.inr ⟨tag, told⟩

/-- Somewhere within both, a schema and what mirrors it have the same references. -/
theorem Mirrors.refers_iff (reference : Json) :
    Refers document reference ↔ Refers source reference := by
  constructor
  · rintro ⟨inner, nested, referenced⟩
    have either : (∃ origin, Subschema source origin ∧ Mirrors origin inner
          ∧ origin.WellFormed)
        ∨ ∃ tag, inner = .object (constantSchema tag) := by
      clear referenced
      induction nested with
      | refl => exact Or.inl ⟨source, .refl, mirrors, wellFormed⟩
      | tail _ within inductionHypothesis =>
          rcases inductionHypothesis
            with ⟨origin, reached, one, origin_wellFormed⟩ | ⟨tag, rfl⟩
          · rcases one.of_within origin_wellFormed within
              with ⟨next, next_within, next_mirrors⟩ | told
            · exact Or.inl ⟨next, .tail reached next_within, next_mirrors,
                wellFormed_within next_within origin_wellFormed⟩
            · exact Or.inr told
          · exact absurd within not_within_constant
    rcases either with ⟨origin, reached, one, origin_wellFormed⟩ | ⟨tag, rfl⟩
    · rw [one.referenceOf_eq origin_wellFormed] at referenced
      exact ⟨origin, reached, referenced⟩
    · cases referenced
  · rintro ⟨inner, nested, referenced⟩
    have mirrored : ∃ result, Subschema document result ∧ Mirrors inner result
        ∧ inner.WellFormed := by
      clear referenced
      induction nested with
      | refl => exact ⟨document, .refl, mirrors, wellFormed⟩
      | tail _ within inductionHypothesis =>
          rcases inductionHypothesis with ⟨result, reached, one, origin_wellFormed⟩
          rcases one.within origin_wellFormed within
            with ⟨next, next_within, next_mirrors⟩
          exact ⟨next, .tail reached next_within, next_mirrors,
            wellFormed_within within origin_wellFormed⟩
    rcases mirrored with ⟨result, reached, one, origin_wellFormed⟩
    rw [← one.referenceOf_eq origin_wellFormed] at referenced
    exact ⟨result, reached, referenced⟩

end Referenced

end Clerkenwell.Codegen
