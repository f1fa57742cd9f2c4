import Clerkenwell.Codegen.WrittenSchemas

/-!
# Written nodes

The JSON Schema written of a checked node renders it, where what a tagged union
declares beside its variants leaves out none of their values.
-/

namespace Clerkenwell.Codegen

open Clerkenwell.Foundation Running JsonSchema

variable {scientific : Scientific} {definition : Sections}
  {schema converted : Members} {reached : List String}

/-! ## Well-formed schemas -/

section WellFormed

theorem wellFormed_of_mem {members : Members} {member : String × Json}
    (wellFormed : (Json.object members).WellFormed) (within : member ∈ members) :
    member.2.WellFormed :=
  ((wellFormed_object_iff members).mp wellFormed).2 member within

theorem nodup_of_wellFormed {members : Members}
    (wellFormed : (Json.object members).WellFormed) : members.keys.Nodup :=
  ((wellFormed_object_iff members).mp wellFormed).1.nodup

theorem wellFormed_objectField {key : String} {inner : Members}
    (wellFormed : (Json.object schema).WellFormed)
    (declared : objectField schema key = some inner) :
    (Json.object inner).WellFormed :=
  wellFormed_of_mem wellFormed
    (Members.mem_of_get? (objectField_eq_some.mp declared))

theorem wellFormed_subschema {inner : Members}
    (wellFormed : (Json.object schema).WellFormed)
    (within : inner ∈ subschemas schema) : (Json.object inner).WellFormed := by
  rcases mem_subschemas_iff.mp within with ⟨key, -, held⟩
    | ⟨key, -, map, name, held, member⟩
  · exact wellFormed_objectField wellFormed held
  · exact wellFormed_of_mem (wellFormed_objectField wellFormed held) member

end WellFormed

/-! ## Written nodes -/

/--
Whether the values that the variants of a tagged union admit are among those
that what it declares beside them does.
-/
def BesideVariants (definition : Sections) (schema : Members) : Prop :=
  (schema.get? "oneOf").isSome = true → ∀ value, value.WellFormed →
    Valid definition schema value →
      required schema value = true ∧ constant schema value = true

/-- A checked node of a document, and the JSON Schema written of it. -/
structure WrittenNode (scientific : Scientific) (definition : Sections)
    (reached : List String) (source : Json) (schema : Members) : Prop where
  written : ∃ converted, jsonSchema schema = .ok converted
    ∧ source = .object converted
  checked : CheckedUnder scientific definition schema
  wellFormed : (Json.object schema).WellFormed
  named : ∀ name ∈ references schema, name ∈ reached
  beside : BesideVariants definition schema

/-- What is written of a node within a written one is a written node. -/
theorem WrittenNode.within {source : Json} {inner result : Members}
    (node : WrittenNode scientific definition reached source schema)
    (within : inner ∈ subschemas schema)
    (checked : CheckedWithin scientific definition inner)
    (written : jsonSchema inner = .ok result) :
    WrittenNode scientific definition reached (.object result) inner where
  written := ⟨result, written, rfl⟩
  checked := checked.under
  wellFormed := wellFormed_subschema node.wellFormed within
  named := fun name among =>
    node.named name (mem_references_iff.mpr (Or.inr ⟨inner, within, among⟩))
  beside := fun tagged => by
    rw [checked.oneOf_none] at tagged
    cases tagged

section Forms

variable {source : Json}
  (node : WrittenNode scientific definition reached source schema)
  (written : jsonSchema schema = .ok converted)
  (plain : schema.get? "$ref" = none) (untagged : schema.get? "oneOf" = none)

include node written plain untagged

/-- What is written of the members a node declares renders them. -/
theorem WrittenNode.rendered_members (name : String) :
    Rendered (WrittenNode scientific definition reached)
      (memberSchema converted name) (memberSchema schema name) := by
  have nodup := nodup_of_wellFormed node.wellFormed
  have others : Rendered (WrittenNode scientific definition reached)
      (converted.get? "additionalProperties")
      (schema.get? "additionalProperties") := by
    cases declared : objectField schema "additionalProperties" with
    | none =>
        rw [written_unmapped written nodup declared (by decide)
          (Or.inl (by decide))]
        rcases node.checked.node.additional_cases plain untagged
          with none_ | closed | ⟨inner, held⟩
        · rw [none_]
          exact .absent
        · rw [closed]
          exact .refused
        · rw [objectField_eq_some.mpr held] at declared
          cases declared
    | some inner =>
        rcases written_inner written nodup (Or.inl rfl) declared
          with ⟨result, inner_written, held⟩
        rw [held, objectField_eq_some.mp declared]
        apply Rendered.node
        apply node.within _ (node.checked.additional declared) inner_written
        exact mem_subschemas_iff.mpr
          (Or.inl ⟨"additionalProperties", by simp, declared⟩)
  cases declared : objectField schema "properties" with
  | none =>
      have same := written_unmapped written nodup declared (by decide)
        (Or.inl (by decide))
      have also : objectField converted "properties" = none := by
        rw [objectField, same]
        exact declared
      rw [memberSchema, memberSchema, declared, also]
      exact others
  | some properties =>
      rcases written_properties written nodup declared
        with ⟨each, each_written, held⟩
      have properties_nodup := nodup_of_wellFormed
        (wellFormed_objectField node.wellFormed declared)
      rcases get?_eachJsonSchema each_written properties_nodup
        with ⟨keys, absent, present⟩
      have each_nodup : each.keys.Nodup := keys ▸ properties_nodup
      rw [memberSchema, memberSchema, declared, objectField_eq_some.mpr held,
        Option.bind_some, Option.bind_some, Members.get?_ofMembers each_nodup]
      cases found : properties.get? name with
      | none =>
          rw [absent name found]
          exact others
      | some value =>
          rcases present name value found
            with ⟨inner, result, rfl, inner_written, result_held⟩
          rw [result_held]
          have within := Members.mem_of_get? found
          apply Rendered.node
          apply node.within _ (node.checked.property declared within)
            inner_written
          exact mem_subschemas_iff.mpr
            (Or.inr ⟨"properties", by simp, properties, name, declared, within⟩)

theorem WrittenNode.rendered_items :
    Rendered (WrittenNode scientific definition reached)
      (converted.get? "items") (schema.get? "items") := by
  have nodup := nodup_of_wellFormed node.wellFormed
  rcases node.checked.node.items_cases plain untagged with none_ | ⟨inner, listed⟩
  · have unmapped : objectField schema "items" = none := by
      rw [objectField, none_]
      rfl
    rw [written_unmapped written nodup unmapped (by decide)
      (Or.inl (by decide)), none_]
    exact .absent
  · have declared := (hasType_of_arrayItems listed).2
    rcases written_inner written nodup (Or.inr rfl) declared
      with ⟨result, inner_written, held⟩
    rw [held, objectField_eq_some.mp declared]
    apply Rendered.node
    apply node.within _ (node.checked.items plain listed) inner_written
    exact mem_subschemas_iff.mpr (Or.inl ⟨"items", by simp, declared⟩)

/-- What is written of a plain node is of its form. -/
theorem WrittenNode.plainForm (other : hasType schema "json" = false) :
    PlainForm (WrittenNode scientific definition reached) converted schema := by
  have nodup := nodup_of_wellFormed node.wellFormed
  have same : ∀ key, key ∉ rewrittenKeywords →
      converted.get? key = schema.get? key :=
    fun key => written_other written nodup
  have unformatted : schema.get? "format" = none := by
    by_contra formatted
    exact absurd (node.checked.node.known_keyword formatted) (by decide)
  have no_variants : objectField schema "oneOf" = none := by
    rw [objectField, untagged]
    rfl
  have typed : converted.get? "type" = schema.get? "type" := by
    cases declared : objectField schema "type" with
    | none =>
        exact written_unmapped written nodup declared (by decide)
          (Or.inr other)
    | some members =>
        rcases node.checked.node.untagged_keywords plain untagged
          with ⟨context, types, -, declares, -⟩
        have held := objectField_eq_some.mp declared
        rcases declaredTypes_cases declares with ⟨type, -, named⟩ | ⟨many, -⟩
        · rw [hasType_iff, held] at named
          cases named
        · unfold declaredTypes primitiveUnionTypes strField at declares
          rw [held] at declares
          cases declares
  constructor
  · exact typed
  · exact same "enum" (by decide)
  · exact same "const" (by decide)
  · intro value
    have limits : ∀ key ∈ boundKeywords,
        numberField converted key = numberField schema key := by
      intro key within
      have apart : ∀ key ∈ boundKeywords, key ∉ rewrittenKeywords := by decide
      rw [numberField, numberField, same key (apart key within)]
    have free : formatted converted value = true := by
      unfold formatted strField
      rw [same "format" (by decide), unformatted]
      rfl
    rw [free, Bool.and_true]
    cases value with
    | _ =>
        simp only [bounded, valueMeetsBounds, bound,
          limits "minLength" (by decide), limits "minimum" (by decide),
          limits "maximum" (by decide)]
  · exact same "required" (by decide)
  · rw [same "$ref" (by decide), plain]
  · rw [written_unmapped written nodup no_variants (by decide)
      (Or.inl (by decide)), untagged]
  · exact node.rendered_members written plain untagged
  · exact node.rendered_items written plain untagged

end Forms

/-! ## Tagged unions -/

section Unions

variable {defs : Members} {discriminator tag : String} {variant inner : Members}

/-- The properties of a variant that are written, with its tag. -/
def taggedProperties (discriminator tag : String) (converted : Members) :
    Members :=
  let told := Members.insert [] discriminator (.object (constantSchema tag))
  match objectField converted "properties" with
  | some declared => Members.spread told declared
  | none => told

theorem ordered_taggedProperties :
    (taggedProperties discriminator tag converted).Ordered := by
  have told : (Members.insert [] discriminator
      (.object (constantSchema tag))).Ordered :=
    Members.ordered_nil.insert discriminator _
  unfold taggedProperties
  dsimp only
  split
  · exact told.spread _
  · exact told

section Properties

variable (written : jsonSchema schema = .ok converted)
  (wellFormed : (Json.object schema).WellFormed)

include written wellFormed

/-- A map is written only where one is declared. -/
theorem declared_of_written {key : String} {map : Members}
    (held : objectField converted key = some map)
    (named : key ≠ "discriminator") (typed : key ≠ "type") :
    ∃ declared, objectField schema key = some declared := by
  cases declared : objectField schema key with
  | some members => exact ⟨members, rfl⟩
  | none =>
      rw [objectField, written_unmapped written (nodup_of_wellFormed wellFormed)
        declared named (Or.inl typed)] at held
      rw [objectField, held] at declared
      cases declared

theorem written_properties_nodup {map : Members}
    (held : objectField converted "properties" = some map) :
    map.keys.Nodup := by
  rcases declared_of_written written wellFormed held (by decide) (by decide)
    with ⟨properties, declared⟩
  rcases written_properties written (nodup_of_wellFormed wellFormed) declared
    with ⟨each, -, result_held⟩
  obtain rfl := Option.some.inj
    (held.symm.trans (objectField_eq_some.mpr result_held))
  exact (Members.ordered_ofMembers each).nodup

theorem get?_taggedProperties (name : String) :
    (taggedProperties discriminator tag converted).get? name
      = ((objectField converted "properties").bind (·.get? name)).or
        (if name = discriminator then some (.object (constantSchema tag))
          else none) := by
  have told : (Members.insert [] discriminator
      (.object (constantSchema tag))).get? name
        = if name = discriminator then some (.object (constantSchema tag))
          else none := by
    rw [Members.get?_insert Members.ordered_nil.nodup]
    rfl
  unfold taggedProperties
  dsimp only
  cases held : objectField converted "properties" with
  | none => exact told
  | some map =>
      dsimp only
      rw [Members.get?_spread
        (Members.nodup_insert Members.ordered_nil.nodup _ _)
        (written_properties_nodup written wellFormed held), told]
      rfl

end Properties

theorem get?_taggedVariant (nodup : converted.keys.Nodup) (key : String) :
    (taggedVariant discriminator tag variant converted).get? key
      = if key = "required" then
          some (.array (.string discriminator
            :: ((variant.get? "required").bind Json.asArray).getD []))
        else if key = "properties" then
          some (.object (taggedProperties discriminator tag converted))
        else converted.get? key := by
  unfold taggedVariant
  dsimp only
  rw [Members.get?_insert (Members.nodup_insert nodup _ _),
    Members.get?_insert nodup]
  rfl

theorem get?_constantSchema {keyword : String} (other : keyword ≠ "const") :
    Members.get? (constantSchema tag) keyword = none := by
  rw [constantSchema, Members.get?_cons, if_neg other]
  rfl

/-- A tag's schema validates just the tag. -/
theorem validates_constantSchema (fuel : Nat) (value : Json) :
    validates defs (fuel + 1) (.object (constantSchema tag)) value = true
      ↔ value = .string tag := by
  have told : constant (constantSchema tag) value = true
      ↔ value = .string tag := by
    have held : Members.get? (constantSchema tag) "const"
        = some (.string tag) := rfl
    have fits : constantFits (.string tag) "string" = true := rfl
    rw [constant, held, Option.all_some]
    constructor
    · exact eq_of_same fits
    · rintro rfl
      exact same_refl fits
  rw [validates_of_plain (get?_constantSchema (by decide))
    (get?_constantSchema (by decide)), asserted_iff, told]
  constructor
  · rintro ⟨⟨-, -, same, -⟩, -⟩
    exact same
  · rintro rfl
    exact ⟨⟨rfl, rfl, rfl, rfl, rfl⟩, rfl, rfl⟩

/-- Without another member, an object has the members it had. -/
theorem containsKey_filter {members : Members} {name : String}
    (other : name ≠ discriminator) :
    Members.containsKey (members.filter fun member =>
        member.1 ≠ discriminator) name
      = Members.containsKey members name := by
  rw [Bool.eq_iff_iff, Members.containsKey_iff, Members.containsKey_iff]
  constructor
  · intro within
    rcases List.mem_map.mp within with ⟨member, among, rfl⟩
    exact List.mem_map_of_mem (List.mem_filter.mp among).1
  · intro within
    rcases List.mem_map.mp within with ⟨member, among, rfl⟩
    exact List.mem_map_of_mem
      (List.mem_filter.mpr ⟨among, by simpa using other⟩)

/-- What is written of a variant is of its form. -/
theorem WrittenNode.taggedForm
    (node : WrittenNode scientific definition reached (.object inner) variant)
    (written : jsonSchema variant = .ok inner)
    (within : CheckedWithin scientific definition variant)
    (head : VariantOf discriminator tag variant) :
    TaggedForm defs (WrittenNode scientific definition reached) discriminator tag
      (taggedVariant discriminator tag variant inner) variant := by
  have nodup := nodup_of_wellFormed node.wellFormed
  have inner_nodup := (jsonSchema_ok written nodup).1
  have plain := node.checked.node.plain_of_keyword (hasType_iff.mp head.typed)
    (by decide)
  have untagged := within.oneOf_none
  have looked := @get?_taggedVariant inner discriminator tag variant inner_nodup
  have other : hasType variant "json" = false := by
    by_contra json
    exact absurd (hasType_unique head.typed (by simpa using json)) (by decide)
  have form := node.plainForm written plain untagged other
  rcases (node.checked.node.untagged_node plain untagged head.typed).2.1 rfl
    with ⟨fuel, context, object⟩
  rcases object_form object with ⟨values, opened, -⟩
    | ⟨⟨properties, names, declares⟩, -⟩
  · have closed := head.closed
    rw [objectField_eq_some.mpr opened] at closed
    cases closed
  rcases written_properties written nodup declares.declared
    with ⟨each, each_written, held⟩
  have properties_nodup := nodup_of_wellFormed
    (wellFormed_objectField node.wellFormed declares.declared)
  rcases get?_eachJsonSchema each_written properties_nodup
    with ⟨keys, absent, present⟩
  have each_nodup : each.keys.Nodup := keys ▸ properties_nodup
  have told_properties : ∀ name,
      (taggedProperties discriminator tag inner).get? name
        = (each.get? name).or (if name = discriminator then
            some (.object (constantSchema tag)) else none) := by
    intro name
    rw [get?_taggedProperties written node.wellFormed,
      objectField_eq_some.mpr held, Option.bind_some,
      Members.get?_ofMembers each_nodup]
  have member_eq : ∀ name, memberSchema
      (taggedVariant discriminator tag variant inner) name
        = ((taggedProperties discriminator tag inner).get? name).or
          (inner.get? "additionalProperties") := by
    intro name
    rw [memberSchema, objectField, looked "properties",
      looked "additionalProperties", if_neg (by decide), if_pos rfl,
      if_neg (by decide), if_neg (by decide)]
    rfl
  have untold := head.untold properties declares.declared
  have structured := node.checked.node.structured_object plain untagged
    head.typed
  constructor
  · rw [looked, if_neg (by decide), if_neg (by decide)]
    exact form.type_eq
  · rw [looked, if_neg (by decide), if_neg (by decide)]
    exact form.enum_eq.trans structured.1
  · rw [looked, if_neg (by decide), if_neg (by decide)]
    exact form.const_eq.trans structured.2.1
  · intro members
    have apart : ∀ name ∈ names, name ≠ discriminator := by
      rintro name within rfl
      have held := declares.known name within
      exact untold ((Members.containsKey_iff properties name).mp held)
    have listed : ((variant.get? "required").bind Json.asArray).getD []
        = names.map Json.string := by
      rcases readStringArray_cases declares.required with ⟨none_, rfl⟩ | held
      · rw [none_]
        rfl
      · rw [held]
        rfl
    rw [Bool.eq_iff_iff, Bool.and_eq_true, required_iff declares.required,
      required, looked, if_pos rfl, Option.all_some, listed]
    simp only [Json.asArray, Option.any_some, List.all_cons, Json.asStr,
      Bool.and_eq_true, List.all_eq_true, List.forall_mem_map]
    apply and_congr_right
    intro _
    apply forall₂_congr
    intro name within
    rw [containsKey_filter (apart name within)]
  · rw [looked, if_neg (by decide), if_neg (by decide)]
    exact form.ref_none
  · rw [looked, if_neg (by decide), if_neg (by decide)]
    exact form.oneOf_none
  · refine ⟨.object (constantSchema tag), ?_, validates_constantSchema⟩
    have unheld : each.get? discriminator = none := by
      rw [Members.get?_eq_none_iff, keys]
      exact untold
    rw [member_eq, told_properties, unheld, if_pos rfl]
    rfl
  · intro name apart
    have rendered := form.members name
    rw [member_eq, told_properties, if_neg apart, Option.or_none]
    rw [memberSchema, objectField_eq_some.mpr held, Option.bind_some,
      Members.get?_ofMembers each_nodup] at rendered
    exact rendered

/-- What is written of a tagged union is of its form. -/
theorem WrittenNode.unionForm {source : Json} {variants : Members}
    (node : WrittenNode scientific definition reached source schema)
    (written : jsonSchema schema = .ok converted)
    (declared : objectField schema "oneOf" = some variants) :
    ∃ discriminator each, UnionForm definition defs
      (WrittenNode scientific definition reached) converted schema discriminator
      variants each := by
  have nodup := nodup_of_wellFormed node.wellFormed
  have held := objectField_eq_some.mp declared
  have plain := node.checked.node.plain_of_keyword held (by decide)
  rcases node.checked.node.union_head declared
    with ⟨context, discriminator, enumerated, alone⟩
  rcases checkUnionHead_ok alone
    with ⟨typed, properties, additional, -, named, -⟩
  rcases written_variants written nodup declared
    with ⟨also, each, also_named, succeeds, oneOf⟩
  obtain rfl := Option.some.inj (named.symm.trans also_named)
  have unmapped : ∀ key, schema.get? key = none →
      converted.get? key = none :=
    (jsonSchema_ok written nodup).2.1
  have unlisted : schema.get? "enum" = none := by
    by_contra enum
    have textual := checkEnum_ok enumerated
      (by simpa [Option.isSome_iff_ne_none] using enum)
    exact absurd (hasType_unique typed textual) (by decide)
  have object : converted.get? "type" = some (.string "object") := by
    have type_unmapped : objectField schema "type" = none := by
      rw [objectField, hasType_iff.mp typed]
      rfl
    have other : hasType schema "json" = false := by
      by_contra json
      exact absurd (hasType_unique typed (by simpa using json)) (by decide)
    rw [written_unmapped written nodup type_unmapped (by decide)
      (Or.inr other), hasType_iff.mp typed]
  refine ⟨discriminator, each, ?_⟩
  constructor
  · exact named
  · exact declared
  · exact oneOf
  · apply forall₂_imp_mem (taggedVariants_ok succeeds)
    rintro json ⟨tag, value⟩ within ⟨variant, inner, rfl, inner_written, rfl⟩
    rcases node.checked.variant plain declared within
      with ⟨variant_checked, other, other_named, head⟩
    obtain rfl := Option.some.inj (named.symm.trans other_named)
    refine ⟨_, variant, rfl, rfl, ?_⟩
    have variant_node := node.within (mem_subschemas_iff.mpr
      (Or.inr ⟨"oneOf", by simp, variants, tag, declared, within⟩))
      variant_checked inner_written
    exact variant_node.taggedForm inner_written variant_checked head
  · rw [written_other written nodup (by decide), plain]
  · intro name
    rw [memberSchema, objectField, unmapped "properties" properties,
      unmapped "additionalProperties" additional]
    rfl
  · intro value wellFormed valid
    have tagged : (schema.get? "oneOf").isSome = true := by
      rw [held]
      rfl
    rcases node.beside tagged value wellFormed valid with ⟨required, constant⟩
    rcases (valid_tagged_iff node.checked.node declared named).mp valid
      with ⟨variant, -, members, inner, rfl, -⟩
    rw [asserted_object_iff, JsonSchema.typed, object, listed,
      unmapped "enum" unlisted, JsonSchema.constant,
      written_other written nodup (by decide), JsonSchema.required,
      written_other written nodup (by decide)]
    exact ⟨rfl, rfl, constant, required⟩

end Unions

/-! ## Every node -/

/-- What is written of the nodes of a document renders them. -/
theorem written_rendering {defs : Members}
    (entries : ∀ name ∈ reached, ∃ target inner,
      definition.def? name = some target ∧ defs.get? name = some inner
        ∧ WrittenNode scientific definition reached inner target) :
    Rendering scientific definition defs
      (WrittenNode scientific definition reached) where
  checked := fun node => node.checked
  renders := by
    intro source schema node
    rcases node.written with ⟨converted, written, rfl⟩
    have nodup := nodup_of_wellFormed node.wellFormed
    have checked := node.checked.node
    cases held : schema.get? "$ref" with
    | some reference =>
        rcases checked.reference held with ⟨name, target, named, entry⟩
        have reference_named := (schemaRefName_ok named).1
        have among : name ∈ reached :=
          node.named name (mem_references_iff.mpr (Or.inl reference_named))
        rcases entries name among with ⟨other, inner, found, listed, inner_node⟩
        obtain rfl := Option.some.inj (entry.symm.trans found)
        apply Renders.reference reference_named entry inner_node
        intro fuel value
        have silent : ∀ keyword ∈ JsonSchema.keywords, keyword ≠ "$ref" →
            converted.get? keyword = none := by
          intro keyword within apart
          apply (jsonSchema_ok written nodup).2.1 keyword
          by_contra declared
          rcases Option.ne_none_iff_exists'.mp declared with ⟨value, found⟩
          have beyond : ∀ keyword ∈ JsonSchema.keywords, keyword ≠ "$ref" →
              keyword ∉ referenceKeywords := by decide
          have plain := checked.plain_of_keyword found
            (beyond keyword within apart)
          rw [held] at plain
          cases plain
        apply validates_of_reference silent _ _ listed
        · exact reference
        · rw [written_other written nodup (by decide), held]
        · rw [held] at reference_named
          exact reference_named
    | none =>
        cases tagged : schema.get? "oneOf" with
        | some value =>
            rcases checked.keywords held
              with ⟨context, -, ⟨⟨discriminator, variants⟩, alone⟩ | ⟨none_, -⟩⟩
            · have declared := (checkUnionHead_ok alone).2.2.2.1
              rcases node.unionForm written declared with ⟨_, _, form⟩
              exact .union held form
            · rw [tagged] at none_
              cases none_
        | none =>
            cases typed : hasType schema "json" with
            | false =>
                exact .plain held tagged typed
                  (node.plainForm written held tagged typed)
            | true =>
                apply Renders.any held typed
                intro fuel value
                apply validates_of_silent
                intro keyword within
                by_cases same : keyword = "type"
                · subst same
                  exact written_json written nodup typed
                · apply (jsonSchema_ok written nodup).2.1 keyword
                  exact checked.any_value typed within same

end Clerkenwell.Codegen
