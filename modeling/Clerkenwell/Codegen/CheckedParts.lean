import Clerkenwell.Codegen.WrittenWithin

/-!
# The parts of a checked node

Whatever is within a checked node is checked, but for what a tagged union has as
`items`: its variants are checked, and what is declared beside them is not.
-/

namespace Clerkenwell.Codegen

open Clerkenwell.Foundation Running JsonSchema

variable {scientific : Scientific} {definition : Sections} {schema : Members}

/-! ## Maps of schemas -/

section Maps

/-- The variants of a checked tagged union are schemas. -/
theorem CheckedNode.variant_objects {variants : Members}
    (checked : CheckedNode scientific definition schema)
    (declared : objectField schema "oneOf" = some variants) :
    ∀ member ∈ variants, ∃ variant, member.2 = .object variant := by
  have held := objectField_eq_some.mp declared
  have plain := checked.plain_of_keyword held (by decide)
  rcases checked with ⟨fuel, context, succeeds⟩
  cases fuel with
  | zero => cases succeeds
  | succ fuel =>
      have tagged := checkObjectNode_tagged succeeds plain (by rw [held]; rfl)
      rw [checkTaggedUnion] at tagged
      rcases (succeeds_bind _ _ _).mp tagged with ⟨head, alone, tagged⟩
      rw [succeeds_settled] at alone
      have also := (checkUnionHead_ok alone).2.2.2.1
      obtain rfl := Option.some.inj (declared.symm.trans also)
      intro member within
      have one := (succeeds_forM _ _).mp tagged member within
      rcases (succeeds_bind _ _ _).mp one with ⟨⟨⟩, -, node⟩
      exact object_of_checked node

/-- The properties that a checked node declares are schemas. -/
theorem CheckedNode.property_objects {properties : Members}
    (checked : CheckedNode scientific definition schema)
    (declared : objectField schema "properties" = some properties) :
    ∀ member ∈ properties, ∃ property, member.2 = .object property := by
  have held := objectField_eq_some.mp declared
  have plain := checked.plain_of_keyword held (by decide)
  have untagged : schema.get? "oneOf" = none := by
    rcases checked.keywords plain with ⟨context, -, ⟨head, alone⟩ | ⟨none_, -⟩⟩
    · rw [(checkUnionHead_ok alone).2.1] at held
      cases held
    · exact none_
  rcases checked.typed_or_shapeless plain untagged
      (by decide : "object" ∉ primitiveUnionTypeNames) with typed | shapeless
  · rcases (checked.untagged_node plain untagged typed).2.1 rfl
      with ⟨fuel, within, object⟩
    rcases object_form object with ⟨values, -, none_, -⟩
      | ⟨⟨others, names, declares⟩, -⟩
    · rw [none_] at held
      cases held
    · obtain rfl := Option.some.inj (declared.symm.trans declares.declared)
      exact declares.objects
  · rw [shapeless "properties" (by simp)] at held
    cases held

theorem CheckedNode.convertible (checked : CheckedNode scientific definition schema) :
    Convertible schema where
  properties := fun _ declared => checked.property_objects declared
  variants := fun variants declared => by
    rcases checked.union_head declared with ⟨context, discriminator, -, alone⟩
    exact ⟨⟨discriminator, (checkUnionHead_ok alone).2.2.2.2.1⟩,
      checked.variant_objects declared⟩

end Maps

/-! ## What is within -/

section Parts

/--
What is within a checked node refuses every value or is checked, but for what a
tagged union has as `items`.
-/
theorem CheckedUnder.within_cases
    (checked : CheckedUnder scientific definition schema) {inner : Json}
    (within : Within (.object schema) inner) :
    inner = .bool false
      ∨ (∃ part, inner = .object part ∧ part ∈ subschemas schema
        ∧ CheckedWithin scientific definition part)
      ∨ (schema.get? "oneOf").isSome = true
        ∧ schema.get? "items" = some inner := by
  have node := checked.node
  cases within with
  | @keyed _ _ key among held =>
      have beyond : ∀ key ∈ ["additionalProperties", "items"],
          key ∉ referenceKeywords := by decide
      have plain := node.plain_of_keyword held (beyond key among)
      have inside : ∀ part, objectField schema key = some part →
          part ∈ subschemas schema := fun part declared =>
        mem_subschemas_iff.mpr (Or.inl ⟨key, among, declared⟩)
      simp only [List.mem_cons, List.not_mem_nil, or_false] at among
      cases tagged : schema.get? "oneOf" with
      | some variants =>
          rcases among with rfl | rfl
          · rcases node.keywords plain
              with ⟨context, -, ⟨head, alone⟩ | ⟨none_, -⟩⟩
            · rw [(checkUnionHead_ok alone).2.2.1] at held
              cases held
            · rw [none_] at tagged
              cases tagged
          · exact Or.inr (Or.inr ⟨rfl, held⟩)
      | none =>
          rcases among with rfl | rfl
          · rcases node.additional_cases plain tagged
              with none_ | closed | ⟨part, opened⟩
            · rw [none_] at held
              cases held
            · exact Or.inl (Option.some.inj (held.symm.trans closed))
            · obtain rfl := Option.some.inj (held.symm.trans opened)
              have declared := objectField_eq_some.mpr held
              exact Or.inr (Or.inl ⟨part, rfl, inside part declared,
                checked.additional declared⟩)
          · rcases node.items_cases plain tagged with none_ | ⟨part, listed⟩
            · rw [none_] at held
              cases held
            · have declared := (hasType_of_arrayItems listed).2
              rw [objectField_eq_some.mp declared] at held
              obtain rfl := Option.some.inj held
              exact Or.inr (Or.inl ⟨part, rfl, inside part declared,
                checked.items plain listed⟩)
  | @mapped _ map _ key name among held member =>
      have declared := objectField_eq_some.mpr held
      simp only [List.mem_cons, List.not_mem_nil, or_false] at among
      rcases among with rfl | rfl | rfl
      · rcases node.property_objects declared _ member with ⟨part, object⟩
        dsimp only at object
        subst object
        refine Or.inr (Or.inl ⟨part, rfl, ?_, checked.property declared member⟩)
        exact mem_subschemas_iff.mpr
          (Or.inr ⟨"properties", by simp, map, name, declared, member⟩)
      · rcases node.variant_objects declared _ member with ⟨part, object⟩
        dsimp only at object
        subst object
        have plain := node.plain_of_keyword held (by decide)
        refine Or.inr (Or.inl ⟨part, rfl, ?_,
          (checked.variant plain declared member).1⟩)
        exact mem_subschemas_iff.mpr
          (Or.inr ⟨"oneOf", by simp, map, name, declared, member⟩)
      · have known := @CheckedNode.known_keyword _ _ _ "$defs" node (by simp [held])
        exact absurd known (by decide)
  | listed held member =>
      have plain := node.plain_of_keyword held (by decide)
      rcases node.keywords plain with ⟨context, -, ⟨head, alone⟩ | ⟨none_, -⟩⟩
      · have declared := objectField_eq_some.mp (checkUnionHead_ok alone).2.2.2.1
        rw [declared] at held
        cases held
      · rw [none_] at held
        cases held

theorem not_within_bool {allowed : Bool} {inner : Json} :
    ¬Within (.bool allowed) inner := by
  intro within
  cases within

variable {reference : Json}

/-- What a checked node references, it names, and an entry is of that name. -/
theorem CheckedNode.referenceOf
    (checked : CheckedNode scientific definition schema)
    (referenced : referenceOf (.object schema) = some reference) :
    ∃ name target, localReferenceName (some reference) = some name
      ∧ name ∈ references schema ∧ definition.def? name = some target := by
  have held : schema.get? "$ref" = some reference := referenced
  rcases checked.reference held with ⟨name, target, named, entry⟩
  have reference_named := (schemaRefName_ok named).1
  refine ⟨name, target, ?_, mem_references_iff.mpr (Or.inl reference_named),
    entry⟩
  rw [← held]
  exact reference_named

/-- Whatever is referenced within a checked node is an entry it names. -/
theorem CheckedWithin.refers
    (checked : CheckedWithin scientific definition schema)
    (refers : Refers (.object schema) reference) :
    ∃ name target, localReferenceName (some reference) = some name
      ∧ name ∈ references schema ∧ definition.def? name = some target := by
  rcases refers with ⟨inner, nested, referenced⟩
  generalize same : Json.object schema = outer at nested
  induction nested using Relation.ReflTransGen.head_induction_on
    generalizing schema with
  | refl =>
      subst same
      exact checked.under.node.referenceOf referenced
  | head within later inductionHypothesis =>
      subst same
      rcases checked.under.within_cases within
        with rfl | ⟨part, rfl, inside, part_checked⟩ | ⟨tagged, -⟩
      · rcases Relation.ReflTransGen.cases_head later with rfl | ⟨_, other, -⟩
        · cases referenced
        · exact absurd other not_within_bool
      · rcases inductionHypothesis part_checked rfl
          with ⟨name, target, named, among, entry⟩
        exact ⟨name, target, named,
          mem_references_iff.mpr (Or.inr ⟨part, inside, among⟩), entry⟩
      · rw [checked.oneOf_none] at tagged
        cases tagged

/-- But for a tagged union's items, a checked node references entries it names. -/
theorem CheckedUnder.refers_cases
    (checked : CheckedUnder scientific definition schema)
    (refers : Refers (.object schema) reference) :
    (∃ name target, localReferenceName (some reference) = some name
        ∧ name ∈ references schema ∧ definition.def? name = some target)
      ∨ (schema.get? "oneOf").isSome = true
        ∧ ∃ items, schema.get? "items" = some items
          ∧ Refers items reference := by
  rcases refers_iff.mp refers with referenced | ⟨inner, within, later⟩
  · exact Or.inl (checked.node.referenceOf referenced)
  rcases checked.within_cases within
    with rfl | ⟨part, rfl, inside, part_checked⟩ | ⟨tagged, held⟩
  · rcases refers_iff.mp later with referenced | ⟨_, other, -⟩
    · cases referenced
    · exact absurd other not_within_bool
  · rcases part_checked.refers later with ⟨name, target, named, among, entry⟩
    exact Or.inl ⟨name, target, named,
      mem_references_iff.mpr (Or.inr ⟨part, inside, among⟩), entry⟩
  · exact Or.inr ⟨tagged, inner, held, later⟩

/-- A schema nested in another is within it. -/
theorem within_of_subschema {inner : Members} (inside : inner ∈ subschemas schema) :
    Within (.object schema) (.object inner) := by
  rcases mem_subschemas_iff.mp inside with ⟨key, among, held⟩
    | ⟨key, among, map, name, held, member⟩
  · exact .keyed among (objectField_eq_some.mp held)
  · apply @Within.mapped _ _ _ key name _ (objectField_eq_some.mp held) member
    simp only [List.mem_cons, List.not_mem_nil, or_false] at among
    rcases among with rfl | rfl
    · simp
    · simp

/-- What a schema names is referenced somewhere within it. -/
theorem refers_of_mem_references {name : String}
    (named : name ∈ references schema) :
    ∃ reference, Refers (.object schema) reference
      ∧ localReferenceName (some reference) = some name := by
  induction smallest : sizeOf schema using Nat.strong_induction_on
    generalizing schema with
  | _ size inductionHypothesis =>
    rcases mem_references_iff.mp named with direct | ⟨inner, inside, among⟩
    · cases held : schema.get? "$ref" with
      | none => exact absurd held (ne_none_of_localReferenceName direct)
      | some reference =>
          rw [held] at direct
          exact ⟨reference, refers_iff.mpr (Or.inl held), direct⟩
    · have smaller : sizeOf inner < size := by
        rw [← smallest]
        exact sizeOf_subschema_lt inside
      rcases inductionHypothesis _ smaller among rfl
        with ⟨reference, refers, reference_named⟩
      have within := within_of_subschema inside
      exact ⟨reference, refers_iff.mpr (Or.inr ⟨_, within, refers⟩),
        reference_named⟩

/-- A checked node's nested schemas are checked, but for a tagged union's items. -/
theorem CheckedUnder.subschema_cases
    (checked : CheckedUnder scientific definition schema) {inner : Members}
    (inside : inner ∈ subschemas schema) :
    CheckedWithin scientific definition inner
      ∨ (schema.get? "oneOf").isSome = true
        ∧ objectField schema "items" = some inner := by
  rcases checked.within_cases (within_of_subschema inside)
    with refused | ⟨part, same, -, part_checked⟩ | ⟨tagged, held⟩
  · cases refused
  · obtain rfl := Json.object.inj same
    exact Or.inl part_checked
  · exact Or.inr ⟨tagged, objectField_eq_some.mpr held⟩

theorem CheckedWithin.convertible_nested
    (checked : CheckedWithin scientific definition schema) {inner : Members}
    (nested : Nested schema inner) : Convertible inner := by
  induction nested using Relation.ReflTransGen.head_induction_on with
  | refl => exact checked.under.node.convertible
  | head inside _ inductionHypothesis =>
      rcases checked.under.subschema_cases inside with inner_checked | ⟨tagged, -⟩
      · exact inductionHypothesis inner_checked
      · rw [checked.oneOf_none] at tagged
        cases tagged

/-- A checked node can be written but for a tagged union's items. -/
theorem CheckedUnder.convertible_cases
    (checked : CheckedUnder scientific definition schema) {inner : Members}
    (nested : Nested schema inner) :
    Convertible inner
      ∨ (schema.get? "oneOf").isSome = true
        ∧ ∃ items, objectField schema "items" = some items
          ∧ Nested items inner := by
  rcases Relation.ReflTransGen.cases_head nested with rfl | ⟨part, inside, later⟩
  · exact Or.inl checked.node.convertible
  · rcases checked.subschema_cases inside with part_checked | ⟨tagged, held⟩
    · exact Or.inl (part_checked.convertible_nested later)
    · exact Or.inr ⟨tagged, part, held, later⟩

end Parts

end Clerkenwell.Codegen
