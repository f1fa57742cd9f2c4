import Clerkenwell.Codegen.RenderingAgrees
import Clerkenwell.Codegen.SchemaDocument

/-!
# Schemas as they are written

What the JSON Schema of a node has of each keyword, and that it renders the node.
-/

namespace Clerkenwell.Codegen

open Clerkenwell.Foundation Running JsonSchema

variable {schema converted : Members}

/-! ## Keywords -/

section Keywords

variable {discriminator : Option String} {list : Members}

/-- A keyword is written once, as what is inserted for it. -/
theorem jsonSchemaKeywords_ok
    (written : jsonSchemaKeywords discriminator list = .ok converted)
    (nodup : list.keys.Nodup) :
    converted.keys.Nodup
      ∧ (∀ key, list.get? key = none → converted.get? key = none)
      ∧ ∀ key value, list.get? key = some value →
        jsonSchemaKeyword discriminator key value
          = .ok (converted.get? key) := by
  induction list generalizing converted with
  | nil =>
      obtain rfl := Except.ok.inj written
      exact ⟨List.nodup_nil, fun _ _ => rfl, fun _ _ held => by cases held⟩
  | cons member rest inductionHypothesis =>
      rcases member with ⟨key, value⟩
      rcases List.nodup_cons.mp nodup with ⟨absent, rest_nodup⟩
      rw [jsonSchemaKeywords] at written
      rcases except_bind_ok written with ⟨result, one, written⟩
      rcases except_bind_ok written with ⟨others, later, built⟩
      obtain rfl := Except.ok.inj built
      rcases inductionHypothesis later rest_nodup
        with ⟨others_nodup, others_none, others_held⟩
      have unheld : others.get? key = none :=
        others_none key ((Members.get?_eq_none_iff rest key).mpr absent)
      cases result with
      | none =>
          refine ⟨others_nodup, fun other none_ => ?_, fun other inner held => ?_⟩
          · rw [Members.get?_cons] at none_
            split at none_
            · cases none_
            · exact others_none other none_
          · rw [Members.get?_cons] at held
            split at held
            · next same =>
              dsimp only at same held
              subst same
              obtain rfl := Option.some.inj held
              rw [one]
              exact congrArg Except.ok unheld.symm
            · exact others_held other inner held
      | some result =>
          have fresh := (Members.get?_eq_none_iff others key).mp unheld
          refine ⟨List.nodup_cons.mpr ⟨fresh, others_nodup⟩,
            fun other none_ => ?_, fun other inner held => ?_⟩
          · rw [Members.get?_cons] at none_
            split at none_
            · cases none_
            · next different =>
              change Members.get? ((key, result) :: others) other = none
              rw [Members.get?_cons, if_neg different]
              exact others_none other none_
          · change _ = Except.ok (Members.get? ((key, result) :: others) other)
            rw [Members.get?_cons] at held ⊢
            split at held
            · next same =>
              dsimp only at same held
              subst same
              obtain rfl := Option.some.inj held
              rw [one, if_pos rfl]
            · next different =>
              rw [if_neg different]
              exact others_held other inner held

/-- What a schema as JSON Schema has of a keyword. -/
theorem jsonSchema_ok (written : jsonSchema schema = .ok converted)
    (nodup : schema.keys.Nodup) :
    converted.keys.Nodup
      ∧ (∀ key, schema.get? key = none → converted.get? key = none)
      ∧ ∀ key value, schema.get? key = some value →
        jsonSchemaKeyword (strField schema "discriminator") key value
          = .ok (converted.get? key) := by
  rcases except_bind_ok written with ⟨keywords, each, built⟩
  obtain rfl := Except.ok.inj built
  rcases jsonSchemaKeywords_ok each nodup with ⟨keywords_nodup, none_, held⟩
  refine ⟨(Members.ordered_ofMembers keywords).nodup, fun key absent => ?_,
    fun key value found => ?_⟩
  · rw [Members.get?_ofMembers keywords_nodup]
    exact none_ key absent
  · rw [Members.get?_ofMembers keywords_nodup]
    exact held key value found

end Keywords

/-! ## Maps of schemas -/

section Maps

variable {map : Members}

/-- Each schema of a map is written under its name. -/
theorem eachJsonSchema_ok (written : eachJsonSchema map = .ok converted) :
    List.Forall₂ (fun result member => ∃ schema inner : Members,
      member.2 = .object schema ∧ jsonSchema schema = .ok inner
        ∧ result = (member.1, .object inner)) converted map := by
  induction map generalizing converted with
  | nil =>
      obtain rfl := Except.ok.inj written
      exact .nil
  | cons member rest inductionHypothesis =>
      rcases member with ⟨name, value⟩
      cases value with
      | object schema =>
          rw [eachJsonSchema] at written
          rcases except_bind_ok written with ⟨keywords, one, written⟩
          rcases except_bind_ok written with ⟨others, later, built⟩
          obtain rfl := Except.ok.inj built
          refine .cons ⟨schema, _, rfl, ?_, rfl⟩ (inductionHypothesis later)
          rw [jsonSchema, one]
          rfl
      | _ => cases written

theorem taggedVariants_ok {discriminator : String} {written : List Json}
    (succeeds : taggedVariants discriminator map = .ok written) :
    List.Forall₂ (fun json member => ∃ variant inner : Members,
      member.2 = .object variant ∧ jsonSchema variant = .ok inner
        ∧ json = .object (taggedVariant discriminator member.1 variant inner))
      written map := by
  induction map generalizing written with
  | nil =>
      obtain rfl := Except.ok.inj succeeds
      exact .nil
  | cons member rest inductionHypothesis =>
      rcases member with ⟨tag, value⟩
      cases value with
      | object variant =>
          rw [taggedVariants] at succeeds
          rcases except_bind_ok succeeds with ⟨keywords, one, succeeds⟩
          rcases except_bind_ok succeeds with ⟨others, later, built⟩
          obtain rfl := Except.ok.inj built
          refine .cons ⟨variant, _, rfl, ?_, rfl⟩ (inductionHypothesis later)
          rw [jsonSchema, one]
          rfl
      | _ => cases succeeds

/-- What is written of a map, by its names. -/
theorem get?_eachJsonSchema (written : eachJsonSchema map = .ok converted)
    (nodup : map.keys.Nodup) :
    converted.keys = map.keys
      ∧ (∀ name, map.get? name = none → converted.get? name = none)
      ∧ ∀ name value, map.get? name = some value → ∃ schema inner : Members,
        value = .object schema ∧ jsonSchema schema = .ok inner
          ∧ converted.get? name = some (.object inner) := by
  have each := eachJsonSchema_ok written
  have keys_same : converted.keys = map.keys := by
    clear nodup written
    induction each with
    | nil => rfl
    | cons first _ inductionHypothesis =>
        rcases first with ⟨schema, inner, -, -, rfl⟩
        rw [Members.keys_cons, Members.keys_cons, inductionHypothesis]
  have converted_nodup : converted.keys.Nodup := keys_same ▸ nodup
  refine ⟨keys_same, fun name absent => ?_, fun name value held => ?_⟩
  · rw [Members.get?_eq_none_iff] at absent ⊢
    rwa [keys_same]
  · rcases exists_of_mem_right each (Members.mem_of_get? held)
      with ⟨result, among, schema, inner, object, one, rfl⟩
    refine ⟨schema, inner, object, one, ?_⟩
    exact (Members.get?_eq_some_iff converted_nodup _ _).mpr among

end Maps

/-! ## One keyword -/

section OneKeyword

variable {inner : Members} {key : String} {value : Json}
  {discriminator : Option String}

/-- The keywords that are not written as they are. -/
def rewrittenKeywords : List String :=
  ["type", "discriminator", "properties", "additionalProperties", "items",
    "oneOf"]

theorem jsonSchemaKeyword_other (other : key ∉ rewrittenKeywords) :
    jsonSchemaKeyword discriminator key value = .ok (some value) := by
  simp only [rewrittenKeywords, List.mem_cons, List.not_mem_nil, or_false,
    not_or] at other
  rcases other with ⟨type, named, properties, additional, items, oneOf⟩
  cases value with
  | object members =>
      rw [jsonSchemaKeyword, if_neg named, if_neg properties,
        if_neg (by simp [additional, items]), if_neg oneOf]
  | _ =>
      exact jsonSchemaKeyword_unmapped rfl named fun same => absurd same type

variable (written : jsonSchema schema = .ok converted)
  (nodup : schema.keys.Nodup)

include written nodup

theorem written_other (other : key ∉ rewrittenKeywords) :
    converted.get? key = schema.get? key := by
  rcases jsonSchema_ok written nodup with ⟨-, absent, held⟩
  cases found : schema.get? key with
  | none => exact absent key found
  | some value =>
      have one := held key value found
      rw [jsonSchemaKeyword_other other] at one
      exact (Except.ok.inj one).symm

theorem written_unmapped (unmapped : objectField schema key = none)
    (named : key ≠ "discriminator")
    (typed : key ≠ "type" ∨ hasType schema "json" = false) :
    converted.get? key = schema.get? key := by
  rcases jsonSchema_ok written nodup with ⟨-, absent, held⟩
  cases found : schema.get? key with
  | none => exact absent key found
  | some value =>
      have one := held key value found
      rw [jsonSchemaKeyword_unmapped _ named] at one
      · exact (Except.ok.inj one).symm
      · rintro rfl rfl
        rw [hasType_iff.mpr found] at typed
        simp at typed
      · rw [objectField, found] at unmapped
        exact unmapped

theorem written_json (typed : hasType schema "json" = true) :
    converted.get? "type" = none := by
  rcases jsonSchema_ok written nodup with ⟨-, -, held⟩
  have one := held "type" _ (hasType_iff.mp typed)
  exact (Except.ok.inj one).symm

/-- A schema within another is written as one. -/
theorem written_inner
    (within : key = "additionalProperties" ∨ key = "items")
    (declared : objectField schema key = some inner) :
    ∃ result, jsonSchema inner = .ok result
      ∧ converted.get? key = some (.object result) := by
  rcases jsonSchema_ok written nodup with ⟨-, -, held⟩
  have one := held key _ (objectField_eq_some.mp declared)
  have apart : key ≠ "discriminator" ∧ key ≠ "properties" := by
    rcases within with rfl | rfl <;> decide
  rw [jsonSchemaKeyword, if_neg apart.1, if_neg apart.2, if_pos within] at one
  rcases except_bind_ok one with ⟨keywords, each, built⟩
  refine ⟨_, ?_, (Except.ok.inj built).symm⟩
  rw [jsonSchema, each]
  rfl

/-- The properties of a schema are written under their names. -/
theorem written_properties {properties : Members}
    (declared : objectField schema "properties" = some properties) :
    ∃ each, eachJsonSchema properties = .ok each
      ∧ converted.get? "properties"
        = some (.object (Members.ofMembers each)) := by
  rcases jsonSchema_ok written nodup with ⟨-, -, held⟩
  have one := held "properties" _ (objectField_eq_some.mp declared)
  rw [jsonSchemaKeyword, if_neg (by decide), if_pos rfl] at one
  rcases except_bind_ok one with ⟨each, succeeds, built⟩
  exact ⟨each, succeeds, (Except.ok.inj built).symm⟩

/-- The variants of a tagged union are written in a list. -/
theorem written_variants {variants : Members}
    (declared : objectField schema "oneOf" = some variants) :
    ∃ discriminator each, strField schema "discriminator" = some discriminator
      ∧ taggedVariants discriminator variants = .ok each
      ∧ converted.get? "oneOf" = some (.array each) := by
  rcases jsonSchema_ok written nodup with ⟨-, -, held⟩
  have one := held "oneOf" _ (objectField_eq_some.mp declared)
  rw [jsonSchemaKeyword, if_neg (by decide), if_neg (by decide),
    if_neg (by decide), if_pos rfl] at one
  rcases except_bind_ok one with ⟨discriminator, named, one⟩
  rcases except_bind_ok one with ⟨each, succeeds, built⟩
  exact ⟨discriminator, each, expect_eq_ok named, succeeds,
    (Except.ok.inj built).symm⟩

end OneKeyword

end Clerkenwell.Codegen
