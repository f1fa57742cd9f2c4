import Clerkenwell.Codegen.References
import Clerkenwell.Foundation.Exploring

/-!
# Schema documents

The JSON Schema documents a definition's schemas denote.  The definition's
subset is JSON Schema but for two forms: `"type": "json"` is any JSON value, and
a tagged union is a `oneOf` object mapping each tag to its variant.
-/

namespace Clerkenwell.Codegen

open Clerkenwell.Foundation

/-! ## What is referenced -/

section References

variable {schema inner : Members}

/-- The schemas nested in `schema`. -/
def subschemas (schema : Members) : List Members :=
  let maps := (["properties", "oneOf"].filterMap (objectField schema)).flatMap
    fun map => map.map Prod.snd
  (["additionalProperties", "items"].filterMap schema.get? ++ maps).filterMap
    Json.asObject

theorem mem_subschemas_iff :
    inner ∈ subschemas schema
      ↔ (∃ key ∈ ["additionalProperties", "items"],
          objectField schema key = some inner)
        ∨ ∃ key ∈ ["properties", "oneOf"], ∃ map name,
          objectField schema key = some map ∧ (name, Json.object inner) ∈ map := by
  have is_object : ∀ value : Json,
      value.asObject = some inner ↔ value = .object inner := by
    intro value
    cases value <;> simp [Json.asObject]
  rw [subschemas, List.filterMap_append, List.mem_append, List.mem_filterMap,
    List.mem_filterMap]
  apply or_congr
  · constructor
    · rintro ⟨value, within, object⟩
      rcases List.mem_filterMap.mp within with ⟨key, among, held⟩
      refine ⟨key, among, objectField_eq_some.mpr ?_⟩
      rw [held, (is_object value).mp object]
    · rintro ⟨key, among, held⟩
      refine ⟨.object inner, ?_, rfl⟩
      exact List.mem_filterMap.mpr ⟨key, among, objectField_eq_some.mp held⟩
  · constructor
    · rintro ⟨value, within, object⟩
      rcases List.mem_flatMap.mp within with ⟨map, among, within⟩
      rcases List.mem_filterMap.mp among with ⟨key, listed, held⟩
      rcases List.mem_map.mp within with ⟨⟨name, other⟩, member, rfl⟩
      rw [is_object] at object
      dsimp only at object
      subst object
      exact ⟨key, listed, map, name, held, member⟩
    · rintro ⟨key, listed, map, name, held, member⟩
      refine ⟨.object inner, List.mem_flatMap.mpr ⟨map, ?_, ?_⟩, rfl⟩
      · exact List.mem_filterMap.mpr ⟨key, listed, held⟩
      · exact List.mem_map.mpr ⟨_, member, rfl⟩

theorem sizeOf_subschema_lt (within : inner ∈ subschemas schema) :
    sizeOf inner < sizeOf schema := by
  rcases mem_subschemas_iff.mp within with ⟨key, -, held⟩
    | ⟨key, -, map, name, held, member⟩
  · exact sizeOf_objectField_lt held
  · have map_smaller := sizeOf_objectField_lt held
    have inner_smaller := sizeOf_lt_of_mem_members member
    simp only [Json.object.sizeOf_spec] at inner_smaller
    omega

/-- Every `#/$defs` name `schema` and the schemas nested in it reference. -/
def references (schema : Members) : List String :=
  (localReferenceName (schema.get? "$ref")).toList
    ++ (subschemas schema).attach.flatMap fun inner => references inner.val
termination_by sizeOf schema
decreasing_by exact sizeOf_subschema_lt inner.property

theorem references_eq (schema : Members) :
    references schema = (localReferenceName (schema.get? "$ref")).toList
      ++ (subschemas schema).flatMap references := by
  rw [references]
  congr 1
  conv_rhs => rw [← List.attach_map_subtype_val (subschemas schema)]
  rw [List.flatMap_map]

theorem mem_references_iff {name : String} :
    name ∈ references schema
      ↔ localReferenceName (schema.get? "$ref") = some name
        ∨ ∃ inner ∈ subschemas schema, name ∈ references inner := by
  rw [references_eq, List.mem_append, Option.mem_toList, List.mem_flatMap]

end References

/-! ## Schemas as JSON Schema -/

/-- The JSON Schema of just one text. -/
def constantSchema (value : String) : Members :=
  [("const", .string value)]

/--
A tagged union's variant as JSON Schema: the variant, with the discriminator a
required property whose value is the tag.  The variant's own properties are
those of `converted`, the variant as JSON Schema.
-/
def taggedVariant (discriminator tag : String) (variant converted : Members) :
    Members :=
  let told := Members.insert [] discriminator (.object (constantSchema tag))
  let properties :=
    match objectField converted "properties" with
    | some declared => Members.spread told declared
    | none => told
  let required := ((variant.get? "required").bind Json.asArray).getD []
  Members.insert (Members.insert converted "properties" (.object properties))
    "required" (.array (.string discriminator :: required))

mutual

/-- The keywords of a schema as those of JSON Schema. -/
def jsonSchemaKeywords (discriminator : Option String) :
    List (String × Json) → Checked Members
  | [] => .ok []
  | (key, value) :: rest => do
      let converted ← jsonSchemaKeyword discriminator key value
      let others ← jsonSchemaKeywords discriminator rest
      pure ((converted.map fun value => (key, value)).toList ++ others)

/-- What is inserted for a keyword of a schema, if anything is. -/
def jsonSchemaKeyword (discriminator : Option String) (key : String) :
    Json → Checked (Option Json)
  | .object members =>
      if key = "discriminator" then .ok none
      else if key = "properties" then do
        pure (some (.object (Members.ofMembers (← eachJsonSchema members))))
      else if key = "additionalProperties" ∨ key = "items" then do
        let keywords ← jsonSchemaKeywords (strField members "discriminator")
          members
        pure (some (.object (Members.ofMembers keywords)))
      else if key = "oneOf" then do
        let discriminator ← expect discriminator
        pure (some (.array (← taggedVariants discriminator members)))
      else .ok (some (.object members))
  | .string kind =>
      if key = "type" ∧ kind = "json" ∨ key = "discriminator" then .ok none
      else .ok (some (.string kind))
  | value =>
      if key = "discriminator" then .ok none else .ok (some value)

def eachJsonSchema : List (String × Json) → Checked Members
  | [] => .ok []
  | (name, .object schema) :: rest => do
      let keywords ← jsonSchemaKeywords (strField schema "discriminator") schema
      let others ← eachJsonSchema rest
      pure ((name, .object (Members.ofMembers keywords)) :: others)
  | _ :: _ => .error .panicked

def taggedVariants (discriminator : String) :
    List (String × Json) → Checked (List Json)
  | [] => .ok []
  | (tag, .object variant) :: rest => do
      let keywords ← jsonSchemaKeywords (strField variant "discriminator")
        variant
      let others ← taggedVariants discriminator rest
      pure (.object (taggedVariant discriminator tag variant
        (Members.ofMembers keywords)) :: others)
  | _ :: _ => .error .panicked

end

section Keywords

variable {discriminator : Option String}

/-- What is no object is written as it is, but for a type and a discriminator. -/
theorem jsonSchemaKeyword_unmapped {key : String} {value : Json}
    (unmapped : value.asObject = none) (named : key ≠ "discriminator")
    (typed : key = "type" → value ≠ .string "json") :
    jsonSchemaKeyword discriminator key value = .ok (some value) := by
  cases value with
  | object members => cases unmapped
  | string kind =>
      rw [jsonSchemaKeyword, if_neg]
      rintro (⟨type, rfl⟩ | same)
      · exact typed type rfl
      · exact named same
  | _ => rw [jsonSchemaKeyword, if_neg named] <;> simp

/-- Keywords are written where each of them is. -/
theorem jsonSchemaKeywords_writes {list : Members}
    (each : ∀ key value, (key, value) ∈ list → ∃ result,
      jsonSchemaKeyword discriminator key value = .ok result) :
    ∃ converted, jsonSchemaKeywords discriminator list = .ok converted := by
  induction list with
  | nil => exact ⟨[], rfl⟩
  | cons member rest inductionHypothesis =>
      rcases member with ⟨key, value⟩
      rcases each key value List.mem_cons_self with ⟨result, one⟩
      rcases inductionHypothesis fun other inner within =>
        each other inner (List.mem_cons_of_mem _ within) with ⟨others, later⟩
      rw [jsonSchemaKeywords, one, later]
      exact ⟨_, rfl⟩

end Keywords

/-- `schema` as JSON Schema. -/
def jsonSchema (schema : Members) : Checked Members := do
  let keywords ← jsonSchemaKeywords (strField schema "discriminator") schema
  pure (Members.ofMembers keywords)

/-! ## Documents -/

section Documents

variable (definition : Sections) (reference : Members)

/-- The entries of a definition that are reached, as JSON Schema. -/
def reachedDefs (reached : List String) : Checked Members := do
  let entries ← definition.defs.mapM fun (name, schema) => do
    pure (name, ← expect schema.asObject)
  (entries.filter fun entry => reached.contains entry.1).mapM
    fun (name, schema) => do pure (name, .object (← jsonSchema schema))

/--
The JSON Schema document a reference names: the schema it resolves to, with the
`$defs` entries that schema reaches, in the definition's order.
-/
def schemaDocument (fuel : Nat) : Running Failure Json := do
  let name ← Running.settled
    (expect (localReferenceName (reference.get? "$ref")))
  let root ← Running.settled (expect (definition.def? name))
  let reached ← explore Failure.panicked references definition.def? fuel []
    [root]
  let entries ← Running.settled (reachedDefs definition reached)
  let document ← Running.settled (jsonSchema root)
  let defs := Members.ofMembers entries
  pure (.object (if defs.isEmpty then document
    else Members.insert document "$defs" (.object defs)))

end Documents

end Clerkenwell.Codegen
