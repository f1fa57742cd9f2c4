import Clerkenwell.Codegen.Descents

/-!
# Valid values

Which JSON values a schema of a definition admits.  A value is valid for a
reference when it is for the entry named, so a recursive entry admits values
of every depth.
-/

namespace Clerkenwell.Codegen

open Clerkenwell.Foundation Running

/-- Whether the keywords that list or bound a schema's values admit one. -/
structure MeetsKeywords (schema : Members) (value : Json) : Prop where
  enumerated : ∀ values, (schema.get? "enum").bind Json.asArray = some values →
    values.any value.same = true
  constant : ∀ constant, schema.get? "const" = some constant →
    value.same constant = true
  bounded : valueMeetsBounds schema value = true

/-- Whether a value is valid for a schema of a definition. -/
inductive Valid (definition : Sections) : Members → Json → Prop where
  | reference {schema target : Members} {name : String} {value : Json}
      (named : localReferenceName (schema.get? "$ref") = some name)
      (entry : definition.def? name = some target)
      (valid : Valid definition target value) : Valid definition schema value
  | json {schema : Members} {value : Json} (plain : schema.get? "$ref" = none)
      (typed : hasType schema "json" = true) : Valid definition schema value
  | scalar {schema : Members} {types : List String} {type : String}
      {value : Json} (plain : schema.get? "$ref" = none)
      (declared : declaredTypes schema = .ok (some types))
      (among : type ∈ types) (fits : constantFits value type = true)
      (keywords : MeetsKeywords schema value) : Valid definition schema value
  | array {schema items : Members} {values : List Json}
      (plain : schema.get? "$ref" = none)
      (listed : arrayItems schema = some items)
      (valid : ∀ value ∈ values, Valid definition items value)
      (keywords : MeetsKeywords schema (.array values)) :
      Valid definition schema (.array values)
  /-- A record's members are all of one schema. -/
  | record {schema values members : Members}
      (plain : schema.get? "$ref" = none) (untagged : schema.get? "oneOf" = none)
      (held : recordValuesSchema schema = some values)
      (valid : ∀ member ∈ members, Valid definition values member.2)
      (keywords : MeetsKeywords schema (.object members)) :
      Valid definition schema (.object members)
  /-- An object's members are those it declares, and others where it is open. -/
  | object {schema properties members : Members} {required : List String}
      {context : String} (plain : schema.get? "$ref" = none)
      (untagged : schema.get? "oneOf" = none)
      (typed : hasType schema "object" = true)
      (declared : objectField schema "properties" = some properties)
      (named : readStringArray (schema.get? "required") context = .ok required)
      (present : ∀ name ∈ required, members.containsKey name = true)
      (valid : ∀ name property value, objectField properties name = some property →
        members.get? name = some value → Valid definition property value)
      (others : ∀ name value, properties.get? name = none →
        members.get? name = some value →
          (objectField schema "additionalProperties").isSome = true)
      (others_valid : ∀ name value other, properties.get? name = none →
        members.get? name = some value →
          objectField schema "additionalProperties" = some other →
            Valid definition other value)
      (keywords : MeetsKeywords schema (.object members)) :
      Valid definition schema (.object members)
  /-- A tagged union's value is its tag and a value of the variant tagged so. -/
  | tagged {schema variants variant members : Members}
      {discriminator tag : String} (plain : schema.get? "$ref" = none)
      (typed : hasType schema "object" = true)
      (named : strField schema "discriminator" = some discriminator)
      (declared : objectField schema "oneOf" = some variants)
      (tagged : members.get? discriminator = some (.string tag))
      (among : objectField variants tag = some variant)
      (valid : Valid definition variant
        (.object (members.filter fun member => member.1 ≠ discriminator))) :
      Valid definition schema (.object members)

/-- A node of a definition: an entry, or what is declared within one. -/
inductive NodeOf (definition : Sections) : Members → Prop where
  | entry {name : String} {schema : Members}
      (found : definition.def? name = some schema) : NodeOf definition schema
  | items {schema items : Members} (node : NodeOf definition schema)
      (listed : arrayItems schema = some items) : NodeOf definition items
  | property {schema properties property : Members} {name : String}
      (node : NodeOf definition schema)
      (declared : objectField schema "properties" = some properties)
      (within : (name, Json.object property) ∈ properties) :
      NodeOf definition property
  | other {schema other : Members} (node : NodeOf definition schema)
      (declared : objectField schema "additionalProperties" = some other) :
      NodeOf definition other
  | variant {schema variants variant : Members} {tag : String}
      (node : NodeOf definition schema)
      (declared : objectField schema "oneOf" = some variants)
      (within : (tag, Json.object variant) ∈ variants) :
      NodeOf definition variant

section Following

variable {definition : Sections} {schema target : Members} {value : Json}

theorem ne_none_of_localReferenceName {name : String}
    (named : localReferenceName (schema.get? "$ref") = some name) :
    schema.get? "$ref" ≠ none := by
  intro none_
  rw [none_] at named
  cases named

/-- What is valid for a reference is what is valid for the entry it names. -/
theorem valid_reference_iff {name : String}
    (named : localReferenceName (schema.get? "$ref") = some name)
    (entry : definition.def? name = some target) :
    Valid definition schema value ↔ Valid definition target value := by
  have referenced := ne_none_of_localReferenceName named
  constructor
  · intro valid
    cases valid with
    | reference other_named other_entry valid =>
        obtain rfl := Option.some.inj (named.symm.trans other_named)
        obtain rfl := Option.some.inj (entry.symm.trans other_entry)
        exact valid
    | json plain => exact absurd plain referenced
    | scalar plain => exact absurd plain referenced
    | array plain => exact absurd plain referenced
    | record plain => exact absurd plain referenced
    | object plain => exact absurd plain referenced
    | tagged plain => exact absurd plain referenced
  · exact .reference named entry

theorem valid_iff_of_leadsTo (leads : LeadsTo definition schema target) :
    Valid definition schema value ↔ Valid definition target value := by
  induction leads with
  | here => rfl
  | along reference entry _ inductionHypothesis =>
      rw [valid_reference_iff reference entry]
      exact inductionHypothesis

/-- The name a chain of references ends at is that of the entry it ends at. -/
theorem def?_of_dereferenceFrom {reached : Option String} {fuel : Nat}
    {ending : Option String × Members}
    (start : ∀ name, reached = some name → definition.def? name = some schema)
    (followed : Succeeds (dereferenceFrom definition reached fuel schema) ending) :
    ∀ name, ending.1 = some name → definition.def? name = some ending.2 := by
  induction fuel generalizing reached schema with
  | zero => cases followed
  | succ fuel inductionHypothesis =>
      rw [dereferenceFrom] at followed
      split at followed
      · obtain ⟨name, named, followed⟩ := (succeeds_bind _ _ _).mp followed
        obtain ⟨next, found, followed⟩ := (succeeds_bind _ _ _).mp followed
        rw [succeeds_settled] at named found
        refine inductionHypothesis ?_ followed
        intro other same
        obtain rfl := Option.some.inj same
        exact expect_eq_ok found
      · obtain rfl := (succeeds_pure _ _).mp followed
        exact start

end Following

end Clerkenwell.Codegen
