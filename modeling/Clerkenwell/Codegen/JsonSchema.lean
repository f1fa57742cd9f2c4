import Clerkenwell.Codegen.SchemaChecks
import Mathlib.Order.Filter.AtTopBot.Basic

/-!
# JSON Schema

Which values a JSON Schema validates, of the keywords that the generator writes
and imports.  A numeric format is read as its range; a keyword not told of here
asserts nothing.
-/

namespace Clerkenwell.Codegen.JsonSchema

/-- The keywords that assert anything, of those told of here. -/
def keywords : List String :=
  ["type", "enum", "const", "minLength", "minimum", "maximum", "format",
    "required", "$ref", "properties", "additionalProperties", "items", "oneOf"]

/-! ## Assertions -/

/-- Whether a value is of a type JSON Schema names. -/
def isOf (value : Json) : String → Bool
  | "null" => (value matches .null)
  | "boolean" => value.asBool.isSome
  | "object" => value.asObject.isSome
  | "array" => value.asArray.isSome
  | "number" => value.asNumber.isSome
  | "integer" => isInteger value
  | "string" => value.asStr.isSome
  | _ => false

section Assertions

variable (schema : Members) (value : Json)

def typed : Bool :=
  match schema.get? "type" with
  | none => true
  | some (.string type) => isOf value type
  | some (.array types) => types.any fun type => type.asStr.any (isOf value)
  | some _ => false

def listed : Bool :=
  (schema.get? "enum").all fun values =>
    values.asArray.any fun values => values.any value.same

def constant : Bool :=
  (schema.get? "const").all value.same

def bounded : Bool :=
  match value with
  | .string text =>
      (numberField schema "minLength").all fun limit =>
        limit ≤ Dyadic.ofInt text.length
  | .number number =>
      (numberField schema "minimum").all (fun limit => limit ≤ number)
        && (numberField schema "maximum").all (fun limit => number ≤ limit)
  | _ => true

/-- The least and the greatest integer of a numeric format. -/
def formatRange : String → Option (Int × Int)
  | "uint8" => some (0, 255)
  | "uint16" => some (0, 65535)
  | "uint32" => some (0, 4294967295)
  | "int8" => some (-128, 127)
  | "int16" => some (-32768, 32767)
  | "int32" => some (-2147483648, 2147483647)
  | _ => none

def formatted : Bool :=
  match (strField schema "format").bind formatRange, value with
  | some (least, greatest), .number number =>
      decide (Dyadic.ofInt least ≤ number)
        && decide (number ≤ Dyadic.ofInt greatest)
  | _, _ => true

def required : Bool :=
  match value with
  | .object members =>
      (schema.get? "required").all fun names =>
        names.asArray.any fun names =>
          names.all fun name => name.asStr.any (Members.containsKey members)
  | _ => true

/-- The assertions of a schema that apply no other. -/
def asserted : Bool :=
  typed schema value && listed schema value && constant schema value
    && (bounded schema value && formatted schema value) && required schema value

end Assertions

/-! ## Schemas applied to a value and its parts -/

section Applied

variable (check : Json → Json → Bool) (schema : Members) (value : Json)

/-- What a reference names among the definitions validates the value. -/
def referenced (defs : Members) : Bool :=
  (schema.get? "$ref").all fun reference =>
    ((localReferenceName (some reference)).bind defs.get?).any (check · value)

/-- The schema of a member, by its name. -/
def memberSchema (name : String) : Option Json :=
  ((objectField schema "properties").bind (·.get? name)).or
    (schema.get? "additionalProperties")

def membersValid : Bool :=
  match value with
  | .object members =>
      members.all fun member => (memberSchema schema member.1).all (check · member.2)
  | _ => true

def itemsValid : Bool :=
  match value with
  | .array values => values.all fun item => (schema.get? "items").all (check · item)
  | _ => true

/-- Just one of the variants validates the value. -/
def oneValid : Bool :=
  (schema.get? "oneOf").all fun variants =>
    variants.asArray.any fun variants => variants.countP (check · value) == 1

end Applied

/--
Whether a schema validates a value, by so many nested applications of schemas;
with none left, it does not.
-/
def validates (defs : Members) : Nat → Json → Json → Bool
  | 0, _, _ => false
  | _ + 1, .bool allowed, _ => allowed
  | fuel + 1, .object schema, value =>
      let check := validates defs fuel
      asserted schema value && referenced check schema value defs
        && membersValid check schema value && itemsValid check schema value
        && oneValid check schema value
  | _ + 1, _, _ => false

section Silent

variable {defs schema : Members} {value : Json} {fuel : Nat}

theorem valid_of_silent {check : Json → Json → Bool}
    (silent : ∀ keyword ∈ keywords, keyword ≠ "$ref" →
      schema.get? keyword = none) :
    asserted schema value = true ∧ membersValid check schema value = true
      ∧ itemsValid check schema value = true
      ∧ oneValid check schema value = true := by
  have none_ : ∀ keyword, keyword ∈ keywords ∧ keyword ≠ "$ref" →
      schema.get? keyword = none := fun keyword within =>
    silent keyword within.1 within.2
  have unbounded : ∀ keyword, keyword ∈ keywords ∧ keyword ≠ "$ref" →
      numberField schema keyword = none := by
    intro keyword within
    rw [numberField, none_ keyword within]
    rfl
  have assertions : typed schema value = true ∧ listed schema value = true
      ∧ constant schema value = true ∧ bounded schema value = true
      ∧ formatted schema value = true ∧ required schema value = true := by
    refine ⟨?_, ?_, ?_, ?_, ?_, ?_⟩
    · rw [typed, none_ "type" (by decide)]
    · rw [listed, none_ "enum" (by decide)]
      rfl
    · rw [constant, none_ "const" (by decide)]
      rfl
    · unfold bounded
      rw [unbounded "minLength" (by decide), unbounded "minimum" (by decide),
        unbounded "maximum" (by decide)]
      cases value with
      | _ => rfl
    · unfold formatted strField
      rw [none_ "format" (by decide)]
      rfl
    · unfold required
      rw [none_ "required" (by decide)]
      cases value with
      | _ => rfl
  rcases assertions with ⟨typed, listed, constant, bounded, formatted, required⟩
  refine ⟨?_, ?_, ?_, ?_⟩
  · rw [asserted, typed, listed, constant, bounded, formatted, required]
    rfl
  · have undeclared : ∀ name, memberSchema schema name = none := by
      intro name
      rw [memberSchema, objectField, none_ "properties" (by decide),
        none_ "additionalProperties" (by decide)]
      rfl
    unfold membersValid
    simp only [undeclared, Option.all_none]
    cases value with
    | object members => exact List.all_eq_true.mpr fun _ _ => rfl
    | _ => rfl
  · unfold itemsValid
    rw [none_ "items" (by decide)]
    cases value with
    | array items => exact List.all_eq_true.mpr fun _ _ => rfl
    | _ => rfl
  · rw [oneValid, none_ "oneOf" (by decide)]
    rfl

/-- A schema that asserts nothing validates every value. -/
theorem validates_of_silent
    (silent : ∀ keyword ∈ keywords, schema.get? keyword = none) :
    validates defs (fuel + 1) (.object schema) value = true := by
  rcases @valid_of_silent schema value (validates defs fuel)
    fun keyword within _ => silent keyword within
    with ⟨asserted, members, items, one⟩
  rw [validates, asserted, members, items, one, referenced,
    silent "$ref" (by decide)]
  rfl

/-- A reference that asserts nothing else validates what it names does. -/
theorem validates_of_reference {reference inner : Json} {name : String}
    (silent : ∀ keyword ∈ keywords, keyword ≠ "$ref" →
      schema.get? keyword = none)
    (held : schema.get? "$ref" = some reference)
    (named : localReferenceName (some reference) = some name)
    (entry : defs.get? name = some inner) :
    validates defs (fuel + 1) (.object schema) value
      = validates defs fuel inner value := by
  rcases @valid_of_silent schema value (validates defs fuel) silent
    with ⟨asserted, members, items, one⟩
  rw [validates, asserted, members, items, one, referenced, held,
    Option.all_some, named, Option.bind_some, entry, Option.any_some]
  simp

end Silent

/-- Whether a schema validates a value, however many applications there may be. -/
def Validates (defs : Members) (schema value : Json) : Prop :=
  ∀ᶠ fuel in Filter.atTop, validates defs fuel schema value = true

/-- What a schema validates is what enough applications settle that it does. -/
theorem validates_iff {defs : Members} {schema value : Json} {meaning : Prop}
    (settles : ∀ᶠ fuel in Filter.atTop,
      (validates defs fuel schema value = true ↔ meaning)) :
    Validates defs schema value ↔ meaning := by
  constructor
  · intro validates
    rcases (validates.and settles).exists with ⟨fuel, valid, same⟩
    exact same.mp valid
  · intro holds
    exact settles.mono fun fuel same => same.mpr holds

end Clerkenwell.Codegen.JsonSchema
