import Clerkenwell.Codegen.AdmitsSound
import Clerkenwell.Codegen.DistinctNames
import Clerkenwell.Codegen.JsonSchema

/-!
# The forms of a checked node

What a checked node is, by the form it takes, and which values it admits.
-/

namespace Clerkenwell.Codegen

open Clerkenwell.Foundation Running JsonSchema

variable {scientific : Scientific} {definition : Sections} {schema : Members}

/-! ## Places -/

section Places

/-- Whether a node is checked at a place of an entry. -/
def CheckedUnder (scientific : Scientific) (definition : Sections)
    (schema : Members) : Prop :=
  ∃ path, CheckedAt scientific definition ("$defs." ++ path) schema

/-- Whether a node is checked at a place within an entry. -/
def CheckedWithin (scientific : Scientific) (definition : Sections)
    (schema : Members) : Prop :=
  ∃ path : String, '.' ∈ path.toList
    ∧ CheckedAt scientific definition ("$defs." ++ path) schema

theorem CheckedUnder.node (checked : CheckedUnder scientific definition schema) :
    CheckedNode scientific definition schema := by
  rcases checked with ⟨path, placed⟩
  exact placed.node

theorem CheckedWithin.under
    (checked : CheckedWithin scientific definition schema) :
    CheckedUnder scientific definition schema := by
  rcases checked with ⟨path, -, placed⟩
  exact ⟨path, placed⟩

theorem stripPrefixChars_append (start text : List Char) :
    Text.stripPrefixChars (start ++ text) start = some text := by
  induction start with
  | nil =>
      cases text with
      | nil => rfl
      | cons => rfl
  | cons character rest inductionHypothesis =>
      rw [List.cons_append, Text.stripPrefixChars, if_pos rfl,
        inductionHypothesis]

theorem stripPrefix_append (start text : String) :
    Text.stripPrefix (start ++ text) start = some text := by
  rw [Text.stripPrefix, String.toList_append, stripPrefixChars_append,
    Option.map_some, String.ofList_toList]

/-- Only an entry itself may be a tagged union. -/
theorem CheckedWithin.untagged
    (checked : CheckedWithin scientific definition schema)
    (plain : schema.get? "$ref" = none) : schema.get? "oneOf" = none := by
  rcases checked with ⟨path, nested, fuel, succeeds⟩
  cases fuel with
  | zero => cases succeeds
  | succ fuel =>
      by_contra tagged
      have union := checkObjectNode_tagged succeeds plain
        (by simpa [Option.isSome_iff_ne_none] using tagged)
      rw [checkTaggedUnion] at union
      rcases (succeeds_bind _ _ _).mp union with ⟨head, alone, -⟩
      rw [succeeds_settled, checkUnionHead] at alone
      have outer := (of_unless_refuse alone).1
      rw [stripPrefix_append] at outer
      simp [nested] at outer

theorem CheckedWithin.oneOf_none
    (checked : CheckedWithin scientific definition schema) :
    schema.get? "oneOf" = none := by
  by_contra tagged
  rcases Option.ne_none_iff_exists'.mp tagged with ⟨variants, held⟩
  have plain := checked.under.node.plain_of_keyword held (by decide)
  exact tagged (checked.untagged plain)

/-- A place within a place of an entry. -/
theorem checkedWithin_of_at {path : String} (deeper : String)
    (checked : CheckedAt scientific definition ("$defs." ++ path ++ deeper)
      schema) (nested : '.' ∈ deeper.toList) :
    CheckedWithin scientific definition schema := by
  refine ⟨path ++ deeper, ?_, ?_⟩
  · rw [String.toList_append]
    exact List.mem_append_right _ nested
  · rw [← String.append_assoc]
    exact checked

theorem CheckedUnder.items {items : Members}
    (checked : CheckedUnder scientific definition schema)
    (plain : schema.get? "$ref" = none)
    (listed : arrayItems schema = some items) :
    CheckedWithin scientific definition items := by
  rcases checked with ⟨path, placed⟩
  exact checkedWithin_of_at ".items" (placed.items plain listed) (by decide)

theorem CheckedUnder.property {properties property : Members} {name : String}
    (checked : CheckedUnder scientific definition schema)
    (declared : objectField schema "properties" = some properties)
    (within : (name, Json.object property) ∈ properties) :
    CheckedWithin scientific definition property := by
  rcases checked with ⟨path, placed⟩
  have property_placed := placed.property declared within
  have path_assoc : toString ("$defs." ++ path) ++ toString ".properties."
      ++ toString name = "$defs." ++ path ++ (".properties." ++ name) :=
    String.append_assoc
  rw [path_assoc] at property_placed
  apply checkedWithin_of_at (".properties." ++ name) property_placed
  rw [String.toList_append]
  exact List.mem_append_left _ (by decide)

theorem CheckedUnder.additional {additional : Members}
    (checked : CheckedUnder scientific definition schema)
    (declared : objectField schema "additionalProperties" = some additional) :
    CheckedWithin scientific definition additional := by
  rcases checked with ⟨path, placed⟩
  exact checkedWithin_of_at ".additionalProperties"
    (placed.additional declared) (by decide)

/-- A variant declares an object, its tag aside. -/
structure VariantOf (discriminator tag : String) (variant : Members) : Prop where
  typed : hasType variant "object" = true
  untold : ∀ properties, objectField variant "properties" = some properties →
    discriminator ∉ properties.keys
  closed : objectField variant "additionalProperties" = none

theorem checkVariantHead_ok {discriminator tag context : String}
    (checked : checkVariantHead discriminator tag (.object schema) context
      = .ok ⟨⟩) : VariantOf discriminator tag schema := by
  rw [checkVariantHead] at checked
  rcases of_unless_refuse checked with ⟨-, checked⟩
  simp only [Json.asObject] at checked
  rcases of_unless_refuse checked with ⟨typed, checked⟩
  rcases of_unless_refuse checked with ⟨untold, checked⟩
  rcases of_unless_refuse checked with ⟨closed, -⟩
  constructor
  · simpa using typed
  · intro properties declared
    rw [declared] at untold
    rw [← Members.containsKey_iff]
    simpa using untold
  · simpa [Option.isSome_iff_ne_none] using closed

theorem CheckedUnder.variant {variants variant : Members} {tag : String}
    (checked : CheckedUnder scientific definition schema)
    (plain : schema.get? "$ref" = none)
    (declared : objectField schema "oneOf" = some variants)
    (within : (tag, Json.object variant) ∈ variants) :
    CheckedWithin scientific definition variant
      ∧ ∃ discriminator, strField schema "discriminator" = some discriminator
        ∧ VariantOf discriminator tag variant := by
  rcases checked with ⟨path, placed⟩
  rcases placed.variant plain declared within
    with ⟨discriminator, alone, head, variant_placed⟩
  constructor
  · have path_assoc : toString ("$defs." ++ path) ++ toString ".oneOf."
        ++ toString tag = "$defs." ++ path ++ (".oneOf." ++ tag) :=
      String.append_assoc
    rw [path_assoc] at variant_placed
    apply checkedWithin_of_at (".oneOf." ++ tag) variant_placed
    rw [String.toList_append]
    exact List.mem_append_left _ (by decide)
  · exact ⟨discriminator, (checkUnionHead_ok alone).2.2.2.2.1,
      checkVariantHead_ok head⟩

end Places

/-! ## Keywords -/

section Keywords

theorem CheckedNode.known_keyword {keyword : String}
    (checked : CheckedNode scientific definition schema)
    (held : schema.get? keyword ≠ none) : keyword ∈ schemaKeywords := by
  rcases checked with ⟨fuel, context, succeeds⟩
  cases fuel with
  | zero => cases succeeds
  | succ fuel =>
      rw [checkSchemaNode, checkObjectNode] at succeeds
      rcases (succeeds_bind _ _ _).mp succeeds with ⟨⟨⟩, known, -⟩
      have within : keyword ∈ schema.keys := by
        by_contra absent
        exact held ((Members.get?_eq_none_iff schema keyword).mpr absent)
      have one := (succeeds_forM _ _).mp known _ within
      split at one
      · next listed => exact List.contains_iff_mem.mp listed
      · cases one

/-- A node that is no reference and no union is of the types it declares. -/
theorem CheckedNode.untagged_keywords
    (checked : CheckedNode scientific definition schema)
    (plain : schema.get? "$ref" = none) (untagged : schema.get? "oneOf" = none) :
    ∃ context types, checkEnum schema context = .ok ⟨⟩
      ∧ declaredTypes schema = .ok (some types)
      ∧ checkTypedKeywords scientific schema types context = .ok ⟨⟩ := by
  rcases checked.keywords plain
    with ⟨context, enumerated, ⟨head, alone⟩ | ⟨-, types, declared, keywords⟩⟩
  · have declared := objectField_eq_some.mp (checkUnionHead_ok alone).2.2.2.1
    rw [untagged] at declared
    cases declared
  · exact ⟨context, types, enumerated, declared, keywords⟩

variable {types : List String} {context : String}

/-- A keyword that shapes values is declared beside a type it shapes. -/
theorem shaped_of_keywords
    (keywords : checkTypedKeywords scientific schema types context = .ok ⟨⟩)
    (keyword shaped : String) (shapes : (keyword, shaped) ∈ [("properties", "object"),
      ("additionalProperties", "object"), ("required", "object"),
      ("items", "array")]) (other : shaped ∉ types) :
    schema.get? keyword = none := by
  rw [checkTypedKeywords] at keywords
  rcases except_bind_ok keywords with ⟨⟨⟩, applicable, -⟩
  have one := forM_eq_ok_iff.mp applicable _ shapes
  dsimp only at one
  by_contra held
  rw [if_pos ⟨by simpa [Option.isSome_iff_ne_none] using held, other⟩] at one
  cases one

/-- A bound is declared beside a type it bounds. -/
theorem bounded_of_keywords
    (keywords : checkTypedKeywords scientific schema types context = .ok ⟨⟩) :
    (¬(types.contains "integer" || types.contains "number") = true →
        schema.get? "minimum" = none ∧ schema.get? "maximum" = none)
      ∧ (¬types.contains "string" = true → schema.get? "minLength" = none)
      ∧ ∀ constant, schema.get? "const" = some constant →
        checkConstantType constant types context = .ok ⟨⟩ := by
  rw [checkTypedKeywords] at keywords
  rcases except_bind_ok keywords with ⟨⟨⟩, -, keywords⟩
  rcases except_bind_ok keywords with ⟨⟨⟩, validation, -⟩
  rw [checkValidationKeywords] at validation
  rcases except_bind_ok validation with ⟨⟨⟩, numeric, validation⟩
  rcases except_bind_ok validation with ⟨⟨⟩, constant, validation⟩
  rcases except_bind_ok validation with ⟨⟨⟩, -, validation⟩
  rcases except_bind_ok validation with ⟨⟨⟩, least, -⟩
  refine ⟨fun other => ?_, fun other => ?_, fun value held => ?_⟩
  · rw [checkNumericBounds] at numeric
    rcases except_bind_ok numeric with ⟨⟨⟩, each, -⟩
    have absent : ∀ keyword ∈ ["minimum", "maximum"],
        schema.get? keyword = none := by
      intro keyword within
      have one := forM_eq_ok_iff.mp each keyword within
      cases held : schema.get? keyword with
      | none => rfl
      | some limit =>
          rw [held] at one
          dsimp only at one
          rw [Bool.not_eq_true] at other
          rw [other] at one
          cases one
    exact ⟨absent _ (by simp), absent _ (by simp)⟩
  · cases held : schema.get? "minLength" with
    | none => rfl
    | some limit =>
        rw [checkMinLength, held] at least
        dsimp only at least
        rw [if_pos (by simpa using other)] at least
        cases least
  · rw [checkConstant, held] at constant
    dsimp only at constant
    rcases except_bind_ok (of_unless_refuse constant).2 with ⟨⟨⟩, typed, -⟩
    exact typed

end Keywords

/-! ## Any value -/

/-- A node of any value asserts nothing but its type. -/
theorem CheckedNode.any_value
    (checked : CheckedNode scientific definition schema)
    (typed : hasType schema "json" = true) {keyword : String}
    (asserts : keyword ∈ JsonSchema.keywords) (other : keyword ≠ "type") :
    schema.get? keyword = none := by
  have held := hasType_iff.mp typed
  have plain := checked.plain_of_keyword held (by decide)
  have untagged : schema.get? "oneOf" = none := by
    rcases checked.keywords plain
      with ⟨context, -, ⟨head, alone⟩ | ⟨untagged, -⟩⟩
    · have object := (checkUnionHead_ok alone).1
      exact absurd (hasType_unique typed object) (by decide)
    · exact untagged
  rcases checked.untagged_keywords plain untagged
    with ⟨context, types, enumerated, declared, keywords⟩
  rw [declaredTypes_of_hasType typed] at declared
  obtain rfl := Option.some.inj (Except.ok.inj declared)
  rcases bounded_of_keywords keywords with ⟨numeric, least, constant⟩
  have bounds := numeric (by decide)
  simp only [JsonSchema.keywords, List.mem_cons, List.not_mem_nil, or_false]
    at asserts
  rcases asserts with rfl | rfl | rfl | rfl | rfl | rfl | rfl | rfl | rfl | rfl
    | rfl | rfl | rfl
  · exact absurd rfl other
  · by_contra listed
    have textual := checkEnum_ok enumerated
      (by simpa [Option.isSome_iff_ne_none] using listed)
    exact absurd (hasType_unique typed textual) (by decide)
  · by_contra free
    rcases Option.ne_none_iff_exists'.mp free with ⟨value, found⟩
    have scalar := constant value found
    cases scalar
  · exact least (by decide)
  · exact bounds.1
  · exact bounds.2
  · by_contra formatted
    exact absurd (checked.known_keyword formatted) (by decide)
  · exact shaped_of_keywords keywords "required" "object" (by simp) (by decide)
  · exact plain
  · exact shaped_of_keywords keywords "properties" "object" (by simp)
      (by decide)
  · exact shaped_of_keywords keywords "additionalProperties" "object" (by simp)
      (by decide)
  · exact shaped_of_keywords keywords "items" "array" (by simp) (by decide)
  · exact untagged

/-! ## Types -/

/-- The types a node may declare alone. -/
def nodeTypes : List String :=
  ["object", "array", "string", "boolean", "integer", "number", "json"]

section Types

variable (checked : CheckedNode scientific definition schema)
  (plain : schema.get? "$ref" = none) (untagged : schema.get? "oneOf" = none)

include checked plain untagged

/-- A node is of a type that shapes values, or declares nothing that does. -/
theorem CheckedNode.typed_or_shapeless {shaped : String}
    (structured : shaped ∉ primitiveUnionTypeNames) :
    hasType schema shaped = true ∨ ∀ keyword, (keyword, shaped) ∈
      [("properties", "object"), ("additionalProperties", "object"),
        ("required", "object"), ("items", "array")] →
      schema.get? keyword = none := by
  rcases checked.untagged_keywords plain untagged
    with ⟨context, types, -, declared, keywords⟩
  by_cases among : shaped ∈ types
  · rcases declaredTypes_cases declared with ⟨type, rfl, typed⟩ | ⟨-, names⟩
    · obtain rfl := List.mem_singleton.mp among
      exact Or.inl typed
    · exact absurd (names _ among) structured
  · exact Or.inr fun keyword shapes =>
      shaped_of_keywords keywords keyword shaped shapes among

/-- What is left of the check of a node that is no reference and no union. -/
theorem CheckedNode.untagged_node {type : String}
    (typed : hasType schema type = true) :
    type ∈ nodeTypes ∧ (type = "object" → ∃ fuel context,
      Succeeds (checkObject scientific definition
        (checkSchemaNode scientific definition fuel) fuel schema context) ⟨⟩)
      ∧ (type = "array" → ∃ items, arrayItems schema = some items) := by
  rcases checked with ⟨fuel, context, succeeds⟩
  cases fuel with
  | zero => cases succeeds
  | succ fuel =>
      rw [checkSchemaNode] at succeeds
      rcases checkObjectNode_typed succeeds plain typed
        with ⟨discriminator, variants, alone⟩ | ⟨object, array⟩
      · have declared := objectField_eq_some.mp (checkUnionHead_ok alone).2.2.2.1
        rw [untagged] at declared
        cases declared
      refine ⟨?_, fun same => ⟨fuel, context, object same⟩, fun same => ?_⟩
      · rw [checkObjectNode] at succeeds
        rcases (succeeds_bind _ _ _).mp succeeds with ⟨⟨⟩, -, succeeds⟩
        rw [plain] at succeeds
        simp only [Option.isSome_none, Bool.false_eq_true, if_false] at succeeds
        rcases (succeeds_bind _ _ _).mp succeeds with ⟨⟨⟩, -, succeeds⟩
        split at succeeds
        · rw [checkTaggedUnion] at succeeds
          rcases (succeeds_bind _ _ _).mp succeeds with ⟨head, alone, -⟩
          rw [succeeds_settled] at alone
          have declared :=
            objectField_eq_some.mp (checkUnionHead_ok alone).2.2.2.1
          rw [untagged] at declared
          cases declared
        · rw [primitiveUnionTypes_of_hasType typed] at succeeds
          rcases (succeeds_bind _ _ _).mp succeeds
            with ⟨types, none_, succeeds⟩
          rw [succeeds_settled] at none_
          obtain rfl := Except.ok.inj none_
          rw [strField_eq_some.mpr (hasType_iff.mp typed)] at succeeds
          rcases (succeeds_bind _ _ _).mp succeeds with ⟨⟨⟩, -, succeeds⟩
          split at succeeds
          case h_8 => cases succeeds
          all_goals decide
      · rcases array same with ⟨items, declared, -⟩
        subst same
        exact ⟨items, by rw [arrayItems, if_pos typed, declared]⟩

/-- Only a checked array has items, and these have a schema. -/
theorem CheckedNode.items_cases :
    schema.get? "items" = none
      ∨ ∃ inner, arrayItems schema = some inner := by
  rcases checked.typed_or_shapeless plain untagged
      (by decide : "array" ∉ primitiveUnionTypeNames) with typed | shapeless
  · exact Or.inr ((checked.untagged_node plain untagged typed).2.2 rfl)
  · exact Or.inl (shapeless "items" (by simp))

end Types

/-! ## Objects -/

section Objects

variable {fuel : Nat} {context : String}

theorem object_of_checked {value : Json}
    (checked : Succeeds (checkSchemaNode scientific definition fuel (some value)
      context) ⟨⟩) : ∃ members, value = .object members := by
  cases fuel with
  | zero => cases checked
  | succ fuel =>
      cases value with
      | object members => exact ⟨members, rfl⟩
      | _ => cases checked

/-- What an object declares of its members, each by its name. -/
structure DeclaresMembers (schema properties : Members)
    (names : List String) : Prop where
  declared : objectField schema "properties" = some properties
  required : readStringArray (schema.get? "required") "" = .ok names
  known : ∀ name ∈ names, properties.containsKey name = true
  objects : ∀ member ∈ properties, ∃ property, member.2 = .object property

theorem declaresMembers_of_checked
    (checked : Succeeds (checkProperties
      (checkSchemaNode scientific definition fuel) schema context) ⟨⟩) :
    ∃ properties required, DeclaresMembers schema properties required := by
  rw [checkProperties] at checked
  split at checked
  · cases checked
  · next properties declared =>
    rcases (succeeds_bind _ _ _).mp checked with ⟨required, read, checked⟩
    rw [succeeds_settled] at read
    rcases (succeeds_bind _ _ _).mp checked with ⟨⟨⟩, known, checked⟩
    split at checked
    · cases checked
    · refine ⟨properties, required, declared, readStringArray_ok read _,
        fun name within => ?_, fun member within => ?_⟩
      · have one := (succeeds_forM _ _).mp known name within
        split at one
        · next held => exact held
        · cases one
      · exact object_of_checked ((succeeds_forM _ _).mp checked member within)

/-- An object is a record, or declares the members it has. -/
theorem object_form
    (checked : Succeeds (checkObject scientific definition
      (checkSchemaNode scientific definition fuel) fuel schema context) ⟨⟩) :
    (∃ values, schema.get? "additionalProperties" = some (.object values)
        ∧ schema.get? "properties" = none ∧ schema.get? "required" = none)
      ∨ (∃ properties required, DeclaresMembers schema properties required)
        ∧ (schema.get? "additionalProperties" = some (.bool false)
          ∨ ∃ other, schema.get? "additionalProperties"
            = some (.object other)) := by
  have whole := checked
  rw [checkObject] at checked
  split at checked
  · next closed =>
    exact Or.inr ⟨declaresMembers_of_checked checked, Or.inl closed⟩
  · next other opened =>
    rcases (succeeds_bind _ _ _).mp checked with ⟨⟨⟩, -, checked⟩
    split at checked
    · next undeclared =>
      split at checked
      · cases checked
      · next unrequired =>
        refine Or.inl ⟨other, opened, by simpa using undeclared, ?_⟩
        simpa [Option.isSome_iff_ne_none] using unrequired
    · rcases (succeeds_bind _ _ _).mp checked with ⟨⟨⟩, -, checked⟩
      exact Or.inr ⟨declaresMembers_of_checked checked, Or.inr ⟨other, opened⟩⟩
  · cases checked

end Objects

section ObjectValues

variable {properties members : Members} {names : List String}

/-- A string array that is read is nothing, or the list of its strings. -/
theorem readStringArray_cases {held : Option Json}
    (read : readStringArray held "" = .ok names) :
    held = none ∧ names = [] ∨ held = some (.array (names.map Json.string)) := by
  unfold readStringArray at read
  cases held with
  | none => exact Or.inl ⟨rfl, (Except.ok.inj read).symm⟩
  | some value =>
      dsimp only at read
      split at read
      · next strings gathered =>
        obtain rfl := Except.ok.inj read
        rcases Option.bind_eq_some_iff.mp gathered with ⟨items, listed, each⟩
        apply Or.inr
        cases value with
        | array listed_items =>
            obtain rfl := Option.some.inj listed
            clear gathered listed read
            induction listed_items generalizing strings with
            | nil =>
                cases each
                rfl
            | cons item rest inductionHypothesis =>
                rw [List.mapM_cons] at each
                rcases Option.bind_eq_some_iff.mp each with ⟨first, one, each⟩
                rcases Option.bind_eq_some_iff.mp each
                  with ⟨others, later, built⟩
                cases built
                have same := inductionHypothesis _ later
                cases item with
                | string text => simp_all [Json.asStr]
                | _ => cases one
        | _ => cases listed
      · cases read

theorem required_iff
    (read : readStringArray (schema.get? "required") "" = .ok names) :
    required schema (.object members) = true
      ↔ ∀ name ∈ names, members.containsKey name = true := by
  rw [required]
  rcases readStringArray_cases read with ⟨none_, rfl⟩ | held
  · simp [none_]
  · simp [held, Json.asArray, Json.asStr]

theorem memberSchema_declared {name : String} {property : Json}
    (declared : objectField schema "properties" = some properties)
    (held : properties.get? name = some property) :
    memberSchema schema name = some property := by
  rw [memberSchema, declared, Option.bind_some, held]
  rfl

theorem memberSchema_other {name : String}
    (absent : (objectField schema "properties").bind (·.get? name) = none) :
    memberSchema schema name = schema.get? "additionalProperties" := by
  rw [memberSchema, absent]
  rfl

section Untagged

variable (checked : CheckedNode scientific definition schema)
  (plain : schema.get? "$ref" = none) (untagged : schema.get? "oneOf" = none)

include checked plain untagged

theorem CheckedNode.additional_declared
    (typed : hasType schema "object" = true) :
    schema.get? "additionalProperties" = some (.bool false)
      ∨ ∃ inner, schema.get? "additionalProperties" = some (.object inner) := by
  rcases (checked.untagged_node plain untagged typed).2.1 rfl
    with ⟨fuel, context, object⟩
  rcases object_form object with ⟨values, held, -⟩ | ⟨-, other⟩
  · exact Or.inr ⟨values, held⟩
  · exact other

/-- Other members of a checked node are refused, or have a schema. -/
theorem CheckedNode.additional_cases :
    schema.get? "additionalProperties" = none
      ∨ schema.get? "additionalProperties" = some (.bool false)
      ∨ ∃ inner, schema.get? "additionalProperties" = some (.object inner) := by
  rcases checked.typed_or_shapeless plain untagged
      (by decide : "object" ∉ primitiveUnionTypeNames) with typed | shapeless
  · exact Or.inr (checked.additional_declared plain untagged typed)
  · exact Or.inl (shapeless "additionalProperties" (by simp))

theorem CheckedNode.structured_object
    (typed : hasType schema "object" = true) :
    schema.get? "enum" = none ∧ schema.get? "const" = none
      ∧ schema.get? "oneOf" = none := by
  apply checked.structured plain typed
  refine Or.inr ⟨rfl, ?_⟩
  rcases checked.additional_declared plain untagged typed
    with closed | ⟨inner, opened⟩
  · simp [closed]
  · simp [opened]

/-- What a checked object has of a member is its schema, or that there is none. -/
theorem CheckedNode.memberSchema_cases
    (typed : hasType schema "object" = true) (name : String) :
    (∃ inner, memberSchema schema name = some (.object inner))
      ∨ memberSchema schema name = some (.bool false) := by
  cases found : (objectField schema "properties").bind (·.get? name) with
  | none =>
      rw [memberSchema_other found]
      exact (checked.additional_declared plain untagged typed).symm
  | some property =>
      rcases (checked.untagged_node plain untagged typed).2.1 rfl
        with ⟨fuel, context, object⟩
      rcases Option.bind_eq_some_iff.mp found with ⟨properties, declared, held⟩
      rw [memberSchema_declared declared held]
      rcases object_form object with ⟨-, -, undeclared, -⟩
        | ⟨⟨others, required, declares⟩, -⟩
      · rw [objectField, undeclared] at declared
        cases declared
      · obtain rfl := Option.some.inj (declared.symm.trans declares.declared)
        rcases declares.objects _ (Members.mem_of_get? held) with ⟨inner, rfl⟩
        exact Or.inl ⟨inner, rfl⟩

/-- What a checked object admits of a value's members. -/
theorem valid_object_iff (typed : hasType schema "object" = true)
    (nodup : members.keys.Nodup) :
    Valid definition schema (.object members)
      ↔ required schema (.object members) = true
        ∧ ∀ member ∈ members, ∃ inner,
          memberSchema schema member.1 = some (.object inner)
            ∧ Valid definition inner member.2 := by
  rcases (checked.untagged_node plain untagged typed).2.1 rfl
    with ⟨fuel, context, object⟩
  rcases object_form object with ⟨values, held, undeclared, unrequired⟩
    | ⟨⟨properties, names, declares⟩, -⟩
  · have record : recordValuesSchema schema = some values := by
      rw [recordValuesSchema, typed, undeclared]
      exact objectField_eq_some.mpr held
    have each : ∀ name, memberSchema schema name = some (.object values) := by
      intro name
      rw [memberSchema, objectField, undeclared, held]
      rfl
    have all_present : required schema (.object members) = true := by
      rw [required, unrequired]
      rfl
    rw [valid_record_iff checked record]
    simp only [each, all_present, Json.object.injEq, Option.some.injEq,
      true_and, exists_eq_left']
  · rw [required_iff declares.required]
    have structured := checked.structured_object plain untagged typed
    constructor
    · intro valid
      cases valid with
      | reference named =>
          exact absurd plain (ne_none_of_localReferenceName named)
      | json _ json =>
          exact absurd (hasType_unique typed json) (by decide)
      | scalar _ also among fits =>
          rw [declaredTypes_of_hasType typed] at also
          obtain rfl := Option.some.inj (Except.ok.inj also)
          rw [not_fits_structured (Or.inr among)] at fits
          cases fits
      | record _ _ held =>
          rw [recordValuesSchema, objectField_eq_some.mp declares.declared] at held
          simp at held
      | object _ _ _ also read present valid others others_valid =>
          obtain rfl := Option.some.inj (declares.declared.symm.trans also)
          obtain rfl := Except.ok.inj
            ((readStringArray_ok read _).symm.trans declares.required)
          refine ⟨present, fun member within => ?_⟩
          have looked : members.get? member.1 = some member.2 :=
            (Members.get?_eq_some_iff nodup _ _).mpr within
          cases found : properties.get? member.1 with
          | some property =>
              rcases declares.objects _ (Members.mem_of_get? found)
                with ⟨inner, rfl⟩
              refine ⟨inner, memberSchema_declared declares.declared found, ?_⟩
              exact valid _ _ _ (objectField_eq_some.mpr found) looked
          | none =>
              rcases Option.isSome_iff_exists.mp (others _ _ found looked)
                with ⟨inner, opened⟩
              refine ⟨inner, ?_, others_valid _ _ _ found looked opened⟩
              rw [memberSchema_other]
              · exact objectField_eq_some.mp opened
              · rw [declares.declared]
                exact found
      | tagged _ _ _ variants =>
          rw [structured.2.2] at untagged
          rw [objectField, structured.2.2] at variants
          cases variants
    · rintro ⟨present, each⟩
      have looked : ∀ name value, members.get? name = some value → ∃ inner,
          memberSchema schema name = some (.object inner)
            ∧ Valid definition inner value := fun name value held =>
        each (name, value) (Members.mem_of_get? held)
      have beyond : ∀ name, properties.get? name = none →
          memberSchema schema name = schema.get? "additionalProperties" := by
        intro name absent
        rw [memberSchema_other]
        rw [declares.declared]
        exact absent
      refine .object plain untagged typed declares.declared declares.required
        present ?_ ?_ ?_ (meetsKeywords_of_none structured.1 structured.2.1 rfl)
      · intro name property value found held
        rcases looked name value held with ⟨inner, same, valid⟩
        rw [memberSchema_declared declares.declared
          (objectField_eq_some.mp found)] at same
        obtain rfl := Json.object.inj (Option.some.inj same)
        exact valid
      · intro name value absent held
        rcases looked name value held with ⟨inner, same, -⟩
        rw [beyond name absent] at same
        rw [objectField_eq_some.mpr same]
        rfl
      · intro name value other absent held opened
        rcases looked name value held with ⟨inner, same, valid⟩
        rw [beyond name absent, objectField_eq_some.mp opened] at same
        obtain rfl := Json.object.inj (Option.some.inj same)
        exact valid

end Untagged

theorem object_of_valid {value : Json}
    (plain : schema.get? "$ref" = none) (typed : hasType schema "object" = true)
    (valid : Valid definition schema value) : ∃ members, value = .object members := by
  cases valid with
  | reference named => exact absurd plain (ne_none_of_localReferenceName named)
  | json _ json => exact absurd (hasType_unique typed json) (by decide)
  | scalar _ also among fits =>
      rw [declaredTypes_of_hasType typed] at also
      obtain rfl := Option.some.inj (Except.ok.inj also)
      rw [not_fits_structured (Or.inr among)] at fits
      cases fits
  | array _ listed =>
      have array := (hasType_of_arrayItems listed).1
      exact absurd (hasType_unique typed array) (by decide)
  | record => exact ⟨_, rfl⟩
  | object => exact ⟨_, rfl⟩
  | tagged => exact ⟨_, rfl⟩

end ObjectValues

/-! ## Tagged unions -/

section Unions

variable {variants : Members} {discriminator : String} {value : Json}

/-- Whether a value is tagged as a variant and valid for it, its tag aside. -/
def TaggedAs (definition : Sections) (discriminator : String) (value : Json)
    (variant : String × Json) : Prop :=
  ∃ members schema : Members, value = .object members ∧ variant.2 = .object schema
    ∧ members.get? discriminator = some (.string variant.1)
    ∧ Valid definition schema
      (.object (members.filter fun member => member.1 ≠ discriminator))

theorem union_keys_nodup (checked : CheckedNode scientific definition schema)
    (declared : objectField schema "oneOf" = some variants) :
    variants.keys.Nodup :=
  List.Nodup.of_map _ (checked.union_nodup declared)

/-- What a checked union declares beside its variants. -/
theorem CheckedNode.union_head (checked : CheckedNode scientific definition schema)
    (declared : objectField schema "oneOf" = some variants) :
    ∃ context discriminator, checkEnum schema context = .ok ⟨⟩
      ∧ checkUnionHead schema context = .ok (discriminator, variants) := by
  have held := objectField_eq_some.mp declared
  rcases checked.keywords (checked.plain_of_keyword held (by decide))
    with ⟨context, enumerated, ⟨⟨discriminator, others⟩, alone⟩ | ⟨untagged, -⟩⟩
  · have also := (checkUnionHead_ok alone).2.2.2.1
    obtain rfl := Option.some.inj (declared.symm.trans also)
    exact ⟨context, discriminator, enumerated, alone⟩
  · rw [held] at untagged
    cases untagged

/-- What is valid for a checked union is tagged as one of its variants. -/
theorem valid_tagged_iff (checked : CheckedNode scientific definition schema)
    (declared : objectField schema "oneOf" = some variants)
    (named : strField schema "discriminator" = some discriminator) :
    Valid definition schema value
      ↔ ∃ variant ∈ variants,
        TaggedAs definition discriminator value variant := by
  have held := objectField_eq_some.mp declared
  have plain := checked.plain_of_keyword held (by decide)
  rcases checked.union_head declared with ⟨context, other, -, alone⟩
  have typed := checkUnionHead_ok alone
  have nodup := union_keys_nodup checked declared
  constructor
  · intro valid
    cases valid with
    | reference other => exact absurd plain (ne_none_of_localReferenceName other)
    | json _ json => exact absurd (hasType_unique typed.1 json) (by decide)
    | scalar _ also among fits =>
        rw [declaredTypes_of_hasType typed.1] at also
        obtain rfl := Option.some.inj (Except.ok.inj also)
        rw [not_fits_structured (Or.inr among)] at fits
        cases fits
    | array _ listed =>
        have array := (hasType_of_arrayItems listed).1
        exact absurd (hasType_unique typed.1 array) (by decide)
    | record _ untagged =>
        rw [held] at untagged
        cases untagged
    | object _ untagged =>
        rw [held] at untagged
        cases untagged
    | @tagged _ others variant members other_discriminator tag _ _ also_named
        also_declared tagged among valid =>
        obtain rfl := Option.some.inj (declared.symm.trans also_declared)
        obtain rfl := Option.some.inj (named.symm.trans also_named)
        exact ⟨(tag, .object variant),
          Members.mem_of_get? (objectField_eq_some.mp among), members, variant,
          rfl, rfl, tagged, valid⟩
  · rintro ⟨⟨tag, json⟩, within, members, variant, rfl, rfl, tagged, valid⟩
    refine .tagged plain typed.1 named declared tagged ?_ valid
    rw [objectField_eq_some]
    exact (Members.get?_eq_some_iff nodup _ _).mpr within

end Unions

end Clerkenwell.Codegen
