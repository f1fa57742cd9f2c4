import Clerkenwell.Codegen.CheckedForms
import Clerkenwell.Codegen.Samples

/-!
# Renderings

A JSON Schema renders a node of a definition where it is of the node's form and
what it declares renders what the node declares.  It then validates just what
the node admits.
-/

namespace Clerkenwell.Codegen

open Clerkenwell.Foundation Running JsonSchema

variable {scientific : Scientific} {definition : Sections} {defs : Members}
  {source schema : Members} {related : Json → Members → Prop}

/-! ## Keywords alike -/

section Alike

variable {value : Json}

theorem typed_congr (same : source.get? "type" = schema.get? "type") :
    typed source value = typed schema value := by
  rw [typed, typed, same]

theorem listed_congr (same : source.get? "enum" = schema.get? "enum") :
    listed source value = listed schema value := by
  rw [listed, listed, same]

theorem constant_congr (same : source.get? "const" = schema.get? "const") :
    constant source value = constant schema value := by
  rw [constant, constant, same]

theorem required_congr
    (same : source.get? "required" = schema.get? "required") :
    required source value = required schema value := by
  unfold required
  rw [same]

end Alike

/-! ## Scalars -/

section Scalars

variable {types : List String} {value : Json}

theorem isOf_eq_constantFits {type : String}
    (scalar : type ∈ primitiveUnionTypeNames) :
    isOf value type = constantFits value type := by
  simp only [primitiveUnionTypeNames, List.mem_cons, List.not_mem_nil, or_false]
    at scalar
  rcases scalar with rfl | rfl | rfl | rfl
  all_goals rfl

theorem strings_of_gathered {entries : List Json} {names : List String}
    (gathered : entries.mapM (fun entry =>
      entry.asStr.filter primitiveUnionTypeNames.contains) = some names) :
    entries = names.map Json.string := by
  induction entries generalizing names with
  | nil =>
      cases gathered
      rfl
  | cons entry rest inductionHypothesis =>
      rw [List.mapM_cons] at gathered
      rcases Option.bind_eq_some_iff.mp gathered with ⟨first, one, gathered⟩
      rcases Option.bind_eq_some_iff.mp gathered with ⟨others, later, built⟩
      cases built
      have named := (Option.filter_eq_some_iff.mp one).1
      rw [List.map_cons, ← inductionHypothesis later]
      cases entry with
      | string text => rw [Option.some.inj named]
      | _ => cases named

/-- The entries of a union of scalars are its types. -/
theorem type_of_primitiveUnionTypes
    (combined : primitiveUnionTypes schema = .ok (some types)) :
    schema.get? "type" = some (.array (types.map Json.string)) := by
  unfold primitiveUnionTypes at combined
  split at combined
  · next entries held =>
    dsimp only at combined
    split at combined
    · cases combined
    · next listed filtered =>
      split at combined
      · obtain rfl := Option.some.inj (Except.ok.inj combined)
        rw [held,
          strings_of_gathered (Option.filter_eq_some_iff.mp filtered).1]
      · cases combined
  · cases combined

theorem typed_iff_of_scalars
    (declared : declaredTypes schema = .ok (some types))
    (scalars : ∀ type ∈ types, type ∈ primitiveUnionTypeNames) :
    typed schema value = true
      ↔ ∃ type ∈ types, constantFits value type = true := by
  rw [typed]
  unfold declaredTypes at declared
  rcases except_bind_ok declared with ⟨combined, found, declared⟩
  cases combined with
  | none =>
      rcases Option.map_eq_some_iff.mp (Except.ok.inj declared)
        with ⟨type, named, rfl⟩
      rw [strField_eq_some.mp named]
      simp only [List.mem_singleton, exists_eq_left]
      rw [isOf_eq_constantFits (scalars type (List.mem_singleton_self type))]
  | some listed =>
      obtain rfl := Option.some.inj (Except.ok.inj declared)
      rw [type_of_primitiveUnionTypes found]
      dsimp only
      rw [List.any_map, List.any_eq_true]
      constructor
      · rintro ⟨type, within, fits⟩
        refine ⟨type, within, ?_⟩
        rw [← isOf_eq_constantFits (scalars type within)]
        exact fits
      · rintro ⟨type, within, fits⟩
        refine ⟨type, within, ?_⟩
        rw [← isOf_eq_constantFits (scalars type within)] at fits
        exact fits

theorem meetsKeywords_iff
    (strings : ∀ values, schema.get? "enum" = some values → ∃ items,
      values = .array items
        ∧ ∀ item ∈ items, constantFits item "string" = true) :
    MeetsKeywords schema value
      ↔ listed schema value = true ∧ constant schema value = true
        ∧ valueMeetsBounds schema value = true := by
  have lists : listed schema value = true
      ↔ ∀ values, (schema.get? "enum").bind Json.asArray = some values →
        values.any value.same = true := by
    rw [listed]
    cases held : schema.get? "enum" with
    | none => simp
    | some values =>
        rcases strings values held with ⟨items, rfl, -⟩
        simp [Json.asArray]
  have holds : constant schema value = true
      ↔ ∀ constant, schema.get? "const" = some constant →
        value.same constant = true := by
    rw [constant]
    cases schema.get? "const" with
    | none => simp
    | some constant => simp
  rw [lists, holds]
  constructor
  · intro keywords
    exact ⟨keywords.enumerated, keywords.constant, keywords.bounded⟩
  · rintro ⟨enumerated, constant, bounded⟩
    exact
      { enumerated := enumerated
        constant := constant
        bounded := bounded }

/-- A scalar has no members and no items. -/
theorem shapeless_of_fits {type : String} {check : Json → Json → Bool}
    (fits : constantFits value type = true) :
    required source value = true ∧ membersValid check source value = true
      ∧ itemsValid check source value = true := by
  cases value with
  | array items =>
      unfold constantFits at fits
      split at fits <;> cases fits
  | object members =>
      unfold constantFits at fits
      split at fits <;> cases fits
  | _ => exact ⟨rfl, rfl, rfl⟩

end Scalars

/-! ## What renders a node -/

section Rendering

/--
What renders what is declared of a member or of items: nothing where nothing
is, and what admits no value where a closed object does.
-/
inductive Rendered (related : Json → Members → Prop) :
    Option Json → Option Json → Prop where
  | absent : Rendered related none none
  | refused : Rendered related (some (.bool false)) (some (.bool false))
  | node {source : Json} {schema : Members} (node : related source schema) :
      Rendered related (some source) (some (.object schema))

/-- A JSON Schema of a node that is neither a reference nor a tagged union. -/
structure PlainForm (related : Json → Members → Prop)
    (source schema : Members) : Prop where
  type_eq : source.get? "type" = schema.get? "type"
  enum_eq : source.get? "enum" = schema.get? "enum"
  const_eq : source.get? "const" = schema.get? "const"
  bounds : ∀ value, (bounded source value && formatted source value)
    = valueMeetsBounds schema value
  required_eq : source.get? "required" = schema.get? "required"
  ref_none : source.get? "$ref" = none
  oneOf_none : source.get? "oneOf" = none
  members : ∀ name,
    Rendered related (memberSchema source name) (memberSchema schema name)
  items : Rendered related (source.get? "items") (schema.get? "items")

/-- A JSON Schema of a variant, which the tag is a member of. -/
structure TaggedForm (defs : Members) (related : Json → Members → Prop)
    (discriminator tag : String) (source variant : Members) : Prop where
  type_eq : source.get? "type" = variant.get? "type"
  enum_none : source.get? "enum" = none
  const_none : source.get? "const" = none
  requires : ∀ members : Members, required source (.object members)
    = (members.containsKey discriminator
      && required variant
        (.object (members.filter fun member => member.1 ≠ discriminator)))
  ref_none : source.get? "$ref" = none
  oneOf_none : source.get? "oneOf" = none
  told : ∃ told, memberSchema source discriminator = some told
    ∧ ∀ fuel value, validates defs (fuel + 1) told value = true
      ↔ value = .string tag
  members : ∀ name, name ≠ discriminator →
    Rendered related (memberSchema source name) (memberSchema variant name)

/-- A JSON Schema of a tagged union: what it lists renders the variants. -/
structure UnionForm (definition : Sections) (defs : Members)
    (related : Json → Members → Prop) (source schema : Members)
    (discriminator : String) (variants : Members) (written : List Json) :
    Prop where
  named : strField schema "discriminator" = some discriminator
  declared : objectField schema "oneOf" = some variants
  oneOf_eq : source.get? "oneOf" = some (.array written)
  each : List.Forall₂ (fun json variant => ∃ tagged inner : Members,
    json = .object tagged ∧ variant.2 = .object inner
      ∧ TaggedForm defs related discriminator variant.1 tagged inner)
    written variants
  ref_none : source.get? "$ref" = none
  undeclared : ∀ name, memberSchema source name = none
  beside : ∀ value, value.WellFormed → Valid definition schema value →
    asserted source value = true

/-- Whether a JSON Schema is of the form of a node. -/
inductive Renders (definition : Sections) (defs : Members)
    (related : Json → Members → Prop) : Json → Members → Prop where
  | any {source : Json} {schema : Members} (plain : schema.get? "$ref" = none)
      (typed : hasType schema "json" = true)
      (admits : ∀ fuel value, validates defs (fuel + 1) source value = true) :
      Renders definition defs related source schema
  | reference {source inner : Json} {schema target : Members} {name : String}
      (named : localReferenceName (schema.get? "$ref") = some name)
      (entry : definition.def? name = some target) (node : related inner target)
      (follows : ∀ fuel value, validates defs (fuel + 1) source value
        = validates defs fuel inner value) :
      Renders definition defs related source schema
  | plain {source schema : Members} (plain : schema.get? "$ref" = none)
      (untagged : schema.get? "oneOf" = none)
      (typed : hasType schema "json" = false)
      (form : PlainForm related source schema) :
      Renders definition defs related (.object source) schema
  | union {source schema variants : Members} {discriminator : String}
      {written : List Json} (plain : schema.get? "$ref" = none)
      (form : UnionForm definition defs related source schema discriminator
        variants written) :
      Renders definition defs related (.object source) schema

/-- A relation of JSON Schemas with the nodes they render. -/
structure Rendering (scientific : Scientific) (definition : Sections)
    (defs : Members) (related : Json → Members → Prop) : Prop where
  checked : ∀ {source schema}, related source schema →
    CheckedUnder scientific definition schema
  renders : ∀ {source schema}, related source schema →
    Renders definition defs related source schema

theorem Rendered.of_object {held : Option Json}
    (rendered : Rendered related held (some (.object schema))) :
    ∃ source, held = some source ∧ related source schema := by
  cases rendered with
  | node node => exact ⟨_, rfl, node⟩

theorem Rendered.of_refused {held : Option Json}
    (rendered : Rendered related held (some (.bool false))) :
    held = some (.bool false) := by
  cases rendered
  rfl

end Rendering

/-! ## One node -/

section Nodes

variable {value : Json} {fuel : Nat}

/-- Whether schemas validate what the nodes they render admit, of some values. -/
def AgreesBelow (definition : Sections) (defs : Members)
    (related : Json → Members → Prop) (size fuel : Nat) : Prop :=
  ∀ source schema value, related source schema → value.WellFormed →
    sizeOf value < size →
    (validates defs fuel source value = true ↔ Valid definition schema value)

theorem validates_of_plain (plain : source.get? "$ref" = none)
    (untagged : source.get? "oneOf" = none) :
    validates defs (fuel + 1) (.object source) value = true
      ↔ asserted source value = true
        ∧ membersValid (validates defs fuel) source value = true
        ∧ itemsValid (validates defs fuel) source value = true := by
  rw [validates, referenced, oneValid, plain, untagged]
  simp only [Option.all_none, Bool.and_true, Bool.and_eq_true]
  rw [and_assoc]

theorem asserted_iff :
    asserted source value = true
      ↔ typed source value = true ∧ listed source value = true
        ∧ constant source value = true
        ∧ (bounded source value && formatted source value) = true
        ∧ required source value = true := by
  rw [asserted, Bool.and_eq_true, Bool.and_eq_true, Bool.and_eq_true,
    Bool.and_eq_true]
  tauto

/-- A schema of scalars validates those that meet its keywords. -/
theorem PlainForm.scalars {types : List String}
    (form : PlainForm related source schema)
    (checked : CheckedNode scientific definition schema)
    (plain : schema.get? "$ref" = none)
    (declared : declaredTypes schema = .ok (some types))
    (scalars : ∀ type ∈ types, type ∈ primitiveUnionTypeNames) :
    validates defs (fuel + 1) (.object source) value = true
      ↔ Valid definition schema value := by
  have flat := flat_of_names scalars
  have strings := (checked.scalar_keywords plain declared flat).1
  rw [validates_of_plain form.ref_none form.oneOf_none, asserted_iff, form.bounds,
    typed_congr form.type_eq, listed_congr form.enum_eq,
    constant_congr form.const_eq, typed_iff_of_scalars declared scalars]
  constructor
  · rintro ⟨⟨⟨type, among, fits⟩, listed, constant, bounded, -⟩, -⟩
    exact .scalar plain declared among fits
      ((meetsKeywords_iff strings).mpr ⟨listed, constant, bounded⟩)
  · intro valid
    rcases valid.scalar_of plain declared flat
      with ⟨⟨type, among, fits⟩, keywords⟩
    rcases (meetsKeywords_iff strings).mp keywords
      with ⟨listed, constant, bounded⟩
    rcases @shapeless_of_fits source _ _ (validates defs fuel) fits
      with ⟨required, members, items⟩
    exact ⟨⟨⟨type, among, fits⟩, listed, constant, bounded, required⟩, members,
      items⟩

/-- What a schema asserts of an array or an object of a structured node. -/
theorem PlainForm.asserted_structured {type : String}
    (form : PlainForm related source schema)
    (typed : hasType schema type = true)
    (unlisted : schema.get? "enum" = none) (free : schema.get? "const" = none) :
    asserted source value = true
      ↔ isOf value type = true ∧ valueMeetsBounds schema value = true
        ∧ required schema value = true := by
  rw [asserted_iff, form.bounds, JsonSchema.typed, listed, constant, form.type_eq,
    form.enum_eq, form.const_eq, hasType_iff.mp typed, unlisted, free,
    required_congr form.required_eq]
  simp

/-- A member's schema validates what is declared of the member. -/
theorem rendered_member {held declared : Option Json} {member : Json}
    (rendered : Rendered related held declared)
    (declares : (∃ inner, declared = some (.object inner))
      ∨ declared = some (.bool false))
    (agrees : ∀ source schema, related source schema →
      (validates defs fuel source member = true
        ↔ Valid definition schema member)) :
    held.all (validates defs fuel · member) = true
      ↔ ∃ inner, declared = some (.object inner)
        ∧ Valid definition inner member := by
  rcases declares with ⟨inner, rfl⟩ | rfl
  · rcases rendered.of_object with ⟨source, rfl, node⟩
    rw [Option.all_some, agrees source inner node]
    simp
  · rw [rendered.of_refused, Option.all_some]
    apply iff_of_false
    · cases fuel with
      | zero => simp [validates]
      | succ fuel => simp [validates]
    · rintro ⟨inner, same, -⟩
      cases same

section Structured

variable (form : PlainForm related source schema)
  (checked : CheckedNode scientific definition schema)
  (below : AgreesBelow definition defs related (sizeOf value) fuel)
  (wellFormed : value.WellFormed)

include form checked below wellFormed

/-- A schema of arrays validates those whose items it validates. -/
theorem PlainForm.array {items : Members}
    (listed : arrayItems schema = some items) :
    validates defs (fuel + 1) (.object source) value = true
      ↔ Valid definition schema value := by
  rcases hasType_of_arrayItems listed with ⟨typed, declared⟩
  have plain := (PartOf.items listed).plain checked
  rcases checked.structured plain typed (Or.inl rfl) with ⟨unlisted, free, -⟩
  rw [validates_of_plain form.ref_none form.oneOf_none,
    form.asserted_structured typed unlisted free,
    valid_array_iff checked listed]
  cases value with
  | array values =>
      have rendered := form.items
      rw [objectField_eq_some.mp declared] at rendered
      rcases rendered.of_object with ⟨inner, held, node⟩
      have each : ∀ item ∈ values, validates defs fuel inner item = true
          ↔ Valid definition items item := by
        intro item within
        apply below inner items item node
        · exact (wellFormed_array_iff values).mp wellFormed item within
        · exact sizeOf_item_lt within (Nat.lt_succ_self _)
      rw [itemsValid, held]
      simp only [Option.all_some, List.all_eq_true, isOf, Json.asArray,
        Option.isSome_some, valueMeetsBounds, required, membersValid, true_and,
        and_true, Json.array.injEq, exists_eq_left']
      exact forall₂_congr each
  | _ =>
      apply iff_of_false
      · rintro ⟨⟨is_array, -⟩, -⟩
        cases is_array
      · rintro ⟨values, same, -⟩
        cases same

/-- A schema of objects validates those whose members it validates. -/
theorem PlainForm.object (plain : schema.get? "$ref" = none)
    (untagged : schema.get? "oneOf" = none)
    (typed : hasType schema "object" = true) :
    validates defs (fuel + 1) (.object source) value = true
      ↔ Valid definition schema value := by
  have declares := checked.memberSchema_cases plain untagged typed
  have structured := checked.structured_object plain untagged typed
  rw [validates_of_plain form.ref_none form.oneOf_none,
    form.asserted_structured typed structured.1 structured.2.1]
  cases value with
  | object members =>
      rcases (wellFormed_object_iff members).mp wellFormed with ⟨ordered, inner⟩
      have each : ∀ member ∈ members,
          (memberSchema source member.1).all (validates defs fuel · member.2)
              = true
            ↔ ∃ inner, memberSchema schema member.1 = some (.object inner)
              ∧ Valid definition inner member.2 := by
        intro member within
        apply rendered_member (form.members member.1) (declares member.1)
        intro other node_schema node
        apply below other node_schema member.2 node (inner member within)
        exact sizeOf_member_lt_of within (Nat.lt_succ_self _)
      rw [valid_object_iff checked plain untagged typed ordered.nodup]
      simp only [isOf, Json.asObject, Option.isSome_some, valueMeetsBounds,
        membersValid, itemsValid, List.all_eq_true, true_and, and_true]
      exact and_congr_right fun _ => forall₂_congr each
  | _ =>
      apply iff_of_false
      · rintro ⟨⟨is_object, -⟩, -⟩
        cases is_object
      · intro valid
        rcases object_of_valid plain typed valid with ⟨members, same⟩
        cases same

/-- A schema of a node's form validates what the node admits. -/
theorem PlainForm.agrees (plain : schema.get? "$ref" = none)
    (untagged : schema.get? "oneOf" = none)
    (other : hasType schema "json" = false) :
    validates defs (fuel + 1) (.object source) value = true
      ↔ Valid definition schema value := by
  rcases checked.untagged_keywords plain untagged
    with ⟨context, types, -, declared, -⟩
  rcases declaredTypes_cases declared with ⟨type, rfl, typed⟩ | ⟨-, scalars⟩
  · have scalar_form : (∀ other ∈ [type], other ∈ primitiveUnionTypeNames) →
        (validates defs (fuel + 1) (.object source) value = true
          ↔ Valid definition schema value) :=
      form.scalars checked plain declared
    rcases checked.untagged_node plain untagged typed with ⟨known, -, array⟩
    simp only [nodeTypes, List.mem_cons, List.not_mem_nil, or_false] at known
    rcases known with rfl | rfl | rfl | rfl | rfl | rfl | rfl
    · exact form.object checked below wellFormed plain untagged typed
    · rcases array rfl with ⟨items, listed⟩
      exact form.array checked below wellFormed listed
    · exact scalar_form (by simp [primitiveUnionTypeNames])
    · exact scalar_form (by simp [primitiveUnionTypeNames])
    · exact scalar_form (by simp [primitiveUnionTypeNames])
    · exact scalar_form (by simp [primitiveUnionTypeNames])
    · rw [typed] at other
      cases other
  · exact form.scalars checked plain declared scalars

end Structured

end Nodes

end Clerkenwell.Codegen
