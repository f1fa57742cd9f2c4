import Clerkenwell.Codegen.Admission
import Clerkenwell.Codegen.MemberOrder
import Clerkenwell.Codegen.SettledSemantics
import Mathlib.Logic.Relation

/-!
# Comparisons are sound

Every value valid for a member is valid for the schema that admits it.  A
comparison goes into smaller values wherever it goes into smaller schemas, so
what it assumes of a pair of references it needs of smaller values only.
-/

namespace Clerkenwell.Codegen

open Clerkenwell.Foundation Running

variable {scientific : Scientific} {definition : Sections} {schema : Members}

/-! ## The nodes of a checked definition -/

/-- A checked reference carries nothing but what a reference may. -/
theorem CheckedNode.plain_of_keyword {keyword : String} {value : Json}
    (checked : CheckedNode scientific definition schema)
    (held : schema.get? keyword = some value)
    (other : keyword ∉ referenceKeywords) : schema.get? "$ref" = none := by
  obtain ⟨fuel, context, succeeds⟩ := checked
  cases fuel with
  | zero => cases succeeds
  | succ fuel =>
      rw [checkSchemaNode] at succeeds
      unfold checkObjectNode at succeeds
      obtain ⟨⟨⟩, -, succeeds⟩ := (succeeds_bind _ _ _).mp succeeds
      by_contra referenced
      rw [if_pos (by simpa [Option.isSome_iff_ne_none] using referenced)]
        at succeeds
      refine other (checkReference_succeeds succeeds keyword ?_)
      rw [← Members.containsKey_iff, Members.containsKey, held]
      rfl

/-- A checked node that declares what an object does is an object. -/
theorem CheckedNode.typed_object {keyword : String} {value : Json}
    (checked : CheckedNode scientific definition schema)
    (plain : schema.get? "$ref" = none)
    (held : schema.get? keyword = some value)
    (shapes : keyword = "properties" ∨ keyword = "additionalProperties") :
    hasType schema "object" = true := by
  obtain ⟨context, -, form⟩ := checked.keywords plain
  rcases form with ⟨head, alone⟩ | ⟨-, types, declared, keywords⟩
  · exact (checkUnionHead_ok alone).1
  · unfold checkTypedKeywords at keywords
    obtain ⟨⟨⟩, applicable, -⟩ := except_bind_ok keywords
    have among : "object" ∈ types := by
      by_contra absent
      unfold checkApplicableKeywords at applicable
      obtain ⟨⟨⟩, properties, applicable⟩ := except_bind_ok applicable
      obtain ⟨⟨⟩, others, -⟩ := except_bind_ok applicable
      rcases shapes with rfl | rfl
      · simp [held, absent, refuse] at properties
      · simp [held, absent, refuse] at others
    rcases declaredTypes_cases declared with ⟨type, rfl, typed⟩ | ⟨-, names⟩
    · obtain rfl := List.mem_singleton.mp among
      exact typed
    · exact absurd (names _ among) (by decide)

theorem checkObjectNode_tagged {fuel : Nat} {context : String}
    {checkNode : Option Json → String → Running Failure PUnit}
    (checked : Succeeds (checkObjectNode scientific definition checkNode fuel
      schema context) ⟨⟩)
    (plain : schema.get? "$ref" = none)
    (tagged : (schema.get? "oneOf").isSome = true) :
    Succeeds (checkTaggedUnion checkNode schema context) ⟨⟩ := by
  unfold checkObjectNode at checked
  obtain ⟨⟨⟩, -, checked⟩ := (succeeds_bind _ _ _).mp checked
  rw [plain] at checked
  simp only [Option.isSome_none, Bool.false_eq_true, if_false] at checked
  obtain ⟨⟨⟩, -, checked⟩ := (succeeds_bind _ _ _).mp checked
  rw [tagged, Bool.true_or, if_pos rfl] at checked
  exact checked

/-- A variant of a checked tagged union is checked at a place of its own. -/
theorem CheckedAt.variant {variants variant : Members} {tag context : String}
    (checked : CheckedAt scientific definition context schema)
    (plain : schema.get? "$ref" = none)
    (declared : objectField schema "oneOf" = some variants)
    (within : (tag, Json.object variant) ∈ variants) :
    ∃ discriminator,
      checkUnionHead schema context = .ok (discriminator, variants)
        ∧ checkVariantHead discriminator tag (.object variant) context = .ok ⟨⟩
        ∧ CheckedAt scientific definition s!"{context}.oneOf.{tag}" variant := by
  obtain ⟨fuel, succeeds⟩ := checked
  cases fuel with
  | zero => cases succeeds
  | succ fuel =>
      have tagged := checkObjectNode_tagged succeeds plain
        (by rw [objectField_eq_some.mp declared]; rfl)
      unfold checkTaggedUnion at tagged
      obtain ⟨head, alone, tagged⟩ := (succeeds_bind _ _ _).mp tagged
      rw [succeeds_settled] at alone
      have also := (checkUnionHead_ok alone).2.2.2.1
      obtain rfl := Option.some.inj (declared.symm.trans also)
      have one := (succeeds_forM _ _).mp tagged _ within
      obtain ⟨⟨⟩, variant_head, node⟩ := (succeeds_bind _ _ _).mp one
      rw [succeeds_settled] at variant_head
      exact ⟨head.1, alone, variant_head, fuel, node⟩

/-- The variants of a checked tagged union are checked nodes. -/
theorem CheckedNode.variant {variants variant : Members} {tag : String}
    (checked : CheckedNode scientific definition schema)
    (plain : schema.get? "$ref" = none)
    (declared : objectField schema "oneOf" = some variants)
    (within : (tag, Json.object variant) ∈ variants) :
    CheckedNode scientific definition variant := by
  obtain ⟨context, placed⟩ := checked.placed
  obtain ⟨-, -, -, node⟩ := placed.variant plain declared within
  exact node.node

/-- What a checked object declares of its members is checked. -/
theorem CheckedAt.declared {keyword context : String} {value : Json}
    (checked : CheckedAt scientific definition context schema)
    (plain : schema.get? "$ref" = none)
    (held : schema.get? keyword = some value)
    (shapes : keyword = "properties" ∨ keyword = "additionalProperties") :
    ∃ fuel, Succeeds (checkObject scientific definition
      (checkSchemaNode scientific definition fuel) fuel schema context) ⟨⟩ := by
  have typed := checked.node.typed_object plain held shapes
  obtain ⟨fuel, succeeds⟩ := checked
  cases fuel with
  | zero => cases succeeds
  | succ fuel =>
      refine ⟨fuel, ?_⟩
      rcases checkObjectNode_typed succeeds plain typed
        with ⟨discriminator, variants, head⟩ | ⟨rest, -⟩
      · obtain ⟨-, properties, others, -⟩ := checkUnionHead_ok head
        rcases shapes with rfl | rfl
        · rw [properties] at held
          cases held
        · rw [others] at held
          cases held
      · exact rest rfl

theorem CheckedNode.declared {keyword : String} {value : Json}
    (checked : CheckedNode scientific definition schema)
    (plain : schema.get? "$ref" = none)
    (held : schema.get? keyword = some value)
    (shapes : keyword = "properties" ∨ keyword = "additionalProperties") :
    ∃ fuel context, Succeeds (checkObject scientific definition
      (checkSchemaNode scientific definition fuel) fuel schema context) ⟨⟩ := by
  obtain ⟨context, placed⟩ := checked.placed
  obtain ⟨within, object⟩ := placed.declared plain held shapes
  exact ⟨within, context, object⟩

/-- The properties of a checked object are checked at places of their own. -/
theorem CheckedAt.property {properties property : Members}
    {name context : String}
    (checked : CheckedAt scientific definition context schema)
    (declared : objectField schema "properties" = some properties)
    (within : (name, Json.object property) ∈ properties) :
    CheckedAt scientific definition s!"{context}.properties.{name}"
      property := by
  have held := objectField_eq_some.mp declared
  obtain ⟨fuel, object⟩ := checked.declared
    (checked.node.plain_of_keyword held (by decide)) held (Or.inl rfl)
  exact ⟨fuel, checkObject_within object declared within⟩

/-- The properties of a checked object are checked nodes. -/
theorem CheckedNode.property {properties property : Members} {name : String}
    (checked : CheckedNode scientific definition schema)
    (declared : objectField schema "properties" = some properties)
    (within : (name, Json.object property) ∈ properties) :
    CheckedNode scientific definition property := by
  obtain ⟨context, placed⟩ := checked.placed
  exact (placed.property declared within).node

/-- The other members of a checked object are checked at a place of their own. -/
theorem CheckedAt.additional {additional : Members} {context : String}
    (checked : CheckedAt scientific definition context schema)
    (declared : objectField schema "additionalProperties" = some additional) :
    CheckedAt scientific definition s!"{context}.additionalProperties"
      additional := by
  have held := objectField_eq_some.mp declared
  obtain ⟨fuel, object⟩ := checked.declared
    (checked.node.plain_of_keyword held (by decide)) held (Or.inr rfl)
  unfold checkObject at object
  rw [held] at object
  obtain ⟨⟨⟩, node, -⟩ := (succeeds_bind _ _ _).mp object
  exact ⟨fuel, node⟩

/-- The other members of a checked object are a checked node. -/
theorem CheckedNode.additional {additional : Members}
    (checked : CheckedNode scientific definition schema)
    (declared : objectField schema "additionalProperties" = some additional) :
    CheckedNode scientific definition additional := by
  obtain ⟨context, placed⟩ := checked.placed
  exact (placed.additional declared).node

/-- Every node of a definition whose entries are checked is a checked node. -/
theorem checkedNode_of_nodeOf (entries : EntriesChecked scientific definition)
    (node : NodeOf definition schema) :
    CheckedNode scientific definition schema := by
  induction node with
  | entry found => exact entries _ _ found
  | items _ listed inductionHypothesis =>
      have declared := objectField_eq_some.mp (hasType_of_arrayItems listed).2
      exact inductionHypothesis.items
        (inductionHypothesis.plain_of_keyword declared (by decide)) listed
  | property _ declared within inductionHypothesis =>
      exact inductionHypothesis.property declared within
  | other _ declared inductionHypothesis =>
      exact inductionHypothesis.additional declared
  | variant _ declared within inductionHypothesis =>
      have held := objectField_eq_some.mp declared
      exact inductionHypothesis.variant
        (inductionHypothesis.plain_of_keyword held (by decide)) declared within

/-! ## Schemas alike but for their numbers -/

section Alike

variable {other : Members}

theorem get?_alike {key : String}
    (alike : unnumberedMembers schema = unnumberedMembers other) :
    (schema.get? key).map Json.unnumbered
      = (other.get? key).map Json.unnumbered := by
  rw [← get?_unnumberedMembers, ← get?_unnumberedMembers, alike]

theorem get?_none_alike {key : String}
    (alike : unnumberedMembers schema = unnumberedMembers other) :
    schema.get? key = none ↔ other.get? key = none := by
  rw [← Option.map_eq_none_iff, get?_alike alike, Option.map_eq_none_iff]

theorem get?_string_alike {key text : String}
    (alike : unnumberedMembers schema = unnumberedMembers other)
    (held : schema.get? key = some (.string text)) :
    other.get? key = some (.string text) := by
  have same := @get?_alike _ _ key alike
  rw [held] at same
  obtain ⟨value, found, equal⟩ := Option.map_eq_some_iff.mp same.symm
  cases value with
  | string held =>
      rw [found]
      exact congrArg some equal
  | _ => simp [Json.unnumbered] at equal

theorem objectField_alike {key : String} {fields : Members}
    (alike : unnumberedMembers schema = unnumberedMembers other)
    (held : objectField schema key = some fields) :
    ∃ others, objectField other key = some others
      ∧ unnumberedMembers fields = unnumberedMembers others := by
  have same := @get?_alike _ _ key alike
  rw [objectField_eq_some.mp held] at same
  obtain ⟨value, found, equal⟩ := Option.map_eq_some_iff.mp same.symm
  cases value with
  | object members =>
      refine ⟨members, objectField_eq_some.mpr found, ?_⟩
      simpa [Json.unnumbered] using equal.symm
  | _ => simp [Json.unnumbered] at equal

theorem hasType_alike {type : String}
    (alike : unnumberedMembers schema = unnumberedMembers other)
    (typed : hasType schema type = true) : hasType other type = true :=
  hasType_iff.mpr (get?_string_alike alike (hasType_iff.mp typed))

theorem arrayItems_alike {items : Members}
    (alike : unnumberedMembers schema = unnumberedMembers other)
    (listed : arrayItems schema = some items) :
    ∃ others, arrayItems other = some others
      ∧ unnumberedMembers items = unnumberedMembers others := by
  obtain ⟨typed, declared⟩ := hasType_of_arrayItems listed
  obtain ⟨others, found, same⟩ := objectField_alike alike declared
  exact ⟨others, by simp [arrayItems, hasType_alike alike typed, found], same⟩

theorem recordValuesSchema_alike {values : Members}
    (alike : unnumberedMembers schema = unnumberedMembers other)
    (held : recordValuesSchema schema = some values) :
    ∃ others, recordValuesSchema other = some others
      ∧ unnumberedMembers values = unnumberedMembers others := by
  obtain ⟨typed, declared⟩ := hasType_of_recordValuesSchema held
  obtain ⟨others, found, same⟩ := objectField_alike alike declared
  have plain : schema.get? "properties" = none := by
    unfold recordValuesSchema at held
    split at held
    · cases held
    · next absent =>
      rw [Bool.or_eq_true, not_or] at absent
      simpa using absent.2
  refine ⟨others, ?_, same⟩
  simp [recordValuesSchema, hasType_alike alike typed,
    (get?_none_alike alike).mp plain, found]

end Alike

/-! ## Parts -/

/-- Whether a schema is that of an array's items or of a record's values. -/
inductive PartOf (schema part : Members) : Prop where
  | items (listed : arrayItems schema = some part)
  | values (held : recordValuesSchema schema = some part)

/-- Whether the parts of a schema, one within the other, end at a reference. -/
def Wraps (schema : Members) : Prop :=
  ∃ inner, Relation.ReflTransGen PartOf schema inner
    ∧ (strField inner "$ref").isSome = true

theorem PartOf.objectField {part : Members} (within : PartOf schema part) :
    ∃ key, objectField schema key = some part := by
  cases within with
  | items listed => exact ⟨"items", (hasType_of_arrayItems listed).2⟩
  | values held =>
      exact ⟨"additionalProperties", (hasType_of_recordValuesSchema held).2⟩

/-- A part of a schema is smaller, its numbers aside. -/
theorem sizeOf_part {part : Members}
    (within : Relation.TransGen PartOf schema part) :
    sizeOf (unnumberedMembers part) < sizeOf (unnumberedMembers schema) := by
  have step : ∀ {outer inner : Members}, PartOf outer inner →
      sizeOf (unnumberedMembers inner) < sizeOf (unnumberedMembers outer) := by
    intro outer inner within
    obtain ⟨key, held⟩ := within.objectField
    refine @sizeOf_objectField_lt _ _ key ?_
    rw [objectField_eq_some, get?_unnumberedMembers,
      objectField_eq_some.mp held]
    rfl
  induction within with
  | single within => exact step within
  | tail _ within inductionHypothesis =>
      exact (step within).trans inductionHypothesis

theorem PartOf.checked {part : Members} (within : PartOf schema part)
    (checked : CheckedNode scientific definition schema) :
    CheckedNode scientific definition part := by
  cases within with
  | items listed =>
      have declared := objectField_eq_some.mp (hasType_of_arrayItems listed).2
      exact checked.items (checked.plain_of_keyword declared (by decide)) listed
  | values held =>
      exact checked.additional (hasType_of_recordValuesSchema held).2

theorem PartOf.plain {part : Members} (within : PartOf schema part)
    (checked : CheckedNode scientific definition schema) :
    schema.get? "$ref" = none := by
  obtain ⟨declared⟩ | ⟨declared⟩ := within
  · exact checked.plain_of_keyword
      (objectField_eq_some.mp (hasType_of_arrayItems declared).2) (by decide)
  · exact checked.plain_of_keyword (objectField_eq_some.mp
      (hasType_of_recordValuesSchema declared).2) (by decide)

/-! ## Values of arrays and of records -/

section Structured

variable {value : Json}

theorem not_fits_structured {type : String} (among : type ∈ ["array"]
    ∨ type ∈ ["object"]) : constantFits value type = false := by
  rcases among with within | within
  all_goals
    obtain rfl := List.mem_singleton.mp within
    rfl

theorem hasType_unique {type other : String} (typed : hasType schema type = true)
    (also : hasType schema other = true) : type = other := by
  rw [hasType_iff] at typed also
  simpa using typed.symm.trans also

/-- What is valid for a checked array is an array of what is for its items. -/
theorem valid_array_iff {items : Members}
    (checked : CheckedNode scientific definition schema)
    (listed : arrayItems schema = some items) :
    Valid definition schema value
      ↔ ∃ values, value = .array values
        ∧ ∀ item ∈ values, Valid definition items item := by
  have typed := (hasType_of_arrayItems listed).1
  have plain := (PartOf.items listed).plain checked
  obtain ⟨unlisted, free, -⟩ := checked.structured plain typed (Or.inl rfl)
  constructor
  · intro valid
    cases valid with
    | reference named =>
        exact absurd plain (ne_none_of_localReferenceName named)
    | json _ other => exact absurd (hasType_unique typed other) (by decide)
    | scalar _ declared among fits =>
        rw [declaredTypes_of_hasType typed] at declared
        obtain rfl := Option.some.inj (Except.ok.inj declared)
        rw [not_fits_structured (Or.inl among)] at fits
        cases fits
    | array _ also valid =>
        obtain rfl := Option.some.inj (listed.symm.trans also)
        exact ⟨_, rfl, valid⟩
    | record _ _ held =>
        have other := (hasType_of_recordValuesSchema held).1
        exact absurd (hasType_unique typed other) (by decide)
    | object _ _ other => exact absurd (hasType_unique typed other) (by decide)
    | tagged _ other => exact absurd (hasType_unique typed other) (by decide)
  · rintro ⟨values, rfl, valid⟩
    exact .array plain listed valid (meetsKeywords_of_none unlisted free rfl)

/-- What is valid for a checked record has only what is for its values. -/
theorem valid_record_iff {values : Members}
    (checked : CheckedNode scientific definition schema)
    (held : recordValuesSchema schema = some values) :
    Valid definition schema value
      ↔ ∃ members, value = .object members
        ∧ ∀ member ∈ members, Valid definition values member.2 := by
  obtain ⟨typed, declares⟩ := hasType_of_recordValuesSchema held
  have plain := (PartOf.values held).plain checked
  obtain ⟨unlisted, free, untagged⟩ := checked.structured plain typed
    (Or.inr ⟨rfl, by rw [objectField_eq_some.mp declares]; simp⟩)
  constructor
  · intro valid
    cases valid with
    | reference named =>
        exact absurd plain (ne_none_of_localReferenceName named)
    | json _ other => exact absurd (hasType_unique typed other) (by decide)
    | scalar _ declared among fits =>
        rw [declaredTypes_of_hasType typed] at declared
        obtain rfl := Option.some.inj (Except.ok.inj declared)
        rw [not_fits_structured (Or.inr among)] at fits
        cases fits
    | array _ listed =>
        have other := (hasType_of_arrayItems listed).1
        exact absurd (hasType_unique typed other) (by decide)
    | record _ _ also valid =>
        obtain rfl := Option.some.inj (held.symm.trans also)
        exact ⟨_, rfl, valid⟩
    | object _ _ _ declared =>
        unfold recordValuesSchema at held
        rw [objectField_eq_some.mp declared] at held
        simp at held
    | tagged _ _ _ declared =>
        rw [objectField_eq_some.mp declared] at untagged
        cases untagged
  · rintro ⟨members, rfl, valid⟩
    exact .record plain untagged held valid
      (meetsKeywords_of_none unlisted free rfl)

theorem strField_of_isSome {key : String}
    (present : (strField schema key).isSome = true) :
    ∃ text, schema.get? key = some (.string text) := by
  obtain ⟨text, held⟩ := Option.isSome_iff_exists.mp present
  exact ⟨text, strField_eq_some.mp held⟩

/-- What is valid for a reference is what is for one to the same entry. -/
theorem valid_iff_of_same_reference {other : Members} {text : String}
    (held : schema.get? "$ref" = some (.string text))
    (also : other.get? "$ref" = some (.string text)) :
    Valid definition schema value ↔ Valid definition other value := by
  have through : ∀ {one two : Members},
      one.get? "$ref" = some (.string text) →
        two.get? "$ref" = some (.string text) →
          Valid definition one value → Valid definition two value := by
    intro one two first second valid
    have referenced : one.get? "$ref" ≠ none := by
      rw [first]
      simp
    cases valid with
    | reference named entry valid =>
        rw [first, ← second] at named
        exact .reference named entry valid
    | json plain => exact absurd plain referenced
    | scalar plain => exact absurd plain referenced
    | array plain => exact absurd plain referenced
    | record plain => exact absurd plain referenced
    | object plain => exact absurd plain referenced
    | tagged plain => exact absurd plain referenced
  exact ⟨through held also, through also held⟩

/-- Schemas alike whose parts end at a reference have the same valid values. -/
theorem valid_alike {other : Members} (wraps : Wraps schema)
    (checked : CheckedNode scientific definition schema)
    (also : CheckedNode scientific definition other)
    (alike : unnumberedMembers schema = unnumberedMembers other) :
    Valid definition schema value ↔ Valid definition other value := by
  obtain ⟨inner, reached, referenced⟩ := wraps
  induction reached using Relation.ReflTransGen.head_induction_on
    generalizing other value with
  | refl =>
      obtain ⟨text, held⟩ := strField_of_isSome referenced
      exact valid_iff_of_same_reference held (get?_string_alike alike held)
  | head within _ inductionHypothesis =>
      cases within with
      | items listed =>
          obtain ⟨others, found, same⟩ := arrayItems_alike alike listed
          have each : ∀ value, Valid definition _ value
              ↔ Valid definition others value := fun value =>
            inductionHypothesis ((PartOf.items listed).checked checked)
              ((PartOf.items found).checked also) same
          rw [valid_array_iff checked listed, valid_array_iff also found]
          simp only [each]
      | values held =>
          obtain ⟨others, found, same⟩ := recordValuesSchema_alike alike held
          have each : ∀ value, Valid definition _ value
              ↔ Valid definition others value := fun value =>
            inductionHypothesis ((PartOf.values held).checked checked)
              ((PartOf.values found).checked also) same
          rw [valid_record_iff checked held, valid_record_iff also found]
          simp only [each]

end Structured

/-! ## One comparison -/

/--
Whether every value of a bounded size that is valid for a member is valid for
the schema it is compared with.
-/
def SoundBelow (definition : Sections) (size : Nat) (values member : Members) :
    Prop :=
  ∀ value, sizeOf value < size → Valid definition member value →
    Valid definition values value

section Nodes

variable {values member : Members} {valuesTypes memberTypes : List String}
  {size : Nat}

/-- A comparison of scalars that admits a member admits its values. -/
theorem NodesAdmitted.sound_of_flat
    (nodes : NodesAdmitted values member valuesTypes memberTypes)
    (checked : CheckedNode scientific definition member)
    (member_plain : member.get? "$ref" = none)
    (values_plain : values.get? "$ref" = none) (flat : Flat memberTypes)
    {value : Json} (valid : Valid definition member value) :
    Valid definition values value := by
  obtain ⟨⟨type, among, fits⟩, keywords⟩ :=
    valid.scalar_of member_plain nodes.member_types flat
  obtain ⟨strings, scalar⟩ :=
    checked.scalar_keywords member_plain nodes.member_types flat
  have within : ∀ listed, listedValues member = some listed → value ∈ listed :=
    fun listed lists => mem_listedValues strings scalar keywords lists
  obtain ⟨other, also, other_fits⟩ :=
    fits_of_typesAdmitted within nodes.types among fits
  exact .scalar values_plain nodes.values_types also other_fits
    (meetsKeywords_of_admitted strings within nodes.enumerated nodes.constant
      nodes.bounds among fits keywords)

theorem sizeOf_item_lt {items : List Json} {item : Json} {size : Nat}
    (within : item ∈ items) (bounded : sizeOf (Json.array items) < size + 1) :
    sizeOf item < size := by
  have smaller := List.sizeOf_lt_of_mem within
  simp only [Json.array.sizeOf_spec] at bounded
  omega

theorem sizeOf_member_lt_of {members : Members} {entry : String × Json}
    {size : Nat} (within : entry ∈ members)
    (bounded : sizeOf (Json.object members) < size + 1) :
    sizeOf entry.2 < size := by
  have smaller := sizeOf_lt_of_mem_members within
  simp only [Json.object.sizeOf_spec] at bounded
  omega

/-- Nodes that compare do so for larger values than the parts they are left to. -/
theorem NodesAdmitted.sound
    (nodes : NodesAdmitted values member valuesTypes memberTypes)
    (values_checked : CheckedNode scientific definition values)
    (member_checked : CheckedNode scientific definition member)
    (values_plain : values.get? "$ref" = none)
    (member_plain : member.get? "$ref" = none)
    (typed : hasType values "json" = false)
    (admitted : partsToCompare values member valuesTypes memberTypes
      ≠ .inl false)
    (parts_sound : ∀ parts,
      partsToCompare values member valuesTypes memberTypes = .inr parts →
        SoundBelow definition size parts.1 parts.2) :
    SoundBelow definition (size + 1) values member := by
  intro value bounded valid
  rcases left : partsToCompare values member valuesTypes memberTypes
    with (_ | _) | parts
  · exact absurd left admitted
  · exact nodes.sound_of_flat member_checked member_plain values_plain
      (nodes.flat typed left) valid
  · have sound := parts_sound parts left
    rcases nodes.parts left with ⟨values_items, member_items⟩
      | ⟨values_held, member_held⟩
    · obtain ⟨items, rfl, each⟩ :=
        (valid_array_iff member_checked member_items).mp valid
      refine (valid_array_iff values_checked values_items).mpr
        ⟨items, rfl, fun item within => ?_⟩
      exact sound item (sizeOf_item_lt within bounded) (each item within)
    · obtain ⟨members, rfl, each⟩ :=
        (valid_record_iff member_checked member_held).mp valid
      refine (valid_record_iff values_checked values_held).mpr
        ⟨members, rfl, fun entry within => ?_⟩
      exact sound entry.2 (sizeOf_member_lt_of within bounded)
        (each entry within)

end Nodes

/-! ## What is assumed -/

/-- Whether a comparison is past a schema: within it, or past its references. -/
def Passed (outer inner : Members) : Prop :=
  Wraps outer ∨ Relation.TransGen PartOf outer inner

theorem isSome_of_localReferenceName {name : String}
    (named : localReferenceName (schema.get? "$ref") = some name) :
    (strField schema "$ref").isSome = true := by
  obtain ⟨text, held⟩ := string_of_localReferenceName named
  rw [strField_eq_some.mpr held]
  rfl

/-- A comparison that goes into a part of a schema is past it. -/
theorem passed_of_partOf {target part : Members}
    (leads : LeadsTo definition schema target) (within : PartOf target part) :
    Passed schema part := by
  cases leads with
  | here => exact Or.inr (.single within)
  | along reference =>
      exact Or.inl ⟨schema, .refl, isSome_of_localReferenceName reference⟩

theorem Passed.partOf {outer target part : Members}
    (passed : Passed outer schema) (leads : LeadsTo definition schema target)
    (within : PartOf target part) : Passed outer part := by
  rcases passed with wraps | reached
  · exact Or.inl wraps
  · cases leads with
    | here => exact Or.inr (reached.tail within)
    | along reference =>
        exact Or.inl ⟨schema, reached.to_reflTransGen,
          isSome_of_localReferenceName reference⟩

/-- A schema met again past itself ends at a reference. -/
theorem Passed.wraps {outer : Members} (passed : Passed outer schema)
    (alike : unnumberedMembers outer = unnumberedMembers schema) :
    Wraps outer := by
  rcases passed with wraps | reached
  · exact wraps
  · have smaller := sizeOf_part reached
    rw [alike] at smaller
    exact absurd smaller (lt_irrefl _)

/-- Two schemas of one text are alike but for their numbers. -/
theorem alike_of_stringify {other : Members}
    (same : stringify scientific (.object schema)
      = stringify scientific (.object other)) :
    unnumberedMembers schema = unnumberedMembers other := by
  have alike := unnumbered_eq_of_writeValue scientific
    (String.ofList_injective same)
  simpa [Json.unnumbered] using alike

section Assuming

variable {values member : Members} {size : Nat}
  {assumed : List (String × String)}

/--
Whether each pair assumed of a comparison is of schemas it is past, sound for
values of a bounded size.
-/
def AssumesSound (scientific : Scientific) (definition : Sections) (size : Nat)
    (assumed : List (String × String)) (values member : Members) : Prop :=
  ∀ pair ∈ assumed, ∃ outerValues outerMember,
    pair = (stringify scientific (.object outerValues),
        stringify scientific (.object outerMember))
      ∧ CheckedNode scientific definition outerValues
      ∧ CheckedNode scientific definition outerMember
      ∧ SoundBelow definition size outerValues outerMember
      ∧ Passed outerValues values ∧ Passed outerMember member

theorem SoundBelow.mono {less : Nat}
    (sound : SoundBelow definition size values member) (le : less ≤ size) : SoundBelow definition less values member :=
  fun value bounded => sound value (bounded.trans_le le)

theorem AssumesSound.mono {less : Nat}
    (assumes : AssumesSound scientific definition size assumed values member)
    (le : less ≤ size) :
    AssumesSound scientific definition less assumed values member := by
  intro pair within
  obtain ⟨outerValues, outerMember, same, one, other, sound, passed⟩ :=
    assumes pair within
  exact ⟨outerValues, outerMember, same, one, other, sound.mono le, passed⟩

/-- What is assumed of schemas is assumed of their parts. -/
theorem AssumesSound.parts {valuesTarget memberTarget : Members}
    {parts : Members × Members}
    (assumes : AssumesSound scientific definition size assumed values member)
    (values_leads : LeadsTo definition values valuesTarget)
    (member_leads : LeadsTo definition member memberTarget)
    (values_part : PartOf valuesTarget parts.1)
    (member_part : PartOf memberTarget parts.2) :
    AssumesSound scientific definition size assumed parts.1 parts.2 := by
  intro pair within
  obtain ⟨outerValues, outerMember, same, one, other, sound, past, passed⟩ :=
    assumes pair within
  exact ⟨outerValues, outerMember, same, one, other, sound,
    past.partOf values_leads values_part,
    passed.partOf member_leads member_part⟩

/-- A pair that is assumed is sound where what is assumed is. -/
theorem AssumesSound.sound
    (assumes : AssumesSound scientific definition size assumed values member)
    (values_checked : CheckedNode scientific definition values)
    (member_checked : CheckedNode scientific definition member)
    (within : (stringify scientific (.object values),
      stringify scientific (.object member)) ∈ assumed) :
    SoundBelow definition size values member := by
  obtain ⟨outerValues, outerMember, same, outerValues_checked,
    outerMember_checked, sound, past, passed⟩ := assumes _ within
  obtain ⟨values_text, member_text⟩ := Prod.mk.inj same
  have values_alike := alike_of_stringify values_text.symm
  have member_alike := alike_of_stringify member_text.symm
  intro value bounded valid
  rw [← valid_alike (past.wraps values_alike) outerValues_checked
    values_checked values_alike]
  apply sound value bounded
  rw [valid_alike (passed.wraps member_alike) outerMember_checked
    member_checked member_alike]
  exact valid

theorem plain_of_strField
    (checked : CheckedNode scientific definition schema)
    (absent : (strField schema "$ref").isSome = false) :
    schema.get? "$ref" = none := by
  by_contra referenced
  obtain ⟨value, held⟩ := Option.ne_none_iff_exists'.mp referenced
  obtain ⟨name, next, named, -⟩ := checked.reference held
  rw [isSome_of_localReferenceName (schemaRefName_ok named).1] at absent
  cases absent

/--
A comparison of two nodes, their parts compared under what is assumed, is
sound for values larger than those for which the comparison of the parts is.
-/
theorem admitsNode_sound {fuel : Nat}
    (values_checked : CheckedNode scientific definition values)
    (member_checked : CheckedNode scientific definition member)
    (values_plain : values.get? "$ref" = none)
    (member_plain : member.get? "$ref" = none)
    (typed : hasType values "json" = false)
    (admitted : Succeeds (do
      match ← Running.settled (admitsNode values member) with
      | .inl decided => pure decided
      | .inr (values, member) =>
          admits scientific definition fuel assumed values member) true)
    (parts_sound : ∀ parts : Members × Members, PartOf values parts.1 →
      PartOf member parts.2 →
      Succeeds (admits scientific definition fuel assumed parts.1 parts.2)
        true → SoundBelow definition size parts.1 parts.2) :
    SoundBelow definition (size + 1) values member := by
  obtain ⟨outcome, compared, admitted⟩ := (succeeds_bind _ _ _).mp admitted
  rw [succeeds_settled] at compared
  have nonempty : outcome ≠ .inl false := by
    rintro rfl
    cases (succeeds_pure _ _).mp admitted
  obtain ⟨valuesTypes, memberTypes, nodes, rfl⟩ :=
    admitsNode_ok compared nonempty
  refine nodes.sound values_checked member_checked values_plain member_plain
    typed nonempty fun parts left => ?_
  rw [left] at admitted
  rcases nodes.parts left with ⟨values_items, member_items⟩
    | ⟨values_held, member_held⟩
  · exact parts_sound parts (.items values_items) (.items member_items) admitted
  · exact parts_sound parts (.values values_held) (.values member_held) admitted

theorem valid_json {value : Json}
    (checked : CheckedNode scientific definition schema)
    (typed : hasType schema "json" = true) : Valid definition schema value :=
  .json (checked.plain_of_keyword (hasType_iff.mp typed) (by decide)) typed

theorem leadsTo_here (plain : schema.get? "$ref" = none) :
    LeadsTo definition schema schema :=
  .here fun reference held => by
    rw [plain] at held
    cases held

/-- A comparison of two nodes that are no references. -/
theorem admits_plain_sound {fuel : Nat}
    (values_checked : CheckedNode scientific definition values)
    (member_checked : CheckedNode scientific definition member)
    (values_plain : values.get? "$ref" = none)
    (member_plain : member.get? "$ref" = none)
    (admitted : Succeeds
      (admits scientific definition fuel assumed values member) true)
    (parts_sound : ∀ (parts : Members × Members) (fuel : Nat),
      PartOf values parts.1 → PartOf member parts.2 →
      Succeeds (admits scientific definition fuel assumed parts.1 parts.2)
        true → SoundBelow definition size parts.1 parts.2) :
    SoundBelow definition (size + 1) values member := by
  cases fuel with
  | zero => cases admitted
  | succ fuel =>
      rw [admits] at admitted
      dsimp only at admitted
      split at admitted
      · next typed => exact fun value _ _ => valid_json values_checked typed
      · next typed =>
        have unreferenced : strField values "$ref" = none
            ∧ strField member "$ref" = none := by
          simp [strField, values_plain, member_plain]
        simp only [unreferenced, Option.isSome_none, Bool.false_eq_true,
          false_and, or_self, if_false] at admitted
        exact admitsNode_sound values_checked member_checked values_plain
          member_plain (by simpa using typed) admitted
          fun parts => parts_sound parts fuel

/-- What following a checked node's references comes to. -/
theorem followed_of_checked {fuel : Nat} {ending : Option String × Members}
    (entries : EntriesChecked scientific definition)
    (checked : CheckedNode scientific definition schema)
    (followed : Succeeds (dereferenceFrom definition none fuel schema) ending) :
    LeadsTo definition schema ending.2
      ∧ CheckedNode scientific definition ending.2
      ∧ ending.2.get? "$ref" = none
      ∧ ∀ name, ending.1 = some name → definition.def? name = some ending.2 := by
  obtain ⟨other, also, node, plain⟩ :=
    dereferenceFrom_succeeds entries checked followed.ended
  obtain rfl := followed.unique also
  exact ⟨leadsTo_of_dereferenceFrom followed, node, plain,
    def?_of_dereferenceFrom (fun name same => by cases same) followed⟩

/--
What is assumed being sound for values of a size, a comparison under it is.  By
induction on the size: a part of a schema is compared for smaller values, for
which the pair at hand is sound too.
-/
theorem admits_soundBelow (entries : EntriesChecked scientific definition)
    (size fuel : Nat) (values_checked : CheckedNode scientific definition values)
    (member_checked : CheckedNode scientific definition member)
    (admitted : Succeeds
      (admits scientific definition fuel assumed values member) true)
    (assumes : AssumesSound scientific definition size assumed values member) :
    SoundBelow definition size values member := by
  induction size generalizing fuel assumed values member with
  | zero => exact fun value bounded => absurd bounded (Nat.not_lt_zero _)
  | succ size inductionHypothesis =>
      have smaller := inductionHypothesis fuel values_checked member_checked
        admitted (assumes.mono (Nat.le_succ size))
      have whole := admitted
      cases fuel with
      | zero => cases admitted
      | succ fuel =>
          rw [admits] at admitted
          dsimp only at admitted
          split at admitted
          · next typed =>
            exact fun value _ _ => valid_json values_checked typed
          split at admitted
          · next same =>
            obtain ⟨text, held⟩ := strField_of_isSome same.1
            have also : member.get? "$ref" = some (.string text) := by
              rw [← strField_eq_some, ← same.2, strField_eq_some]
              exact held
            exact fun value _ valid =>
              (valid_iff_of_same_reference held also).mpr valid
          split at admitted
          · split at admitted
            · next within =>
              exact assumes.sound values_checked member_checked within
            · obtain ⟨values_end, values_followed, admitted⟩ :=
                (succeeds_bind _ _ _).mp admitted
              obtain ⟨member_end, member_followed, admitted⟩ :=
                (succeeds_bind _ _ _).mp admitted
              obtain ⟨values_leads, values_node, values_plain, values_entry⟩ :=
                followed_of_checked entries values_checked values_followed
              obtain ⟨member_leads, member_node, member_plain, member_entry⟩ :=
                followed_of_checked entries member_checked member_followed
              intro value bounded valid
              rw [valid_iff_of_leadsTo member_leads] at valid
              rw [valid_iff_of_leadsTo values_leads]
              split at admitted
              · next same =>
                obtain ⟨name, named⟩ := Option.isSome_iff_exists.mp same.1
                have one := values_entry name named
                have other := member_entry name (same.2.symm.trans named)
                rw [Option.some.inj (one.symm.trans other)]
                exact valid
              · refine admits_plain_sound values_node member_node values_plain
                  member_plain admitted ?_ value bounded valid
                intro parts fuel values_part member_part parts_admitted
                refine inductionHypothesis fuel (values_part.checked values_node)
                  (member_part.checked member_node) parts_admitted ?_
                intro pair within
                rcases List.mem_cons.mp within with rfl | within
                · exact ⟨values, member, rfl, values_checked, member_checked,
                    smaller, passed_of_partOf values_leads values_part,
                    passed_of_partOf member_leads member_part⟩
                · exact (assumes.mono (Nat.le_succ size)).parts values_leads
                    member_leads values_part member_part pair within
          · next unreferenced =>
            simp only [not_or, Bool.not_eq_true] at unreferenced
            have values_plain := plain_of_strField values_checked unreferenced.1
            have member_plain := plain_of_strField member_checked unreferenced.2
            refine admits_plain_sound values_checked member_checked values_plain
              member_plain whole ?_
            intro parts fuel values_part member_part parts_admitted
            refine inductionHypothesis fuel
              (values_part.checked values_checked)
              (member_part.checked member_checked) parts_admitted ?_
            exact (assumes.mono (Nat.le_succ size)).parts
              (leadsTo_here values_plain) (leadsTo_here member_plain)
              values_part member_part

/-- A comparison under no assumption is sound. -/
theorem admits_valid (entries : EntriesChecked scientific definition)
    (values_checked : CheckedNode scientific definition values)
    (member_checked : CheckedNode scientific definition member)
    {fuel : Nat} (admitted : Succeeds
      (admits scientific definition fuel [] values member) true)
    {value : Json} (valid : Valid definition member value) :
    Valid definition values value :=
  admits_soundBelow entries (sizeOf value + 1) fuel values_checked
    member_checked admitted (fun _ within => absurd within List.not_mem_nil)
    value (Nat.lt_succ_self _) valid

end Assuming

/-! ## Accepted definitions -/

section Accepted

variable {definition : Declarations}

theorem entriesChecked_of_accepted
    (accepted : Comes (checkSemantics definition scientific) ⟨⟩) :
    EntriesChecked scientific definition.document := by
  obtain ⟨fuel, accepted⟩ := accepted
  obtain ⟨⟨⟩, before, -⟩ := (succeeds_bind _ _ _).mp accepted
  exact (checked_before ⟨fuel, before⟩).2

/-- The other members of a checked open object admit each that it declares. -/
theorem CheckedNode.open_object {definition : Sections}
    {properties other property : Members} {name : String}
    (checked : CheckedNode scientific definition schema)
    (opened : otherMembersSchema schema = some other)
    (declared : objectField schema "properties" = some properties)
    (within : (name, Json.object property) ∈ properties) :
    ∃ fuel, Succeeds (admits scientific definition fuel [] other property)
      true := by
  have others := otherMembersSchema_eq_some opened
  have held := objectField_eq_some.mp others
  obtain ⟨fuel, context, object⟩ := checked.declared
    (checked.plain_of_keyword held (by decide)) held (Or.inr rfl)
  unfold checkObject at object
  rw [held] at object
  obtain ⟨⟨⟩, -, object⟩ := (succeeds_bind _ _ _).mp object
  rw [objectField_eq_some.mp declared] at object
  simp only [Option.isNone_some, Bool.false_eq_true, if_false] at object
  obtain ⟨⟨⟩, object, -⟩ := (succeeds_bind _ _ _).mp object
  unfold checkOpenObject at object
  split at object
  · cases object
  · next listed filtered =>
    rw [declared] at filtered
    obtain rfl := Option.some.inj (Option.filter_eq_some_iff.mp filtered).1
    have one := (succeeds_forM _ _).mp object _ within
    dsimp only at one
    split at one
    · cases one
    · obtain ⟨admitted, compared, one⟩ := (succeeds_bind _ _ _).mp one
      cases admitted with
      | true => exact ⟨fuel, compared⟩
      | false => cases one

/--
In an accepted definition, a value valid for a member is valid for a schema that
admits it, and a value of a declared member of an open object is valid for the
schema of its other members.
-/
theorem admits_sound (accepted : Comes (checkSemantics definition scientific) ⟨⟩) :
    (∀ values member, NodeOf definition.document values →
      NodeOf definition.document member →
      Comes (fun fuel =>
        admits scientific definition.document fuel [] values member) true →
      ∀ value, Valid definition.document member value →
        Valid definition.document values value)
    ∧ ∀ schema properties other property name, NodeOf definition.document schema →
      objectField schema "properties" = some properties →
      otherMembersSchema schema = some other →
      (name, Json.object property) ∈ properties →
      ∀ value, Valid definition.document property value →
        Valid definition.document other value := by
  have entries := entriesChecked_of_accepted accepted
  constructor
  · rintro values member values_node member_node ⟨fuel, admitted⟩ value valid
    exact admits_valid entries (checkedNode_of_nodeOf entries values_node)
      (checkedNode_of_nodeOf entries member_node) admitted valid
  · intro schema properties other property name node declared opened within
      value valid
    obtain ⟨fuel, admitted⟩ := (checkedNode_of_nodeOf entries node).open_object
      opened declared within
    have others := otherMembersSchema_eq_some opened
    exact admits_valid entries (checkedNode_of_nodeOf entries (.other node others))
      (checkedNode_of_nodeOf entries (.property node declared within)) admitted
      valid

/-- Settings with a name, and others that are texts or integers. -/
def settings : Declarations where
  document :=
    { namespaceName := "settings"
      entities := []
      projections := []
      mutations := []
      commands := []
      collaboration := []
      defs :=
        [("Settings", .object
            [("type", .string "object"),
              ("properties", .object
                [("name", .object
                  [("type", .string "string"), ("minLength", .number 1)])]),
              ("additionalProperties", .object
                [("type", .array [.string "string", .string "integer"])])]),
          ("SettingsParams", .object (closedSchema [])),
          ("SettingsPatch", .object (closedSchema
            [("kind", .object [("type", .string "string"),
              ("enum", .array [.string "reset"])])]))] }
  entities := []
  projections :=
    [{ name := "settings.current"
       params := referenceTo "SettingsParams"
       snapshot := referenceTo "SettingsParams"
       patch := referenceTo "SettingsPatch"
       materialization := .reset
       dependsOn := [] }]
  mutations := []
  commands := []
  collaboration := []

/-- A setting's name is one of the other values a setting may have. -/
theorem settings_name_valid :
    Valid settings.document
      [("type", .array [.string "string", .string "integer"])]
      (.string "plain") := by
  have accepted : Comes (checkSemantics settings naturals) ⟨⟩ :=
    ⟨6, succeeds_of_isOk (by decide +kernel)⟩
  refine (admits_sound accepted).2 _ _ _
    [("type", .string "string"), ("minLength", .number 1)] "name"
    (@NodeOf.entry _ "Settings" _ rfl) rfl rfl List.mem_cons_self _ ?_
  refine @Valid.scalar _ _ ["string"] "string" _ rfl rfl (by simp) rfl
    { enumerated := fun values listed => by cases listed
      constant := fun constant held => by cases held
      bounded := by decide +kernel }

end Accepted

end Clerkenwell.Codegen
