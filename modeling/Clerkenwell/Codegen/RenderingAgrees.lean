import Clerkenwell.Codegen.Renderings
import Mathlib.Order.Filter.AtTopBot.Finite

/-!
# What a rendering validates

A JSON Schema that renders a node validates what the node admits, for the bound
on nested applications is met once a value's depth and the longest chain of
references are.
-/

namespace Clerkenwell.Codegen

open Clerkenwell.Foundation Running JsonSchema

variable {scientific : Scientific} {definition : Sections} {defs : Members}
  {source schema : Members} {related : Json → Members → Prop}

/-! ## Tagged unions -/

section Unions

theorem formatted_object (schema members : Members) :
    formatted schema (.object members) = true := by
  unfold formatted
  split
  · next same => cases same
  · rfl

/-- What is asserted of an object: its bounds and its format aside. -/
theorem asserted_object_iff {members : Members} :
    asserted source (.object members) = true
      ↔ typed source (.object members) = true
        ∧ listed source (.object members) = true
        ∧ constant source (.object members) = true
        ∧ required source (.object members) = true := by
  rw [asserted_iff, formatted_object]
  simp [bounded]

variable {value : Json} {fuel : Nat} {discriminator : String}

/-- A variant's schema validates what is tagged as the variant. -/
theorem TaggedForm.agrees {tag : String} {tagged variant : Members}
    (form : TaggedForm defs related discriminator tag tagged variant)
    (checked : CheckedWithin scientific definition variant)
    (object : hasType variant "object" = true)
    (agrees : AgreesBelow definition defs related (sizeOf value) (fuel + 1))
    (wellFormed : value.WellFormed) :
    validates defs (fuel + 2) (.object tagged) value = true
      ↔ TaggedAs definition discriminator value (tag, .object variant) := by
  have node := checked.under.node
  have plain := node.plain_of_keyword (hasType_iff.mp object) (by decide)
  have untagged := checked.untagged plain
  rw [validates_of_plain form.ref_none form.oneOf_none]
  cases value with
  | object members =>
      rcases (wellFormed_object_iff members).mp wellFormed with ⟨ordered, inner⟩
      have nodup : (Members.keys (members.filter fun member =>
          member.1 ≠ discriminator)).Nodup :=
        ((List.filter_sublist).map Prod.fst).nodup ordered.nodup
      have each : ∀ member ∈ members, member.1 ≠ discriminator →
          ((memberSchema tagged member.1).all
              (validates defs (fuel + 1) · member.2) = true
            ↔ ∃ inner, memberSchema variant member.1 = some (.object inner)
              ∧ Valid definition inner member.2) := by
        intro member within other
        apply rendered_member (form.members member.1 other)
          (node.memberSchema_cases plain untagged object member.1)
        intro json node_schema related_node
        apply agrees json node_schema member.2 related_node
          (inner member within)
        exact sizeOf_member_lt_of within (Nat.lt_succ_self _)
      rcases form.told with ⟨told, told_eq, tells⟩
      rw [asserted_object_iff, typed, form.type_eq, hasType_iff.mp object,
        listed, form.enum_none, constant, form.const_none, form.requires,
        Bool.and_eq_true]
      constructor
      · rintro ⟨⟨-, -, -, present, required⟩, valid, -⟩
        have every := List.all_eq_true.mp valid
        rcases Option.isSome_iff_exists.mp present with ⟨told_value, held⟩
        have told_valid := every _ (Members.mem_of_get? held)
        rw [told_eq, Option.all_some] at told_valid
        obtain rfl := (tells fuel told_value).mp told_valid
        refine ⟨members, variant, rfl, rfl, held, ?_⟩
        rw [valid_object_iff node plain untagged object nodup]
        refine ⟨required, fun member within => ?_⟩
        rcases List.mem_filter.mp within with ⟨among, other⟩
        exact (each member among (by simpa using other)).mp
          (every member among)
      · rintro ⟨others, inner_schema, same, same_schema, held, valid⟩
        obtain rfl := Json.object.inj same
        obtain rfl := Json.object.inj same_schema
        rw [valid_object_iff node plain untagged object nodup] at valid
        have present : Members.containsKey members discriminator = true := by
          unfold Members.containsKey
          rw [held]
          rfl
        refine ⟨⟨rfl, rfl, rfl, present, valid.1⟩, ?_, rfl⟩
        apply List.all_eq_true.mpr
        intro member within
        by_cases named : member.1 = discriminator
        · have looked := (Members.get?_eq_some_iff ordered.nodup _ _).mpr within
          rw [named, held] at looked
          rw [named, told_eq, Option.all_some, ← Option.some.inj looked]
          exact (tells fuel _).mpr rfl
        · apply (each member within named).mpr
          apply valid.2
          exact List.mem_filter.mpr ⟨within, by simpa using named⟩
  | _ =>
      rw [asserted_iff, typed, form.type_eq, hasType_iff.mp object]
      apply iff_of_false
      · rintro ⟨⟨is_object, -⟩, -⟩
        cases is_object
      · rintro ⟨members, inner, same, -⟩
        cases same

/-- A value is tagged as one variant at most. -/
theorem taggedAs_unique {one other : String × Json}
    (tagged : TaggedAs definition discriminator value one)
    (also : TaggedAs definition discriminator value other) :
    one.1 = other.1 := by
  rcases tagged with ⟨members, -, rfl, -, held, -⟩
  rcases also with ⟨others, -, same, -, other_held, -⟩
  obtain rfl := Json.object.inj same
  rw [held] at other_held
  exact Json.string.inj (Option.some.inj other_held)

/-- A union's schema validates what is tagged as one of its variants. -/
theorem UnionForm.agrees {variants : Members} {written : List Json}
    (form : UnionForm definition defs related source schema discriminator
      variants written)
    (checked : CheckedUnder scientific definition schema)
    (agrees : AgreesBelow definition defs related (sizeOf value) (fuel + 1))
    (wellFormed : value.WellFormed) :
    validates defs (fuel + 3) (.object source) value = true
      ↔ Valid definition schema value := by
  have held := objectField_eq_some.mp form.declared
  have plain := checked.node.plain_of_keyword held (by decide)
  have nodup := union_keys_nodup checked.node form.declared
  have one : oneValid (validates defs (fuel + 2)) source value = true
      ↔ Valid definition schema value := by
    rw [oneValid, form.oneOf_eq, valid_tagged_iff checked.node form.declared
      form.named]
    simp only [Option.all_some, Json.asArray, Option.any_some, beq_iff_eq]
    apply countP_eq_one_iff
    · apply forall₂_imp_mem form.each
      rintro json variant within ⟨tagged, inner, rfl, same, tagged_form⟩
      rcases variant with ⟨tag, json⟩
      dsimp only at same
      subst same
      rcases checked.variant plain form.declared within
        with ⟨variant_checked, other, -, head⟩
      exact tagged_form.agrees variant_checked head.typed agrees wellFormed
    · have keys : variants.Pairwise fun one other => one.1 ≠ other.1 :=
        List.pairwise_map.mp nodup
      apply keys.imp
      rintro one other apart ⟨tagged, also⟩
      exact apart (taggedAs_unique tagged also)
  rw [validates, referenced, form.ref_none]
  simp only [Option.all_none, Bool.and_true, Bool.and_eq_true, one]
  constructor
  · rintro ⟨-, valid⟩
    exact valid
  · intro valid
    refine ⟨⟨⟨form.beside value wellFormed valid, ?_⟩, ?_⟩, valid⟩
    all_goals
      rcases (valid_tagged_iff checked.node form.declared form.named).mp valid
        with ⟨variant, -, members, inner, rfl, -⟩
    · apply List.all_eq_true.mpr
      intro member _
      rw [form.undeclared]
      rfl
    · rfl

end Unions

/-! ## Chains of references -/

section Chains

/-- Whether a node's references end within so many steps. -/
inductive ChainWithin (definition : Sections) : Nat → Members → Prop where
  | ends {length : Nat} {schema : Members} (plain : schema.get? "$ref" = none) :
      ChainWithin definition length schema
  | along {length : Nat} {schema next : Members} {name : String}
      (named : localReferenceName (schema.get? "$ref") = some name)
      (entry : definition.def? name = some next)
      (rest : ChainWithin definition length next) :
      ChainWithin definition (length + 1) schema

theorem ChainWithin.mono {length longer : Nat}
    (chain : ChainWithin definition length schema) (le : length ≤ longer) :
    ChainWithin definition longer schema := by
  induction chain generalizing longer with
  | ends plain => exact .ends plain
  | along named entry _ inductionHypothesis =>
      cases longer with
      | zero => exact absurd le (Nat.not_succ_le_zero _)
      | succ longer =>
          exact .along named entry (inductionHypothesis (Nat.le_of_succ_le_succ le))

theorem chainWithin_of_dereferenceFrom {reached : Option String} {fuel : Nat}
    {ending : Option String × Members}
    (followed : Succeeds (dereferenceFrom definition reached fuel schema) ending)
    (plain : ending.2.get? "$ref" = none) :
    ChainWithin definition fuel schema := by
  induction fuel generalizing reached schema with
  | zero => cases followed
  | succ fuel inductionHypothesis =>
      rw [dereferenceFrom] at followed
      split at followed
      · rcases (succeeds_bind _ _ _).mp followed with ⟨name, named, followed⟩
        rcases (succeeds_bind _ _ _).mp followed with ⟨next, found, followed⟩
        rw [succeeds_settled] at named found
        exact .along (schemaRefName_ok named).1 (expect_eq_ok found)
          (inductionHypothesis followed)
      · obtain rfl := (succeeds_pure _ _).mp followed
        exact .ends plain

/-- The chains of all entries are no longer than one of them. -/
theorem exists_chainWithin (followable : Followable definition)
    (entries : EntriesChecked scientific definition) :
    ∃ length, ∀ name target, definition.def? name = some target →
      ChainWithin definition length target := by
  have each : ∀ name ∈ {name | name ∈ definition.defs.keys},
      ∀ᶠ length in Filter.atTop, ∀ target, definition.def? name = some target →
        ChainWithin definition length target := by
    intro name _
    cases found : definition.def? name with
    | none => simp
    | some target =>
        rcases (followable name target found none).decides with ⟨fuel, decides⟩
        rcases dereferenceFrom_succeeds entries (entries name target found)
          decides.ended with ⟨ending, followed, -, plain⟩
        apply Filter.eventually_atTop.mpr
        refine ⟨fuel, fun length longer other same => ?_⟩
        obtain rfl := Option.some.inj same
        exact (chainWithin_of_dereferenceFrom followed plain).mono longer
  have all := (List.finite_toSet definition.defs.keys).eventually_all.mpr each
  rcases all.exists with ⟨length, every⟩
  exact ⟨length, fun name target found =>
    every name (mem_keys_of_def? found) target found⟩

end Chains

/-! ## Every node -/

section Agreement

variable {value : Json}

theorem AgreesBelow.mono {size less fuel : Nat}
    (agrees : AgreesBelow definition defs related size fuel)
    (le : less ≤ size) : AgreesBelow definition defs related less fuel :=
  fun source schema value node wellFormed bounded =>
    agrees source schema value node wellFormed (bounded.trans_le le)

section Along

variable (rendering : Rendering scientific definition defs related)
  {size enough fuel : Nat}
  (smaller : ∀ fuel ≥ enough, AgreesBelow definition defs related size fuel)
  (wellFormed : value.WellFormed) (bounded : sizeOf value < size + 1)
  {source : Json} (node : related source schema)

include rendering smaller wellFormed bounded node

/-- What renders a node that is no reference goes into smaller values at once. -/
theorem Rendering.agrees_here (plain : schema.get? "$ref" = none)
    (more : enough + 3 ≤ fuel) :
    validates defs fuel source value = true ↔ Valid definition schema value := by
  have checked := rendering.checked node
  have below : ∀ fuel ≥ enough,
      AgreesBelow definition defs related (sizeOf value) fuel :=
    fun fuel enough_fuel =>
      (smaller fuel enough_fuel).mono (Nat.le_of_lt_succ bounded)
  cases rendering.renders node with
  | any _ typed admits =>
      have nonzero : fuel = fuel - 1 + 1 := by omega
      rw [nonzero]
      exact iff_of_true (admits _ value) (.json plain typed)
  | reference named => exact absurd plain (ne_none_of_localReferenceName named)
  | plain _ untagged other form =>
      have nonzero : fuel = fuel - 1 + 1 := by omega
      rw [nonzero]
      exact form.agrees checked.node (below (fuel - 1) (by omega)) wellFormed
        plain untagged other
  | union _ form =>
      have nonzero : fuel = fuel - 3 + 3 := by omega
      rw [nonzero]
      exact form.agrees checked (below (fuel - 3 + 1) (by omega)) wellFormed

/-- What renders a node does so past the node's chain of references. -/
theorem Rendering.agrees_along {length : Nat}
    (chain : ChainWithin definition length schema)
    (more : enough + 3 + length ≤ fuel) :
    validates defs fuel source value = true ↔ Valid definition schema value := by
  induction chain generalizing source fuel with
  | ends plain =>
      exact rendering.agrees_here smaller wellFormed bounded node plain
        (by omega)
  | @along length schema next name named entry _ inductionHypothesis =>
      have referenced := ne_none_of_localReferenceName named
      cases rendering.renders node with
      | any plain => exact absurd plain referenced
      | plain plain => exact absurd plain referenced
      | union plain => exact absurd plain referenced
      | @reference _ inner _ target _ other_named other_entry inner_node follows =>
          obtain rfl := Option.some.inj (named.symm.trans other_named)
          obtain rfl := Option.some.inj (entry.symm.trans other_entry)
          have nonzero : fuel = fuel - 1 + 1 := by omega
          rw [nonzero, follows, valid_reference_iff named entry]
          exact inductionHypothesis inner_node (by omega)

end Along

/--
Whatever renders a node validates just what the node admits, once enough nested
applications may be.
-/
theorem Rendering.agrees
    (rendering : Rendering scientific definition defs related)
    (followable : Followable definition)
    (entries : EntriesChecked scientific definition) (size : Nat) :
    ∀ᶠ fuel in Filter.atTop,
      AgreesBelow definition defs related size fuel := by
  rcases exists_chainWithin followable entries with ⟨length, chains⟩
  induction size with
  | zero =>
      apply Filter.Eventually.of_forall
      intro fuel source schema value _ _ bounded
      exact absurd bounded (Nat.not_lt_zero _)
  | succ size inductionHypothesis =>
      rcases Filter.eventually_atTop.mp inductionHypothesis
        with ⟨enough, smaller⟩
      apply Filter.eventually_atTop.mpr
      refine ⟨enough + 3 + (length + 1), ?_⟩
      intro fuel more source schema value node wellFormed bounded
      have chain : ChainWithin definition (length + 1) schema := by
        cases held : schema.get? "$ref" with
        | none => exact .ends held
        | some reference =>
            rcases (rendering.checked node).node.reference held
              with ⟨name, next, named, entry⟩
            exact .along (schemaRefName_ok named).1 entry
              (chains name next entry)
      exact rendering.agrees_along smaller wellFormed bounded node chain more

/-- What renders a node validates just the values the node admits. -/
theorem Rendering.validates_iff
    (rendering : Rendering scientific definition defs related)
    (followable : Followable definition)
    (entries : EntriesChecked scientific definition) {source : Json}
    (node : related source schema) (wellFormed : value.WellFormed) :
    Validates defs source value ↔ Valid definition schema value := by
  apply JsonSchema.validates_iff
  have agrees := rendering.agrees followable entries (sizeOf value + 1)
  apply agrees.mono
  intro fuel below
  exact below source schema value node wellFormed (Nat.lt_succ_self _)

end Agreement

end Clerkenwell.Codegen
