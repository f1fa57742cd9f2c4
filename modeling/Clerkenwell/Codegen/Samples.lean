import Clerkenwell.Codegen.Sampling
import Clerkenwell.Codegen.Reordering
import Clerkenwell.Codegen.CheckedNodes

/-!
# What a sample is

Samples keep the order their objects' members have, and an object's sample has
no member its schema does not admit.
-/

namespace Clerkenwell.Codegen

open Clerkenwell.Foundation

/-! ## Well-formed values -/

theorem wellFormed_object_iff (members : Members) :
    (Json.object members).WellFormed ↔
      members.Ordered ∧ ∀ member ∈ members, member.2.WellFormed := by
  rw [Json.WellFormed, wellFormedMembers_iff]

theorem wellFormed_array_iff (items : List Json) :
    (Json.array items).WellFormed ↔ ∀ item ∈ items, item.WellFormed := by
  rw [Json.WellFormed, wellFormedItems_iff]

theorem wellFormed_empty : (Json.object []).WellFormed :=
  (wellFormed_object_iff []).mpr ⟨Members.ordered_nil, by simp⟩

theorem Json.WellFormed.insert {members : Members} {value : Json}
    (wellFormed : (Json.object members).WellFormed)
    (value_wellFormed : value.WellFormed) (key : String) :
    (Json.object (members.insert key value)).WellFormed := by
  obtain ⟨ordered, held⟩ := (wellFormed_object_iff members).mp wellFormed
  have assigned := ordered.insert key value
  refine (wellFormed_object_iff _).mpr ⟨assigned, ?_⟩
  intro member within
  have looked :=
    (Members.get?_eq_some_iff assigned.nodup member.1 member.2).mpr within
  rw [Members.get?_insert ordered.nodup] at looked
  split at looked
  · obtain rfl := Option.some.inj looked
    exact value_wellFormed
  · exact wellFormed.member looked

theorem Json.WellFormed.spread {members other : Members}
    (wellFormed : (Json.object members).WellFormed)
    (others : ∀ member ∈ other, member.2.WellFormed) :
    (Json.object (members.spread other)).WellFormed := by
  induction other generalizing members with
  | nil => exact wellFormed
  | cons member rest inductionHypothesis =>
      rw [List.forall_mem_cons] at others
      exact inductionHypothesis (wellFormed.insert others.1 member.1) others.2

theorem Json.WellFormed.field {members fields : Members} {key : String}
    (wellFormed : (Json.object members).WellFormed)
    (held : objectField members key = some fields) :
    (Json.object fields).WellFormed :=
  wellFormed.member (objectField_eq_some.mp held)

/-! ## Samples are well formed -/

section WellFormed

variable {definition : Sections} {suffix : Option String}

theorem sampleUnion_succeeds {sample : Members → Running Failure Json}
    {schema : Members} {refusal : Option Failure} {types : List String}
    {value : Json}
    (sampled : Running.Succeeds (sampleUnion sample schema refusal types) value) :
    ∃ memberType ∈ types, Running.Succeeds
      (sample (schema.insert "type" (.string memberType))) value := by
  induction types generalizing refusal with
  | nil =>
      cases refusal with
      | none => cases sampled
      | some refusal => cases sampled
  | cons memberType rest inductionHypothesis =>
      unfold sampleUnion at sampled
      split at sampled
      · cases sampled
      · obtain ⟨later, within, also⟩ := inductionHypothesis sampled
        exact ⟨later, List.mem_cons_of_mem _ within, also⟩
      · exact ⟨memberType, List.mem_cons_self, sampled⟩

/-- Whatever each property's sample keeps, the sample of properties keeps. -/
theorem sampleProperties_induction {kept : Members → Prop}
    {sample : Members → String → Running Failure Json}
    {required : List String} {properties result : Members}
    (start : kept [])
    (step : ∀ sampled property schema value, kept sampled →
      (property, Json.object schema) ∈ properties → property ∈ required →
      Running.Succeeds (sample schema property) value →
        kept (sampled.insert property value))
    (succeeds : Running.Succeeds
      (sampleProperties sample required properties) result) :
    kept result := by
  unfold sampleProperties at succeeds
  suffices every : ∀ (rest : Members) (sampled : Members), kept sampled →
      (∀ member ∈ rest, member ∈ properties) →
      Running.Succeeds (rest.foldlM (fun sampled member =>
        if required.contains member.1 then do
          let schema ← Running.settled (expect member.2.asObject)
          let value ← sample schema member.1
          pure (sampled.insert member.1 value)
        else
          pure sampled) sampled) result → kept result from
    every properties [] start (fun _ => id) succeeds
  intro rest
  induction rest with
  | nil =>
      intro sampled holds _ ends
      obtain rfl := (Running.succeeds_pure _ _).mp ends
      exact holds
  | cons member rest inductionHypothesis =>
      obtain ⟨property, schema⟩ := member
      intro sampled holds within ends
      rw [List.forall_mem_cons] at within
      rw [List.foldlM_cons] at ends
      obtain ⟨next, one, ends⟩ := (Running.succeeds_bind _ _ _).mp ends
      refine inductionHypothesis next ?_ within.2 ends
      dsimp only at one
      split at one
      · next asked =>
        obtain ⟨fields, object, one⟩ := (Running.succeeds_bind _ _ _).mp one
        obtain ⟨value, sampled_value, one⟩ := (Running.succeeds_bind _ _ _).mp one
        obtain rfl := (Running.succeeds_pure _ _).mp one
        rw [Running.succeeds_settled] at object
        cases schema with
        | object members =>
            obtain rfl := Except.ok.inj object
            exact step sampled property members value holds within.1
              (by simpa using asked) sampled_value
        | _ => cases object
      · obtain rfl := (Running.succeeds_pure _ _).mp one
        exact holds

/-- What an open object's sample calls its other member. -/
def otherName (properties : Members) : String :=
  otherMemberName properties (properties.length + 1) "other-member"

theorem sampleOther_succeeds
    {sample : Members → String → Running Failure Json} {schema : Members}
    {extend : Bool} {sampled : Members} {value : Json}
    (succeeds : Running.Succeeds
      (sampleOther sample schema extend sampled) value) :
    value = .object sampled ∨
      ∃ properties additional inner,
        extend = true ∧ objectField schema "properties" = some properties
          ∧ otherMembersSchema schema = some additional
          ∧ (inner = .string "other-value" ∨ Running.Succeeds
              (sample additional (otherName properties)) inner)
          ∧ value = .object (sampled.insert (otherName properties) inner) := by
  unfold sampleOther at succeeds
  split at succeeds
  · next properties additional declared others =>
    dsimp only at succeeds
    split at succeeds
    · obtain rfl := (Running.succeeds_pure _ _).mp succeeds
      exact Or.inr ⟨properties, additional, _, rfl, declared, others,
        Or.inl rfl, rfl⟩
    · obtain ⟨inner, other, succeeds⟩ :=
        (Running.succeeds_bind _ _ _).mp succeeds
      obtain rfl := (Running.succeeds_pure _ _).mp succeeds
      exact Or.inr ⟨properties, additional, inner, rfl, declared, others,
        Or.inr other, rfl⟩
  · exact Or.inl ((Running.succeeds_pure _ _).mp succeeds).symm

theorem sampleVariant_succeeds {sample : Members → Running Failure Json}
    {schema variants : Members} {value : Json}
    (succeeds : Running.Succeeds (sampleVariant sample schema variants) value) :
    ∃ tag variant discriminator fields,
      variants.head? = some (tag, .object variant)
        ∧ strField schema "discriminator" = some discriminator
        ∧ (∃ sampled, Running.Succeeds (sample variant) sampled
            ∧ fields = sampled.asObject.getD [])
        ∧ value = .object ((Members.insert [] discriminator
            (.string tag)).spread fields) := by
  unfold sampleVariant at succeeds
  obtain ⟨⟨tag, variant⟩, first, succeeds⟩ :=
    (Running.succeeds_bind _ _ _).mp succeeds
  obtain ⟨discriminator, named, succeeds⟩ :=
    (Running.succeeds_bind _ _ _).mp succeeds
  obtain ⟨schema_of_variant, object, succeeds⟩ :=
    (Running.succeeds_bind _ _ _).mp succeeds
  obtain ⟨sampled, sampled_variant, succeeds⟩ :=
    (Running.succeeds_bind _ _ _).mp succeeds
  rw [Running.succeeds_settled] at first named object
  refine ⟨tag, schema_of_variant, discriminator, sampled.asObject.getD [],
    ?_, ?_, ⟨sampled, sampled_variant, rfl⟩, ?_⟩
  · cases head : variants.head? with
    | none => rw [head] at first; cases first
    | some found =>
        rw [head] at first
        obtain rfl := Except.ok.inj first
        cases variant with
        | object members => rw [Except.ok.inj object]
        | _ => cases object
  · cases held : strField schema "discriminator" with
    | none => rw [held] at named; cases named
    | some found => rw [held] at named; rw [Except.ok.inj named]
  · cases sampled with
    | object fields => exact ((Running.succeeds_pure _ _).mp succeeds).symm
    | _ => exact ((Running.succeeds_pure _ _).mp succeeds).symm

theorem wellFormed_boundedSample {schema : Members} {integer : Bool}
    {value : Json} (sampled : Running.Succeeds (Running.settled
      ((boundedSample schema integer).map Json.number)) value) :
    value.WellFormed := by
  rw [Running.succeeds_settled] at sampled
  cases bounded : boundedSample schema integer with
  | error failure => rw [bounded] at sampled; cases sampled
  | ok number =>
      rw [bounded] at sampled
      obtain rfl := Except.ok.inj sampled
      trivial

/-- A sample of a well-formed definition is well formed. -/
theorem sampleWithin_wellFormed
    (definitions : (Json.object definition.defs).WellFormed) (fuel : Nat) :
    ∀ {schema : Members} {key : Option String} {extend : Bool} {value : Json},
      (Json.object schema).WellFormed →
      Running.Succeeds
        (sampleWithin definition suffix fuel schema key extend) value →
      value.WellFormed := by
  induction fuel with
  | zero => intro schema key extend value _ sampled; cases sampled
  | succ fuel inductionHypothesis =>
      intro schema key extend value wellFormed sampled
      unfold sampleWithin at sampled
      split at sampled
      · obtain ⟨target, resolved, sampled⟩ :=
          (Running.succeeds_bind _ _ _).mp sampled
        rw [Running.succeeds_settled] at resolved
        obtain ⟨name, -, found⟩ := resolveRef_eq_ok resolved
        exact inductionHypothesis (definitions.field found) sampled
      split at sampled
      · next constant held =>
        obtain rfl := (Running.succeeds_pure _ _).mp sampled
        exact wellFormed.member held
      split at sampled
      · next values listed =>
        split at sampled
        · next first found =>
          obtain rfl := (Running.succeeds_pure _ _).mp sampled
          obtain ⟨items, held, array⟩ := Option.bind_eq_some_iff.mp listed
          have items_wellFormed := wellFormed.member held
          cases items with
          | array items =>
              obtain rfl := Option.some.inj array
              exact (wellFormed_array_iff items).mp items_wellFormed _
                (List.mem_of_find?_eq_some found)
          | _ => cases array
        · cases sampled
      obtain ⟨combined, -, sampled⟩ := (Running.succeeds_bind _ _ _).mp sampled
      split at sampled
      · obtain ⟨memberType, -, member⟩ := sampleUnion_succeeds sampled
        refine inductionHypothesis (wellFormed.insert ?_ "type") member
        simp [Json.WellFormed]
      split at sampled
      · rw [Running.succeeds_settled] at sampled
        unfold stringSample at sampled
        dsimp only at sampled
        split at sampled
        · cases sampled
        · obtain rfl := Except.ok.inj sampled
          trivial
      · exact wellFormed_boundedSample sampled
      · exact wellFormed_boundedSample sampled
      · obtain rfl := (Running.succeeds_pure _ _).mp sampled
        trivial
      · obtain rfl := (Running.succeeds_pure _ _).mp sampled
        trivial
      · obtain ⟨items, declared, sampled⟩ :=
          (Running.succeeds_bind _ _ _).mp sampled
        obtain ⟨item, sampled_item, sampled⟩ :=
          (Running.succeeds_bind _ _ _).mp sampled
        obtain rfl := (Running.succeeds_pure _ _).mp sampled
        have held := expect_eq_ok ((Running.succeeds_settled _ _).mp declared)
        have item_wellFormed :=
          inductionHypothesis (wellFormed.field held) sampled_item
        exact (wellFormed_array_iff [item]).mpr (by simpa using item_wellFormed)
      · split at sampled
        · next variants declared =>
          obtain ⟨tag, variant, discriminator, fields, first, -, among, rfl⟩ :=
            sampleVariant_succeeds sampled
          obtain ⟨members, sampled_variant, rfl⟩ := among
          have variants_wellFormed := wellFormed.field declared
          have variant_wellFormed :=
            ((wellFormed_object_iff variants).mp variants_wellFormed).2 _
              (List.mem_of_head? first)
          have members_wellFormed :=
            inductionHypothesis variant_wellFormed sampled_variant
          have tagged := wellFormed_empty.insert
            (show (Json.string tag).WellFormed from trivial) discriminator
          refine tagged.spread ?_
          cases members with
          | object fields =>
              exact ((wellFormed_object_iff fields).mp members_wellFormed).2
          | _ => simp [Json.asObject]
        · obtain ⟨required, -, sampled⟩ :=
            (Running.succeeds_bind _ _ _).mp sampled
          obtain ⟨declared, properties, sampled⟩ :=
            (Running.succeeds_bind _ _ _).mp sampled
          have declared_wellFormed : (Json.object declared).WellFormed := by
            refine @sampleProperties_induction
              (fun members => (Json.object members).WellFormed) _ _ _ _
              wellFormed_empty ?_ properties
            intro sampled property schema value held within _ one
            refine held.insert (inductionHypothesis ?_ one) property
            cases fields : objectField _ "properties" with
            | none => rw [fields] at within; cases within
            | some members =>
                rw [fields] at within
                exact ((wellFormed_object_iff members).mp
                  (wellFormed.field fields)).2 _ within
          rcases sampleOther_succeeds sampled with
            rfl | ⟨members, additional, inner, -, -, others, value, rfl⟩
          · exact declared_wellFormed
          · refine declared_wellFormed.insert ?_ _
            rcases value with rfl | value
            · trivial
            · refine inductionHypothesis ?_ value
              exact wellFormed.field (otherMembersSchema_eq_some others)
      · cases sampled

/-! ## Members of an object's sample -/

theorem otherMemberName_starts (properties : Members) (attempts : Nat)
    {name : String} (starts : name.toList.head? = some 'o') :
    (otherMemberName properties attempts name).toList.head? = some 'o' := by
  induction attempts generalizing name with
  | zero => exact starts
  | succ attempts inductionHypothesis =>
      unfold otherMemberName
      split
      · apply inductionHypothesis
        rw [String.toList_push, List.head?_append, starts]
        rfl
      · exact starts

theorem otherName_ne_kind (properties : Members) :
    otherName properties ≠ "kind" := by
  intro same
  have starts := @otherMemberName_starts properties (properties.length + 1)
    "other-member" (by decide)
  rw [show otherMemberName properties (properties.length + 1) "other-member"
    = "kind" from same] at starts
  exact absurd starts (by decide)

/-- A sample of an object with declared members has no other but one. -/
theorem sampleWithin_declared {fuel : Nat} {schema properties : Members}
    {key : Option String} {extend : Bool} {value : Json}
    (typed : hasType schema "object" = true)
    (declared : objectField schema "properties" = some properties)
    (only : schema.get? "$ref" = none ∧ schema.get? "const" = none
      ∧ schema.get? "enum" = none ∧ schema.get? "oneOf" = none)
    (sampled : Running.Succeeds
      (sampleWithin definition suffix fuel schema key extend) value) :
    ∃ members : Members, value = .object members ∧ ∀ name ∈ members.keys,
      name ∈ properties.keys ∨ name = otherName properties := by
  cases fuel with
  | zero => cases sampled
  | succ fuel =>
      unfold sampleWithin at sampled
      obtain ⟨unreferenced, constant, listed, untagged⟩ := only
      simp only [unreferenced, constant, listed, Option.isSome_none,
        Bool.false_eq_true, if_false, Option.bind_none,
        primitiveUnionTypes_of_hasType typed] at sampled
      rw [Running.settled_bind_ok,
        strField_eq_some.mpr (hasType_iff.mp typed)] at sampled
      have plain : objectField schema "oneOf" = none := by
        rw [objectField, untagged]
        rfl
      simp only [plain, declared, Option.getD_some] at sampled
      obtain ⟨required, -, sampled⟩ := (Running.succeeds_bind _ _ _).mp sampled
      obtain ⟨members, among, sampled⟩ := (Running.succeeds_bind _ _ _).mp sampled
      have within : ∀ name ∈ members.keys, name ∈ properties.keys := by
        refine @sampleProperties_induction
          (fun members => ∀ name ∈ members.keys, name ∈ properties.keys) _ _ _ _
          (by simp) ?_ among
        intro sampled property schema value held present _ _ name assigned
        rcases (Members.mem_keys_insert _ _ _ _).mp assigned with
          rfl | earlier
        · exact List.mem_map_of_mem present
        · exact held name earlier
      rcases sampleOther_succeeds sampled with
        rfl | ⟨others, additional, inner, -, also, -, -, rfl⟩
      · exact ⟨members, rfl, fun name present => Or.inl (within name present)⟩
      · rw [declared] at also
        obtain rfl := Option.some.inj also
        refine ⟨_, rfl, fun name present => ?_⟩
        rcases (Members.mem_keys_insert _ _ _ _).mp present with
          rfl | earlier
        · exact Or.inr rfl
        · exact Or.inl (within name earlier)

end WellFormed

end Clerkenwell.Codegen
