import Clerkenwell.Codegen.Validity

/-!
# What a comparison of schemas admits

A comparison that admits a member admits its values.  A pair of references met
again is assumed: what is assumed of it is needed of smaller values only.
-/

namespace Clerkenwell.Codegen

open Clerkenwell.Foundation Running

variable {scientific : Scientific} {definition : Sections} {schema : Members}

/-! ## Checked nodes -/

/-- What the check of a node that is no reference leaves of its keywords. -/
theorem CheckedNode.keywords
    (checked : CheckedNode scientific definition schema)
    (plain : schema.get? "$ref" = none) :
    ∃ context, checkEnum schema context = .ok ⟨⟩
      ∧ ((∃ head, checkUnionHead schema context = .ok head)
        ∨ schema.get? "oneOf" = none ∧ ∃ types,
          declaredTypes schema = .ok (some types)
            ∧ checkTypedKeywords scientific schema types context = .ok ⟨⟩) := by
  obtain ⟨fuel, context, succeeds⟩ := checked
  cases fuel with
  | zero => cases succeeds
  | succ fuel =>
      refine ⟨context, ?_⟩
      rw [checkSchemaNode] at succeeds
      unfold checkObjectNode at succeeds
      obtain ⟨⟨⟩, -, succeeds⟩ := (succeeds_bind _ _ _).mp succeeds
      rw [plain] at succeeds
      simp only [Option.isSome_none, Bool.false_eq_true, if_false] at succeeds
      obtain ⟨⟨⟩, enumerated, succeeds⟩ := (succeeds_bind _ _ _).mp succeeds
      rw [succeeds_settled] at enumerated
      refine ⟨enumerated, ?_⟩
      split at succeeds
      · unfold checkTaggedUnion at succeeds
        obtain ⟨head, alone, -⟩ := (succeeds_bind _ _ _).mp succeeds
        rw [succeeds_settled] at alone
        exact Or.inl ⟨head, alone⟩
      · next untagged =>
        rw [Bool.or_eq_true, not_or] at untagged
        refine Or.inr ⟨by simpa using untagged.1, ?_⟩
        obtain ⟨types, combined, succeeds⟩ := (succeeds_bind _ _ _).mp succeeds
        rw [succeeds_settled] at combined
        cases types with
        | some types =>
            rw [succeeds_settled] at succeeds
            refine ⟨types, ?_, succeeds⟩
            unfold declaredTypes
            rw [combined]
            rfl
        | none =>
            dsimp only at succeeds
            split at succeeds
            · cases succeeds
            · next single typed =>
              obtain ⟨⟨⟩, keywords, -⟩ := (succeeds_bind _ _ _).mp succeeds
              rw [succeeds_settled] at keywords
              refine ⟨[single], ?_, keywords⟩
              unfold declaredTypes
              rw [combined, typed]
              rfl

theorem declaredTypes_of_hasType {type : String}
    (typed : hasType schema type = true) :
    declaredTypes schema = .ok (some [type]) := by
  unfold declaredTypes
  rw [primitiveUnionTypes_of_hasType typed,
    strField_eq_some.mpr (hasType_iff.mp typed)]
  rfl

/-- A schema's types are one, or two or more scalars. -/
theorem declaredTypes_cases {types : List String}
    (declared : declaredTypes schema = .ok (some types)) :
    (∃ type, types = [type] ∧ hasType schema type = true)
      ∨ 1 < types.length ∧ ∀ type ∈ types, type ∈ primitiveUnionTypeNames := by
  unfold declaredTypes at declared
  obtain ⟨combined, found, declared⟩ := except_bind_ok declared
  cases combined with
  | none =>
      obtain ⟨type, named, rfl⟩ :=
        Option.map_eq_some_iff.mp (Except.ok.inj declared)
      exact Or.inl ⟨type, rfl, by simpa [hasType] using named⟩
  | some members =>
      obtain rfl := Option.some.inj (Except.ok.inj declared)
      refine Or.inr ?_
      unfold primitiveUnionTypes at found
      split at found
      · next entries _ =>
        dsimp only at found
        split at found
        · cases found
        · next listed filtered =>
          obtain ⟨gathered, enough⟩ := Option.filter_eq_some_iff.mp filtered
          split at found
          · obtain rfl := Option.some.inj (Except.ok.inj found)
            refine ⟨of_decide_eq_true enough, fun type within => ?_⟩
            obtain ⟨entry, -, named⟩ := exists_of_mem_mapM gathered within
            exact List.contains_iff_mem.mp (Option.filter_eq_some_iff.mp named).2
          · cases found
      · cases found

/-- A checked array or record lists no values, and is no tagged union. -/
theorem CheckedNode.structured {type : String}
    (checked : CheckedNode scientific definition schema)
    (plain : schema.get? "$ref" = none) (typed : hasType schema type = true)
    (structured : type = "array"
      ∨ type = "object" ∧ schema.get? "additionalProperties" ≠ none) :
    schema.get? "enum" = none ∧ schema.get? "const" = none
      ∧ schema.get? "oneOf" = none := by
  obtain ⟨context, enumerated, form⟩ := checked.keywords plain
  have unlisted : schema.get? "enum" = none := by
    by_contra listed
    have textual := checkEnum_ok enumerated
      (by simpa [Option.isSome_iff_ne_none] using listed)
    rw [hasType_iff] at textual typed
    obtain rfl : type = "string" := by
      simpa using typed.symm.trans textual
    rcases structured with same | ⟨same, -⟩ <;> exact absurd same (by decide)
  rcases form with ⟨head, alone⟩ | ⟨untagged, types, declared, keywords⟩
  · obtain ⟨object, -, other, -⟩ := checkUnionHead_ok alone
    rw [hasType_iff] at object typed
    obtain rfl : type = "object" := by simpa using typed.symm.trans object
    rcases structured with same | ⟨-, held⟩
    · exact absurd same (by decide)
    · exact absurd other held
  · refine ⟨unlisted, ?_, untagged⟩
    rw [declaredTypes_of_hasType typed] at declared
    obtain rfl := Option.some.inj (Except.ok.inj declared)
    by_contra constant
    unfold checkTypedKeywords at keywords
    obtain ⟨⟨⟩, -, keywords⟩ := except_bind_ok keywords
    obtain ⟨⟨⟩, validation, -⟩ := except_bind_ok keywords
    unfold checkValidationKeywords at validation
    obtain ⟨⟨⟩, -, validation⟩ := except_bind_ok validation
    obtain ⟨⟨⟩, held, -⟩ := except_bind_ok validation
    have scalar := checkConstant_ok held
      (by simpa [Option.isSome_iff_ne_none] using constant)
    rcases structured with rfl | ⟨rfl, -⟩ <;> simp [constantType] at scalar

theorem meetsKeywords_of_none {value : Json}
    (unlisted : schema.get? "enum" = none) (free : schema.get? "const" = none)
    (bounded : valueMeetsBounds schema value = true) :
    MeetsKeywords schema value where
  enumerated values listed := by
    rw [unlisted] at listed
    cases listed
  constant value held := by
    rw [free] at held
    cases held
  bounded := bounded

/-! ## Bounds -/

section Bounds

variable {types : List String} {limit number : Dyadic}

theorem toRat_ofInt (value : Int) : (Dyadic.ofInt value).toRat = value :=
  Dyadic.toRat_intCast value

/-- An integer is among types of integers alone only where it is one. -/
theorem toRat_floor_of_fits {type : String} (among : type ∈ types)
    (fits : constantFits (.number number) type = true)
    (integers : (!types.contains "number" && types.contains "integer") = true) :
    (number.toRat.floor : Rat) = number.toRat := by
  have whole : isInteger (.number number) = true := by
    unfold constantFits at fits
    split at fits
    · exact fits
    · simp only [Bool.and_eq_true, Bool.not_eq_true', List.contains_eq_mem,
        decide_eq_false_iff_not] at integers
      exact absurd among integers.1
    · cases fits
    · cases fits
    · cases fits
  have same : Dyadic.ofInt number.toRat.floor = number := by
    simpa [isInteger, Json.asNumber] using whole
  rw [← toRat_ofInt, same]

theorem le_effectiveBound : limit ≤ effectiveBound "minimum" types limit := by
  unfold effectiveBound
  dsimp only
  split
  · exact Dyadic.le_refl limit
  · rw [if_pos (by decide), ← Dyadic.toRat_le_toRat_iff, toRat_ofInt]
    exact Rat.le_ceil

theorem effectiveBound_le : effectiveBound "maximum" types limit ≤ limit := by
  unfold effectiveBound
  dsimp only
  split
  · exact Dyadic.le_refl limit
  · rw [if_neg (by decide), ← Dyadic.toRat_le_toRat_iff, toRat_ofInt]
    exact Rat.floor_le _

/-- A number above a bound is above the integer its type leaves of the bound. -/
theorem effectiveBound_le_of_fits {type : String} (among : type ∈ types)
    (fits : constantFits (.number number) type = true)
    (above : limit ≤ number) :
    effectiveBound "minimum" types limit ≤ number := by
  unfold effectiveBound
  dsimp only
  split
  · exact above
  · next integers =>
    rw [if_pos (by decide), ← Dyadic.toRat_le_toRat_iff, toRat_ofInt,
      ← toRat_floor_of_fits among fits (by simpa using integers)]
    rw [← Dyadic.toRat_le_toRat_iff] at above
    have whole := toRat_floor_of_fits among fits (by simpa using integers)
    rw [← whole] at above
    exact_mod_cast Rat.ceil_le_iff.mpr above

theorem le_effectiveBound_of_fits {type : String} (among : type ∈ types)
    (fits : constantFits (.number number) type = true)
    (below : number ≤ limit) :
    number ≤ effectiveBound "maximum" types limit := by
  unfold effectiveBound
  dsimp only
  split
  · exact below
  · next integers =>
    rw [if_neg (by decide), ← Dyadic.toRat_le_toRat_iff, toRat_ofInt,
      ← toRat_floor_of_fits among fits (by simpa using integers)]
    rw [← Dyadic.toRat_le_toRat_iff] at below
    have whole := toRat_floor_of_fits among fits (by simpa using integers)
    rw [← whole] at below
    exact_mod_cast Rat.le_floor_iff.mpr below

end Bounds

/-! ## Scalars -/

/-- A value that is a scalar's is the one it equals. -/
theorem eq_of_same {value other : Json} {type : String}
    (fits : constantFits other type = true) (same : value.same other = true) :
    value = other := by
  cases other with
  | null | array _ | object _ =>
      unfold constantFits at fits
      split at fits <;> cases fits
  | bool held => cases value <;> simp_all [Json.same]
  | number held => cases value <;> simp_all [Json.same]
  | string held => cases value <;> simp_all [Json.same]

theorem same_refl {value : Json} {type : String}
    (fits : constantFits value type = true) : value.same value = true := by
  cases value with
  | null | array _ | object _ =>
      unfold constantFits at fits
      split at fits <;> cases fits
  | bool held => simp [Json.same]
  | number held => simp [Json.same]
  | string held => simp [Json.same]

/-- Whether types are scalars', each but those of arrays, objects and any value. -/
def Flat (types : List String) : Prop :=
  ∀ type ∈ types, type ≠ "array" ∧ type ≠ "object" ∧ type ≠ "json"

theorem hasType_of_recordValuesSchema {values : Members}
    (held : recordValuesSchema schema = some values) :
    hasType schema "object" = true
      ∧ objectField schema "additionalProperties" = some values := by
  refine ⟨?_, objectField_of_recordValuesSchema held⟩
  unfold recordValuesSchema at held
  split at held
  · cases held
  · next other =>
    rw [Bool.or_eq_true, not_or] at other
    simpa using other.1

theorem mem_of_hasType {types : List String} {type : String}
    (declared : declaredTypes schema = .ok (some types))
    (typed : hasType schema type = true) : type ∈ types := by
  rw [declaredTypes_of_hasType typed] at declared
  obtain rfl := Option.some.inj (Except.ok.inj declared)
  exact List.mem_singleton_self type

/-- A value of a schema of scalars is one of them, as the keywords have it. -/
theorem Valid.scalar_of {types : List String} {value : Json}
    (valid : Valid definition schema value)
    (plain : schema.get? "$ref" = none)
    (declared : declaredTypes schema = .ok (some types)) (flat : Flat types) :
    (∃ type ∈ types, constantFits value type = true)
      ∧ MeetsKeywords schema value := by
  cases valid with
  | reference named => exact absurd plain (ne_none_of_localReferenceName named)
  | json _ typed =>
      exact absurd rfl (flat _ (mem_of_hasType declared typed)).2.2
  | scalar _ also among fits keywords =>
      obtain rfl := Option.some.inj (Except.ok.inj (declared.symm.trans also))
      exact ⟨⟨_, among, fits⟩, keywords⟩
  | array _ listed =>
      have typed := (hasType_of_arrayItems listed).1
      exact absurd rfl (flat _ (mem_of_hasType declared typed)).1
  | record _ _ held =>
      have typed := (hasType_of_recordValuesSchema held).1
      exact absurd rfl (flat _ (mem_of_hasType declared typed)).2.1
  | object _ _ typed =>
      exact absurd rfl (flat _ (mem_of_hasType declared typed)).2.1
  | tagged _ typed =>
      exact absurd rfl (flat _ (mem_of_hasType declared typed)).2.1

theorem checkConstantType_ok {constant : Json} {types : List String}
    {context : String}
    (checked : checkConstantType constant types context = .ok ⟨⟩) :
    ∃ type, constantFits constant type = true := by
  unfold checkConstantType at checked
  split at checked
  · next single =>
    split at checked
    · cases checked
    · obtain ⟨-, checked⟩ := of_unless_refuse checked
      obtain ⟨fits, -⟩ := of_unless_refuse checked
      exact ⟨single, by simpa using fits⟩
  · split at checked
    · next any =>
      obtain ⟨type, -, fits⟩ := List.any_eq_true.mp any
      exact ⟨type, fits⟩
    · cases checked

theorem checkConstant_fits {constant : Json} {types : List String}
    {context : String} (checked : checkConstant schema types context = .ok ⟨⟩)
    (held : schema.get? "const" = some constant) :
    ∃ type, constantFits constant type = true := by
  unfold checkConstant at checked
  rw [held] at checked
  obtain ⟨-, checked⟩ := of_unless_refuse checked
  obtain ⟨⟨⟩, typed, -⟩ := except_bind_ok checked
  exact checkConstantType_ok typed

/-- What a checked enum lists are strings. -/
theorem checkEnum_strings {values : Json} {context : String}
    (checked : checkEnum schema context = .ok ⟨⟩)
    (held : schema.get? "enum" = some values) :
    ∃ items, values = .array items
      ∧ ∀ item ∈ items, constantFits item "string" = true := by
  unfold checkEnum at checked
  rw [held] at checked
  dsimp only at checked
  split at checked
  · cases checked
  · next strings filtered =>
    obtain ⟨gathered, -⟩ := Option.filter_eq_some_iff.mp filtered
    obtain ⟨items, listed, gathered⟩ := Option.bind_eq_some_iff.mp gathered
    cases values with
    | array others =>
        obtain rfl := Option.some.inj listed
        refine ⟨others, rfl, fun item within => ?_⟩
        exact isSome_of_mem_mapM gathered within
    | _ => cases listed

/-- What a checked schema of scalars lists are scalars. -/
theorem CheckedNode.scalar_keywords {types : List String}
    (checked : CheckedNode scientific definition schema)
    (plain : schema.get? "$ref" = none)
    (declared : declaredTypes schema = .ok (some types)) (flat : Flat types) :
    (∀ values, schema.get? "enum" = some values → ∃ items,
        values = .array items
          ∧ ∀ item ∈ items, constantFits item "string" = true)
      ∧ ∀ constant, schema.get? "const" = some constant →
        ∃ type, constantFits constant type = true := by
  obtain ⟨context, enumerated, form⟩ := checked.keywords plain
  refine ⟨fun values held => checkEnum_strings enumerated held, ?_⟩
  rcases form with ⟨head, alone⟩ | ⟨-, others, also, keywords⟩
  · have typed := (checkUnionHead_ok alone).1
    exact absurd rfl (flat _ (mem_of_hasType declared typed)).2.1
  · intro constant held
    unfold checkTypedKeywords at keywords
    obtain ⟨⟨⟩, -, keywords⟩ := except_bind_ok keywords
    obtain ⟨⟨⟩, validation, -⟩ := except_bind_ok keywords
    unfold checkValidationKeywords at validation
    obtain ⟨⟨⟩, -, validation⟩ := except_bind_ok validation
    obtain ⟨⟨⟩, within, -⟩ := except_bind_ok validation
    exact checkConstant_fits within held

/-! ## Schemas of scalars compared -/

section Comparing

variable {values member : Members} {valuesTypes memberTypes : List String}
  {value : Json} {type : String}

/-- A value that meets a schema's keywords is among the values it lists. -/
theorem mem_listedValues {listed : List Json}
    (strings : ∀ values, schema.get? "enum" = some values → ∃ items,
      values = .array items
        ∧ ∀ item ∈ items, constantFits item "string" = true)
    (scalar : ∀ constant, schema.get? "const" = some constant →
      ∃ type, constantFits constant type = true)
    (keywords : MeetsKeywords schema value)
    (lists : listedValues schema = some listed) : value ∈ listed := by
  unfold listedValues at lists
  split at lists
  · next _ items held =>
    obtain rfl := Option.some.inj lists
    obtain ⟨others, same, textual⟩ := strings _ held
    obtain rfl := Json.array.inj same
    have any := keywords.enumerated items (by rw [held]; rfl)
    obtain ⟨item, within, equal⟩ := List.any_eq_true.mp any
    obtain rfl := eq_of_same (textual item within) equal
    exact List.mem_filter.mpr ⟨within, keywords.bounded⟩
  · next constant held _ =>
    obtain rfl := Option.some.inj lists
    obtain ⟨type, fits⟩ := scalar constant held
    exact List.mem_singleton.mpr
      (eq_of_same fits (keywords.constant constant held))
  · cases lists

theorem enumerated_of_admitted
    (strings : ∀ values, member.get? "enum" = some values → ∃ items,
      values = .array items
        ∧ ∀ item ∈ items, constantFits item "string" = true)
    (admitted : enumAdmitted values member = true)
    (keywords : MeetsKeywords member value)
    (fits : constantFits value type = true) (listed : List Json)
    (lists : (values.get? "enum").bind Json.asArray = some listed) :
    listed.any value.same = true := by
  unfold enumAdmitted at admitted
  rw [lists] at admitted
  dsimp only at admitted
  split at admitted
  · cases admitted
  · next items held =>
    obtain ⟨item, within, equal⟩ :=
      List.any_eq_true.mp (keywords.enumerated items held)
    obtain ⟨enumerated, found, isArray⟩ := Option.bind_eq_some_iff.mp held
    obtain ⟨others, rfl, textual⟩ := strings _ found
    obtain rfl := Option.some.inj isArray
    obtain rfl := eq_of_same (textual item within) equal
    obtain ⟨other, among, also⟩ := List.any_eq_true.mp
      (List.all_eq_true.mp admitted value within)
    obtain rfl := eq_of_same fits also
    exact List.any_eq_true.mpr ⟨other, among, same_refl fits⟩

theorem constant_of_admitted
    (within : ∀ listed, listedValues member = some listed → value ∈ listed)
    (admitted : constantAdmitted values (listedValues member) = true)
    (constant : Json) (held : values.get? "const" = some constant) :
    value.same constant = true := by
  unfold constantAdmitted at admitted
  rw [held] at admitted
  obtain ⟨listed, lists, every⟩ := (Option.any_eq_true _ _).mp admitted
  exact List.all_eq_true.mp every value (within listed lists)

theorem bound_of_admitted {keyword : String} {limit : Dyadic}
    (admitted : boundAdmitted values member valuesTypes memberTypes keyword
      = true)
    (applies : (if keyword == "minLength" then memberTypes.contains "string"
      else memberTypes.contains "integer" || memberTypes.contains "number")
        = true)
    (bounds : bound values keyword = some limit) :
    ∃ held, bound member keyword = some held
      ∧ if keyword == "maximum" then
          effectiveBound keyword memberTypes held
            ≤ effectiveBound keyword valuesTypes limit
        else
          effectiveBound keyword valuesTypes limit
            ≤ effectiveBound keyword memberTypes held := by
  unfold boundAdmitted at admitted
  rw [bounds, applies] at admitted
  change (bound member keyword).any _ = true at admitted
  obtain ⟨held, found, within⟩ := (Option.any_eq_true _ _).mp admitted
  refine ⟨held, found, ?_⟩
  split <;> simp_all

theorem contains_of_fits_number {number : Dyadic}
    (among : type ∈ memberTypes)
    (fits : constantFits (.number number) type = true) :
    (memberTypes.contains "integer" || memberTypes.contains "number")
      = true := by
  unfold constantFits at fits
  split at fits
  · simp [among]
  · simp [among]
  · cases fits
  · cases fits
  · cases fits

theorem contains_of_fits_string {text : String} (among : type ∈ memberTypes)
    (fits : constantFits (.string text) type = true) :
    memberTypes.contains "string" = true := by
  unfold constantFits at fits
  split at fits
  · cases fits
  · cases fits
  · simp [among]
  · cases fits
  · cases fits

/-- A value within a member's bounds is within those that admit them. -/
theorem bounded_of_admitted
    (admitted : ∀ keyword ∈ ["minimum", "maximum", "minLength"],
      boundAdmitted values member valuesTypes memberTypes keyword = true)
    (among : type ∈ memberTypes) (fits : constantFits value type = true)
    (bounded : valueMeetsBounds member value = true) :
    valueMeetsBounds values value = true := by
  cases value with
  | null => rfl
  | bool _ => rfl
  | array _ => rfl
  | object _ => rfl
  | string text =>
      simp only [valueMeetsBounds, Option.all_eq_true, decide_eq_true_eq]
        at bounded ⊢
      intro limit bounds
      obtain ⟨held, found, within⟩ := bound_of_admitted
        (admitted "minLength" (by simp))
        (contains_of_fits_string among fits) bounds
      exact Dyadic.le_trans within (bounded held found)
  | number number =>
      simp only [valueMeetsBounds, Bool.and_eq_true, Option.all_eq_true,
        decide_eq_true_eq] at bounded ⊢
      have numeric := contains_of_fits_number among fits
      constructor
      · intro limit bounds
        obtain ⟨held, found, within⟩ := bound_of_admitted
          (admitted "minimum" (by simp)) numeric bounds
        refine Dyadic.le_trans (@le_effectiveBound valuesTypes limit) ?_
        refine Dyadic.le_trans within ?_
        exact effectiveBound_le_of_fits among fits (bounded.1 held found)
      · intro limit bounds
        obtain ⟨held, found, within⟩ := bound_of_admitted
          (admitted "maximum" (by simp)) numeric bounds
        refine Dyadic.le_trans ?_ (@effectiveBound_le valuesTypes limit)
        refine Dyadic.le_trans ?_ within
        exact le_effectiveBound_of_fits among fits (bounded.2 held found)

/-- Keywords that admit a member's admit each value of it. -/
theorem meetsKeywords_of_admitted
    (strings : ∀ values, member.get? "enum" = some values → ∃ items,
      values = .array items
        ∧ ∀ item ∈ items, constantFits item "string" = true)
    (within : ∀ listed, listedValues member = some listed → value ∈ listed)
    (enumerated : enumAdmitted values member = true)
    (constant : constantAdmitted values (listedValues member) = true)
    (bounds : boundsAdmitted values member valuesTypes memberTypes
      (listedValues member) = true)
    (among : type ∈ memberTypes) (fits : constantFits value type = true)
    (keywords : MeetsKeywords member value) : MeetsKeywords values value where
  enumerated := enumerated_of_admitted strings enumerated keywords fits
  constant := constant_of_admitted within constant
  bounded := by
    unfold boundsAdmitted at bounds
    split at bounds
    · next listed lists =>
      exact List.all_eq_true.mp bounds value (within listed lists)
    · exact bounded_of_admitted (List.all_eq_true.mp bounds) among fits
        keywords.bounded

/-- A value of a type admitted is of one of the types that admit it. -/
theorem fits_of_typesAdmitted
    (within : ∀ listed, listedValues member = some listed → value ∈ listed)
    (admitted : typesAdmitted memberTypes valuesTypes (listedValues member)
      = true)
    (among : type ∈ memberTypes) (fits : constantFits value type = true) :
    ∃ other ∈ valuesTypes, constantFits value other = true := by
  unfold typesAdmitted at admitted
  obtain ⟨other, also, admits⟩ :=
    List.any_eq_true.mp (List.all_eq_true.mp admitted type among)
  refine ⟨other, also, ?_⟩
  simp only [Bool.or_eq_true, Bool.and_eq_true, beq_iff_eq] at admits
  rcases admits with (rfl | ⟨rfl, rfl⟩) | ⟨⟨rfl, rfl⟩, whole⟩
  · exact fits
  · cases value with
    | number _ => rfl
    | _ => cases fits
  · obtain ⟨listed, lists, every⟩ := (Option.any_eq_true _ _).mp whole
    exact List.all_eq_true.mp every value (within listed lists)

end Comparing

/-! ## Nodes compared -/

section Nodes

variable {values member : Members} {valuesTypes memberTypes : List String}

/-- What a comparison of two nodes that is not refused found of them. -/
structure NodesAdmitted (values member : Members)
    (valuesTypes memberTypes : List String) : Prop where
  member_types : declaredTypes member = .ok (some memberTypes)
  values_types : declaredTypes values = .ok (some valuesTypes)
  types : typesAdmitted memberTypes valuesTypes (listedValues member) = true
  enumerated : enumAdmitted values member = true
  constant : constantAdmitted values (listedValues member) = true
  bounds : boundsAdmitted values member valuesTypes memberTypes
    (listedValues member) = true

theorem admitsNode_ok {outcome : Bool ⊕ (Members × Members)}
    (compared : admitsNode values member = .ok outcome)
    (admitted : outcome ≠ .inl false) :
    ∃ valuesTypes memberTypes,
      NodesAdmitted values member valuesTypes memberTypes
        ∧ outcome = partsToCompare values member valuesTypes memberTypes := by
  unfold admitsNode at compared
  obtain ⟨member_declared, member_types, compared⟩ := except_bind_ok compared
  cases member_declared with
  | none => exact absurd (Except.ok.inj compared).symm admitted
  | some memberTypes =>
      obtain ⟨values_declared, values_types, compared⟩ :=
        except_bind_ok compared
      cases values_declared with
      | none => exact absurd (Except.ok.inj compared).symm admitted
      | some valuesTypes =>
          dsimp only at compared
          split at compared
          · next held =>
            simp only [Bool.and_eq_true] at held
            obtain ⟨⟨⟨types, enumerated⟩, constant⟩, bounds⟩ := held
            exact ⟨valuesTypes, memberTypes,
              { member_types := member_types
                values_types := values_types
                types := types
                enumerated := enumerated
                constant := constant
                bounds := bounds },
              (Except.ok.inj compared).symm⟩
          · exact absurd (Except.ok.inj compared).symm admitted

/-- A type admitted is a number's, or one of the types that admit it. -/
theorem NodesAdmitted.among {type : String}
    (nodes : NodesAdmitted values member valuesTypes memberTypes)
    (within : type ∈ memberTypes) :
    type ∈ valuesTypes ∨ type = "integer" ∧ "number" ∈ valuesTypes
      ∨ type = "number" ∧ "integer" ∈ valuesTypes := by
  have types := nodes.types
  unfold typesAdmitted at types
  obtain ⟨other, also, admits⟩ :=
    List.any_eq_true.mp (List.all_eq_true.mp types type within)
  simp only [Bool.or_eq_true, Bool.and_eq_true, beq_iff_eq] at admits
  rcases admits with (rfl | ⟨rfl, rfl⟩) | ⟨⟨rfl, rfl⟩, -⟩
  · exact Or.inl also
  · exact Or.inr (Or.inl ⟨rfl, also⟩)
  · exact Or.inr (Or.inr ⟨rfl, also⟩)

/-- What an array admits is an array. -/
theorem NodesAdmitted.array
    (nodes : NodesAdmitted values member ["array"] memberTypes)
    (single : memberTypes.length ≤ 1) : hasType member "array" = true := by
  rcases declaredTypes_cases nodes.member_types
    with ⟨type, rfl, typed⟩ | ⟨many, -⟩
  · rcases nodes.among (List.mem_singleton_self type)
      with also | ⟨-, also⟩ | ⟨-, also⟩
    · obtain rfl := List.mem_singleton.mp also
      exact typed
    · exact absurd (List.mem_singleton.mp also) (by decide)
    · exact absurd (List.mem_singleton.mp also) (by decide)
  · omega

theorem flat_of_names {types : List String}
    (names : ∀ type ∈ types, type ∈ primitiveUnionTypeNames) : Flat types := by
  intro type within
  have named := names type within
  simp only [primitiveUnionTypeNames, List.mem_cons, List.not_mem_nil,
    or_false] at named
  rcases named with rfl | rfl | rfl | rfl <;> decide

/-- A comparison decided by types and keywords alone is of scalars. -/
theorem NodesAdmitted.flat
    (nodes : NodesAdmitted values member valuesTypes memberTypes)
    (typed : hasType values "json" = false)
    (decided : partsToCompare values member valuesTypes memberTypes
      = .inl true) : Flat memberTypes := by
  rcases declaredTypes_cases nodes.member_types
    with ⟨type, rfl, -⟩ | ⟨-, names⟩
  · intro other within
    obtain rfl := List.mem_singleton.mp within
    rcases nodes.among within with also | ⟨rfl, -⟩ | ⟨rfl, -⟩
    · rcases declaredTypes_cases nodes.values_types
        with ⟨single, rfl, named⟩ | ⟨-, names⟩
      · obtain rfl := List.mem_singleton.mp also
        simp only [partsToCompare, List.length_singleton, lt_self_iff_false,
          or_self, if_false, List.head?_cons] at decided
        split at decided
        · split at decided <;> cases decided
        · split at decided <;> cases decided
        · next no_array no_object =>
          refine ⟨fun same => no_array (by rw [same]),
            fun same => no_object (by rw [same]), ?_⟩
          rintro rfl
          rw [named] at typed
          cases typed
      · exact flat_of_names names other also
    · decide
    · decide
  · exact flat_of_names names

/-- The parts two nodes are left to compare by are an array's or a record's. -/
theorem NodesAdmitted.parts {parts : Members × Members}
    (nodes : NodesAdmitted values member valuesTypes memberTypes)
    (left : partsToCompare values member valuesTypes memberTypes
      = .inr parts) :
    arrayItems values = some parts.1 ∧ arrayItems member = some parts.2
      ∨ recordValuesSchema values = some parts.1
        ∧ recordValuesSchema member = some parts.2 := by
  unfold partsToCompare at left
  split at left
  · cases left
  · next single =>
    push Not at single
    rcases declaredTypes_cases nodes.values_types
      with ⟨type, rfl, typed⟩ | ⟨many, -⟩
    · simp only [List.head?_cons] at left
      split at left
      · next same =>
        obtain rfl := Option.some.inj same
        split at left
        · next valuesItems memberItems values_items member_items =>
          obtain rfl := Sum.inr.inj left
          have member_typed := nodes.array single.2
          exact Or.inl ⟨by simp [arrayItems, typed, values_items],
            by simp [arrayItems, member_typed, member_items]⟩
        · cases left
      · split at left
        · next values_held member_held =>
          obtain rfl := Sum.inr.inj left
          exact Or.inr ⟨values_held, member_held⟩
        · cases left
      · cases left
    · omega

end Nodes

end Clerkenwell.Codegen
