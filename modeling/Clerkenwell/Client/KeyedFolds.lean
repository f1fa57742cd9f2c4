import Clerkenwell.Client.FixtureCases

/-!
# A keyed collection as a map

Read as a map from identities to items, a keyed collection is changed by the
patches of its projection as the map is by upserts, removes and resets.
Identities are compared with `===`, so an array or an object is alike to no
identity.
-/

namespace Clerkenwell.Client

open Clerkenwell.Codegen
open Clerkenwell.Foundation

/-! ## Strict equality -/

namespace Property

theorem strictlyEquals_symm (left right : Property) :
    left.strictlyEquals right = right.strictlyEquals left := by
  cases left with
  | value value =>
      cases right with
      | value other =>
          cases value <;> cases other <;> first | rfl | exact Bool.beq_comm
      | _ => cases value <;> rfl
  | _ =>
      cases right with
      | value other => cases other <;> rfl
      | _ => first | rfl | exact Bool.beq_comm

/-- Properties strictly equal to one another equal the same ones. -/
theorem strictlyEquals_congr {left right : Property}
    (same : left.strictlyEquals right = true) (other : Property) :
    left.strictlyEquals other = right.strictlyEquals other := by
  cases left with
  | undefined => cases right <;> first | rfl | cases same
  | prototype => cases right <;> first | rfl | cases same
  | method name =>
      cases right with
      | method second => rw [eq_of_beq same]
      | _ => cases same
  | value value =>
      cases right with
      | value second =>
          cases value <;> cases second <;>
            first
              | rfl
              | cases same
              | rw [eq_of_beq same]
      | _ => cases value <;> cases same

/-- Whether a property is a string, a number, a boolean or null. -/
def isScalar : Property → Bool
  | .value (.array _) | .value (.object _) => false
  | .value _ => true
  | _ => false

end Property

/-! ## Collections as maps -/

section Collections

variable (identityField : String)

/-- The item of an identity: the first of the collection that has it. -/
def itemOf (items : List Json) (identity : Property) : Option Json :=
  items.find? fun candidate => !isOther identityField identity candidate

/-- How many items of a collection have an identity. -/
def occurrences (items : List Json) (identity : Property) : Nat :=
  items.countP fun candidate => !isOther identityField identity candidate

/-- Items alike to an identity are those alike to an equal one. -/
theorem isOther_congr {left right : Property}
    (same : left.strictlyEquals right = true) (candidate : Json) :
    isOther identityField left candidate
      = isOther identityField right candidate := by
  cases candidate with
  | object members =>
      simp only [isOther, Property.strictlyEquals_symm _ left,
        Property.strictlyEquals_symm _ right,
        Property.strictlyEquals_congr same]
  | _ => rfl

/-- An item alike to two identities makes them equal. -/
theorem strictlyEquals_of_isOther {left right : Property} {candidate : Json}
    (first : isOther identityField left candidate = false)
    (second : isOther identityField right candidate = false) :
    left.strictlyEquals right = true := by
  cases candidate with
  | object members =>
      simp only [isOther, Bool.not_eq_false'] at first second
      rw [← Property.strictlyEquals_congr first right]
      exact second
  | _ => cases first

/-- The items left without an identity are found as they were. -/
theorem itemOf_filter (items : List Json) (removed identity : Property) :
    itemOf identityField (items.filter (isOther identityField removed))
        identity
      = if removed.strictlyEquals identity then none
        else itemOf identityField items identity := by
  unfold itemOf
  rw [List.find?_filter]
  split
  · rename_i same
    rw [List.find?_eq_none]
    intro candidate _
    rw [isOther_congr identityField same]
    simp
  · rename_i apart
    congr 1
    funext candidate
    cases kept : isOther identityField identity candidate with
    | true => simp
    | false =>
        cases gone : isOther identityField removed candidate with
        | true => rfl
        | false =>
            exact absurd
              (strictlyEquals_of_isOther identityField gone kept) apart

theorem occurrences_filter (items : List Json) (removed identity : Property) :
    occurrences identityField (items.filter (isOther identityField removed))
        identity
      = if removed.strictlyEquals identity then 0
        else occurrences identityField items identity := by
  unfold occurrences
  rw [List.countP_filter]
  split
  · rename_i same
    rw [List.countP_eq_zero]
    intro candidate _
    rw [isOther_congr identityField same]
    simp
  · rename_i apart
    apply List.countP_congr
    intro candidate _
    cases kept : isOther identityField identity candidate with
    | true => simp
    | false =>
        cases gone : isOther identityField removed candidate with
        | true => simp
        | false =>
            exact absurd
              (strictlyEquals_of_isOther identityField gone kept) apart

end Collections

/-! ## Changes of a collection -/

/-- What a patch of a keyed collection does to it. -/
inductive KeyedChange where
  | reset (items : List Json)
  | upsert (item : Members)
  | remove (identity : Property)

/-- What a patch does to a keyed collection, where it is of a kind that does. -/
def keyedChange
    (collectionField itemField patchIdentityField : String)
    (patch : Json) : Option KeyedChange :=
  match patch with
  | .object members =>
      match property members "kind", property members collectionField,
          property members itemField with
      | .value (.string "reset"), .value (.array items), _ =>
          some (.reset items)
      | .value (.string "upsert"), _, item =>
          match requireRecord "" item with
          | .ok item => some (.upsert item)
          | .error _ => none
      | .value (.string "remove"), _, _ =>
          some (.remove (property members patchIdentityField))
      | _, _, _ => none
  | _ => none

section Changes

variable (identityField : String)

/-- A map from identities to items, after a change. -/
def KeyedChange.apply (held : Property → Option Json) :
    KeyedChange → Property → Option Json
  | .reset items => itemOf identityField items
  | .upsert item => fun identity =>
      if (property item identityField).strictlyEquals identity then
        some (.object item)
      else held identity
  | .remove removed => fun identity =>
      if removed.strictlyEquals identity then none else held identity

/-- The identities upserted since the last reset. -/
def KeyedChange.upserted (held : List Property) : KeyedChange → List Property
  | .reset _ => []
  | .upsert item => property item identityField :: held
  | .remove _ => held

/-- The items of a collection after a change. -/
def KeyedChange.items (items : List Json) : KeyedChange → List Json
  | .reset items => items
  | .upsert item =>
      items.filter (isOther identityField (property item identityField))
        ++ [.object item]
  | .remove removed => items.filter (isOther identityField removed)

theorem itemOf_items (items : List Json) (change : KeyedChange) :
    itemOf identityField (change.items identityField items)
      = change.apply identityField (itemOf identityField items) := by
  cases change with
  | reset items => rfl
  | remove removed =>
      funext identity
      exact itemOf_filter identityField items removed identity
  | upsert item =>
      funext identity
      have last : itemOf identityField [.object item] identity
          = if (property item identityField).strictlyEquals identity then
              some (.object item)
            else none := by
        simp only [itemOf, List.find?_singleton, isOther, Bool.not_not]
      have both : itemOf identityField
          (items.filter (isOther identityField (property item identityField))
            ++ [.object item]) identity
          = (itemOf identityField
              (items.filter
                (isOther identityField (property item identityField)))
              identity).or
            (itemOf identityField [.object item] identity) :=
        List.find?_append
      simp only [KeyedChange.items, both, itemOf_filter, last,
        KeyedChange.apply]
      split
      · exact Option.none_or
      · exact Option.or_none

/-- An identity upserted since the last reset is that of one item at most. -/
def OncePerUpsert (items : List Json) (upserted : List Property) : Prop :=
  ∀ identity ∈ upserted, ∀ other,
    identity.strictlyEquals other = true →
      occurrences identityField items other ≤ 1

theorem oncePerUpsert_items {items : List Json} {upserted : List Property}
    (once : OncePerUpsert identityField items upserted)
    (change : KeyedChange) :
    OncePerUpsert identityField (change.items identityField items)
      (change.upserted identityField upserted) := by
  cases change with
  | reset items => exact fun identity within => by cases within
  | remove removed =>
      intro identity within other same
      rw [KeyedChange.items, occurrences_filter]
      split
      · exact Nat.zero_le 1
      · exact once identity within other same
  | upsert item =>
      intro identity within other same
      rw [KeyedChange.items, occurrences, List.countP_append]
      have rest := occurrences_filter identityField items
        (property item identityField) other
      rw [occurrences] at rest
      rw [rest]
      cases replaced : (property item identityField).strictlyEquals other with
      | true =>
          rw [if_pos rfl, Nat.zero_add]
          exact List.countP_le_length
      | false =>
          have apart : (!isOther identityField other (.object item)) = false := by
            simp [isOther, replaced]
          rw [if_neg Bool.false_ne_true, List.countP_singleton, apart,
            if_neg Bool.false_ne_true]
          rcases List.mem_cons.mp within with rfl | earlier
          · rw [same] at replaced
            cases replaced
          · exact once identity earlier other same

end Changes

/-! ## Patches of a collection -/

/-- The collection a snapshot holds, and none where it holds no list there. -/
def collectionIn (collectionField : String) (snapshot : Json) : List Json :=
  match snapshot with
  | .object members =>
      match property members collectionField with
      | .value (.array items) => items
      | _ => []
  | _ => []

theorem property_withField (record : Members) (field : String) (value : Json) :
    property (withField record field value) field = .value value := by
  apply property_of_get?
  rw [withField,
    Members.get?_insert (Members.ordered_ofMembers record).nodup, if_pos rfl]

@[simp]
theorem collectionIn_withField (record : Members) (collectionField : String)
    (items : List Json) :
    collectionIn collectionField
      (.object (withField record collectionField (.array items))) = items := by
  simp only [collectionIn, property_withField]

theorem requireArray_ok {context : String} {read : Property}
    {items : List Json} (required : requireArray context read = .ok items) :
    read = .value (.array items) := by
  cases read with
  | value value =>
      cases value with
      | array held => rw [Except.ok.inj required]
      | _ => cases required
  | _ => cases required

/-- A record read apart from what the reading is for. -/
theorem requireRecord_context {context : String} {read : Property}
    {members : Members} (required : requireRecord context read = .ok members)
    (other : String) : requireRecord other read = .ok members := by
  cases read with
  | value value =>
      cases value with
      | object held => exact required
      | _ => cases required
  | prototype => exact required
  | _ => cases required

/-- What a keyed collection makes of a record and the items it read there. -/
def materializeItems (current : Members) (collection : List Json)
    (patch : Members)
    (kind collectionField itemField itemIdentityField
      patchIdentityField : String) : Except String Json :=
  match kind with
  | "reset" => do
      let items ← requireArray s!"{collectionField} reset field"
        (property patch collectionField)
      pure (.object (withField current collectionField (.array items)))
  | "upsert" => do
      let item ← requireRecord s!"{itemField} upsert field"
        (property patch itemField)
      if (property item itemIdentityField).isUndefined then
        throw s!"Upsert item is missing identity field {itemIdentityField}."
      else
        pure (.object (withField current collectionField
          (.array (collection.filter
              (isOther itemIdentityField (property item itemIdentityField))
            ++ [.object item]))))
  | "remove" =>
      if (property patch patchIdentityField).isUndefined then
        throw s!"Remove patch is missing identity field {patchIdentityField}."
      else
        pure (.object (withField current collectionField
          (.array (collection.filter
            (isOther itemIdentityField (property patch patchIdentityField))))))
  | _ =>
      throw (unexpectedPatchKind "keyed collection" kind "keyedCollection")

section Patches

variable {snapshot result : Json} {current patch : Members}
variable {collection : List Json}
variable {kind collectionField itemField itemIdentityField
  patchIdentityField : String}

/-- A collection is read from a record, or is empty where there is none. -/
theorem materializeKeyedCollection_reads
    (materialized : materializeKeyedCollection snapshot patch kind
      collectionField itemField itemIdentityField patchIdentityField
        = .ok result) :
    ∃ current,
      materializeItems current (collectionIn collectionField snapshot) patch
        kind collectionField itemField itemIdentityField patchIdentityField
          = .ok result := by
  have reads : ∀ current,
      (do
        let existing := property current collectionField
        let collection ←
          if existing.isUndefined then pure []
          else requireArray s!"{collectionField} snapshot field" existing
        materializeItems current collection patch kind collectionField
          itemField itemIdentityField patchIdentityField) = .ok result →
      materializeItems current
          (collectionIn collectionField (.object current)) patch kind
          collectionField itemField itemIdentityField patchIdentityField
        = .ok result := by
    intro current read
    rw [collectionIn]
    cases existing : property current collectionField with
    | undefined =>
        rw [existing] at read
        exact read
    | value value =>
        rw [existing] at read
        cases value with
        | array items => exact read
        | _ => cases read
    | _ =>
        rw [existing] at read
        cases read
  cases snapshot with
  | null =>
      refine ⟨[], ?_⟩
      have empty : collectionIn collectionField (.object [])
          = collectionIn collectionField .null := by
        simp only [collectionIn]
        cases existing : property [] collectionField with
        | value value =>
            simp only [property, Members.get?, List.lookup_nil] at existing
            split_ifs at existing
        | _ => rfl
      rw [← empty]
      exact reads [] materialized
  | object members => exact ⟨members, reads members materialized⟩
  | _ => cases materialized

/-- A patch a keyed collection takes changes its items as its kind says. -/
theorem materializeKeyedCollection_ok
    (read : property patch "kind" = .value (.string kind))
    (materialized : materializeKeyedCollection snapshot patch kind
      collectionField itemField itemIdentityField patchIdentityField
        = .ok result) :
    ∃ change,
      keyedChange collectionField itemField patchIdentityField (.object patch)
          = some change
        ∧ collectionIn collectionField result
          = change.items itemIdentityField
              (collectionIn collectionField snapshot) := by
  obtain ⟨current, materialized⟩ :=
    materializeKeyedCollection_reads materialized
  unfold materializeItems at materialized
  unfold keyedChange
  split at materialized
  · obtain ⟨items, isItems, built⟩ := except_bind_ok materialized
    obtain rfl := Except.ok.inj built
    refine ⟨.reset items, ?_, collectionIn_withField _ _ _⟩
    simp only [read, requireArray_ok isItems]
  · obtain ⟨item, isItem, built⟩ := except_bind_ok materialized
    split at built
    · cases built
    · obtain rfl := Except.ok.inj built
      refine ⟨.upsert item, ?_, collectionIn_withField _ _ _⟩
      simp only [read, requireRecord_context isItem]
  · split at materialized
    · cases materialized
    · obtain rfl := Except.ok.inj materialized
      refine ⟨.remove (property patch patchIdentityField), ?_,
        collectionIn_withField _ _ _⟩
      simp only [read]
  · cases materialized

end Patches

end Clerkenwell.Client
