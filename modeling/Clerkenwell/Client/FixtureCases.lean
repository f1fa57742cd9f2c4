import Clerkenwell.Codegen.Fixtures
import Clerkenwell.Codegen.Samples
import Clerkenwell.Client.MaterializePatch

/-!
# The patches a fixture has

When the client, given a fixture's snapshot and its patch of one kind, is left
with the snapshot the fixture expects.
-/

namespace Clerkenwell.Client

open Clerkenwell.Codegen
open Clerkenwell.Foundation

section Agreement

variable (spell : Property → String)

/--
Whether the client, from a snapshot, applies the patch of `kind` a projection's
fixture has and is left with the snapshot the fixture expects.
-/
def KindAgrees (plan : MaterializationPlan) (projection : String)
    (snapshot changes : Json) (kind : String) : Prop :=
  ∀ patch expected,
    projectionFixtureCase kind snapshot changes plan = .ok (patch, expected) →
      materializePatch spell snapshot ⟨projection, .object patch⟩ plan
        = .ok expected

variable {spell} {projection : String} {snapshot : Json} {patch : Members}
  {plan : MaterializationPlan}

/-! ## The kind of a patch -/

theorem property_of_get? {record : Members} {field : String} {value : Json}
    (held : record.get? field = some value) :
    property record field = .value value := by
  rw [property, held]

/-- A patch that applies says of what kind it is. -/
theorem materializePatch_ok {result : Json}
    (materialized : materializePatch spell snapshot
      ⟨projection, .object patch⟩ plan = .ok result) :
    ∃ kind, patch.get? "kind" = some (.string kind)
      ∧ materializeKind spell snapshot projection patch kind plan
        = .ok result := by
  obtain ⟨record, same, materialized⟩ := except_bind_ok materialized
  obtain rfl := Except.ok.inj same
  obtain ⟨kind, text, materialized⟩ := except_bind_ok materialized
  refine ⟨kind, ?_, materialized⟩
  cases held : patch.get? "kind" with
  | none =>
      have undefined : property patch "kind" = .undefined := by
        rw [property, held]
        rfl
      rw [undefined] at text
      cases text
  | some value =>
      rw [property_of_get? held] at text
      cases value with
      | string own => rw [Except.ok.inj text]
      | _ => cases text

/-- A patch whose kind is no string is refused. -/
theorem materializePatch_no_kind {value : Json}
    (held : patch.get? "kind" = some value) (other : value.asStr = none)
    (expected : Json) :
    materializePatch spell snapshot ⟨projection, .object patch⟩ plan
      ≠ .ok expected := by
  intro materialized
  obtain ⟨kind, text, -⟩ := materializePatch_ok materialized
  rw [held] at text
  obtain rfl := Option.some.inj text
  cases other

theorem materializePatch_kind {kind : String}
    (held : patch.get? "kind" = some (.string kind)) :
    materializePatch spell snapshot ⟨projection, .object patch⟩ plan
      = materializeKind spell snapshot projection patch kind plan := by
  change (requireString _ (property patch "kind") >>= fun kind =>
    materializeKind spell snapshot projection patch kind plan) = _
  rw [property_of_get? held]
  rfl

/-- The members of an object of two assignments. -/
theorem get?_pair (first second : String) (value other : Json)
    (name : String) :
    ((Members.insert [] first value).insert second other).get? name
      = if name = second then some other
        else if name = first then some value else none := by
  have nodup : (Members.insert [] first value).keys.Nodup :=
    Members.nodup_insert Members.ordered_nil.nodup _ _
  rw [Members.get?_insert nodup, Members.get?_insert Members.ordered_nil.nodup]
  rfl

/-- The members of a patch of a kind with one member beside it. -/
theorem get?_patch (kind : String) (field : String) (value : Json)
    (name : String) :
    ((Members.insert [] "kind" (.string kind)).insert field value).get? name
      = if name = field then some value
        else if name = "kind" then some (.string kind) else none :=
  get?_pair "kind" field (.string kind) value name

theorem get?_patch_field (kind field : String) (value : Json) :
    ((Members.insert [] "kind" (.string kind)).insert field value).get? field
      = some value := by
  rw [get?_patch, if_pos rfl]

theorem get?_patch_kind {kind field : String} (apart : field ≠ "kind")
    (value : Json) :
    ((Members.insert [] "kind" (.string kind)).insert field value).get? "kind"
      = some (.string kind) := by
  rw [get?_patch, if_neg apart.symm, if_pos rfl]

/-- An assignment to a record in order needs no rebuilding of the record. -/
theorem withField_of_ordered {record : Members} (ordered : record.Ordered)
    (field : String) (value : Json) :
    withField record field value = record.insert field value := by
  rw [withField, Members.ofMembers_of_ordered ordered]

/-! ## Patches that carry members -/

theorem get?_spread_patch {members : Members} (ordered : members.Ordered)
    (kind : String) (name : String) :
    ((Members.insert [] "kind" (.string kind)).spread members).get? name
      = (members.get? name).or
          (if name = "kind" then some (.string kind) else none) := by
  rw [Members.get?_spread
    (Members.nodup_insert Members.ordered_nil.nodup _ _) ordered.nodup,
    Members.get?_insert Members.ordered_nil.nodup]
  rfl

theorem nodup_spread_patch (kind : String) (members : Members) :
    ((Members.insert [] "kind" (.string kind)).spread members).keys.Nodup :=
  ((Members.ordered_nil.insert "kind" (.string kind)).spread members).nodup

/-- A patch's own members left out, what it carries is left. -/
theorem omitFields_spread_patch {members : Members} (ordered : members.Ordered)
    (kind : String) {omitted : List String}
    (absent : ∀ field ∈ "kind" :: omitted, field ∉ members.keys) :
    omitFields ((Members.insert [] "kind" (.string kind)).spread members)
      ("kind" :: omitted) = members := by
  have carried : ((Members.insert [] "kind" (.string kind)).spread
      members).filter (fun member => member.1 ≠ "kind") = members := by
    rw [Members.filter_spread
      (Members.ordered_nil.insert "kind" (.string kind))
      (absent "kind" List.mem_cons_self)]
    exact Members.ofMembers_of_ordered ordered
  have others : members.filter (fun member => member.1 ∉ omitted) = members := by
    refine List.filter_eq_self.mpr fun member within => ?_
    have named : member.1 ∈ members.keys := List.mem_map_of_mem within
    simpa using fun present =>
      absent member.1 (List.mem_cons_of_mem _ present) named
  have both : ((Members.insert [] "kind" (.string kind)).spread
      members).filter (fun member => member.1 ∉ "kind" :: omitted)
      = members := by
    conv_rhs => rw [← others, ← carried, List.filter_filter]
    refine List.filter_congr fun member _ => ?_
    simp [not_or, Bool.and_comm]
  rw [omitFields, both, Members.ofMembers_of_ordered ordered]

theorem get?_omitFields {record : Members} (nodup : record.keys.Nodup)
    {fields : List String} {field : String} (left_out : field ∈ fields) :
    (omitFields record fields).get? field = none := by
  have filtered : Members.keys (record.filter fun member =>
      member.1 ∉ fields) = record.keys.filter fun key => key ∉ fields := by
    rw [Members.keys, Members.keys, List.filter_map]
    rfl
  rw [omitFields, Members.get?_ofMembers (by
    rw [filtered]
    exact nodup.filter _), Members.get?_eq_none_iff, filtered]
  intro within
  simpa [left_out] using (List.mem_filter.mp within).2

/-- A record that holds a field is not one that leaves it out. -/
theorem omitFields_ne {record members : Members} (nodup : record.keys.Nodup)
    {fields : List String} {field : String} {value : Json}
    (left_out : field ∈ fields) (held : members.get? field = some value) :
    omitFields record fields ≠ members := by
  intro same
  have gone := get?_omitFields nodup left_out
  rw [same, held] at gone
  cases gone

end Agreement

/-! ## Keyed collections -/

section Keyed

variable {spell : Property → String} {projection : String}
  {collectionField itemField itemIdentityField patchIdentityField : String}
  {changes : Json} {members item : Members}

/-- What a keyed fixture's snapshot is. -/
structure KeyedSnapshot (collectionField itemIdentityField : String)
    (members item : Members) : Prop where
  ordered : members.Ordered
  collection : members.get? collectionField = some (.array [.object item])
  identity : item.get? itemIdentityField = some (.string "fixture-id")

theorem asObject_ordered {sampled : Json} (wellFormed : sampled.WellFormed) :
    (sampled.asObject.getD []).Ordered := by
  cases sampled with
  | object members => exact wellFormed.ordered
  | _ => exact Members.ordered_nil

theorem firstObjectItem_ordered {members : Members}
    (wellFormed : (Json.object members).WellFormed) (field : String) :
    ((firstObjectItem (members.get? field)).getD []).Ordered := by
  cases found : firstObjectItem (members.get? field) with
  | none => exact Members.ordered_nil
  | some item =>
      unfold firstObjectItem at found
      obtain ⟨collection, held, found⟩ := Option.bind_eq_some_iff.mp found
      obtain ⟨items, array, found⟩ := Option.bind_eq_some_iff.mp found
      obtain ⟨first, head, object⟩ := Option.bind_eq_some_iff.mp found
      have within := wellFormed.member held
      cases collection with
      | array entries =>
          obtain rfl := Option.some.inj array
          have first_wellFormed := (wellFormed_array_iff entries).mp within first
            (List.mem_of_head? head)
          cases first with
          | object _ =>
              obtain rfl := Option.some.inj object
              exact first_wellFormed.ordered
          | _ => cases object
      | _ => cases array

theorem keyedSnapshot_prepared {sampled : Json}
    (wellFormed : sampled.WellFormed) :
    ∃ members item,
      prepareFixtureSnapshot sampled (.keyedCollection collectionField itemField
        itemIdentityField patchIdentityField) = .object members
      ∧ KeyedSnapshot collectionField itemIdentityField members item := by
  have ordered := asObject_ordered wellFormed
  have object : (Json.object (sampled.asObject.getD [])).WellFormed := by
    cases sampled with
    | object members => exact wellFormed
    | _ => exact wellFormed_empty
  have item_nodup :=
    (firstObjectItem_ordered object collectionField).nodup
  exact ⟨_, _, rfl,
    { ordered := ordered.insert _ _
      collection :=
        (Members.get?_insert ordered.nodup _ _ _).trans (if_pos rfl)
      identity := (Members.get?_insert item_nodup _ _ _).trans (if_pos rfl) }⟩

variable (keyed : KeyedSnapshot collectionField itemIdentityField members item)

include keyed

theorem KeyedSnapshot.firstItem :
    firstObjectItem (members.get? collectionField) = some item := by
  rw [keyed.collection]
  rfl

theorem KeyedSnapshot.insert_collection :
    members.insert collectionField (.array [.object item]) = members :=
  Members.insert_of_get? keyed.ordered.nodup keyed.collection

theorem KeyedSnapshot.withField (value : Json) :
    withField members collectionField value
      = members.insert collectionField value :=
  withField_of_ordered keyed.ordered collectionField value

theorem KeyedSnapshot.not_other :
    isOther itemIdentityField (.value (.string "fixture-id")) (.object item)
      = false := by
  rw [isOther, property_of_get? keyed.identity]
  simp [Property.strictlyEquals]

theorem keyed_reset_agrees_iff :
    KindAgrees spell (.keyedCollection collectionField itemField
        itemIdentityField patchIdentityField) projection (.object members)
        changes "reset"
      ↔ collectionField ≠ "kind" := by
  have generated : projectionFixtureCase "reset" (.object members) changes
      (.keyedCollection collectionField itemField itemIdentityField
        patchIdentityField)
      = .ok ((Members.insert [] "kind" (.string "reset")).insert
          collectionField (.array [.object item]), .object members) := by
    simp only [projectionFixtureCase, Json.asObject, Option.getD_some,
      keyed.firstItem, keyed.insert_collection]
  constructor
  · rintro agrees rfl
    refine materializePatch_no_kind (get?_patch_field _ _ _) rfl _
      (agrees _ _ generated)
  · rintro apart patch expected case
    obtain ⟨rfl, rfl⟩ := Prod.mk.inj (Except.ok.inj (generated.symm.trans case))
    rw [materializePatch_kind (get?_patch_kind apart _)]
    simp only [materializeKind, materializeKeyedCollection, requireRecord,
      property_of_get? keyed.collection, property_of_get? (get?_patch_field _ _ _),
      Property.isUndefined, requireArray, Bool.false_eq_true, if_false,
      keyed.withField, keyed.insert_collection, pure, Except.pure, bind,
      Except.bind]

theorem keyed_upsert_agrees_iff :
    KindAgrees spell (.keyedCollection collectionField itemField
        itemIdentityField patchIdentityField) projection (.object members)
        changes "upsert"
      ↔ itemField ≠ "kind" := by
  have generated : projectionFixtureCase "upsert" (.object members) changes
      (.keyedCollection collectionField itemField itemIdentityField
        patchIdentityField)
      = .ok ((Members.insert [] "kind" (.string "upsert")).insert
          itemField (.object item), .object members) := by
    simp only [projectionFixtureCase, Json.asObject, Option.getD_some,
      keyed.firstItem, keyed.insert_collection]
  constructor
  · rintro agrees rfl
    exact materializePatch_no_kind (get?_patch_field _ _ _) rfl _
      (agrees _ _ generated)
  · rintro apart patch expected case
    obtain ⟨rfl, rfl⟩ := Prod.mk.inj (Except.ok.inj (generated.symm.trans case))
    rw [materializePatch_kind (get?_patch_kind apart _)]
    simp only [materializeKind, materializeKeyedCollection, requireRecord,
      property_of_get? keyed.collection, property_of_get? (get?_patch_field _ _ _),
      property_of_get? keyed.identity, Property.isUndefined, requireArray,
      Bool.false_eq_true, if_false, List.filter_cons, keyed.not_other,
      List.filter_nil, List.nil_append, keyed.withField,
      keyed.insert_collection, pure, Except.pure, bind, Except.bind]

theorem keyed_remove_agrees_iff :
    KindAgrees spell (.keyedCollection collectionField itemField
        itemIdentityField patchIdentityField) projection (.object members)
        changes "remove"
      ↔ patchIdentityField ≠ "kind" := by
  have generated : projectionFixtureCase "remove" (.object members) changes
      (.keyedCollection collectionField itemField itemIdentityField
        patchIdentityField)
      = .ok ((Members.insert [] "kind" (.string "remove")).insert
          patchIdentityField (.string "fixture-id"),
          .object (members.insert collectionField (.array []))) := by
    simp only [projectionFixtureCase, Json.asObject, Option.getD_some,
      keyed.firstItem, keyed.insert_collection]
  constructor
  · rintro agrees rfl
    have materialized := agrees _ _ generated
    rw [materializePatch_kind (get?_patch_field _ _ _)] at materialized
    simp only [materializeKind, materializeKeyedCollection, requireRecord,
      property_of_get? keyed.collection, Property.isUndefined, requireArray,
      Bool.false_eq_true, if_false, pure, Except.pure, bind,
      Except.bind] at materialized
    cases materialized
  · rintro apart patch expected case
    obtain ⟨rfl, rfl⟩ := Prod.mk.inj (Except.ok.inj (generated.symm.trans case))
    rw [materializePatch_kind (get?_patch_kind apart _)]
    simp only [materializeKind, materializeKeyedCollection, requireRecord,
      property_of_get? keyed.collection, property_of_get? (get?_patch_field _ _ _),
      Property.isUndefined, requireArray, Bool.false_eq_true, if_false,
      List.filter_cons, keyed.not_other, List.filter_nil, keyed.withField,
      pure, Except.pure, bind, Except.bind]

end Keyed

/-! ## Sequenced text -/

section Sequenced

variable {spell : Property → String} {projection : String}
  {collectionField itemIdentityField patchIdentityField snapshotOutputField
    sequenceField textField patchOutputField deltaTextField : String}
  {changes : Json} {members item patch : Members} {result : Json}

/-- What a sequenced fixture's snapshot is. -/
structure StreamSnapshot (collectionField itemIdentityField snapshotOutputField
    sequenceField textField : String) (members item : Members) : Prop where
  ordered : members.Ordered
  collection : members.get? collectionField = some (.array [.object item])
  item_ordered : item.Ordered
  identity : itemIdentityField ≠ snapshotOutputField →
    item.get? itemIdentityField = some (.string "fixture-id")
  output : item.get? snapshotOutputField
    = some (.object (emptyOutput sequenceField textField))

theorem streamSnapshot_prepared {sampled : Json}
    (wellFormed : sampled.WellFormed) :
    ∃ members item,
      prepareFixtureSnapshot sampled (.sequencedText collectionField
        itemIdentityField patchIdentityField snapshotOutputField sequenceField
        textField patchOutputField deltaTextField) = .object members
      ∧ StreamSnapshot collectionField itemIdentityField snapshotOutputField
          sequenceField textField members item := by
  have ordered := asObject_ordered wellFormed
  have object : (Json.object (sampled.asObject.getD [])).WellFormed := by
    cases sampled with
    | object members => exact wellFormed
    | _ => exact wellFormed_empty
  have item_ordered := firstObjectItem_ordered object collectionField
  have identified := item_ordered.insert itemIdentityField (.string "fixture-id")
  refine ⟨_, _, rfl,
    { ordered := ordered.insert _ _
      collection :=
        (Members.get?_insert ordered.nodup _ _ _).trans (if_pos rfl)
      item_ordered := identified.insert _ _
      identity := ?_
      output :=
        (Members.get?_insert identified.nodup _ _ _).trans (if_pos rfl) }⟩
  intro apart
  rw [Members.get?_insert identified.nodup, if_neg apart,
    Members.get?_insert item_ordered.nodup, if_pos rfl]

variable (stream : StreamSnapshot collectionField itemIdentityField
  snapshotOutputField sequenceField textField members item)

include stream

theorem StreamSnapshot.firstItem :
    firstObjectItem (members.get? collectionField) = some item := by
  rw [stream.collection]
  rfl

theorem StreamSnapshot.insert_collection :
    members.insert collectionField (.array [.object item]) = members :=
  Members.insert_of_get? stream.ordered.nodup stream.collection

/-- What appending to the item of a prepared snapshot takes and leaves. -/
theorem StreamSnapshot.append_ok_iff {sequence : Dyadic} {textDelta : String}
    {identity : Property} :
    appendOutput spell snapshotOutputField sequenceField textField
        sequence textDelta identity item = .ok result
      ↔ sequenceField ≠ textField ∧ sequence = 1
        ∧ result = .object (item.insert snapshotOutputField
          (.object ((Members.insert [] sequenceField (.number sequence)).insert
            textField (.string textDelta)))) := by
  have read : ∀ name, (emptyOutput sequenceField textField).get? name
      = if name = textField then some (.string "")
        else if name = sequenceField then some (.number 0) else none :=
    get?_pair sequenceField textField (.number 0) (.string "")
  have text : property (emptyOutput sequenceField textField) textField
      = .value (.string "") :=
    property_of_get? (by rw [read, if_pos rfl])
  unfold appendOutput
  rw [property_of_get? stream.output]
  simp only [Property.isUndefined, requireRecord, text, requireString,
    Bool.false_eq_true, if_false, pure, Except.pure, bind, Except.bind]
  by_cases same : sequenceField = textField
  · subst same
    rw [text]
    exact ⟨fun appended => (by cases appended), fun both => absurd rfl both.1⟩
  · have number : property (emptyOutput sequenceField textField) sequenceField
        = .value (.number 0) :=
      property_of_get? (by rw [read, if_neg same, if_pos rfl])
    have safe : isSafeInteger 0 = true := by decide
    rw [number]
    simp only [requireInteger, safe, if_true]
    by_cases follows : sequence = 0 + 1
    · rw [if_neg (not_not.mpr follows), String.empty_append,
        withField_of_ordered stream.item_ordered]
      exact ⟨fun appended => ⟨same, follows, (Except.ok.inj appended).symm⟩,
        fun both => congrArg Except.ok both.2.2.symm⟩
    · rw [if_pos follows]
      exact ⟨fun appended => (by cases appended),
        fun both => absurd both.2.1 follows⟩

theorem StreamSnapshot.append_ne {sequence : Dyadic} {textDelta : String}
    {identity : Property}
    (appended : appendOutput spell snapshotOutputField sequenceField textField
      sequence textDelta identity item = .ok result) :
    result ≠ .object item := by
  obtain ⟨apart, rfl, rfl⟩ := stream.append_ok_iff.mp appended
  intro same
  have held := stream.output
  rw [← Json.object.inj same, Members.get?_insert stream.item_ordered.nodup,
    if_pos rfl] at held
  have outputs := congrArg (fun members => Members.get? members sequenceField)
    (Json.object.inj (Option.some.inj held))
  simp only [emptyOutput, get?_pair, if_neg apart, if_true] at outputs
  have numbers : (1 : Dyadic) = 0 := Json.number.inj (Option.some.inj outputs)
  exact absurd numbers (by decide)

/-- What applying an output patch to a prepared snapshot takes and leaves. -/
theorem StreamSnapshot.output_ok_iff :
    materializeKind spell (.object members) projection patch
        "output" (.sequencedText collectionField itemIdentityField
          patchIdentityField snapshotOutputField sequenceField textField
          patchOutputField deltaTextField) = .ok result
      ↔ ∃ delta sequence textDelta next,
        (property patch patchIdentityField).isUndefined = false
        ∧ isOther itemIdentityField (property patch patchIdentityField)
            (.object item) = false
        ∧ requireRecord s!"{patchOutputField} output field"
            (property patch patchOutputField) = .ok delta
        ∧ requireInteger s!"{sequenceField} output sequence"
            (property delta sequenceField) = .ok sequence
        ∧ requireString s!"{deltaTextField} output text"
            (property delta deltaTextField) = .ok textDelta
        ∧ appendOutput spell snapshotOutputField sequenceField textField
            sequence textDelta (property patch patchIdentityField) item
          = .ok next
        ∧ result = .object (members.insert collectionField (.array [next])) := by
  unfold materializeKind materializeSequencedText
  dsimp only
  rw [if_neg (by decide), if_neg (by decide)]
  constructor
  · intro materialized
    obtain ⟨current, record, materialized⟩ := except_bind_ok materialized
    obtain rfl := Except.ok.inj record
    obtain ⟨collection, array, materialized⟩ := except_bind_ok materialized
    rw [property_of_get? stream.collection] at array
    obtain rfl := Except.ok.inj array
    split at materialized
    · cases materialized
    next known =>
    obtain ⟨delta, output, materialized⟩ := except_bind_ok materialized
    obtain ⟨sequence, number, materialized⟩ := except_bind_ok materialized
    obtain ⟨textDelta, text, materialized⟩ := except_bind_ok materialized
    obtain ⟨next, appended, materialized⟩ := except_bind_ok materialized
    split at materialized
    · cases materialized
    next other =>
    have own : isOther itemIdentityField (property patch patchIdentityField)
        (.object item) = false := by
      simpa using other
    rw [List.mapM_cons, List.mapM_nil] at appended
    obtain ⟨entry, one, appended⟩ := except_bind_ok appended
    obtain rfl := Except.ok.inj appended
    dsimp only at one
    rw [if_neg (by simpa using own)] at one
    rw [withField_of_ordered stream.ordered] at materialized
    exact ⟨delta, sequence, textDelta, entry, by simpa using known, own, output,
      number, text, one, (Except.ok.inj materialized).symm⟩
  · rintro ⟨delta, sequence, textDelta, next, known, own, output, number, text,
      appended, rfl⟩
    simp only [requireRecord, property_of_get? stream.collection, requireArray,
      known, Bool.false_eq_true, if_false, List.mapM_cons, List.mapM_nil, own,
      List.all_cons, Bool.false_and,
      withField_of_ordered stream.ordered, pure, Except.pure, bind, Except.bind]
    simp only [requireRecord] at output
    rw [output]
    simp only [number, text, appended]

theorem stream_reset_agrees_iff :
    KindAgrees spell (.sequencedText collectionField itemIdentityField
        patchIdentityField snapshotOutputField sequenceField textField
        patchOutputField deltaTextField) projection (.object members) changes
        "reset"
      ↔ members.get? "kind" = none := by
  have generated : projectionFixtureCase "reset" (.object members) changes
      (.sequencedText collectionField itemIdentityField patchIdentityField
        snapshotOutputField sequenceField textField patchOutputField
        deltaTextField)
      = .ok ((Members.insert [] "kind" (.string "reset")).spread members,
          .object members) := by
    simp only [projectionFixtureCase, Json.asObject, Option.getD_some,
      stream.firstItem, stream.insert_collection]
  have kind := get?_spread_patch stream.ordered "reset" "kind"
  rw [if_pos rfl] at kind
  constructor
  · intro agrees
    have materialized := agrees _ _ generated
    by_contra present
    obtain ⟨own, held⟩ := Option.ne_none_iff_exists'.mp present
    rw [held, Option.some_or] at kind
    cases text : own.asStr with
    | none => exact materializePatch_no_kind kind text _ materialized
    | some name =>
        cases own with
        | string own =>
            obtain rfl := Option.some.inj text
            rw [materializePatch_kind kind] at materialized
            by_cases output : own = "output"
            · subst output
              obtain ⟨delta, sequence, textDelta, next, -, -, -, -, -, appended,
                same⟩ := stream.output_ok_iff.mp materialized
              have nexts := congrArg
                (fun members => Members.get? members collectionField)
                (Json.object.inj same)
              simp only [stream.collection,
                Members.get?_insert stream.ordered.nodup, if_true,
                Option.some.injEq, Json.array.injEq, List.cons.injEq,
                and_true] at nexts
              exact stream.append_ne appended nexts.symm
            · by_cases reset : own = "reset"
              · subst reset
                exact omitFields_ne (nodup_spread_patch "reset" members)
                  (List.mem_singleton_self "kind") held
                  (Json.object.inj (Except.ok.inj materialized))
              · unfold materializeKind materializeSequencedText at materialized
                dsimp only at materialized
                rw [if_neg reset, if_pos output] at materialized
                cases materialized
        | _ => cases text
  · intro absent patch expected case
    obtain ⟨rfl, rfl⟩ := Prod.mk.inj (Except.ok.inj (generated.symm.trans case))
    rw [absent, Option.none_or] at kind
    rw [materializePatch_kind kind]
    unfold materializeKind materializeSequencedText
    dsimp only
    rw [if_pos rfl, omitFields_spread_patch stream.ordered]
    intro field within
    rw [List.mem_singleton.mp within]
    exact (Members.get?_eq_none_iff _ _).mp absent

omit stream

/-- No record's field is an object read apart. -/
theorem isOther_object (identityField : String) (record : Members)
    (candidate : Json) :
    isOther identityField (.value (.object record)) candidate = true := by
  cases candidate with
  | object members =>
      rw [isOther]
      cases read : property members identityField with
      | value held => cases held <;> rfl
      | _ => rfl
  | _ => rfl

section OutputPatch

variable (patchIdentityField patchOutputField : String) (identity delta : Json)

theorem get?_outputPatch (name : String) :
    (((Members.insert [] "kind" (.string "output")).insert patchIdentityField
        identity).insert patchOutputField delta).get? name
      = if name = patchOutputField then some delta
        else if name = patchIdentityField then some identity
        else if name = "kind" then some (.string "output") else none := by
  have ordered : ((Members.insert [] "kind" (.string "output")).insert
      patchIdentityField identity).Ordered :=
    (Members.ordered_nil.insert _ _).insert _ _
  rw [Members.get?_insert ordered.nodup, get?_patch]

theorem get?_outputPatch_output :
    (((Members.insert [] "kind" (.string "output")).insert patchIdentityField
      identity).insert patchOutputField delta).get? patchOutputField
      = some delta := by
  rw [get?_outputPatch, if_pos rfl]

variable {patchIdentityField patchOutputField}

theorem get?_outputPatch_identity
    (apart : patchIdentityField ≠ patchOutputField) :
    (((Members.insert [] "kind" (.string "output")).insert patchIdentityField
      identity).insert patchOutputField delta).get? patchIdentityField
      = some identity := by
  rw [get?_outputPatch, if_neg apart, if_pos rfl]

theorem get?_outputPatch_kind (identity_apart : patchIdentityField ≠ "kind")
    (output_apart : patchOutputField ≠ "kind") :
    (((Members.insert [] "kind" (.string "output")).insert patchIdentityField
      identity).insert patchOutputField delta).get? "kind"
      = some (.string "output") := by
  rw [get?_outputPatch, if_neg output_apart.symm, if_neg identity_apart.symm,
    if_pos rfl]

end OutputPatch

include stream

/-- The output patch a prepared snapshot's fixture has. -/
theorem StreamSnapshot.output_case {identity : Json}
    (identified : item.get? itemIdentityField = some identity) :
    projectionFixtureCase "output" (.object members) changes
      (.sequencedText collectionField itemIdentityField patchIdentityField
        snapshotOutputField sequenceField textField patchOutputField
        deltaTextField)
      = .ok (((Members.insert [] "kind" (.string "output")).insert
            patchIdentityField identity).insert patchOutputField
              (.object ((Members.insert [] sequenceField (.number 1)).insert
                deltaTextField (.string "fixture"))),
          .object (members.insert collectionField (.array [.object
            (item.insert snapshotOutputField (.object
              ((Members.insert [] sequenceField (.number 1)).insert textField
                (.string "fixture"))))]))) := by
  have sequence : ((numberField (emptyOutput sequenceField textField)
      sequenceField).map fun sequence => sequence + 1).getD 1
      = (1 : Dyadic) := by
    rw [numberField, emptyOutput, get?_pair]
    by_cases same : sequenceField = textField
    · rw [if_pos same]
      rfl
    · rw [if_neg same, if_pos rfl]
      rfl
  have text : (strField (emptyOutput sequenceField textField)
      textField).getD "" = "" := by
    rw [strField, emptyOutput, get?_pair, if_pos rfl]
    rfl
  simp only [projectionFixtureCase, Json.asObject, Option.getD_some,
    stream.firstItem, stream.insert_collection, stream.output,
    Option.bind_some, sequence, text, identified, Members.insertSome,
    String.empty_append]

theorem stream_output_agrees_iff :
    KindAgrees spell (.sequencedText collectionField itemIdentityField
        patchIdentityField snapshotOutputField sequenceField textField
        patchOutputField deltaTextField) projection (.object members) changes
        "output"
      ↔ patchIdentityField ≠ "kind" ∧ patchOutputField ≠ "kind"
        ∧ patchIdentityField ≠ patchOutputField
        ∧ itemIdentityField ≠ snapshotOutputField
        ∧ sequenceField ≠ textField ∧ sequenceField ≠ deltaTextField := by
  obtain ⟨identity, identified, string_identity⟩ :
      ∃ identity, item.get? itemIdentityField = some identity
        ∧ (identity.asStr.isSome → identity = .string "fixture-id"
          ∧ itemIdentityField ≠ snapshotOutputField) := by
    by_cases same : itemIdentityField = snapshotOutputField
    · rw [same]
      exact ⟨_, stream.output, by simp [Json.asStr]⟩
    · exact ⟨_, stream.identity same, fun _ => ⟨rfl, same⟩⟩
  constructor
  · intro agrees
    have materialized := agrees _ _ (stream.output_case identified)
    have output_apart : patchOutputField ≠ "kind" := by
      rintro rfl
      exact materializePatch_no_kind (get?_outputPatch_output _ _ _ _) rfl _
        materialized
    have identity_apart : patchIdentityField ≠ "kind" := by
      rintro rfl
      have kind := get?_outputPatch_identity identity
        (.object ((Members.insert [] sequenceField (.number 1)).insert
          deltaTextField (.string "fixture"))) output_apart.symm
      cases text : identity.asStr with
      | none => exact materializePatch_no_kind kind text _ materialized
      | some name =>
          obtain ⟨rfl, -⟩ := string_identity (by rw [text]; rfl)
          rw [materializePatch_kind kind] at materialized
          unfold materializeKind materializeSequencedText at materialized
          dsimp only at materialized
          rw [if_neg (by decide), if_pos (by decide)] at materialized
          cases materialized
    rw [materializePatch_kind
      (get?_outputPatch_kind _ _ identity_apart output_apart)] at materialized
    obtain ⟨delta, sequence, textDelta, next, known, own, record, number, text,
      appended, same⟩ := stream.output_ok_iff.mp materialized
    rw [property_of_get? (get?_outputPatch_output _ _ _ _)] at record
    obtain rfl := Except.ok.inj record
    have fields_apart : patchIdentityField ≠ patchOutputField := by
      rintro rfl
      rw [property_of_get? (get?_outputPatch_output _ _ _ _),
        isOther_object] at own
      cases own
    rw [property_of_get? (get?_outputPatch_identity _ _ fields_apart)] at own
    have item_apart : itemIdentityField ≠ snapshotOutputField := by
      rintro rfl
      rw [stream.output] at identified
      obtain rfl := Option.some.inj identified
      rw [isOther_object] at own
      cases own
    refine ⟨identity_apart, output_apart, fields_apart, item_apart,
      (stream.append_ok_iff.mp appended).1, ?_⟩
    rintro rfl
    rw [property_of_get? ((get?_pair _ _ _ _ _).trans (if_pos rfl))] at number
    cases number
  · rintro ⟨identity_apart, output_apart, fields_apart, item_apart, text_apart,
      delta_apart⟩ patch expected case
    rw [stream.identity item_apart] at identified
    obtain rfl := Option.some.inj identified
    obtain ⟨rfl, rfl⟩ := Prod.mk.inj (Except.ok.inj
      ((stream.output_case (stream.identity item_apart)).symm.trans case))
    rw [materializePatch_kind
      (get?_outputPatch_kind _ _ identity_apart output_apart)]
    have known := property_of_get? (get?_outputPatch_identity
      (.string "fixture-id") (.object ((Members.insert [] sequenceField
        (.number 1)).insert deltaTextField (.string "fixture"))) fields_apart)
    have delta := property_of_get? (get?_outputPatch_output
      patchIdentityField patchOutputField (.string "fixture-id")
        (.object ((Members.insert [] sequenceField (.number 1)).insert
          deltaTextField (.string "fixture"))))
    refine stream.output_ok_iff.mpr
      ⟨(Members.insert [] sequenceField (.number 1)).insert deltaTextField
        (.string "fixture"), 1, "fixture", _, ?_, ?_, ?_, ?_, ?_,
        stream.append_ok_iff.mpr ⟨text_apart, rfl, rfl⟩, rfl⟩
    · rw [known]
      rfl
    · rw [known, isOther, property_of_get? (stream.identity item_apart)]
      simp [Property.strictlyEquals]
    · rw [delta]
      rfl
    · rw [property_of_get? ((get?_pair _ _ _ _ _).trans
        ((if_neg delta_apart).trans (if_pos rfl)))]
      have safe : isSafeInteger 1 = true := by decide
      simp only [requireInteger, safe, if_true]
    · rw [property_of_get? ((get?_pair _ _ _ _ _).trans (if_pos rfl))]
      rfl

end Sequenced

end Clerkenwell.Client
